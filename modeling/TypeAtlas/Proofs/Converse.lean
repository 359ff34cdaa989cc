import Mathlib.Logic.Basic
import TypeAtlas.Proofs.Tagging

/-!
# Questions that are each other's converse

Most questions come in pairs. One asks from below what the other asks from above, so of
two types that are both shown, the one is in the answer about the other exactly if the
other is in the answer about the one. The two walks begin at different nodes and go in
opposite directions, but a path read backwards is a path against the edges
(`mem_closure_incoming_iff`), whichever hidden types it runs through and however often it
comes round a cycle.

The tags on a type have two converses. What carries a tag is listed among the types with
the tag if it is no tag itself, and among the tags with it if it is one, and a type is
never listed in both places.
-/

namespace TypeAtlas.TypeGraph

variable {g : TypeGraph} {a t : String}

/-! ## Closures -/

/-- Against a relation, a path that is not empty is one along it the other way round. -/
theorem transGen_incoming_iff {k : RelationKind} :
    Relation.TransGen (g.Leads k .incoming) t a
      ↔ Relation.TransGen (g.Leads k .outgoing) a t :=
  Relation.transGen_swap

/-- **The two directions of a closure are converse** on names that are shown. -/
theorem mem_closure_incoming_iff {k : RelationKind} (ha : g.Shows a) (ht : g.Shows t) :
    a ∈ g.closure k .incoming t ↔ t ∈ g.closure k .outgoing a := by
  rw [mem_closure, mem_closure, transGen_incoming_iff]
  constructor
  · rintro ⟨hne, hpath, -⟩
    exact ⟨hne.symm, hpath, ht⟩
  · rintro ⟨hne, hpath, -⟩
    exact ⟨hne.symm, hpath, ha⟩

/-! ## Tags -/

/-- Only tags carry tags by the relation between tags. -/
theorem Carries.kind_eq_tag (h : g.Carries .metaTaggedBy a t) :
    ∃ r, g.record? a = some r ∧ r.kind = .tag := by
  obtain ⟨u, hedge, -⟩ := h
  obtain ⟨r, s, hr, -, hfits⟩ := hedge.exists_records
  exact ⟨r, hr, (by simpa [RelationKind.fits] using hfits : _ ∧ _).1⟩

/-- Where an edge of a relation to tags leads, there is a tag. -/
theorem HasEdge.kind_target_eq_tag {k : RelationKind} (hk : k = .taggedBy ∨ k = .metaTaggedBy)
    (h : g.HasEdge a k t) : ∃ r, g.record? t = some r ∧ r.kind = .tag := by
  obtain ⟨r, s, -, hs, hfits⟩ := h.exists_records
  refine ⟨s, hs, ?_⟩
  rcases hk with rfl | rfl <;> exact (by simpa [RelationKind.fits] using hfits : _ ∧ _).2

/-- What a type carries is a tag. -/
theorem Carries.kind_target_eq_tag (h : g.Carries .taggedBy a t) :
    ∃ r, g.record? t = some r ∧ r.kind = .tag := by
  obtain ⟨u, hedge, hpath⟩ := h
  -- the last edge leads to a tag, whether it is the first one or goes from tag to tag
  rcases Relation.ReflTransGen.cases_tail hpath with rfl | ⟨v, -, hstep⟩
  · exact hedge.kind_target_eq_tag (.inl rfl)
  · exact HasEdge.kind_target_eq_tag (.inr rfl) hstep

/-- No type is its own tag. -/
theorem Carries.ne (h : g.Carries .taggedBy a t) : t ≠ a := by
  rintro rfl
  obtain ⟨r, hr, hkind⟩ := h.kind_ne_tag
  obtain ⟨s, hs, htag⟩ := h.kind_target_eq_tag
  exact hkind (Option.some.inj (hr.symm.trans hs) ▸ htag)

/-- **The tags with a tag** are the other shown names that carry it between tags. -/
theorem mem_closure_metaTaggedBy :
    a ∈ g.closure .metaTaggedBy .incoming t
      ↔ t ≠ a ∧ g.Carries .metaTaggedBy a t ∧ g.Shows a := by
  rw [mem_closure, transGen_incoming_iff, carries_metaTaggedBy_iff, ne_comm]

/-- **No type is listed both among the types and among the tags with a tag.** -/
theorem disjoint_withTag (g : TypeGraph) (t : String) :
    (g.withTag t).Disjoint (g.closure .metaTaggedBy .incoming t) := by
  intro a htype hmeta
  obtain ⟨r, hr, hkind⟩ := (mem_withTag.1 htype).2.kind_ne_tag
  obtain ⟨s, hs, htag⟩ := (mem_closure_metaTaggedBy.1 hmeta).2.1.kind_eq_tag
  exact hkind (Option.some.inj (hr.symm.trans hs) ▸ htag)

/-- **A tag is on a type** exactly if the type is listed in one of the two places. -/
theorem mem_tagsOn_iff (ha : g.Shows a) (ht : g.Shows t) :
    t ∈ g.tagsOn a ↔ a ∈ g.withTag t ∨ a ∈ g.closure .metaTaggedBy .incoming t := by
  rw [mem_tagsOn, mem_withTag, mem_closure_metaTaggedBy]
  constructor
  · rintro ⟨hne, -, hcarries | hcarries⟩
    · exact .inl ⟨ha, hcarries⟩
    · exact .inr ⟨hne, hcarries, ha⟩
  · rintro (⟨-, hcarries⟩ | ⟨hne, hcarries, -⟩)
    · exact ⟨hcarries.ne, ht, .inl hcarries⟩
    · exact ⟨hne, ht, .inr hcarries⟩

/-! ## The answers -/

/-- **Of two shown types, the one is in the answer about the other exactly if the other is
in the converse answer about the one.** The tags on a type are converse to two answers
that have no name in common. -/
theorem mem_answer_converse (ha : g.Shows a) (ht : g.Shows t) :
    (a ∈ g.answer .subclasses t ↔ t ∈ g.answer .superclasses a)
      ∧ (a ∈ g.answer .subinterfaces t ↔ t ∈ g.answer .superinterfaces a)
      ∧ (a ∈ g.answer .withMetaTag t ↔ t ∈ g.answer .metaTagsOn a)
      ∧ (t ∈ g.answer .tagsOn a
        ↔ Xor (a ∈ g.answer .withTag t) (a ∈ g.answer .withMetaTag t))
      ∧ (g.answer .withTag t).Disjoint (g.answer .withMetaTag t) := by
  have hdisjoint : (g.answer .withTag t).Disjoint (g.answer .withMetaTag t) :=
    disjoint_withTag g t
  refine ⟨mem_closure_incoming_iff ha ht, mem_closure_incoming_iff ha ht,
    mem_closure_incoming_iff ha ht, ?_, hdisjoint⟩
  have hor : t ∈ g.answer .tagsOn a ↔ a ∈ g.answer .withTag t ∨ a ∈ g.answer .withMetaTag t :=
    mem_tagsOn_iff ha ht
  rw [hor, xor_iff_or_and_not_and]
  exact ⟨fun h => ⟨h, fun hboth => hdisjoint hboth.1 hboth.2⟩, And.left⟩

/-- Three classes on a cycle, one of them external, and a tag whose tag is tagged. -/
def aviary : List TypeRecord :=
  [{ name := "Hawk", kind := .standard, superclass := some "Raptor",
     tags := [{ name := "Wild" }] },
   { name := "Raptor", kind := .standard, isExternal := true, superclass := some "Bird" },
   { name := "Bird", kind := .standard, superclass := some "Hawk" },
   { name := "Wild", kind := .tag, tags := [{ name := "Rare" }] },
   { name := "Rare", kind := .tag, isExternal := true, tags := [{ name := "Noted" }] },
   { name := "Noted", kind := .tag, tags := [{ name := "Wild" }] }]

theorem mem_answer_converse_aviary :
    ∃ g : TypeGraph, ofRecords {} aviary = .ok g
      ∧ g.Shows "Hawk" ∧ g.Shows "Bird" ∧ g.Shows "Wild" ∧ g.Shows "Noted"
      ∧ "Hawk" ∈ g.answer .subclasses "Bird" ∧ "Bird" ∈ g.answer .superclasses "Hawk"
      ∧ "Wild" ∈ g.answer .withMetaTag "Noted" ∧ "Noted" ∈ g.answer .metaTagsOn "Wild"
      ∧ "Hawk" ∈ g.answer .withTag "Noted" ∧ "Noted" ∈ g.answer .tagsOn "Hawk" := by
  obtain ⟨g, hg, hsettings, -, hrecord, hedge⟩ :=
    @exists_hasEdge_of_relates {} aviary (by decide) (by decide) (by decide)
  have hshows : ∀ r ∈ aviary, r.isExternal = false → r.name ≠ "java.lang.Object" →
      g.Shows r.name := fun r hr hexternal hname =>
    ⟨by rwa [hsettings], r, hrecord r hr, .inl hexternal⟩
  have hhawk : g.Shows "Hawk" := hshows aviary[0] (by decide) rfl (by decide)
  have hbird : g.Shows "Bird" := hshows aviary[2] (by decide) rfl (by decide)
  have hwild : g.Shows "Wild" := hshows aviary[3] (by decide) rfl (by decide)
  have hnoted : g.Shows "Noted" := hshows aviary[5] (by decide) rfl (by decide)
  have hup : Relation.TransGen (g.Leads .extendsClass .outgoing) "Hawk" "Bird" :=
    .tail (.single (hedge aviary[0] (by decide) aviary[1] (by decide) .extendsClass (by decide)))
      (hedge aviary[1] (by decide) aviary[2] (by decide) .extendsClass (by decide))
  have htags : Relation.TransGen (g.Leads .metaTaggedBy .outgoing) "Wild" "Noted" :=
    .tail (.single (hedge aviary[3] (by decide) aviary[4] (by decide) .metaTaggedBy (by decide)))
      (hedge aviary[4] (by decide) aviary[5] (by decide) .metaTaggedBy (by decide))
  have hcarries : g.Carries .taggedBy "Hawk" "Noted" :=
    ⟨"Wild", hedge aviary[0] (by decide) aviary[3] (by decide) .taggedBy (by decide),
      htags.to_reflTransGen⟩
  have hsuper : "Bird" ∈ g.answer .superclasses "Hawk" := mem_closure.2 ⟨by decide, hup, hbird⟩
  have hmeta : "Noted" ∈ g.answer .metaTagsOn "Wild" := mem_closure.2 ⟨by decide, htags, hnoted⟩
  have hwith : "Hawk" ∈ g.answer .withTag "Noted" := mem_withTag.2 ⟨hhawk, hcarries⟩
  refine ⟨g, hg, hhawk, hbird, hwild, hnoted, ?_, hsuper, ?_, hmeta, hwith, ?_⟩
  · exact (mem_answer_converse hhawk hbird).1.2 hsuper
  · exact (mem_answer_converse hwild hnoted).2.2.1.2 hmeta
  · obtain ⟨-, -, -, hxor, hdisjoint⟩ := mem_answer_converse hhawk hnoted
    exact hxor.2 (.inl ⟨hwith, fun hboth => hdisjoint hwith hboth⟩)

end TypeAtlas.TypeGraph
