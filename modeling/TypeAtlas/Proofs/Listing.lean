import TypeAtlas.Proofs.Tagging

/-!
# What qualifies for a listing

The listings of a graph are of three forms: all types, the types of a kind, and the
answers to questions about a name. Each of them takes two decisions about a name, and
takes them apart from each other. Whether the name *qualifies* is a matter of the records
and of the paths between them; whether it is *shown* is a matter of the settings. A
listing holds what qualifies and is shown (`mem_names`), so hidden types may well stand
on the way to a name that is listed.

What qualifies depends on the records alone, and it stays so when there are more of them:
an edge between two records is theirs, whatever else has a record, so edges, paths and
routes are kept (`Qualifies.mono`).
-/

namespace TypeAtlas

/-- **A listing of a graph.** -/
inductive Listing where
  /-- All types. -/
  | all
  /-- The types of a kind. -/
  | ofKind (kind : TypeKind)
  /-- The answer to a question about a name. -/
  | answer (q : Question) (name : String)

namespace TypeGraph

variable {g g' : TypeGraph}

/-- The names in a listing. -/
def names (g : TypeGraph) : Listing → List String
  | .all => g.allNames
  | .ofKind kind => g.namesOfKind kind
  | .answer q name => g.answer q name

/-- **A name qualifies for a listing**, whether or not it is shown there. -/
def Qualifies (g : TypeGraph) : Listing → String → Prop
  | .all, m => ∃ r, g.record? m = some r
  | .ofKind kind, m => ∃ r, g.record? m = some r ∧ r.kind = kind
  | .answer q x, m =>
    match q with
    | .subclasses => m ≠ x ∧ Relation.TransGen (g.Leads .extendsClass .incoming) x m
    | .superclasses => m ≠ x ∧ Relation.TransGen (g.Leads .extendsClass .outgoing) x m
    | .subinterfaces => m ≠ x ∧ Relation.TransGen (g.Leads .extendsInterface .incoming) x m
    | .superinterfaces => m ≠ x ∧ Relation.TransGen (g.Leads .extendsInterface .outgoing) x m
    | .implementing => g.Route m x
    | .withTag => g.Carries .taggedBy m x
    | .tagsOn => m ≠ x ∧ (g.Carries .taggedBy x m ∨ g.Carries .metaTaggedBy x m)
    | .metaTagsOn => m ≠ x ∧ Relation.TransGen (g.Leads .metaTaggedBy .outgoing) x m
    | .withMetaTag => m ≠ x ∧ Relation.TransGen (g.Leads .metaTaggedBy .incoming) x m
    | .withRoutineTag => ∃ r, g.record? m = some r ∧ r.Declares .routineTaggedBy x
    | .withAttributeTag => ∃ r, g.record? m = some r ∧ r.Declares .attributeTaggedBy x

/-- **A listing holds the names that are shown and qualify.** -/
theorem mem_names {l : Listing} {m : String} :
    m ∈ g.names l ↔ g.Shows m ∧ g.Qualifies l m := by
  have hclosure : ∀ {k d x}, m ∈ g.closure k d x
      ↔ g.Shows m ∧ m ≠ x ∧ Relation.TransGen (g.Leads k d) x m := by
    intro k d x
    rw [mem_closure]
    exact ⟨fun ⟨hne, hpath, hshows⟩ => ⟨hshows, hne, hpath⟩,
      fun ⟨hshows, hne, hpath⟩ => ⟨hne, hpath, hshows⟩⟩
  cases l with
  | all =>
    refine mem_collectNames.trans (and_congr_right fun _ => ⟨?_, ?_⟩)
    · rintro ⟨i, -, rfl⟩
      exact ⟨_, g.record?_eq_some_iff.2 ⟨g.record_mem_records i, rfl⟩⟩
    · rintro ⟨r, hr⟩
      obtain ⟨hmem, rfl⟩ := g.record?_eq_some_iff.1 hr
      obtain ⟨i, rfl⟩ := g.mem_records.1 hmem
      exact ⟨i, List.mem_finRange i, rfl⟩
  | ofKind kind =>
    refine (mem_collectNames_filter fun r => r.kind = kind).trans ?_
    simp only [decide_eq_true_eq]
    rfl
  | answer q x =>
    cases q with
    | implementing => exact mem_implementing
    | withTag => exact mem_withTag
    | tagsOn =>
      refine mem_tagsOn.trans ?_
      rw [and_left_comm]
      rfl
    | withRoutineTag => exact mem_withRoutineTag
    | withAttributeTag => exact mem_withAttributeTag
    | subclasses | superclasses | subinterfaces | superinterfaces | metaTagsOn | withMetaTag =>
      exact hclosure

/-- Every listing is strictly ascending. -/
theorem pairwise_names (g : TypeGraph) (l : Listing) : (g.names l).Pairwise (· < ·) := by
  cases l with
  | all => exact pairwise_collectNames _
  | ofKind kind => exact pairwise_collectNames _
  | answer q x =>
    cases q with
    | implementing => exact pairwise_implementing g x
    | withTag => exact pairwise_withTag g x
    | tagsOn => exact pairwise_tagsOn g x
    | withRoutineTag | withAttributeTag => exact pairwise_collectNames _
    | subclasses | superclasses | subinterfaces | superinterfaces | metaTagsOn | withMetaTag =>
      exact pairwise_closure _ _ x

/-! ## More records -/

section Mono

variable (hsub : ∀ r ∈ g.records, r ∈ g'.records)

include hsub

theorem record?_mono {m : String} {r : TypeRecord} (h : g.record? m = some r) :
    g'.record? m = some r := by
  obtain ⟨hr, hname⟩ := g.record?_eq_some_iff.1 h
  exact g'.record?_eq_some_iff.2 ⟨hsub r hr, hname⟩

/-- **An edge is kept** when there are more records: both its ends have the same record
as before. -/
theorem HasEdge.mono {a b : String} {k : RelationKind} (h : g.HasEdge a k b) :
    g'.HasEdge a k b := by
  obtain ⟨e, he, rfl, rfl, rfl⟩ := h
  exact (hasEdge_iff (hsub _ (g.record_mem_records e.carrier))
    (hsub _ (g.record_mem_records e.target))).2 (g.mem_edges.1 he)

theorem Leads.mono {k : RelationKind} {d : Direction} : g.Leads k d ≤ g'.Leads k d := by
  intro a b h
  cases d with
  | outgoing => exact HasEdge.mono hsub h
  | incoming => exact HasEdge.mono hsub h

theorem Carries.mono {k : RelationKind} {x t : String} (h : g.Carries k x t) :
    g'.Carries k x t := by
  obtain ⟨u, hedge, hpath⟩ := h
  exact ⟨u, hedge.mono hsub, Relation.ReflTransGen.mono (Leads.mono hsub) _ _ hpath⟩

theorem Route.mono {c i : String} (h : g.Route c i) : g'.Route c i := by
  obtain ⟨c', i', hup, hedge, hinto⟩ := h
  exact ⟨c', i', Relation.ReflTransGen.mono (Leads.mono hsub) _ _ hup, hedge.mono hsub,
    Relation.ReflTransGen.mono (Leads.mono hsub) _ _ hinto⟩

/-- **What qualifies still qualifies when there are more records.** -/
theorem Qualifies.mono {l : Listing} {m : String} (h : g.Qualifies l m) :
    g'.Qualifies l m := by
  cases l with
  | all =>
    obtain ⟨r, hr⟩ := h
    exact ⟨r, record?_mono hsub hr⟩
  | ofKind kind =>
    obtain ⟨r, hr, hkind⟩ := h
    exact ⟨r, record?_mono hsub hr, hkind⟩
  | answer q x =>
    cases q with
    | implementing => exact Route.mono hsub h
    | withTag => exact Carries.mono hsub h
    | tagsOn => exact ⟨h.1, h.2.imp (Carries.mono hsub) (Carries.mono hsub)⟩
    | withRoutineTag | withAttributeTag =>
      obtain ⟨r, hr, hdeclares⟩ := h
      exact ⟨r, record?_mono hsub hr, hdeclares⟩
    | subclasses | superclasses | subinterfaces | superinterfaces | metaTagsOn | withMetaTag =>
      exact ⟨h.1, Relation.TransGen.mono (Leads.mono hsub) _ _ h.2⟩

end Mono

end TypeGraph

end TypeAtlas
