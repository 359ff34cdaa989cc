import TypeAtlas.Proofs.Tagging

/-!
# Questions about names without a record

A name may be asked about that no record of the graph has. Nine of the questions look
for the node of the name before anything else and answer with nothing when there is
none. The two questions about tags on members go through the records instead and compare
tag names as they are written, and a record may name a tag that was never scanned. So
they answer with the types that name it, and with nothing exactly if no shown type does.
-/

namespace TypeAtlas.TypeGraph

variable {g : TypeGraph}

theorem node?_eq_none_of_not_contains {x : String} (h : g.contains x = false) :
    g.node? x = none :=
  g.node?_eq_none_iff.2 fun i hname => by
    rw [g.contains_iff.2 ⟨i, hname⟩] at h
    cases h

/-- A listing of the shown records that declare something is empty exactly if none of
them declares it. -/
theorem eq_nil_iff_forall_not_declares {names : List String} {k : RelationKind} {x : String}
    (h : ∀ n, n ∈ names ↔ g.Shows n ∧ ∃ r, g.record? n = some r ∧ r.Declares k x) :
    names = [] ↔ ∀ r ∈ g.records, g.Shows r.name → ¬ r.Declares k x := by
  rw [List.eq_nil_iff_forall_not_mem]
  constructor
  · exact fun hnil r hr hshows hdeclares => hnil r.name
      ((h r.name).2 ⟨hshows, r, g.record?_eq_some_iff.2 ⟨hr, rfl⟩, hdeclares⟩)
  · intro hnot n hn
    obtain ⟨hshows, r, hr, hdeclares⟩ := (h n).1 hn
    obtain ⟨hmem, rfl⟩ := g.record?_eq_some_iff.1 hr
    exact hnot r hmem hshows hdeclares

/-- **What is answered about a name without a record**: nothing, but for the questions
about tags on members, which are answered with nothing exactly if no shown type names it
on a member of that kind. -/
theorem answer_of_not_contains {x : String} (h : g.contains x = false) :
    (∀ q, q ≠ .withRoutineTag → q ≠ .withAttributeTag → g.answer q x = [])
      ∧ (g.answer .withRoutineTag x = []
        ↔ ∀ r ∈ g.records, g.Shows r.name → ¬ r.Declares .routineTaggedBy x)
      ∧ (g.answer .withAttributeTag x = []
        ↔ ∀ r ∈ g.records, g.Shows r.name → ¬ r.Declares .attributeTaggedBy x) := by
  have hnone : g.node? x = none := node?_eq_none_of_not_contains h
  refine ⟨fun q hroutine hattribute => ?_,
    eq_nil_iff_forall_not_declares fun _ => mem_withRoutineTag,
    eq_nil_iff_forall_not_declares fun _ => mem_withAttributeTag⟩
  cases q with
  | withRoutineTag => exact absurd rfl hroutine
  | withAttributeTag => exact absurd rfl hattribute
  | implementing => simp only [answer, implementing, hnone]
  | withTag => simp only [answer, withTag, hnone]
  | tagsOn => simp only [answer, tagsOn, hnone]
  | subclasses | superclasses | subinterfaces | superinterfaces | metaTagsOn | withMetaTag =>
    simp only [answer, closure, hnone]

/-- A type with a tag on a routine that has no record. -/
def stray : List TypeRecord :=
  [{ name := "Dog", kind := .standard,
     routines := [{ name := "bark", result := ⟨"void"⟩, tags := [{ name := "Cat" }] }] }]

theorem exists_ofRecords_stray :
    ∃ g : TypeGraph, ofRecords {} stray = .ok g ∧ g.contains "Cat" = false
      ∧ stray[0] ∈ g.records ∧ g.Shows "Dog" := by
  obtain ⟨g, hg, hsettings, hcontains, hrecord, -⟩ :=
    @exists_hasEdge_of_relates {} stray (by decide) (by decide) (by decide)
  have hdog : g.record? "Dog" = some stray[0] := hrecord stray[0] (by decide)
  refine ⟨g, hg, Bool.eq_false_iff.2 fun h => absurd ((hcontains "Cat").1 h) (by decide),
    (g.record?_eq_some_iff.1 hdog).1, ?_, stray[0], hdog, .inl rfl⟩
  rw [hsettings]
  decide

theorem answer_of_not_contains_stray :
    ∃ g : TypeGraph, ofRecords {} stray = .ok g ∧ g.contains "Cat" = false
      ∧ g.answer .withTag "Cat" = [] ∧ g.answer .withRoutineTag "Cat" ≠ [] := by
  obtain ⟨g, hg, habsent, hdog, hshows⟩ := exists_ofRecords_stray
  obtain ⟨hnine, hroutine, -⟩ := answer_of_not_contains habsent
  refine ⟨g, hg, habsent, hnine .withTag (by decide) (by decide), fun hnil => ?_⟩
  exact hroutine.1 hnil stray[0] hdog hshows (by decide)

/-- **A name without a record may have an answer**: the type that names it on a
routine. -/
theorem exists_answer_ne_nil_of_not_contains :
    ∃ g : TypeGraph, ofRecords {} stray = .ok g ∧ g.contains "Cat" = false
      ∧ "Dog" ∈ g.answer .withRoutineTag "Cat" := by
  obtain ⟨g, hg, habsent, hdog, hshows⟩ := exists_ofRecords_stray
  refine ⟨g, hg, habsent, mem_withRoutineTag.2 ⟨hshows, stray[0], ?_, by decide⟩⟩
  exact g.record?_eq_some_iff.2 ⟨hdog, rfl⟩

end TypeAtlas.TypeGraph
