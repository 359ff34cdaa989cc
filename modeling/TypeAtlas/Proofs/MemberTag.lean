import TypeAtlas.Proofs.Tagging

/-!
# Tags on members, by the records and by the edges

Which types have a tag on a routine or on an attribute can be found out in two ways. The
questions go through all records and compare the names of the tags on their members; the
edges were wired when the graph was built, from the declared names, by the index, and only
to records that are tags. Where the name is that of a tag, every declaration of it became an
edge, and so the two ways agree (`answer_memberTags`): the question is answered with what is
one edge away, less what the settings hide.

Nothing is said of the carriers. Classes, interfaces and tags have members alike, and a tag
may well be on a member of its own.
-/

namespace TypeAtlas.TypeGraph

/-- **Whether the settings show a record**: it is not the root type, and it is not external
unless the settings enable external types. -/
def exposes (g : TypeGraph) (r : TypeRecord) : Bool :=
  r.name ≠ g.settings.rootType && (g.settings.enableExternalTypes || !r.isExternal)

variable {g : TypeGraph}

/-- The name of a record is shown exactly if the record is. -/
theorem shows_iff_exposes {r : TypeRecord} (hr : r ∈ g.records) :
    g.Shows r.name ↔ g.exposes r = true := by
  have hrecord : g.record? r.name = some r := g.record?_eq_some_iff.2 ⟨hr, rfl⟩
  simp [Shows, hrecord, exposes, or_comm]

/-- The carriers of a record are among all records in their order. -/
theorem direct_incoming_eq_filter {k : RelationKind} {t : TypeRecord} (ht : t ∈ g.records) :
    g.direct t.name k .incoming = g.records.filter fun r => r.Relates k t := by
  have hasymm : Std.Asymm fun a b : TypeRecord => a.name < b.name :=
    ⟨fun _ _ => String.lt_asymm⟩
  refine (g.pairwise_direct _ _ _).eq_of_mem_iff (g.ascending.filter _) fun r => ?_
  rw [g.mem_direct_incoming ht, List.mem_filter, decide_eq_true_eq]

/-- The names of the shown records one edge away are strictly ascending. -/
theorem pairwise_exposed_direct (name : String) (k : RelationKind) (d : Direction) :
    (((g.direct name k d).filter g.exposes).map (·.name)).Pairwise (· < ·) :=
  List.pairwise_map.2 ((g.pairwise_direct name k d).filter _)

/-- **A relation that leads to a record from every kind is found by its declarations.** A
listing of the shown names that declare it is what is shown of the records one edge
away. -/
theorem eq_exposed_direct {k : RelationKind} {t : TypeRecord} {names : List String}
    (ht : t ∈ g.records) (hfits : ∀ kind, k.fits kind t.kind = true)
    (hascending : names.Pairwise (· < ·))
    (hnames : ∀ n, n ∈ names
      ↔ g.Shows n ∧ ∃ r, g.record? n = some r ∧ r.Declares k t.name) :
    names = ((g.direct t.name k .incoming).filter g.exposes).map (·.name) := by
  refine hascending.eq_of_mem_iff (pairwise_exposed_direct _ _ _) fun n => ?_
  rw [hnames, List.mem_map]
  constructor
  · rintro ⟨hshows, r, hr, hdeclares⟩
    obtain ⟨hmem, rfl⟩ := g.record?_eq_some_iff.1 hr
    have hdirect : r ∈ g.direct t.name k .incoming :=
      (g.mem_direct_incoming ht).2 ⟨hmem, hdeclares, hfits r.kind⟩
    exact ⟨r, List.mem_filter.2 ⟨hdirect, (shows_iff_exposes hmem).1 hshows⟩, rfl⟩
  · rintro ⟨r, hr, rfl⟩
    obtain ⟨hdirect, hexposes⟩ := List.mem_filter.1 hr
    obtain ⟨hmem, hdeclares, -⟩ := (g.mem_direct_incoming ht).1 hdirect
    exact ⟨(shows_iff_exposes hmem).2 hexposes, r, g.record?_eq_some_iff.2 ⟨hmem, rfl⟩,
      hdeclares⟩

/-- **The questions about tags on members agree with the edges.** About a tag that has a
record, each of the two is answered with the names of the records one edge away from it,
against the relation that goes from the types to the tags on such members, and with nothing
left out but the root type and the external types that are not exposed. -/
theorem answer_memberTags {t : TypeRecord} (ht : t ∈ g.records) (htag : t.kind = .tag) :
    g.answer .withRoutineTag t.name
        = ((g.direct t.name .routineTaggedBy .incoming).filter g.exposes).map (·.name)
      ∧ g.answer .withAttributeTag t.name
        = ((g.direct t.name .attributeTaggedBy .incoming).filter g.exposes).map (·.name) := by
  have hroutine : ∀ kind, RelationKind.routineTaggedBy.fits kind t.kind = true := fun _ => by
    rw [htag]
    rfl
  have hattribute : ∀ kind, RelationKind.attributeTaggedBy.fits kind t.kind = true := fun _ => by
    rw [htag]
    rfl
  exact ⟨eq_exposed_direct ht hroutine (pairwise_collectNames _) fun _ => mem_withRoutineTag,
    eq_exposed_direct ht hattribute (pairwise_collectNames _) fun _ => mem_withAttributeTag⟩

/-- A tag on a routine of its own. -/
def ward : TypeRecord :=
  { name := "Ward", kind := .tag,
    routines := [{ name := "seal", result := ⟨"void"⟩, tags := [{ name := "Ward" }] }] }

/-- The tag is on a class twice, on an external class, on itself, and on an interface by a
parameter alone. -/
def gatehouse : List TypeRecord :=
  [{ name := "Chain", kind := .standard, isExternal := true,
     routines := [{ name := "lift", result := ⟨"void"⟩, tags := [{ name := "Ward" }] }] },
   { name := "Gate", kind := .standard,
     attributes := [{ name := "bars", signature := ⟨"int"⟩, tags := [{ name := "Ward" }] }],
     routines := [
       { name := "open", result := ⟨"void"⟩, tags := [{ name := "Ward" }, { name := "Ward" }] },
       { name := "shut", result := ⟨"void"⟩, tags := [{ name := "Ward" }] }] },
   { name := "Lock", kind := .interface,
     routines := [{ name := "turn", result := ⟨"void"⟩,
                    parameters := [{ signature := ⟨"Key"⟩, tags := [{ name := "Ward" }] }] }] },
   ward]

theorem answer_memberTags_gatehouse :
    ∃ g : TypeGraph, ofRecords {} gatehouse = .ok g
      ∧ (g.direct "Ward" .routineTaggedBy .incoming).map (·.name) = ["Chain", "Gate", "Ward"]
      ∧ g.answer .withRoutineTag "Ward" = ["Gate", "Ward"]
      ∧ g.answer .withAttributeTag "Ward" = ["Gate"] := by
  obtain ⟨g, hg, hsettings, hrecords⟩ :=
    @exists_ofRecords {} gatehouse (by decide) (by decide) (by decide)
  rw [TypeRecord.arrange_eq_self (by decide)] at hrecords
  have hward : ward ∈ g.records := by
    rw [hrecords]
    decide
  have hdirect : ∀ k, g.direct "Ward" k .incoming = gatehouse.filter fun r => r.Relates k ward :=
    fun k => hrecords ▸ direct_incoming_eq_filter hward
  have hexposes : g.exposes = fun r => r.name ≠ "java.lang.Object" && !r.isExternal := by
    funext r
    rw [exposes, hsettings]
    rfl
  obtain ⟨hroutine, hattribute⟩ := answer_memberTags hward rfl
  rw [hexposes, show ward.name = "Ward" from rfl, hdirect] at hroutine hattribute
  refine ⟨g, hg, ?_, hroutine.trans (by decide), hattribute.trans (by decide)⟩
  rw [hdirect]
  decide

end TypeAtlas.TypeGraph
