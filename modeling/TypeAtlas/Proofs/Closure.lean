import TypeAtlas.Proofs.Path

/-!
# What the questions of hierarchy are answered with

Six of the questions ask for the closure of one relation in one direction, and one
composes two closures around a single step. Their answers are walks, filtered; here they
are said in terms of paths between names, where nothing is left of queues and nodes.

A path may run through external types and through the root type, and it may come back to
where it began. Only the names at its end are filtered: the answer shows neither the name
asked about nor what the settings hide.
-/

namespace TypeAtlas.TypeGraph

variable {g : TypeGraph}

/-! ## Closures of one relation -/

/-- **A list is the closure of a name** under a relation in a direction: it is strictly
ascending, and holds the other names that are shown and that a path leads to. -/
def IsClosure (g : TypeGraph) (k : RelationKind) (d : Direction) (x : String)
    (names : List String) : Prop :=
  names.Pairwise (· < ·)
    ∧ ∀ m, m ∈ names ↔ m ≠ x ∧ Relation.TransGen (g.Leads k d) x m ∧ g.Shows m

theorem mem_closure {k : RelationKind} {d : Direction} {x m : String} :
    m ∈ g.closure k d x ↔ m ≠ x ∧ Relation.TransGen (g.Leads k d) x m ∧ g.Shows m := by
  unfold closure
  split
  · next hnone =>
    constructor
    · exact fun h => absurd h List.not_mem_nil
    · rintro ⟨-, hpath, -⟩
      obtain ⟨y, hstep, -⟩ := Relation.TransGen.head'_iff.1 hpath
      obtain ⟨i, -, hname, -, -⟩ := hstep.exists_nodes
      exact absurd hname (g.node?_eq_none_iff.1 hnone i)
  · next start hsome =>
    obtain rfl : g.name start = x := g.node?_eq_some_iff.1 hsome
    rw [mem_collectNames]
    constructor
    · rintro ⟨hshows, j, hj, rfl⟩
      -- the walk meets its seed by the empty path, which the filter takes out again
      obtain ⟨hreach, hne⟩ := List.mem_filter.1 hj
      obtain ⟨i, hi, hpath⟩ := mem_reach.1 hreach
      obtain rfl := List.mem_singleton.1 hi
      have hname : g.name j ≠ g.name i :=
        fun heq => absurd (g.name_injective heq) (of_decide_eq_true hne)
      exact ⟨hname, (Relation.reflTransGen_iff_eq_or_transGen.1 hpath).resolve_left hname,
        hshows⟩
    · rintro ⟨hname, hpath, hshows⟩
      obtain ⟨j, rfl, -⟩ := exists_node_of_path hpath.to_reflTransGen
      refine ⟨hshows, j, List.mem_filter.2 ⟨?_, ?_⟩, rfl⟩
      · exact mem_reach.2 ⟨start, List.mem_singleton_self start, hpath.to_reflTransGen⟩
      · exact decide_eq_true fun heq => hname (heq ▸ rfl)

theorem pairwise_closure (k : RelationKind) (d : Direction) (x : String) :
    (g.closure k d x).Pairwise (· < ·) := by
  unfold closure
  split
  · exact List.Pairwise.nil
  · exact pairwise_collectNames _

theorem isClosure_closure (g : TypeGraph) (k : RelationKind) (d : Direction) (x : String) :
    g.IsClosure k d x (g.closure k d x) :=
  ⟨pairwise_closure k d x, fun _ => mem_closure⟩

/-- **Each question about one hierarchy is answered with a closure** of its relation:
against the edges for what stands below a type, along them for what stands above. -/
theorem isClosure_answer (g : TypeGraph) (x : String) :
    g.IsClosure .extendsClass .incoming x (g.answer .subclasses x)
      ∧ g.IsClosure .extendsClass .outgoing x (g.answer .superclasses x)
      ∧ g.IsClosure .extendsInterface .incoming x (g.answer .subinterfaces x)
      ∧ g.IsClosure .extendsInterface .outgoing x (g.answer .superinterfaces x)
      ∧ g.IsClosure .metaTaggedBy .outgoing x (g.answer .metaTagsOn x)
      ∧ g.IsClosure .metaTaggedBy .incoming x (g.answer .withMetaTag x) :=
  ⟨isClosure_closure g _ _ x, isClosure_closure g _ _ x, isClosure_closure g _ _ x,
    isClosure_closure g _ _ x, isClosure_closure g _ _ x, isClosure_closure g _ _ x⟩

/-! ## The classes that implement an interface -/

/-- **A route from a class to an interface**: up from the class along its superclasses,
over to an interface that one of them implements, and up from there along its
superinterfaces. Either way up may be empty. -/
def Route (g : TypeGraph) (c i : String) : Prop :=
  ∃ c' i', Relation.ReflTransGen (g.Leads .extendsClass .outgoing) c c'
    ∧ g.HasEdge c' .implementsInterface i'
    ∧ Relation.ReflTransGen (g.Leads .extendsInterface .outgoing) i' i

/-- Every route begins at a standard type. -/
theorem Route.kind_eq_standard {c i : String} (h : g.Route c i) :
    ∃ r, g.record? c = some r ∧ r.kind = .standard := by
  obtain ⟨c', i', hup, hedge, -⟩ := h
  -- the first edge of the route leaves from the class, whichever of the two kinds it is
  rcases Relation.ReflTransGen.cases_head hup with rfl | ⟨b, hstep, -⟩
  · obtain ⟨r, s, hr, -, hfits⟩ := hedge.exists_records
    exact ⟨r, hr, (by simpa [RelationKind.fits] using hfits : _ ∧ _).1⟩
  · obtain ⟨r, s, hr, -, hfits⟩ := HasEdge.exists_records hstep
    exact ⟨r, hr, (by simpa [RelationKind.fits] using hfits : _ ∧ _).1⟩

/-- Every route ends at an interface. -/
theorem Route.kind_eq_interface {c i : String} (h : g.Route c i) :
    ∃ r, g.record? i = some r ∧ r.kind = .interface := by
  obtain ⟨c', i', -, hedge, hup⟩ := h
  rcases Relation.ReflTransGen.cases_tail hup with rfl | ⟨b, -, hstep⟩
  · obtain ⟨r, s, -, hs, hfits⟩ := hedge.exists_records
    exact ⟨s, hs, (by simpa [RelationKind.fits] using hfits : _ ∧ _).2⟩
  · obtain ⟨r, s, -, hs, hfits⟩ := HasEdge.exists_records hstep
    exact ⟨s, hs, (by simpa [RelationKind.fits] using hfits : _ ∧ _).2⟩

/-- **The classes that implement an interface are the shown names with a route to it.** -/
theorem mem_implementing {c i : String} :
    c ∈ g.implementing i ↔ g.Shows c ∧ g.Route c i := by
  unfold implementing
  split
  · next hnone =>
    constructor
    · exact fun h => absurd h List.not_mem_nil
    · rintro ⟨-, hroute⟩
      obtain ⟨r, hr, -⟩ := hroute.kind_eq_interface
      rw [record?, hnone] at hr
      cases hr
  · next start hsome =>
    obtain rfl : g.name start = i := g.node?_eq_some_iff.1 hsome
    rw [mem_collectNames]
    refine and_congr_right fun _ => ⟨?_, fun hroute => ?_⟩
    · rintro ⟨j, hj, rfl⟩
      obtain ⟨s, hs, hdown⟩ := mem_reach.1 (List.mem_filter.1 hj).1
      obtain ⟨t, ht, hst⟩ := List.mem_flatMap.1 hs
      obtain ⟨l, hl, hfrom⟩ := mem_reach.1 ht
      obtain rfl := List.mem_singleton.1 hl
      exact ⟨g.name s, g.name t, path_incoming_iff.1 hdown, leads_of_mem_neighbours hst,
        path_incoming_iff.1 hfrom⟩
    · obtain ⟨r, hr, hstandard⟩ := hroute.kind_eq_standard
      obtain ⟨c', i', hup, hedge, hinto⟩ := hroute
      -- the walk goes the route backwards: down from the interface, over, and down again
      obtain ⟨t, rfl, -⟩ := exists_node_of_path (path_incoming_iff.2 hinto)
      obtain ⟨u, s, hname, rfl, hst⟩ :=
        Leads.exists_nodes (k := .implementsInterface) (d := .incoming) hedge
      obtain rfl := g.name_injective hname
      obtain ⟨j, rfl, -⟩ := exists_node_of_path (path_incoming_iff.2 hup)
      refine ⟨j, List.mem_filter.2 ⟨?_, ?_⟩, rfl⟩
      · have ht := mem_reach.2 ⟨start, List.mem_singleton_self start, path_incoming_iff.2 hinto⟩
        exact mem_reach.2 ⟨s, List.mem_flatMap.2 ⟨u, ht, hst⟩, path_incoming_iff.2 hup⟩
      · have hrecord : g.record j = r := g.eq_of_name_eq (g.record_mem_records j)
          (g.record?_eq_some_iff.1 hr).1 (g.record?_eq_some_iff.1 hr).2.symm
        exact decide_eq_true (hrecord ▸ hstandard)

theorem pairwise_implementing (g : TypeGraph) (i : String) :
    (g.implementing i).Pairwise (· < ·) := by
  unfold implementing
  split
  · exact List.Pairwise.nil
  · exact pairwise_collectNames _

/-- **The classes that implement an interface** are answered in strictly ascending order,
each once however many routes lead from it to the interface. All of them are standard
types, and a record that is no interface has none. -/
theorem mem_answer_implementing (g : TypeGraph) (i : String) :
    (g.answer .implementing i).Pairwise (· < ·)
      ∧ (∀ c, c ∈ g.answer .implementing i ↔ g.Shows c ∧ g.Route c i)
      ∧ (∀ c ∈ g.answer .implementing i, ∃ r, g.record? c = some r ∧ r.kind = .standard)
      ∧ ∀ r, g.record? i = some r → r.kind ≠ .interface → g.answer .implementing i = [] := by
  have hmem : ∀ c, c ∈ g.answer .implementing i ↔ g.Shows c ∧ g.Route c i :=
    fun _ => mem_implementing
  refine ⟨pairwise_implementing g i, hmem, fun c hc => ((hmem c).1 hc).2.kind_eq_standard,
    fun r hr hkind => List.eq_nil_iff_forall_not_mem.2 fun c hc => ?_⟩
  obtain ⟨s, hs, hinterface⟩ := ((hmem c).1 hc).2.kind_eq_interface
  exact hkind (Option.some.inj (hr.symm.trans hs) ▸ hinterface)

/-- A class below a class that implements an interface below an interface. -/
def pond : List TypeRecord :=
  [{ name := "Mallard", kind := .standard, superclass := some "Duck" },
   { name := "Duck", kind := .standard, interfaces := ["Swimmer"] },
   { name := "Swimmer", kind := .interface, superinterfaces := ["Flyer"] },
   { name := "Flyer", kind := .interface }]

theorem mem_answer_implementing_pond :
    ∃ g : TypeGraph, ofRecords {} pond = .ok g
      ∧ "Mallard" ∈ g.answer .implementing "Flyer"
      ∧ g.answer .implementing "Duck" = [] := by
  obtain ⟨g, hg, hsettings, hrecords⟩ :=
    @exists_ofRecords {} pond (by decide) (by decide) (by decide)
  have hmem : ∀ r ∈ pond, r ∈ g.records := fun r hr => by
    rwa [hrecords, TypeRecord.mem_arrange]
  have hedge : ∀ a ∈ pond, ∀ b ∈ pond, ∀ k, a.Relates k b → g.HasEdge a.name k b.name :=
    fun a ha b hb k => (hasEdge_iff (hmem a ha) (hmem b hb)).2
  have hroute : g.Route "Mallard" "Flyer" :=
    ⟨"Duck", "Swimmer",
      .single (hedge pond[0] (by decide) pond[1] (by decide) .extendsClass (by decide)),
      hedge pond[1] (by decide) pond[2] (by decide) .implementsInterface (by decide),
      .single (hedge pond[2] (by decide) pond[3] (by decide) .extendsInterface (by decide))⟩
  have hshows : g.Shows "Mallard" :=
    ⟨by rw [hsettings]; decide, pond[0],
      g.record?_eq_some_iff.2 ⟨hmem pond[0] (by decide), rfl⟩, .inl rfl⟩
  refine ⟨g, hg, ?_, ?_⟩
  · exact ((mem_answer_implementing g "Flyer").2.1 "Mallard").2 ⟨hshows, hroute⟩
  · exact (mem_answer_implementing g "Duck").2.2.2 pond[1]
      (g.record?_eq_some_iff.2 ⟨hmem pond[1] (by decide), rfl⟩) (by decide)

end TypeAtlas.TypeGraph
