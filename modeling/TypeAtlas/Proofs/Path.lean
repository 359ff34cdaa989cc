import TypeAtlas.Graph.Listing
import TypeAtlas.Proofs.Walk
import TypeAtlas.Proofs.Wiring

/-!
# Paths between names

A walk goes from node to node, and its answer is a list of names. Since a node of a graph
is as good as its name, both can be said of names alone: `HasEdge` is an edge from a name
to a name, `Leads` a step along a relation in one of its directions, and a walk from some
nodes meets exactly the nodes to whose names a path of such steps leads (`mem_reach`).

What is shown is a separate matter: `collectNames` picks out the names that the settings
show from whatever nodes it is given (`mem_collectNames`), so hidden types stand in the
way of no path.
-/

namespace TypeAtlas.TypeGraph

variable (g : TypeGraph)

/-- **An edge of a relation leads from a name to a name.** -/
def HasEdge (a : String) (k : RelationKind) (b : String) : Prop :=
  ∃ e ∈ g.edges, g.name e.carrier = a ∧ e.relation = k ∧ g.name e.target = b

/-- **A step along a relation**, in the direction of its edges or against it. -/
def Leads (k : RelationKind) (d : Direction) (a b : String) : Prop :=
  match d with
  | .outgoing => g.HasEdge a k b
  | .incoming => g.HasEdge b k a

/-- **A name is shown**: it has a record, is not the root type, and is not external unless
the settings expose external types. -/
def Shows (name : String) : Prop :=
  name ≠ g.settings.rootType
    ∧ ∃ r, g.record? name = some r
      ∧ (r.isExternal = false ∨ g.settings.enableExternalTypes = true)

variable {g}

/-- **Between records, an edge is a declared relation.** -/
theorem hasEdge_iff {a b : TypeRecord} {k : RelationKind} (ha : a ∈ g.records)
    (hb : b ∈ g.records) : g.HasEdge a.name k b.name ↔ a.Relates k b := by
  constructor
  · rintro ⟨e, he, hcarrier, rfl, htarget⟩
    rw [← g.eq_of_name_eq (g.record_mem_records e.carrier) ha hcarrier,
      ← g.eq_of_name_eq (g.record_mem_records e.target) hb htarget]
    exact g.mem_edges.1 he
  · intro hrelates
    obtain ⟨i, rfl⟩ := g.mem_records.1 ha
    obtain ⟨j, rfl⟩ := g.mem_records.1 hb
    exact ⟨⟨i, k, j⟩, g.mem_edges.2 hrelates, rfl, rfl, rfl⟩

/-- The ends of an edge have records, of kinds that the relation connects. -/
theorem HasEdge.exists_records {a b : String} {k : RelationKind} (h : g.HasEdge a k b) :
    ∃ r s, g.record? a = some r ∧ g.record? b = some s ∧ k.fits r.kind s.kind = true := by
  obtain ⟨e, he, rfl, rfl, rfl⟩ := h
  exact ⟨_, _, g.record?_eq_some_iff.2 ⟨g.record_mem_records e.carrier, rfl⟩,
    g.record?_eq_some_iff.2 ⟨g.record_mem_records e.target, rfl⟩, (g.mem_edges.1 he).2⟩

/-- What an edge leads to has a node. -/
theorem HasEdge.exists_target {a b : String} {k : RelationKind} (h : g.HasEdge a k b) :
    ∃ j : g.Node, g.name j = b := by
  obtain ⟨e, -, -, -, hname⟩ := h
  exact ⟨e.target, hname⟩

/-- A step between names is a step between their nodes. -/
theorem Leads.exists_nodes {k : RelationKind} {d : Direction} {a b : String}
    (h : g.Leads k d a b) :
    ∃ i j : g.Node, g.name i = a ∧ g.name j = b ∧ j ∈ g.neighbours k d i := by
  cases d with
  | outgoing =>
    obtain ⟨e, he, rfl, rfl, rfl⟩ := h
    exact ⟨e.carrier, e.target, rfl, rfl, g.mem_neighbours.2 he⟩
  | incoming =>
    obtain ⟨e, he, rfl, rfl, rfl⟩ := h
    exact ⟨e.target, e.carrier, rfl, rfl, g.mem_neighbours.2 he⟩

theorem leads_of_mem_neighbours {k : RelationKind} {d : Direction} {i j : g.Node}
    (h : j ∈ g.neighbours k d i) : g.Leads k d (g.name i) (g.name j) := by
  have hjoins := g.mem_neighbours.1 h
  cases d with
  | outgoing => exact ⟨_, hjoins, rfl, rfl, rfl⟩
  | incoming => exact ⟨_, hjoins, rfl, rfl, rfl⟩

/-- Neighbours are the nodes to whose names a step leads. -/
theorem mem_neighbours_iff {k : RelationKind} {d : Direction} {i j : g.Node} :
    j ∈ g.neighbours k d i ↔ g.Leads k d (g.name i) (g.name j) := by
  refine ⟨leads_of_mem_neighbours, fun h => ?_⟩
  obtain ⟨l, m, hl, hm, hmem⟩ := h.exists_nodes
  rwa [g.name_injective hl, g.name_injective hm] at hmem

/-- **A path of names is a path of nodes**, from a node of the first name to one of the
last. -/
theorem exists_node_of_path {k : RelationKind} {d : Direction} {i : g.Node} {b : String}
    (h : Relation.ReflTransGen (g.Leads k d) (g.name i) b) :
    ∃ j : g.Node, g.name j = b
      ∧ Relation.ReflTransGen (fun i j => j ∈ g.neighbours k d i) i j := by
  -- a name has one node, so the next step leaves from the node where the last one arrived
  induction h with
  | refl => exact ⟨i, rfl, .refl⟩
  | tail _ hstep ih =>
    obtain ⟨j, rfl, hpath⟩ := ih
    obtain ⟨l, m, hname, rfl, hmem⟩ := hstep.exists_nodes
    obtain rfl := g.name_injective hname
    exact ⟨m, rfl, hpath.tail hmem⟩

/-- **A walk meets the nodes to whose names a path leads** from the name of a seed. -/
theorem mem_reach {k : RelationKind} {d : Direction} {seeds : List g.Node} {j : g.Node} :
    j ∈ g.reach k d seeds
      ↔ ∃ i ∈ seeds, Relation.ReflTransGen (g.Leads k d) (g.name i) (g.name j) := by
  rw [reach, Walk.mem_reach]
  refine exists_congr fun i => and_congr_right fun _ => ⟨fun h => ?_, fun h => ?_⟩
  · exact h.lift g.name fun _ _ => leads_of_mem_neighbours
  · obtain ⟨l, hname, hpath⟩ := exists_node_of_path h
    rwa [g.name_injective hname] at hpath

/-- Going against a relation is going along it the other way round. -/
theorem path_incoming_iff {k : RelationKind} {a b : String} :
    Relation.ReflTransGen (g.Leads k .incoming) a b
      ↔ Relation.ReflTransGen (g.Leads k .outgoing) b a :=
  Relation.reflTransGen_swap

/-- The node of a name is shown exactly if the name is. -/
theorem shows_name {i : g.Node} :
    g.Shows (g.name i) ↔ (!g.isRoot i && g.isVisible i) = true := by
  have hrecord : g.record? (g.name i) = some (g.record i) :=
    g.record?_eq_some_iff.2 ⟨g.record_mem_records i, rfl⟩
  simp [Shows, hrecord, isRoot, isVisible, or_comm]

/-- **What is collected from some nodes is their shown names.** -/
theorem mem_collectNames {nodes : List g.Node} {name : String} :
    name ∈ g.collectNames nodes ↔ g.Shows name ∧ ∃ i ∈ nodes, g.name i = name := by
  rw [collectNames, NameList.mem_ofList, List.mem_map]
  constructor
  · rintro ⟨i, hi, rfl⟩
    obtain ⟨hmem, hshown⟩ := List.mem_filter.1 hi
    exact ⟨shows_name.2 hshown, i, hmem, rfl⟩
  · rintro ⟨hshows, i, hmem, rfl⟩
    exact ⟨i, List.mem_filter.2 ⟨hmem, shows_name.1 hshows⟩, rfl⟩

/-- What is collected from the nodes whose records pass a test. -/
theorem mem_collectNames_filter (test : TypeRecord → Bool) {name : String} :
    name ∈ g.collectNames (g.allNodes.filter fun i => test (g.record i))
      ↔ g.Shows name ∧ ∃ r, g.record? name = some r ∧ test r = true := by
  rw [mem_collectNames]
  refine and_congr_right fun _ => ⟨?_, ?_⟩
  · rintro ⟨i, hi, rfl⟩
    exact ⟨g.record i, g.record?_eq_some_iff.2 ⟨g.record_mem_records i, rfl⟩,
      (List.mem_filter.1 hi).2⟩
  · rintro ⟨r, hr, htest⟩
    obtain ⟨hmem, rfl⟩ := g.record?_eq_some_iff.1 hr
    obtain ⟨i, rfl⟩ := g.mem_records.1 hmem
    exact ⟨i, List.mem_filter.2 ⟨List.mem_finRange i, htest⟩, rfl⟩

theorem pairwise_collectNames (nodes : List g.Node) :
    (g.collectNames nodes).Pairwise (· < ·) :=
  NameList.pairwise_ofList _

/-- **Some named records, no two of one name, have a graph** that finds each of them by
its name, and has an edge wherever one of them relates to another. -/
theorem exists_hasEdge_of_relates {settings : ScanSettings} {records : List TypeRecord}
    (hvalid : settings.isValid = true)
    (hdistinct : records.Pairwise fun a b => a.name ≠ b.name)
    (hnamed : ∀ r ∈ records, r.name ≠ "") :
    ∃ g : TypeGraph, ofRecords settings records = .ok g ∧ g.settings = settings
      ∧ (∀ name, g.contains name = true ↔ name ∈ records.map (·.name))
      ∧ (∀ r ∈ records, g.record? r.name = some r)
      ∧ ∀ a ∈ records, ∀ b ∈ records, ∀ k, a.Relates k b → g.HasEdge a.name k b.name := by
  obtain ⟨g, hg, hsettings, hrecords⟩ := exists_ofRecords hvalid hdistinct hnamed
  have hmem : ∀ r, r ∈ g.records ↔ r ∈ records := fun r => by
    rw [hrecords, TypeRecord.mem_arrange]
  refine ⟨g, hg, hsettings, fun name => ?_, fun r hr => ?_, fun a ha b hb k => ?_⟩
  · rw [g.contains_iff, List.mem_map]
    constructor
    · rintro ⟨i, rfl⟩
      exact ⟨g.record i, (hmem _).1 (g.record_mem_records i), rfl⟩
    · rintro ⟨r, hr, rfl⟩
      obtain ⟨i, rfl⟩ := g.mem_records.1 ((hmem r).2 hr)
      exact ⟨i, rfl⟩
  · exact g.record?_eq_some_iff.2 ⟨(hmem r).2 hr, rfl⟩
  · exact (hasEdge_iff ((hmem a).2 ha) ((hmem b).2 hb)).2

end TypeAtlas.TypeGraph
