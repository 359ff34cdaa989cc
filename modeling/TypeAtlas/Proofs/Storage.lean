import Mathlib.Data.List.Nodup
import TypeAtlas.Proofs.Arrival

/-!
# Records are stored as they are

A graph keeps its records in three places: the nodes, the index that leads from names to
nodes, and the map of the places that types were loaded from. What is asked about a record
later goes through one of them, so they have to agree all the time. `Population.Sourced`
says of the map of places what `Population.Indexed` says of the index: that it can be read
off the nodes. A node with a new name keeps it so, and hence so does filling.

`TypeGraph.Stores` is what this comes to for a graph: it has all records and no others,
each once and with nothing in it changed, whether or not the settings show it. The edges are
wired afterwards, from the filled population, and they are kept beside it.
-/

namespace TypeAtlas

namespace Population

variable {p q : Population}

/-- **The places are those of the records**: a name has the places that the record of the
name gives, and none if it gives none. -/
def Sourced (p : Population) : Prop :=
  ∀ (name : String) (places : List String),
    Entries.get? name p.origins = some places
      ↔ places ≠ [] ∧ ∃ r ∈ p.nodes.toList, r.name = name ∧ r.origins = places

theorem sourced_empty : ({} : Population).Sourced := by
  intro name places
  simp

/-- A new node has its places entered, if its record gives any. -/
theorem get?_origins_add (p : Population) (r : TypeRecord) (name : String) :
    Entries.get? name (p.add r).origins
      = if name = r.name ∧ r.origins ≠ [] then some r.origins
        else Entries.get? name p.origins := by
  unfold add
  by_cases hnone : r.origins = []
  · simp [hnone]
  · simp only [hnone, if_false, Entries.get?_set, ne_eq, not_false_eq_true, and_true]

/-- **A node with a new name keeps the places those of the records.** -/
theorem Sourced.add (h : p.Sourced) {r : TypeRecord}
    (hnew : ∀ s ∈ p.nodes.toList, s.name ≠ r.name) : (p.add r).Sourced := by
  intro name places
  have hold : ¬ ∃ s ∈ p.nodes.toList, s.name = r.name ∧ s.origins = places :=
    fun ⟨s, hs, hsame, _⟩ => hnew s hs hsame
  rw [get?_origins_add, toList_nodes_add]
  simp only [List.mem_append, List.mem_singleton, or_and_right, exists_or, exists_eq_left]
  split
  · next hset =>
    obtain ⟨rfl, hsome⟩ := hset
    rw [Option.some.injEq]
    constructor
    · rintro rfl
      exact ⟨hsome, .inr ⟨rfl, rfl⟩⟩
    · rintro ⟨hne, hs⟩
      exact (hs.resolve_left hold).2
  · next hkept =>
    rw [h name places]
    refine and_congr_right fun hne => ⟨Or.inl, fun hs => hs.resolve_right ?_⟩
    rintro ⟨rfl, rfl⟩
    exact hkept ⟨rfl, hne⟩

end Population

namespace TypeGraph

open TypeRecord

variable (g : TypeGraph)

/-! ## What a graph answers about its records -/

/-- The places of a graph are those of its records. -/
theorem sourced : g.Sourced :=
  Population.of_fill (fun _ _ h => h.add) Population.sourced_empty
    (by simpa [records] using g.distinct) g.filled

theorem origins?_eq_some_iff {name : String} {places : List String} :
    g.origins? name = some places
      ↔ places ≠ [] ∧ ∃ r, g.record? name = some r ∧ r.origins = places := by
  rw [origins?, g.sourced name places]
  refine and_congr_right fun _ => exists_congr fun r => ?_
  rw [g.record?_eq_some_iff, and_assoc]
  rfl

variable {g} in
/-- A type with a record has the places that the record gives, if it gives any. -/
theorem origins?_of_record? {name : String} {r : TypeRecord} (h : g.record? name = some r) :
    g.origins? name = if r.origins = [] then none else some r.origins := by
  split
  · next hnone =>
    rw [Option.eq_none_iff_forall_ne_some]
    intro places hplaces
    obtain ⟨hne, s, hs, rfl⟩ := g.origins?_eq_some_iff.1 hplaces
    obtain rfl : r = s := Option.some.inj (h.symm.trans hs)
    exact hne hnone
  · next hsome => exact g.origins?_eq_some_iff.2 ⟨hsome, r, h, rfl⟩

variable {g} in
/-- A type without a record has no places. -/
theorem origins?_eq_none {name : String} (h : g.record? name = none) :
    g.origins? name = none := by
  rw [Option.eq_none_iff_forall_ne_some]
  intro places hplaces
  obtain ⟨-, r, hr, -⟩ := g.origins?_eq_some_iff.1 hplaces
  exact absurd (h.symm.trans hr) nofun

/-- A graph contains the names of its records. -/
theorem contains_iff_exists_mem {name : String} :
    g.contains name = true ↔ ∃ r ∈ g.records, r.name = name := by
  rw [contains_iff]
  constructor
  · rintro ⟨i, rfl⟩
    exact ⟨g.record i, g.record_mem_records i, rfl⟩
  · rintro ⟨r, hr, rfl⟩
    obtain ⟨i, rfl⟩ := g.mem_records.1 hr
    exact ⟨i, rfl⟩

/-- Records are listed in the order of the nodes, with the external ones or without them. -/
theorem allRecords_eq_filter (includeExternal : Bool) :
    g.allRecords includeExternal = g.records.filter fun r => includeExternal || !r.isExternal :=
  arrange_eq_self (g.ascending.filter _)

/-- All records are listed in the order of the nodes. -/
theorem allRecords_true : g.allRecords true = g.records := by
  rw [allRecords_eq_filter, List.filter_eq_self.2 fun _ _ => Bool.true_or _]

/-- Without the external ones, the others are listed in the same order. -/
theorem allRecords_false : g.allRecords false = g.records.filter fun r => !r.isExternal :=
  g.allRecords_eq_filter false

/-! ## Storing -/

/-- **A graph stores some records**: all of them and no others, as they are. -/
structure Stores (g : TypeGraph) (records : List TypeRecord) : Prop where
  /-- There are as many nodes as records. -/
  recordCount : g.recordCount = records.length
  /-- A name is in the graph if a record has it. -/
  contains : ∀ name, g.contains name = true ↔ ∃ r ∈ records, r.name = name
  /-- What is found under a name is the record of the name, as it was handed over. -/
  record? : ∀ name r, g.record? name = some r ↔ r ∈ records ∧ r.name = name
  /-- The index leads from a name to a number exactly if the node with the number has the
  name. -/
  indexed : ∀ (name : String) (i : Nat),
    Entries.get? name g.index = some i ↔ g.nodes[i]?.map (·.name) = some name
  /-- So a node is found by its name, and by no other. -/
  node? : ∀ name (i : g.Node), g.node? name = some i ↔ g.name i = name
  /-- All records are listed, each once. -/
  perm_allRecords : (g.allRecords true).Perm records
  /-- They are listed in strictly ascending order of their names. -/
  pairwise_allRecords : (g.allRecords true).Pairwise fun a b => a.name < b.name
  /-- Without the external ones, the others are listed in the same order. -/
  allRecords_false :
    g.allRecords false = (g.allRecords true).filter fun r => !r.isExternal
  /-- The places of a type are those that its record gives, in their order. -/
  origins? : ∀ r ∈ records, g.origins? r.name = if r.origins = [] then none else some r.origins
  /-- What has no record was loaded from nowhere. -/
  origins?_eq_none : ∀ name, (∀ r ∈ records, r.name ≠ name) → g.origins? name = none
  /-- The nodes and both maps are what the arranged records have filled, before there are
  any edges. -/
  filled : Population.fill (arrange records) {} = some g.toPopulation
  /-- The edges are wired from them. -/
  wired : g.edges = g.toPopulation.wire

variable {g} in
/-- A graph stores the records that are arranged in it. -/
theorem stores_of_records_eq {records : List TypeRecord} (h : g.records = arrange records) :
    g.Stores records := by
  have hmem : ∀ r, r ∈ g.records ↔ r ∈ records := fun r => by rw [h, mem_arrange]
  have hperm : (g.allRecords true).Perm records := by
    rw [allRecords_true, h]
    exact perm_arrange records
  have hrecord : ∀ name r, g.record? name = some r ↔ r ∈ records ∧ r.name = name :=
    fun name r => by rw [record?_eq_some_iff, hmem]
  exact {
    recordCount := by
      rw [← hperm.length_eq, allRecords_true]
      rfl
    contains := fun name => by simp only [contains_iff_exists_mem, hmem]
    record? := hrecord
    indexed := g.indexed
    node? := fun _ _ => g.node?_eq_some_iff
    perm_allRecords := hperm
    pairwise_allRecords := by
      rw [allRecords_true]
      exact g.ascending
    allRecords_false := by rw [g.allRecords_false, g.allRecords_true]
    origins? := fun r hr => origins?_of_record? ((hrecord r.name r).2 ⟨hr, rfl⟩)
    origins?_eq_none := fun name hnone => by
      refine origins?_eq_none (Option.eq_none_iff_forall_ne_some.2 fun r hr => ?_)
      obtain ⟨hmem, hname⟩ := (hrecord name r).1 hr
      exact hnone r hmem hname
    filled := h ▸ g.filled
    wired := g.wired }

/-- **Records that are accepted are stored without loss, duplication or change**, in
whatever order and form they arrive. -/
theorem exists_stores {settings : ScanSettings} {records : List TypeRecord}
    (hvalid : settings.isValid = true) (h : Accepted records) :
    ∃ g : TypeGraph, g.IsGraphOf settings records ∧ g.Stores records := by
  obtain ⟨g, hgraph, -, -⟩ := exists_isGraphOf hvalid h
  obtain ⟨g', hg', -, hrecords⟩ := exists_ofRecords hvalid h.distinct h.named
  obtain rfl : g = g' := Except.ok.inj (hgraph.ofRecords_eq.symm.trans hg')
  exact ⟨g, hgraph, stores_of_records_eq hrecords⟩

/-- The den comes from an archive and the fox from nowhere; a wolf has no record. -/
theorem exists_stores_den :
    ∃ g : TypeGraph, ofRecords {} den = .ok g ∧ ofEntries {} (keyed den) = .ok g
      ∧ g.recordCount = 3 ∧ g.record? "Fox" = some den[0] ∧ g.contains "Wolf" = false
      ∧ g.origins? "Den" = some ["den.jar"] ∧ g.origins? "Fox" = none
      ∧ g.origins? "Wolf" = none := by
  obtain ⟨g, hgraph, hstores⟩ := @exists_stores {} den (by decide) (by decide)
  refine ⟨g, hgraph.ofRecords_eq, hgraph.2 _ (.refl _), hstores.recordCount,
    (hstores.record? _ _).2 (by decide), ?_, hstores.origins? den[1] (by decide),
    hstores.origins? den[0] (by decide), hstores.origins?_eq_none _ (by decide)⟩
  rw [← Bool.not_eq_true, hstores.contains]
  decide

end TypeGraph

end TypeAtlas
