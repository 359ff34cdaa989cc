import TypeAtlas.Graph.Build

/-!
# The nodes of a population and their names

The index of a population is filled while the nodes are added, and it has to stay the
inverse of the nodes all the time: an entry that is overwritten, or that is missing,
would send every later look-up elsewhere. `Population.Indexed` says that it is, adding a
node with a new name keeps it so (`Indexed.add`), and hence so does filling (`of_fill`).

A graph has the records of its population in strictly ascending order, so no name comes
twice, and the index of a graph is the inverse of its nodes. From then on a node is as
good as its name: `node?_eq_some_iff` is what later proofs use of the index.
-/

namespace TypeAtlas

namespace Population

variable {p q : Population}

/-- **The index is the inverse of the nodes**: it leads from a name to a number exactly
if the node with the number has the name. -/
def Indexed (p : Population) : Prop :=
  ∀ (name : String) (i : Nat),
    Entries.get? name p.index = some i ↔ p.nodes[i]?.map (·.name) = some name

theorem indexed_empty : ({} : Population).Indexed := by
  intro name i
  simp

/-- **A node with a new name keeps the index the inverse of the nodes.** -/
theorem Indexed.add (h : p.Indexed) {r : TypeRecord}
    (hnew : ∀ s ∈ p.nodes.toList, s.name ≠ r.name) : (p.add r).Indexed := by
  intro name i
  -- only the last node has the new name, and only the entry of that name is written
  have hold : p.nodes[i]?.map (·.name) ≠ some r.name := by
    intro hsome
    obtain ⟨s, hs, hname⟩ := Option.map_eq_some_iff.1 hsome
    exact hnew s (Array.mem_toList_iff.2 (Array.mem_of_getElem? hs)) hname
  simp only [Population.add, Entries.get?_set, Array.getElem?_push]
  by_cases hi : i = p.nodes.size
  · have hnone : Entries.get? name p.index ≠ some p.nodes.size := by
      rw [Ne, h name p.nodes.size]
      simp
    by_cases hname : name = r.name
    · simp [hi, hname]
    · simp [hi, hname, hnone, Ne.symm hname]
  · by_cases hname : name = r.name
    · subst hname
      simp [hi, hold, Ne.symm hi]
    · simp only [hi, hname, if_false]
      exact h name i

/-- **What adding a node with a new name keeps, filling keeps**, as long as no name comes
twice. -/
theorem of_fill {P : Population → Prop}
    (hadd : ∀ (p : Population) (r : TypeRecord), P p → (∀ s ∈ p.nodes.toList, s.name ≠ r.name) →
      P (p.add r))
    {records : List TypeRecord} (h : P p)
    (hdistinct : (p.nodes.toList ++ records).Pairwise fun a b => a.name ≠ b.name)
    (hfill : fill records p = some q) : P q := by
  induction records generalizing p with
  | nil =>
    obtain rfl : p = q := by simpa [fill] using hfill
    exact h
  | cons r rest ih =>
    unfold fill at hfill
    split at hfill
    · cases hfill
    · refine ih (hadd p r h fun s hs => ?_) ?_ hfill
      · exact (List.pairwise_append.1 hdistinct).2.2 s hs r List.mem_cons_self
      · rwa [toList_nodes_add, List.append_assoc, List.singleton_append]

/-- Filling keeps the index the inverse of the nodes. -/
theorem Indexed.of_fill {records : List TypeRecord} (h : p.Indexed)
    (hdistinct : (p.nodes.toList ++ records).Pairwise fun a b => a.name ≠ b.name)
    (hfill : fill records p = some q) : q.Indexed :=
  Population.of_fill (fun _ _ h => h.add) h hdistinct hfill

/-- **Records that all have a name make up a population.** -/
theorem exists_fill {records : List TypeRecord} (h : ∀ r ∈ records, r.name ≠ "")
    (p : Population) : ∃ q, fill records p = some q := by
  induction records generalizing p with
  | nil => exact ⟨p, rfl⟩
  | cons r rest ih =>
    unfold fill
    rw [if_neg (h r List.mem_cons_self)]
    exact ih (fun s hs => h s (List.mem_cons_of_mem r hs)) (p.add r)

theorem named_of_fill {records : List TypeRecord} (h : fill records p = some q) :
    ∀ r ∈ records, r.name ≠ "" := by
  induction records generalizing p with
  | nil => exact fun r hr => absurd hr List.not_mem_nil
  | cons r rest ih =>
    unfold fill at h
    split at h
    · cases h
    · next hname => exact List.forall_mem_cons.2 ⟨hname, ih h⟩

/-- Where the index is the inverse of the nodes, it finds the node of a name. -/
theorem Indexed.node?_eq_some_iff (h : p.Indexed) {name : String} {i : p.Node} :
    p.node? name = some i ↔ p.name i = name := by
  have hat : p.nodes[i.val]?.map (·.name) = some (p.name i) := by
    rw [Array.getElem?_eq_getElem i.isLt]
    rfl
  constructor
  · intro hfind
    obtain ⟨j, hj, hif⟩ := Option.bind_eq_some_iff.1 hfind
    split at hif
    · obtain rfl : (⟨j, _⟩ : p.Node) = i := Option.some.inj hif
      exact Option.some.inj (hat.symm.trans ((h name j).1 hj))
    · cases hif
  · intro hname
    have hget : Entries.get? name p.index = some i.val := (h name i).2 (hname ▸ hat)
    rw [node?, hget, Option.bind_some, dif_pos i.isLt]

end Population

namespace TypeGraph

variable (g : TypeGraph)

/-- No two records of a graph have the same name. -/
theorem distinct : g.records.Pairwise fun a b => a.name ≠ b.name :=
  g.ascending.imp fun {a b} hlt (heq : a.name = b.name) => String.lt_irrefl _ (heq ▸ hlt)

/-- Every record of a graph has a name. -/
theorem named : ∀ r ∈ g.records, r.name ≠ "" := Population.named_of_fill g.filled

/-- **The index of a graph is the inverse of its nodes.** -/
theorem indexed : g.Indexed :=
  Population.indexed_empty.of_fill (by simpa [records] using g.distinct) g.filled

/-- **A node is found by its name**, and nothing else is. -/
theorem node?_eq_some_iff {name : String} {i : g.Node} :
    g.node? name = some i ↔ g.name i = name :=
  g.indexed.node?_eq_some_iff

@[simp] theorem node?_name (i : g.Node) : g.node? (g.name i) = some i :=
  g.node?_eq_some_iff.2 rfl

/-- Nodes of one name are one node. -/
theorem name_injective {i j : g.Node} (h : g.name i = g.name j) : i = j :=
  Option.some.inj ((g.node?_name i).symm.trans (h ▸ g.node?_name j))

theorem node?_eq_none_iff {name : String} :
    g.node? name = none ↔ ∀ i : g.Node, g.name i ≠ name := by
  rw [Option.eq_none_iff_forall_ne_some]
  exact forall_congr' fun i => not_congr g.node?_eq_some_iff

theorem mem_records {r : TypeRecord} : r ∈ g.records ↔ ∃ i : g.Node, g.record i = r := by
  rw [records, Array.mem_toList_iff, Array.mem_iff_getElem]
  exact ⟨fun ⟨i, hi, hr⟩ => ⟨⟨i, hi⟩, hr⟩, fun ⟨i, hr⟩ => ⟨i, i.isLt, hr⟩⟩

theorem record_mem_records (i : g.Node) : g.record i ∈ g.records :=
  g.mem_records.2 ⟨i, rfl⟩

theorem record_injective {i j : g.Node} (h : g.record i = g.record j) : i = j :=
  g.name_injective (congrArg TypeRecord.name h)

/-- Records of a graph that have the same name are the same. -/
theorem eq_of_name_eq {a b : TypeRecord} (ha : a ∈ g.records) (hb : b ∈ g.records)
    (hname : a.name = b.name) : a = b := by
  obtain ⟨i, rfl⟩ := g.mem_records.1 ha
  obtain ⟨j, rfl⟩ := g.mem_records.1 hb
  rw [g.name_injective hname]

/-- The node of a record, by the name of the record. -/
theorem node?_of_mem_records {r : TypeRecord} (h : r ∈ g.records) :
    ∃ i : g.Node, g.node? r.name = some i ∧ g.record i = r := by
  obtain ⟨i, rfl⟩ := g.mem_records.1 h
  exact ⟨i, g.node?_name i, rfl⟩

/-- **A record is found by its name**, and nothing else is. -/
theorem record?_eq_some_iff {name : String} {r : TypeRecord} :
    g.record? name = some r ↔ r ∈ g.records ∧ r.name = name := by
  rw [record?, Option.map_eq_some_iff]
  constructor
  · rintro ⟨i, hi, rfl⟩
    exact ⟨g.record_mem_records i, g.node?_eq_some_iff.1 hi⟩
  · rintro ⟨hr, rfl⟩
    exact g.node?_of_mem_records hr

theorem contains_iff {name : String} :
    g.contains name = true ↔ ∃ i : g.Node, g.name i = name := by
  rw [contains, Option.isSome_iff_exists]
  constructor
  · rintro ⟨j, hj⟩
    obtain ⟨r, hr, hname⟩ := Option.map_eq_some_iff.1 ((g.indexed name j).1 hj)
    obtain ⟨hlt, rfl⟩ := Array.getElem?_eq_some_iff.1 hr
    exact ⟨⟨j, hlt⟩, hname⟩
  · rintro ⟨i, rfl⟩
    refine ⟨i.val, (g.indexed _ _).2 ?_⟩
    rw [Array.getElem?_eq_getElem i.isLt]
    rfl

/-- What fills a population makes up a graph, if it is strictly ascending. -/
theorem exists_assemble (settings : ScanSettings) {records : List TypeRecord}
    {p : Population} (h : records.Pairwise fun a b => a.name < b.name)
    (hfill : Population.fill records {} = some p) :
    ∃ g : TypeGraph, assemble settings records h = .ok g ∧ g.settings = settings
      ∧ g.records = records := by
  unfold assemble
  split
  · next hnone => cases hnone.symm.trans hfill
  · next q hq =>
    have hnodes : q.nodes.toList = records := by
      simpa using Population.toList_nodes_of_fill hq
    exact ⟨_, rfl, rfl, hnodes⟩

/-- **Every list of named records, no two of one name, has its graph.** -/
theorem exists_ofRecords {settings : ScanSettings} {records : List TypeRecord}
    (hvalid : settings.isValid = true)
    (hdistinct : records.Pairwise fun a b => a.name ≠ b.name)
    (hnamed : ∀ r ∈ records, r.name ≠ "") :
    ∃ g : TypeGraph, ofRecords settings records = .ok g ∧ g.settings = settings
      ∧ g.records = TypeRecord.arrange records := by
  have hnone : TypeRecord.duplicate? (TypeRecord.arrange records) = none :=
    TypeRecord.duplicate?_arrange_eq_none_iff.2 hdistinct
  obtain ⟨p, hp⟩ := Population.exists_fill
    (fun r hr => hnamed r (TypeRecord.mem_arrange.1 hr)) {}
  obtain ⟨g, hg, hsettings, hrecords⟩ := exists_assemble settings
    (TypeRecord.pairwise_lt_of_duplicate?_eq_none (TypeRecord.pairwise_arrange records) hnone) hp
  refine ⟨g, ?_, hsettings, hrecords⟩
  unfold ofRecords
  rw [if_neg (by simp [hvalid])]
  split
  · next hsome => cases hnone.symm.trans hsome
  · exact hg

end TypeGraph

end TypeAtlas
