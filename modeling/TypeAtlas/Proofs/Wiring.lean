import Mathlib.Data.List.Nodup
import Mathlib.Data.List.ProdSigma
import TypeAtlas.Proofs.Population

/-!
# The edges of a graph are the declared relations

The edges of a population are linked one declared relation at a time, after all its nodes
are there. What a single link can do is said once: it keeps all edges, adds at most the
one edge that the declared relation makes, and adds none that is there already
(`mem_link`, `nodup_link`). Going through the relations of a node and through all nodes
only repeats this, so an edge is there exactly if some record declares it
(`mem_wire`), and it is there once (`nodup_wire`).

`TypeRecord.Declares` says from the fields of a record what it declares, without going
through the list of its relations. Forward references, names without a record, targets of
the wrong kind, loops and repeated declarations need no cases of their own: the index is
complete when the first relation is linked, and the rest is the case split of a link.
-/

namespace TypeAtlas

/-! ## What a record declares -/

/-- **A record declares a relation to a name**, as its fields have it. The tags on a tag
are its meta-tags, and the tags on the parameters of a routine are not the routine's. -/
def TypeRecord.Declares (r : TypeRecord) (k : RelationKind) (name : String) : Prop :=
  match k with
  | .extendsClass => r.superclass = some name
  | .implementsInterface => name ∈ r.interfaces
  | .extendsInterface => name ∈ r.superinterfaces
  | .taggedBy => r.kind ≠ .tag ∧ ∃ t ∈ r.tags, t.name = name
  | .metaTaggedBy => r.kind = .tag ∧ ∃ t ∈ r.tags, t.name = name
  | .attributeTaggedBy => ∃ a ∈ r.attributes, ∃ t ∈ a.tags, t.name = name
  | .routineTaggedBy => ∃ x ∈ r.routines, ∃ t ∈ x.tags, t.name = name
  | .attributeTypeRef => ∃ a ∈ r.attributes, name ∈ a.signature.names
  | .routineTypeRef =>
    ∃ x ∈ r.routines, name ∈ x.result.names ∨ ∃ p ∈ x.parameters, name ∈ p.signature.names

theorem TypeRecord.mem_targets {r : TypeRecord} {k : RelationKind} {name : String} :
    name ∈ r.targets k ↔ r.Declares k name := by
  cases k with
  | extendsClass => exact Option.mem_toList
  | implementsInterface => exact Iff.rfl
  | extendsInterface => exact Iff.rfl
  | taggedBy => by_cases h : r.kind = .tag <;> simp [targets, Declares, h]
  | metaTaggedBy => by_cases h : r.kind = .tag <;> simp [targets, Declares, h]
  | attributeTaggedBy => simp [targets, Declares, attributeTags]
  | routineTaggedBy => simp [targets, Declares, routineTags]
  | attributeTypeRef => simp [targets, Declares, attributeNames, -Signature.mem_names]
  | routineTypeRef =>
    simp [targets, Declares, routineNames, Routine.names, -Signature.mem_names]

theorem TypeRecord.mem_relations {r : TypeRecord} {k : RelationKind} {name : String} :
    (k, name) ∈ r.relations ↔ r.Declares k name := by
  rw [← mem_targets, relations, List.mem_flatMap]
  constructor
  · rintro ⟨l, -, h⟩
    obtain ⟨other, hother, heq⟩ := List.mem_map.1 h
    obtain ⟨rfl, rfl⟩ := Prod.mk.inj heq
    exact hother
  · exact fun h => ⟨k, RelationKind.mem_all k, List.mem_map_of_mem h⟩

instance (r : TypeRecord) (k : RelationKind) (name : String) :
    Decidable (r.Declares k name) :=
  decidable_of_iff _ TypeRecord.mem_targets

/-- **One record is related to another**: it declares the relation to the other's name,
and the relation connects their kinds. -/
def TypeRecord.Relates (a : TypeRecord) (k : RelationKind) (b : TypeRecord) : Prop :=
  a.Declares k b.name ∧ k.fits a.kind b.kind = true

instance (a : TypeRecord) (k : RelationKind) (b : TypeRecord) : Decidable (a.Relates k b) :=
  inferInstanceAs (Decidable (_ ∧ _))

/-! ## Linking -/

/-- A fold whose steps add to a list holds what was there and what some step adds. -/
theorem mem_foldl_iff {α β : Type} {f : List α → β → List α} {P : β → α → Prop}
    (hstep : ∀ acc b a, a ∈ f acc b ↔ a ∈ acc ∨ P b a) (bs : List β) (acc : List α)
    (a : α) : a ∈ bs.foldl f acc ↔ a ∈ acc ∨ ∃ b ∈ bs, P b a := by
  induction bs generalizing acc with
  | nil => simp
  | cons b bs ih =>
    rw [List.foldl_cons, ih, hstep, or_assoc, List.exists_mem_cons_iff]

/-- A fold whose steps keep a property of a list keeps it. -/
theorem foldl_of_step {α β : Type} {f : List α → β → List α} {P : List α → Prop}
    (hstep : ∀ acc b, P acc → P (f acc b)) (bs : List β) {acc : List α} (h : P acc) :
    P (bs.foldl f acc) := by
  induction bs generalizing acc with
  | nil => exact h
  | cons b bs ih => exact ih (hstep acc b h)

namespace Population

variable {p : Population}

/-- **The edge that a declared relation of a carrier makes**: it leads to the node of the
declared name, and connects kinds that the relation connects. -/
def Links (p : Population) (carrier : p.Node) (declared : RelationKind × String)
    (e : Edge p) : Prop :=
  e.carrier = carrier ∧ e.relation = declared.1 ∧ p.node? declared.2 = some e.target
    ∧ e.relation.fits (p.record e.carrier).kind (p.record e.target).kind = true

/-- **What linking one declared relation does** to the edges. -/
theorem mem_link {carrier : p.Node} {edges : List (Edge p)}
    {declared : RelationKind × String} {e : Edge p} :
    e ∈ p.link carrier edges declared ↔ e ∈ edges ∨ p.Links carrier declared e := by
  unfold link
  split
  · next hnone =>
    exact ⟨Or.inl, fun h => h.resolve_right fun hlinks => by
      cases hnone.symm.trans hlinks.2.2.1⟩
  · next target hsome =>
    -- the only edge that the relation can make is the one to the node just found
    have hlinks : p.Links carrier declared e ↔ e = ⟨carrier, declared.1, target⟩
        ∧ declared.1.fits (p.record carrier).kind (p.record target).kind = true := by
      constructor
      · rintro ⟨hcarrier, hrelation, htarget, hfits⟩
        obtain rfl : target = e.target := Option.some.inj (hsome.symm.trans htarget)
        obtain ⟨c, k, t⟩ := e
        obtain rfl : c = carrier := hcarrier
        obtain rfl : k = declared.1 := hrelation
        exact ⟨rfl, hfits⟩
      · rintro ⟨rfl, hfits⟩
        exact ⟨rfl, rfl, hsome, hfits⟩
    rw [hlinks]
    dsimp only
    split
    · next hnot =>
      exact ⟨Or.inl, fun h => h.resolve_right fun hand => by simp [hand.2] at hnot⟩
    · next hfits =>
      split
      · next hmem => exact ⟨Or.inl, fun h => h.elim id fun hand => hand.1 ▸ hmem⟩
      · rw [List.mem_append, List.mem_singleton]
        exact or_congr_right ⟨fun h => ⟨h, by simpa using hfits⟩, And.left⟩

/-- **Linking adds no edge a second time.** -/
theorem nodup_link {edges : List (Edge p)} (h : edges.Nodup) (carrier : p.Node)
    (declared : RelationKind × String) : (p.link carrier edges declared).Nodup := by
  unfold link
  split
  · exact h
  · dsimp only
    split
    · exact h
    · split
      · exact h
      · next hnew =>
        refine List.nodup_append.2 ⟨h, List.nodup_singleton _, fun a ha b hb hab => ?_⟩
        exact hnew (List.mem_singleton.1 hb ▸ hab ▸ ha)

/-- What linking the relations of a node does to the edges. -/
theorem mem_linkNode {edges : List (Edge p)} {carrier : p.Node} {e : Edge p} :
    e ∈ p.linkNode edges carrier
      ↔ e ∈ edges ∨ ∃ declared ∈ (p.record carrier).relations, p.Links carrier declared e :=
  mem_foldl_iff (P := p.Links carrier) (fun _ _ _ => mem_link) _ _ _

/-- **An edge is there exactly if its carrier declares the relation** to a name whose
node is the target, and the kinds fit. -/
theorem mem_wire {e : Edge p} :
    e ∈ p.wire ↔ ∃ name, (p.record e.carrier).Declares e.relation name
      ∧ p.node? name = some e.target
      ∧ e.relation.fits (p.record e.carrier).kind (p.record e.target).kind = true := by
  rw [wire, mem_foldl_iff (f := p.linkNode)
    (P := fun i e => ∃ declared ∈ (p.record i).relations, p.Links i declared e)
    (fun _ _ _ => mem_linkNode)]
  constructor
  · rintro (h | ⟨i, -, ⟨k, name⟩, hdeclared, rfl, rfl, htarget, hfits⟩)
    · cases h
    · exact ⟨name, TypeRecord.mem_relations.1 hdeclared, htarget, hfits⟩
  · rintro ⟨name, hdeclares, htarget, hfits⟩
    exact .inr ⟨e.carrier, List.mem_finRange _, (e.relation, name),
      TypeRecord.mem_relations.2 hdeclares, rfl, rfl, htarget, hfits⟩

theorem nodup_wire (p : Population) : p.wire.Nodup :=
  foldl_of_step (P := List.Nodup)
    (fun _ i h => foldl_of_step (P := List.Nodup)
      (fun _ declared h => nodup_link h i declared) _ h)
    p.allNodes List.nodup_nil

end Population

/-! ## Edges -/

namespace TypeGraph

variable (g : TypeGraph)

/-- **An edge joins two nodes exactly if the record of the one relates to the record of
the other.** -/
theorem mem_edges {e : Edge g.toPopulation} :
    e ∈ g.edges ↔ (g.record e.carrier).Relates e.relation (g.record e.target) := by
  rw [g.wired, Population.mem_wire]
  constructor
  · rintro ⟨name, hdeclares, htarget, hfits⟩
    obtain rfl : g.name e.target = name := g.node?_eq_some_iff.1 htarget
    exact ⟨hdeclares, hfits⟩
  · rintro ⟨hdeclares, hfits⟩
    exact ⟨g.name e.target, hdeclares, g.node?_name e.target, hfits⟩

theorem nodup_edges : g.edges.Nodup := g.wired ▸ Population.nodup_wire _

/-- The edges of one relation from one name to another. -/
def edgesBetween (a : String) (k : RelationKind) (b : String) : List (Edge g.toPopulation) :=
  g.edges.filter fun e => g.name e.carrier = a && e.relation = k && g.name e.target = b

/-- **Between two nodes there is one edge of a relation or none.** -/
theorem length_edgesBetween (i j : g.Node) (k : RelationKind) :
    (g.edgesBetween (g.name i) k (g.name j)).length
      = if (g.record i).Relates k (g.record j) then 1 else 0 := by
  have hcount : (g.edgesBetween (g.name i) k (g.name j)).length = g.edges.count ⟨i, k, j⟩ := by
    rw [edgesBetween, ← List.countP_eq_length_filter, List.count]
    refine List.countP_congr fun e _ => ?_
    obtain ⟨c, l, t⟩ := e
    simp only [Bool.and_eq_true, decide_eq_true_eq, beq_iff_eq, Edge.mk.injEq, and_assoc]
    constructor
    · rintro ⟨hc, hl, ht⟩
      exact ⟨g.name_injective hc, hl, g.name_injective ht⟩
    · rintro ⟨rfl, rfl, rfl⟩
      exact ⟨rfl, rfl, rfl⟩
  rw [hcount, g.nodup_edges.count]
  exact if_congr g.mem_edges rfl rfl

/-- A carrier, a relation and a target: what an edge may stand for. -/
def triples (records : List TypeRecord) : List (TypeRecord × RelationKind × TypeRecord) :=
  records ×ˢ (RelationKind.all ×ˢ records)

/-- **There are as many edges as related triples** of a carrier, a relation and a
target. -/
theorem edgeCount_eq_countP {records : List TypeRecord} (hnodup : records.Nodup)
    (hmem : ∀ r, r ∈ records ↔ r ∈ g.records) :
    g.edgeCount = (triples records).countP fun t => t.1.Relates t.2.1 t.2.2 := by
  -- the edges, written as triples of records, are exactly the related triples
  have hperm : (g.edges.map fun e => (g.record e.carrier, e.relation, g.record e.target)).Perm
      ((triples records).filter fun t => t.1.Relates t.2.1 t.2.2) := by
    refine (List.perm_ext_iff_of_nodup ?_ ?_).2 fun ⟨a, k, b⟩ => ?_
    · refine g.nodup_edges.map fun d e heq => ?_
      obtain ⟨hcarrier, hrelation, htarget⟩ := by simpa only [Prod.mk.injEq] using heq
      obtain ⟨c, k, t⟩ := d
      obtain rfl := g.record_injective hcarrier
      obtain rfl := g.record_injective htarget
      exact congrArg (Edge.mk e.carrier · e.target) hrelation
    · exact ((hnodup.product (RelationKind.nodup_all.product hnodup)).filter _)
    · simp only [List.mem_map, List.mem_filter, decide_eq_true_eq, Prod.mk.injEq, triples,
        List.mem_product, RelationKind.mem_all, true_and, hmem]
      constructor
      · rintro ⟨e, he, rfl, rfl, rfl⟩
        exact ⟨⟨g.record_mem_records _, g.record_mem_records _⟩, g.mem_edges.1 he⟩
      · rintro ⟨⟨ha, hb⟩, hrelates⟩
        obtain ⟨i, rfl⟩ := g.mem_records.1 ha
        obtain ⟨j, rfl⟩ := g.mem_records.1 hb
        exact ⟨⟨i, k, j⟩, g.mem_edges.2 hrelates, rfl, rfl, rfl⟩
  rw [edgeCount, List.countP_eq_length_filter, ← hperm.length_eq, List.length_map]

/-! ## One edge away -/

/-- **Where a step along a relation leads**: in the direction of the edge or against
it. -/
def Joins (k : RelationKind) (d : Direction) (i j : g.Node) : Prop :=
  match d with
  | .outgoing => (⟨i, k, j⟩ : Edge g.toPopulation) ∈ g.edges
  | .incoming => (⟨j, k, i⟩ : Edge g.toPopulation) ∈ g.edges

theorem mem_neighbours {k : RelationKind} {d : Direction} {i j : g.Node} :
    j ∈ g.neighbours k d i ↔ g.Joins k d i j := by
  cases d
  all_goals
    simp only [neighbours, Joins, List.mem_map, List.mem_filter, Bool.and_eq_true,
      decide_eq_true_eq]
    constructor
    · rintro ⟨e, ⟨hmem, rfl, rfl⟩, rfl⟩
      exact hmem
    · exact fun h => ⟨_, ⟨h, rfl, rfl⟩, rfl⟩

/-- **The records one edge away from a name.** -/
theorem mem_direct {name : String} {k : RelationKind} {d : Direction} {r : TypeRecord} :
    r ∈ g.direct name k d
      ↔ ∃ i j : g.Node, g.name i = name ∧ g.Joins k d i j ∧ g.record j = r := by
  unfold direct
  split
  · next hnone =>
    constructor
    · exact fun h => absurd h List.not_mem_nil
    · rintro ⟨i, j, hname, -, -⟩
      exact absurd hname (g.node?_eq_none_iff.1 hnone i)
  · next i hsome =>
    rw [TypeRecord.mem_dropRepeats, TypeRecord.mem_arrange, List.mem_map]
    · constructor
      · rintro ⟨j, hj, rfl⟩
        exact ⟨i, j, g.node?_eq_some_iff.1 hsome, g.mem_neighbours.1 hj, rfl⟩
      · rintro ⟨l, j, hname, hjoins, rfl⟩
        obtain rfl : i = l :=
          Option.some.inj (hsome.symm.trans (g.node?_eq_some_iff.2 hname))
        exact ⟨j, g.mem_neighbours.2 hjoins, rfl⟩
    · intro a ha b hb hname
      simp only [TypeRecord.mem_arrange, List.mem_map] at ha hb
      obtain ⟨l, -, rfl⟩ := ha
      obtain ⟨m, -, rfl⟩ := hb
      rw [g.name_injective hname]

/-- A step along a relation goes from the record that declares it. -/
theorem joins_outgoing {k : RelationKind} {i j : g.Node} :
    g.Joins k .outgoing i j ↔ (g.record i).Relates k (g.record j) :=
  g.mem_edges

/-- A step against a relation goes to the record that declares it. -/
theorem joins_incoming {k : RelationKind} {i j : g.Node} :
    g.Joins k .incoming i j ↔ (g.record j).Relates k (g.record i) :=
  g.mem_edges

theorem mem_direct_name {i : g.Node} {k : RelationKind} {d : Direction} {r : TypeRecord} :
    r ∈ g.direct (g.name i) k d ↔ ∃ j : g.Node, g.Joins k d i j ∧ g.record j = r := by
  rw [mem_direct]
  constructor
  · rintro ⟨l, j, hname, hjoins, hr⟩
    exact ⟨j, g.name_injective hname ▸ hjoins, hr⟩
  · rintro ⟨j, hjoins, hr⟩
    exact ⟨i, j, rfl, hjoins, hr⟩

/-- **The targets of a record are the records it relates to.** -/
theorem mem_direct_outgoing {a b : TypeRecord} {k : RelationKind} (ha : a ∈ g.records) :
    b ∈ g.direct a.name k .outgoing ↔ b ∈ g.records ∧ a.Relates k b := by
  obtain ⟨i, rfl⟩ := g.mem_records.1 ha
  refine g.mem_direct_name.trans ⟨?_, ?_⟩
  · rintro ⟨j, hjoins, rfl⟩
    exact ⟨g.record_mem_records j, g.joins_outgoing.1 hjoins⟩
  · rintro ⟨hb, hrelates⟩
    obtain ⟨j, rfl⟩ := g.mem_records.1 hb
    exact ⟨j, g.joins_outgoing.2 hrelates, rfl⟩

/-- **The carriers of a record are the records that relate to it.** -/
theorem mem_direct_incoming {a b : TypeRecord} {k : RelationKind} (hb : b ∈ g.records) :
    a ∈ g.direct b.name k .incoming ↔ a ∈ g.records ∧ a.Relates k b := by
  obtain ⟨i, rfl⟩ := g.mem_records.1 hb
  refine g.mem_direct_name.trans ⟨?_, ?_⟩
  · rintro ⟨j, hjoins, rfl⟩
    exact ⟨g.record_mem_records j, g.joins_incoming.1 hjoins⟩
  · rintro ⟨ha, hrelates⟩
    obtain ⟨j, rfl⟩ := g.mem_records.1 ha
    exact ⟨j, g.joins_incoming.2 hrelates, rfl⟩

theorem pairwise_direct (name : String) (k : RelationKind) (d : Direction) :
    (g.direct name k d).Pairwise fun a b => a.name < b.name := by
  unfold direct
  split
  · exact List.Pairwise.nil
  · exact TypeRecord.pairwise_dropRepeats (TypeRecord.pairwise_arrange _)

/-- **The edges of the graph of some records are the relations that they declare.** From
one record to another there is one edge of a relation if the one relates to the other,
and none if not; so there are as many edges as related triples. What is one edge away
from a record is listed in strictly ascending order, and the two directions of a relation
are views of the same edges. -/
theorem ofRecords_edges {settings : ScanSettings} {records : List TypeRecord}
    (hvalid : settings.isValid = true)
    (hdistinct : records.Pairwise fun a b => a.name ≠ b.name)
    (hnamed : ∀ r ∈ records, r.name ≠ "") :
    ∃ g : TypeGraph, ofRecords settings records = .ok g
      ∧ (∀ a ∈ records, ∀ b ∈ records, ∀ k,
          (g.edgesBetween a.name k b.name).length = if a.Relates k b then 1 else 0)
      ∧ g.edgeCount = (triples records).countP (fun t => t.1.Relates t.2.1 t.2.2)
      ∧ (∀ a ∈ records, ∀ k,
          (g.direct a.name k .outgoing).Pairwise (fun b c => b.name < c.name)
          ∧ ∀ b, b ∈ g.direct a.name k .outgoing ↔ b ∈ records ∧ a.Relates k b)
      ∧ (∀ b ∈ records, ∀ k,
          (g.direct b.name k .incoming).Pairwise (fun a c => a.name < c.name)
          ∧ ∀ a, a ∈ g.direct b.name k .incoming ↔ a ∈ records ∧ a.Relates k b)
      ∧ ∀ a ∈ records, ∀ b ∈ records, ∀ k,
          b ∈ g.direct a.name k .outgoing ↔ a ∈ g.direct b.name k .incoming := by
  obtain ⟨g, hg, -, hrecords⟩ := exists_ofRecords hvalid hdistinct hnamed
  have hmem : ∀ r, r ∈ records ↔ r ∈ g.records := fun r => by
    rw [hrecords, TypeRecord.mem_arrange]
  have hnodup : records.Nodup := hdistinct.imp fun hne heq => hne (congrArg _ heq)
  have hout : ∀ a ∈ records, ∀ k b,
      b ∈ g.direct a.name k .outgoing ↔ b ∈ records ∧ a.Relates k b := fun a ha k b => by
    rw [g.mem_direct_outgoing ((hmem a).1 ha), hmem]
  have hin : ∀ b ∈ records, ∀ k a,
      a ∈ g.direct b.name k .incoming ↔ a ∈ records ∧ a.Relates k b := fun b hb k a => by
    rw [g.mem_direct_incoming ((hmem b).1 hb), hmem]
  refine ⟨g, hg, fun a ha b hb k => ?_, g.edgeCount_eq_countP hnodup hmem,
    fun a ha k => ⟨g.pairwise_direct _ _ _, hout a ha k⟩,
    fun b hb k => ⟨g.pairwise_direct _ _ _, hin b hb k⟩, fun a ha b hb k => ?_⟩
  · obtain ⟨i, rfl⟩ := g.mem_records.1 ((hmem a).1 ha)
    obtain ⟨j, rfl⟩ := g.mem_records.1 ((hmem b).1 hb)
    exact g.length_edgesBetween i j k
  · rw [hout a ha, hin b hb]
    exact ⟨fun h => ⟨ha, h.2⟩, fun h => ⟨hb, h.2⟩⟩

/-- A tag on itself, a type whose tag comes twice, and an interface that is none. -/
def kennel : List TypeRecord :=
  [{ name := "Pet", kind := .tag, tags := [{ name := "Pet" }] },
   { name := "Dog", kind := .standard, superclass := some "Animal",
     interfaces := ["Animal", "Missing"], tags := [{ name := "Pet" }, { name := "Pet" }],
     attributes := [{ name := "mother", signature := ⟨"Dog[]"⟩, tags := [{ name := "Pet" }] }] },
   { name := "Animal", kind := .standard }]

theorem ofRecords_edges_kennel :
    ∃ g : TypeGraph, ofRecords {} kennel = .ok g
      ∧ (g.edgesBetween "Dog" .taggedBy "Pet").length = 1
      ∧ (g.edgesBetween "Dog" .implementsInterface "Animal").length = 0
      ∧ (g.edgesBetween "Pet" .metaTaggedBy "Pet").length = 1
      ∧ g.edgeCount = 5 := by
  obtain ⟨g, hg, hbetween, hcount, -⟩ :=
    @ofRecords_edges {} kennel (by decide) (by decide) (by decide)
  refine ⟨g, hg, ?_, ?_, ?_, hcount.trans (by decide +kernel)⟩
  · exact (hbetween kennel[1] (by decide) kennel[0] (by decide) .taggedBy).trans (by decide)
  · exact (hbetween kennel[1] (by decide) kennel[2] (by decide) .implementsInterface).trans
      (by decide)
  · exact (hbetween kennel[0] (by decide) kennel[0] (by decide) .metaTaggedBy).trans
      (by decide)

end TypeGraph

end TypeAtlas
