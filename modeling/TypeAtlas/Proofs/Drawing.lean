import Mathlib.Data.List.Nodup
import TypeAtlas.Diagram.Document
import TypeAtlas.Proofs.Wiring

/-!
# What a diagram draws

The names that are to be visible come in any order, with repeats, with names that no
record has, and perhaps with the root type. The nodes of the diagram are the nodes of the
graph that are named, without the root type, each once, by kind and then by name
(`mem_drawn`, `pairwise_drawn`). Its edges are the edges of the graph between two such
nodes, each once (`perm_drawnEdges`), by carrier in the order of the nodes, then by
relation, then by the name of the target (`pairwise_drawnEdges`).

Both orders are a rank and then a name. Sorting leaves only ties, and a list without
repeats has none if the rank and the name tell its items apart.
-/

namespace TypeAtlas

/-! ## Lists in the order of a rank and a name -/

section InOrder

variable {α : Type} (rank : α → Nat) (name : α → String)

/-- **A list that is sorted by rank and then by name ascends strictly** if nothing comes
twice in it and no two items have the same rank and name. -/
theorem pairwise_mergeSort_inOrder {xs : List α} (hnodup : xs.Nodup)
    (hinj : ∀ a ∈ xs, ∀ b ∈ xs, rank a = rank b → name a = name b → a = b) :
    (xs.mergeSort (inOrder rank name)).Pairwise fun a b =>
      rank a < rank b ∨ rank a = rank b ∧ name a < name b := by
  have htrans : ∀ a b c : α, inOrder rank name a b = true → inOrder rank name b c = true →
      inOrder rank name a c = true := by
    intro a b c hab hbc
    simp only [inOrder, Bool.or_eq_true, Bool.and_eq_true, decide_eq_true_eq] at hab hbc ⊢
    obtain hab | ⟨hab, hnab⟩ := hab
    · left; omega
    · obtain hbc | ⟨hbc, hnbc⟩ := hbc
      · left; omega
      · exact .inr ⟨hab.trans hbc, String.le_trans hnab hnbc⟩
  have htotal : ∀ a b : α, (inOrder rank name a b || inOrder rank name b a) = true := by
    intro a b
    simp only [inOrder, Bool.or_eq_true, Bool.and_eq_true, decide_eq_true_eq]
    obtain h | h | h := Nat.lt_trichotomy (rank a) (rank b)
    · exact .inl (.inl h)
    · exact (String.le_total (name a) (name b)).imp (fun hn => .inr ⟨h, hn⟩)
        fun hn => .inr ⟨h.symm, hn⟩
    · exact .inr (.inl h)
  -- sorting leaves ties, and two items that tie would be one item that comes twice
  have hperm := List.mergeSort_perm xs (inOrder rank name)
  have hsorted := (List.pairwise_mergeSort htrans htotal xs).and (hperm.nodup_iff.2 hnodup)
  refine hsorted.imp_of_mem fun {a b} ha hb hab => ?_
  obtain ⟨hle, hne⟩ := hab
  simp only [inOrder, Bool.or_eq_true, Bool.and_eq_true, decide_eq_true_eq] at hle
  refine hle.imp_right fun ⟨hrank, hname⟩ => ⟨hrank, ?_⟩
  refine NameList.lt_of_not_lt_of_ne (String.not_lt.2 hname) fun heq => hne ?_
  exact hinj a (hperm.mem_iff.1 ha) b (hperm.mem_iff.1 hb) hrank heq.symm

end InOrder

theorem nodup_eraseDups {α : Type} [BEq α] [LawfulBEq α] (xs : List α) :
    xs.eraseDups.Nodup := by
  match xs with
  | [] => exact List.nodup_nil
  | x :: xs =>
    have hshorter : (xs.filter fun y => !y == x).length ≤ xs.length := List.length_filter_le _ _
    rw [List.eraseDups_cons, List.nodup_cons]
    refine ⟨fun hx => ?_, nodup_eraseDups _⟩
    simpa using (List.mem_filter.1 (List.mem_eraseDups.1 hx)).2
termination_by xs.length
decreasing_by
  simp only [List.length_cons]
  omega

namespace TypeGraph

variable {g : TypeGraph} {visible : List String}

/-! ## Nodes -/

/-- **A node stands before another**: its kind is earlier, or the kinds are the same and
its name is. -/
def Precedes (g : TypeGraph) (i j : g.Node) : Prop :=
  (g.record i).kind.rank < (g.record j).kind.rank
    ∨ (g.record i).kind = (g.record j).kind ∧ g.name i < g.name j

theorem not_precedes_self (i : g.Node) : ¬g.Precedes i i := by
  rintro (h | ⟨-, h⟩)
  · exact Nat.lt_irrefl _ h
  · exact String.lt_irrefl _ h

theorem mem_drawn {i : g.Node} :
    i ∈ g.drawn visible ↔ g.name i ∈ visible ∧ g.name i ≠ g.settings.rootType := by
  have hnamed : i ∈ visible.filterMap g.node? ↔ g.name i ∈ visible := by
    rw [List.mem_filterMap]
    constructor
    · rintro ⟨name, hname, hi⟩
      exact g.node?_eq_some_iff.1 hi ▸ hname
    · intro hname
      exact ⟨g.name i, hname, g.node?_name i⟩
  rw [drawn, (List.mergeSort_perm _ _).mem_iff, List.mem_eraseDups, List.mem_filter, hnamed]
  simp [isRoot]

/-- **The nodes of a diagram ascend**, by kind and then by name. -/
theorem pairwise_drawn (g : TypeGraph) (visible : List String) :
    (g.drawn visible).Pairwise g.Precedes := by
  have hstrict := pairwise_mergeSort_inOrder (fun i => (g.record i).kind.rank) g.name
    (nodup_eraseDups ((visible.filterMap g.node?).filter fun i => !g.isRoot i))
    fun i _ j _ _ hname => g.name_injective hname
  exact hstrict.imp (Or.imp_right (And.imp_left fun h => TypeKind.rank_injective h))

/-! ## Edges -/

/-- **An edge stands before another**: its carrier does, or the carrier is the same and
its relation is declared earlier, or that is the same too and the name of its target is
earlier. -/
def PrecedesEdge (g : TypeGraph) (d e : Edge g.toPopulation) : Prop :=
  g.Precedes d.carrier e.carrier
    ∨ d.carrier = e.carrier
      ∧ (d.relation.rank < e.relation.rank
        ∨ d.relation = e.relation ∧ g.name d.target < g.name e.target)

theorem not_precedesEdge_self (e : Edge g.toPopulation) : ¬g.PrecedesEdge e e := by
  rintro (h | ⟨-, h | ⟨-, h⟩⟩)
  · exact not_precedes_self _ h
  · exact Nat.lt_irrefl _ h
  · exact String.lt_irrefl _ h

/-- The edges that are drawn between some nodes, node by node. -/
def drawnEdges (g : TypeGraph) (nodes : List g.Node) : List (Edge g.toPopulation) :=
  nodes.flatMap (g.drawnFrom nodes)

theorem mem_drawnFrom {nodes : List g.Node} {i : g.Node} {e : Edge g.toPopulation} :
    e ∈ g.drawnFrom nodes i ↔ e ∈ g.edges ∧ e.carrier = i ∧ e.target ∈ nodes := by
  rw [drawnFrom, (List.mergeSort_perm _ _).mem_iff, List.mem_filter]
  simp

/-- Edges of one node ascend, by relation and then by target. -/
theorem pairwise_drawnFrom (g : TypeGraph) (nodes : List g.Node) (i : g.Node) :
    (g.drawnFrom nodes i).Pairwise g.PrecedesEdge := by
  -- with the carrier given, an edge is its relation and its target
  have hcarrier : ∀ e ∈ g.edges.filter (fun e => e.carrier = i && e.target ∈ nodes),
      e.carrier = i := by
    intro e he
    rw [List.mem_filter, Bool.and_eq_true, decide_eq_true_eq] at he
    exact he.2.1
  have hstrict := pairwise_mergeSort_inOrder (fun e => e.relation.rank)
    (fun e => g.name e.target) (g.nodup_edges.filter _) fun d hd e he hrank hname => by
      have htarget := g.name_injective hname
      have hrelation := RelationKind.rank_injective hrank
      have hsame := (hcarrier d hd).trans (hcarrier e he).symm
      cases d
      cases e
      simp_all
  refine hstrict.imp_of_mem fun {d e} hd he h => .inr ⟨?_, h.imp_right fun hrest => ?_⟩
  · exact (mem_drawnFrom.1 hd).2.1.trans (mem_drawnFrom.1 he).2.1.symm
  · exact ⟨RelationKind.rank_injective hrest.1, hrest.2⟩

/-- **The edges of a diagram ascend**, by carrier, then by relation, then by target. -/
theorem pairwise_drawnEdges {nodes : List g.Node} (h : nodes.Pairwise g.Precedes) :
    (g.drawnEdges nodes).Pairwise g.PrecedesEdge := by
  rw [drawnEdges, List.pairwise_flatMap]
  refine ⟨fun i _ => g.pairwise_drawnFrom nodes i, h.imp fun {i j} hij d hd e he => .inl ?_⟩
  rw [(mem_drawnFrom.1 hd).2.1, (mem_drawnFrom.1 he).2.1]
  exact hij

/-- **The edges of a diagram are the edges of the graph between its nodes**, each once. -/
theorem perm_drawnEdges {nodes : List g.Node} (h : nodes.Pairwise g.Precedes) :
    (g.drawnEdges nodes).Perm
      (g.edges.filter fun e => nodes.contains e.carrier && nodes.contains e.target) := by
  have hnodup : (g.drawnEdges nodes).Nodup :=
    (pairwise_drawnEdges h).imp fun {d e} (hde : g.PrecedesEdge d e) (heq : d = e) =>
      not_precedesEdge_self e (heq ▸ hde)
  refine (List.perm_ext_iff_of_nodup hnodup (g.nodup_edges.filter _)).2 fun e => ?_
  rw [drawnEdges, List.mem_flatMap, List.mem_filter, Bool.and_eq_true,
    List.contains_iff_mem, List.contains_iff_mem]
  constructor
  · rintro ⟨i, hi, he⟩
    obtain ⟨hedge, rfl, htarget⟩ := mem_drawnFrom.1 he
    exact ⟨hedge, hi, htarget⟩
  · rintro ⟨hedge, hcarrier, htarget⟩
    exact ⟨e.carrier, hcarrier, mem_drawnFrom.2 ⟨hedge, rfl, htarget⟩⟩

end TypeGraph

end TypeAtlas
