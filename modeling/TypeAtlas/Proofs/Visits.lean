import Mathlib.Data.List.Nodup
import Mathlib.Order.Bounds.Basic
import TypeAtlas.Graph.Listing
import TypeAtlas.Proofs.Walk

/-!
# A walk visits each node once

`Walk.run` says what a walk comes to, but not what it does on the way. `Visits` tells the walk
visit by visit: which nodes are taken off the queue, one after the other, and where the walk
stands then. The queue is longer at times and shorter at others. What stays is that the nodes
taken off it so far, followed by those in it, are the nodes met, each once and in the order in
which they were met (`Queued`). So no node is ever taken off twice, a walk has no more visits
than there are nodes, and when the queue is empty, the nodes met are the nodes visited.

The nodes met in the end are the least set that holds the seeds and is closed under going to a
neighbour (`isLeast_reach`). A least set is told by its seeds alone, whatever their order and
however often they come; and what is closed already is left as it is.
-/

namespace TypeAtlas

namespace Walk

variable {n : Nat} {neighbours : Fin n → List (Fin n)} {seeds : List (Fin n)}

/-- **Visits of a walk**: the nodes that are taken off the queue between two of its states. -/
inductive Visits (neighbours : Fin n → List (Fin n)) : State n → List (Fin n) → State n → Prop
  /-- No visit. -/
  | nil (s : State n) : Visits neighbours s [] s
  /-- The visit of the first node in the queue, and further ones. -/
  | cons {visited queue xs : List (Fin n)} {x : Fin n} {t : State n}
      (h : Visits neighbours (State.visit visited queue (neighbours x)) xs t) :
      Visits neighbours ⟨visited, x :: queue⟩ (x :: xs) t

theorem Visits.trans {s t u : State n} {xs ys : List (Fin n)} (h : Visits neighbours s xs t)
    (hs : Visits neighbours t ys u) : Visits neighbours s (xs ++ ys) u := by
  induction h with
  | nil s => exact hs
  | cons _ ih => exact .cons (ih hs)

/-- What a walk comes to stays the same from visit to visit. -/
theorem Visits.run_eq {s t : State n} {xs : List (Fin n)} (h : Visits neighbours s xs t) :
    run neighbours t = run neighbours s := by
  induction h with
  | nil s => rfl
  | cons _ ih => rw [ih, run]

/-- **A walk comes to an end**, with its queue empty. -/
theorem exists_visits_run (neighbours : Fin n → List (Fin n)) (s : State n) :
    ∃ xs, Visits neighbours s xs ⟨run neighbours s, []⟩ := by
  induction s using run.induct neighbours with
  | case1 visited =>
    rw [run]
    exact ⟨[], .nil _⟩
  | case2 visited x queue ih =>
    obtain ⟨xs, hxs⟩ := ih
    rw [run]
    exact ⟨x :: xs, .cons hxs⟩

/-! ## What has been taken off the queue -/

/-- **The nodes taken off the queue and those in it** are the nodes met, each once and in the
order in which they were met. -/
structure Queued (taken : List (Fin n)) (s : State n) : Prop where
  /-- The last node met is the first one of `visited`. -/
  append_queue : taken ++ s.queue = s.visited.reverse
  /-- No node is met twice. -/
  nodup : s.visited.Nodup

variable {taken : List (Fin n)} {s : State n}

theorem Queued.meet (h : Queued taken s) (x : Fin n) : Queued taken (s.meet x) := by
  unfold State.meet
  split
  · exact h
  · next hnew =>
    refine ⟨?_, List.nodup_cons.2 ⟨hnew, h.nodup⟩⟩
    rw [List.reverse_cons, ← h.append_queue, List.append_assoc]

theorem Queued.foldl_meet (h : Queued taken s) (xs : List (Fin n)) :
    Queued taken (xs.foldl State.meet s) := by
  induction xs generalizing s with
  | nil => exact h
  | cons x xs ih => exact ih (h.meet x)

/-- The walk begins with nothing taken off the queue. -/
theorem queued_seeds (seeds : List (Fin n)) : Queued [] (seeds.foldl State.meet {}) :=
  Queued.foldl_meet ⟨rfl, List.nodup_nil⟩ seeds

/-- **A visit moves a node** from the queue to those taken off it. -/
theorem Queued.visit {visited queue : List (Fin n)} {x : Fin n}
    (h : Queued taken ⟨visited, x :: queue⟩) (next : List (Fin n)) :
    Queued (taken ++ [x]) (State.visit visited queue next) := by
  have hmoved : Queued (taken ++ [x]) ⟨visited, queue⟩ :=
    ⟨by simpa using h.append_queue, h.nodup⟩
  exact hmoved.foldl_meet next

/-- **So do all visits of a walk.** -/
theorem Queued.visits {xs : List (Fin n)} {t : State n} (h : Queued taken s)
    (hvisits : Visits neighbours s xs t) : Queued (taken ++ xs) t := by
  induction hvisits generalizing taken with
  | nil s => rwa [List.append_nil]
  | cons _ ih => simpa using ih (h.visit _)

/-- No node is taken off the queue twice. -/
theorem Queued.nodup_taken (h : Queued taken s) : taken.Nodup := by
  have hall : (taken ++ s.queue).Nodup := h.append_queue ▸ List.nodup_reverse.2 h.nodup
  exact (List.nodup_append.1 hall).1

/-! ## What a walk comes to -/

/-- **A walk meets the least set of nodes** that holds the seeds and is closed under going to a
neighbour. -/
theorem isLeast_reach (neighbours : Fin n → List (Fin n)) (seeds : List (Fin n)) :
    IsLeast {S : Set (Fin n) | (∀ x ∈ seeds, x ∈ S) ∧ ∀ x ∈ S, ∀ y ∈ neighbours x, y ∈ S}
      {x | x ∈ reach neighbours seeds} := by
  refine ⟨⟨fun x hx => ?_, fun x hx y hy => ?_⟩, fun S hS x hx => ?_⟩
  · exact mem_reach.2 ⟨x, hx, .refl⟩
  · exact mem_reach.2 ((mem_reach.1 hx).step hy)
  · replace hx := mem_reach.1 hx
    obtain ⟨seed, hseed, hpath⟩ := hx
    -- a step from a node of a closed set does not lead out of it
    induction hpath with
    | refl => exact hS.1 seed hseed
    | tail _ hy ih => exact hS.2 _ ih _ hy

/-- **What a walk from some seeds comes to**, and how. -/
structure Ends (neighbours : Fin n → List (Fin n)) (seeds result : List (Fin n)) : Prop where
  /-- However far the walk has got, it goes on and comes to an end with its queue empty; by then
  it has visited the nodes of the result, in the order in which they were met. -/
  visits : ∀ xs s, Visits neighbours (seeds.foldl State.meet {}) xs s →
    ∃ ys, Visits neighbours s ys ⟨result, []⟩ ∧ xs ++ ys = result.reverse
  /-- At no time has it taken a node off the queue twice. -/
  nodup_visits : ∀ xs s, Visits neighbours (seeds.foldl State.meet {}) xs s → xs.Nodup
  /-- The result has each node once. -/
  nodup : result.Nodup
  /-- It is the least set that holds the seeds and is closed under going to a neighbour. -/
  isLeast : IsLeast
    {S : Set (Fin n) | (∀ x ∈ seeds, x ∈ S) ∧ ∀ x ∈ S, ∀ y ∈ neighbours x, y ∈ S}
    {x | x ∈ result}

theorem Ends.of_reach (neighbours : Fin n → List (Fin n)) (seeds : List (Fin n)) :
    Ends neighbours seeds (reach neighbours seeds) := by
  have hend : ∀ xs s, Visits neighbours (seeds.foldl State.meet {}) xs s →
      ∃ ys, Visits neighbours s ys ⟨reach neighbours seeds, []⟩
        ∧ Queued (xs ++ ys) ⟨reach neighbours seeds, []⟩ := by
    intro xs s hxs
    obtain ⟨ys, hys⟩ := exists_visits_run neighbours s
    rw [hxs.run_eq] at hys
    exact ⟨ys, hys, (queued_seeds seeds).visits (hxs.trans hys)⟩
  refine ⟨fun xs s hxs => ?_, fun xs s hxs => ?_, ?_, isLeast_reach neighbours seeds⟩
  · obtain ⟨ys, hys, hqueued⟩ := hend xs s hxs
    exact ⟨ys, hys, by simpa using hqueued.append_queue⟩
  · exact ((queued_seeds seeds).visits hxs).nodup_taken
  · obtain ⟨ys, -, hqueued⟩ := hend [] _ (.nil _)
    exact hqueued.nodup

/-- **Results for the same set of seeds** are the same set. -/
theorem Ends.perm {others result result' : List (Fin n)} (h : Ends neighbours seeds result)
    (h' : Ends neighbours others result') (hsame : ∀ x, x ∈ others ↔ x ∈ seeds) :
    result'.Perm result := by
  have hset : {x | x ∈ result'} = {x | x ∈ result} := by
    have hothers := h'.isLeast
    simp only [hsame] at hothers
    exact hothers.unique h.isLeast
  exact (List.perm_ext_iff_of_nodup h'.nodup h.nodup).2 (Set.ext_iff.1 hset)

/-- **A closed set is left as it is.** -/
theorem Ends.perm_self {result result' : List (Fin n)} (h : Ends neighbours seeds result)
    (h' : Ends neighbours result result') : result'.Perm result := by
  have hclosed := h.isLeast.1.2
  have hset : {x | x ∈ result'} = {x | x ∈ result} :=
    h'.isLeast.unique ⟨⟨fun x hx => hx, hclosed⟩, fun S hS x hx => hS.1 x hx⟩
  exact (List.perm_ext_iff_of_nodup h'.nodup h.nodup).2 (Set.ext_iff.1 hset)

end Walk

namespace TypeGraph

/-- **What can be reached along a relation**, from some nodes, in one of its directions: the walk
comes to an end and takes no node off its queue twice, and the result is the least set that holds
these nodes and is closed under going to neighbours. It depends on the set of the nodes alone, and
nothing more can be reached from it. -/
theorem ends_reach (g : TypeGraph) (k : RelationKind) (d : Direction) (seeds : List g.Node) :
    Walk.Ends (g.neighbours k d) seeds (g.reach k d seeds)
      ∧ (∀ others : List g.Node, (∀ i, i ∈ others ↔ i ∈ seeds) →
        (g.reach k d others).Perm (g.reach k d seeds))
      ∧ (g.reach k d (g.reach k d seeds)).Perm (g.reach k d seeds) := by
  have hends : ∀ seeds, Walk.Ends (g.neighbours k d) seeds (g.reach k d seeds) :=
    Walk.Ends.of_reach (g.neighbours k d)
  exact ⟨hends seeds, fun others => (hends seeds).perm (hends others),
    (hends seeds).perm_self (hends _)⟩

end TypeGraph

end TypeAtlas
