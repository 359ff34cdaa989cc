import Mathlib.Logic.Relation
import TypeAtlas.Graph.Walk

/-!
# A walk meets what can be reached

The nodes that a walk has met are split by its queue: a node is either still to be
visited, or all its neighbours have been met as well. `Walk.Invariant` adds to this that
the seeds have been met, and nothing that cannot be reached from them. A visit keeps the
invariant (`Invariant.visit`), whatever cycles or repeated edges the graph has; and when
the queue is empty, the nodes met hold the seeds and are closed under going to a
neighbour, so they are exactly the nodes that can be reached (`mem_reach`).
-/

namespace TypeAtlas.Walk

variable {n : Nat} {neighbours : Fin n → List (Fin n)} {seeds : List (Fin n)}

/-- **A node can be reached** from some seeds: a path of steps to neighbours, possibly an
empty one, leads from a seed to it. -/
def Reachable (neighbours : Fin n → List (Fin n)) (seeds : List (Fin n)) (x : Fin n) : Prop :=
  ∃ seed ∈ seeds, Relation.ReflTransGen (fun a b => b ∈ neighbours a) seed x

theorem Reachable.step {x y : Fin n} (h : Reachable neighbours seeds x)
    (hy : y ∈ neighbours x) : Reachable neighbours seeds y := by
  obtain ⟨seed, hseed, hpath⟩ := h
  exact ⟨seed, hseed, hpath.tail hy⟩

namespace State

theorem mem_visited_meet {s : State n} {x y : Fin n} :
    y ∈ (s.meet x).visited ↔ y ∈ s.visited ∨ y = x := by
  unfold meet
  split
  · next hmem => exact ⟨Or.inl, fun h => h.elim id fun hyx => hyx ▸ hmem⟩
  · rw [List.mem_cons, or_comm]

theorem mem_queue_meet {s : State n} {x y : Fin n} :
    y ∈ (s.meet x).queue ↔ y ∈ s.queue ∨ (y = x ∧ y ∉ s.visited) := by
  unfold meet
  split
  · next hmem => exact ⟨Or.inl, fun h => h.elim id fun hyx => absurd (hyx.1 ▸ hmem) hyx.2⟩
  · next hnew =>
    rw [List.mem_append, List.mem_singleton]
    exact or_congr_right ⟨fun hyx => ⟨hyx, hyx ▸ hnew⟩, And.left⟩

/-- Meeting some nodes, the nodes met are those met before and these. -/
theorem mem_visited_foldl_meet {xs : List (Fin n)} {s : State n} {y : Fin n} :
    y ∈ (xs.foldl meet s).visited ↔ y ∈ s.visited ∨ y ∈ xs := by
  induction xs generalizing s with
  | nil => simp
  | cons x xs ih => rw [List.foldl_cons, ih, mem_visited_meet, List.mem_cons, or_assoc]

/-- Meeting some nodes, those not met before are queued, and only those. -/
theorem mem_queue_foldl_meet {xs : List (Fin n)} {s : State n} {y : Fin n} :
    y ∈ (xs.foldl meet s).queue ↔ y ∈ s.queue ∨ (y ∈ xs ∧ y ∉ s.visited) := by
  induction xs generalizing s with
  | nil => simp
  | cons x xs ih =>
    rw [List.foldl_cons, ih, mem_queue_meet, mem_visited_meet, List.mem_cons]
    by_cases hyx : y = x <;> simp [hyx]

end State

/-- **What holds all through a walk** from some seeds. -/
structure Invariant (neighbours : Fin n → List (Fin n)) (seeds : List (Fin n))
    (s : State n) : Prop where
  /-- The seeds have been met. -/
  seeded : ∀ x ∈ seeds, x ∈ s.visited
  /-- What is queued has been met. -/
  queued : ∀ x ∈ s.queue, x ∈ s.visited
  /-- What has been met can be reached. -/
  reached : ∀ x ∈ s.visited, Reachable neighbours seeds x
  /-- What has been met is still queued, or its neighbours have been met. -/
  expanded : ∀ x ∈ s.visited, x ∈ s.queue ∨ ∀ y ∈ neighbours x, y ∈ s.visited

/-- The invariant holds when the seeds have been met. -/
theorem invariant_seeds (neighbours : Fin n → List (Fin n)) (seeds : List (Fin n)) :
    Invariant neighbours seeds (seeds.foldl State.meet {}) where
  seeded x hx := State.mem_visited_foldl_meet.2 (.inr hx)
  queued x hx := by
    rcases State.mem_queue_foldl_meet.1 hx with h | h
    · cases h
    · exact State.mem_visited_foldl_meet.2 (.inr h.1)
  reached x hx := by
    rcases State.mem_visited_foldl_meet.1 hx with h | h
    · cases h
    · exact ⟨x, h, .refl⟩
  expanded x hx := by
    rcases State.mem_visited_foldl_meet.1 hx with h | h
    · cases h
    · exact .inl (State.mem_queue_foldl_meet.2 (.inr ⟨h, List.not_mem_nil⟩))

/-- **A visit keeps the invariant.** -/
theorem Invariant.visit {visited queue : List (Fin n)} {x : Fin n}
    (h : Invariant neighbours seeds ⟨visited, x :: queue⟩) :
    Invariant neighbours seeds (State.visit visited queue (neighbours x)) := by
  have hvisited : ∀ {y}, y ∈ (State.visit visited queue (neighbours x)).visited
      ↔ y ∈ visited ∨ y ∈ neighbours x := State.mem_visited_foldl_meet
  have hqueue : ∀ {y}, y ∈ (State.visit visited queue (neighbours x)).queue
      ↔ y ∈ queue ∨ (y ∈ neighbours x ∧ y ∉ visited) := State.mem_queue_foldl_meet
  have hx : x ∈ visited := h.queued x List.mem_cons_self
  refine ⟨fun y hy => hvisited.2 (.inl (h.seeded y hy)), fun y hy => ?_, fun y hy => ?_,
    fun y hy => ?_⟩
  · rcases hqueue.1 hy with hold | hnew
    · exact hvisited.2 (.inl (h.queued y (List.mem_cons_of_mem x hold)))
    · exact hvisited.2 (.inr hnew.1)
  · rcases hvisited.1 hy with hold | hnew
    · exact h.reached y hold
    · exact (h.reached x hx).step hnew
  · by_cases hold : y ∈ visited
    · rcases h.expanded y hold with hq | hall
      · -- the node that has just been visited leaves the queue, its neighbours met
        rcases List.mem_cons.1 hq with rfl | hq
        · exact .inr fun z hz => hvisited.2 (.inr hz)
        · exact .inl (hqueue.2 (.inl hq))
      · exact .inr fun z hz => hvisited.2 (.inl (hall z hz))
    · exact .inl (hqueue.2 (.inr ⟨(hvisited.1 hy).resolve_left hold, hold⟩))

/-- **A walk keeps the invariant to its end**, where the queue is empty. -/
theorem Invariant.run {s : State n} (h : Invariant neighbours seeds s) :
    Invariant neighbours seeds ⟨run neighbours s, []⟩ := by
  induction s using run.induct neighbours with
  | case1 visited =>
    rw [Walk.run]
    exact h
  | case2 visited x queue ih =>
    rw [Walk.run]
    exact ih h.visit

/-- **A walk meets exactly what can be reached from its seeds.** -/
theorem mem_reach {x : Fin n} :
    x ∈ reach neighbours seeds ↔ Reachable neighbours seeds x := by
  have h : Invariant neighbours seeds ⟨reach neighbours seeds, []⟩ :=
    (invariant_seeds neighbours seeds).run
  constructor
  · exact h.reached x
  · rintro ⟨seed, hseed, hpath⟩
    -- with nothing queued, what has been met is closed under going to a neighbour
    induction hpath with
    | refl => exact h.seeded seed hseed
    | tail _ hy ih => exact (h.expanded _ ih).resolve_left List.not_mem_nil _ hy

end TypeAtlas.Walk
