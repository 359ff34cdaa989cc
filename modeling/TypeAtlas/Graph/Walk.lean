/-!
# Breadth-first walks

A walk visits the nodes of a finite graph that can be reached from some seeds. It keeps
the nodes it has met and a queue of those among them that it has still to visit. Visiting
a node takes it off the queue and puts at the end those of its neighbours that have not
been met before. So a node is queued once: with every visit the queue gets one shorter,
and a node that makes it longer is one fewer to be met (`measure_meet`). Cycles need no
further care.
-/

namespace TypeAtlas.Walk

variable {n : Nat}

/-- **Where a walk stands.** -/
structure State (n : Nat) where
  /-- The nodes met so far. -/
  visited : List (Fin n) := []
  /-- The nodes met and not visited yet, the next one first. -/
  queue : List (Fin n) := []

namespace State

/-- The nodes not met so far. -/
def unmet (s : State n) : List (Fin n) := (List.finRange n).filter fun x => x ∉ s.visited

/-- What is left of a walk at most: the nodes in the queue and those that may still get
there. -/
def measure (s : State n) : Nat := s.unmet.length + s.queue.length

/-- A node is met: the first time, it is queued. -/
def meet (s : State n) (x : Fin n) : State n :=
  if x ∈ s.visited then s else ⟨x :: s.visited, s.queue ++ [x]⟩

/-- Meeting a node for the first time leaves fewer to be met. -/
theorem length_unmet_lt {s : State n} {x : Fin n} (h : x ∉ s.visited)
    (queue : List (Fin n)) :
    (State.mk (x :: s.visited) queue).unmet.length < s.unmet.length := by
  have hfilter : (State.mk (x :: s.visited) queue).unmet
      = s.unmet.filter fun y => y ≠ x := by
    rw [unmet, unmet, List.filter_filter]
    refine List.filter_congr fun y _ => ?_
    simp
  rw [hfilter]
  refine Nat.lt_of_le_of_ne (List.length_filter_le _ _) fun hlen => ?_
  have hall := List.length_filter_eq_length_iff.1 hlen x
    (List.mem_filter.2 ⟨List.mem_finRange x, by simpa using h⟩)
  simp at hall

/-- **Meeting a node makes no walk longer.** -/
theorem measure_meet (s : State n) (x : Fin n) : (s.meet x).measure ≤ s.measure := by
  unfold meet
  split
  · exact Nat.le_refl _
  · next h =>
    have hlt := length_unmet_lt h (s.queue ++ [x])
    simp only [measure, List.length_append, List.length_singleton]
    omega

theorem measure_foldl_meet (xs : List (Fin n)) (s : State n) :
    (xs.foldl meet s).measure ≤ s.measure := by
  induction xs generalizing s with
  | nil => exact Nat.le_refl _
  | cons x xs ih => exact Nat.le_trans (ih (s.meet x)) (measure_meet s x)

/-- The state after the visit of a node that was taken off the queue. -/
def visit (visited queue next : List (Fin n)) : State n := next.foldl meet ⟨visited, queue⟩

/-- **A visit leaves less of a walk.** -/
theorem measure_visit_lt (visited queue next : List (Fin n)) (x : Fin n) :
    (visit visited queue next).measure < (⟨visited, x :: queue⟩ : State n).measure := by
  have h : (visit visited queue next).measure ≤ (⟨visited, queue⟩ : State n).measure :=
    measure_foldl_meet next ⟨visited, queue⟩
  simp only [measure, unmet, List.length_cons] at h ⊢
  omega

end State

/-- **The nodes met by a walk** from a state on. -/
def run (neighbours : Fin n → List (Fin n)) : State n → List (Fin n)
  | ⟨visited, []⟩ => visited
  | ⟨visited, x :: queue⟩ => run neighbours (State.visit visited queue (neighbours x))
termination_by s => s.measure
decreasing_by exact State.measure_visit_lt visited queue (neighbours x) x

/-- **The nodes that can be reached** from some seeds, the seeds among them. -/
def reach (neighbours : Fin n → List (Fin n)) (seeds : List (Fin n)) : List (Fin n) :=
  run neighbours (seeds.foldl State.meet {})

end TypeAtlas.Walk
