import Mathlib.Data.List.Infix
import Mathlib.Tactic.Common

/-
  First-in first-out queues of bounded length.

  Of the values put into a queue, those that do not fit are
  left out; taking more values than there are takes them all.

  Main declarations:
    * `BoundedQueue`, `step`, `run`
    * `BoundedQueue.arrived_run`
-/

------------------------------------------------------------
-- Queues
------------------------------------------------------------

inductive BoundedQueue.Event (α : Type) where
  | put (values : List α)
  | get (count : Nat)

/- A queue, with the values that have ever been let in and
   those that have been taken out again. -/
structure BoundedQueue (α : Type) where
  queued : List α
  arrived : List α
  taken : List α

namespace BoundedQueue

variable {α : Type}

def empty : BoundedQueue α :=
  { queued := [], arrived := [], taken := [] }

def put
    (capacity : Nat)
    (q : BoundedQueue α)
    (values : List α) : BoundedQueue α :=
  let fitting := values.take (capacity - q.queued.length)
  { q with
    queued := q.queued ++ fitting
    arrived := q.arrived ++ fitting }

def get
    (q : BoundedQueue α)
    (count : Nat) : BoundedQueue α :=
  { q with
    queued := q.queued.drop count
    taken := q.taken ++ q.queued.take count }

def step
    (capacity : Nat)
    (q : BoundedQueue α) : Event α → BoundedQueue α
  | .put values => q.put capacity values
  | .get count => q.get count

def run
    (capacity : Nat)
    (events : List (Event α)) : BoundedQueue α :=
  events.foldl (step capacity) empty

theorem run_snoc
    (capacity : Nat)
    (events : List (Event α))
    (event : Event α) :
    run capacity (events ++ [event]) =
      (run capacity events).step capacity event := by
  simp only [run, List.foldl_append, List.foldl_cons,
    List.foldl_nil]

------------------------------------------------------------
-- Order of Arrival
------------------------------------------------------------

/- Values leave in the order of their arrival, and those that
   have not left are queued. -/
theorem arrived_run
    (capacity : Nat)
    (events : List (Event α)) :
    (run capacity events).arrived =
      (run capacity events).taken ++
        (run capacity events).queued := by
  induction events using List.reverseRecOn with
  | nil => rfl
  | append_singleton events event ih =>
      rw [run_snoc]
      cases event with
      | put values =>
          simp only [step, put, ih, List.append_assoc]
      | get count =>
          simp only [step, get, ih, List.append_assoc,
            List.take_append_drop]

end BoundedQueue
