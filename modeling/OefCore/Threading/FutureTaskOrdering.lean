import OefCore.Library.Comparator
import OefCore.Threading.Taskpool

/-
  The comparator of the tasks that are put off: which laws of
  a strict weak ordering it satisfies.

  Main declarations:
    * `OrdersByDue`
    * `ordersByDue_greater`
    * `ordersByDue_futureTaskOrdering_iff`
-/

namespace OefCore

open Comparator

variable {T : Type}

/-
  What `std::priority_queue` asks of the comparator of a set of
  tasks, and what the pool asks of what comes out first.
-/
structure OrdersByDue
    (comp : FutureTask T → FutureTask T → Bool)
    (tasks : Set (FutureTask T)) : Prop where
  strictWeak : StrictWeak comp tasks
  due_le :
    ∀ first, Topmost comp tasks first →
      ∀ other ∈ tasks, first.due ≤ other.due

theorem futureTaskOrdering_eq_notLess :
    futureTaskOrdering (T := T) = notLess FutureTask.due := by
  funext a b
  unfold futureTaskOrdering notLess
  split
  · rename_i hLess
    simp [hLess]
  · rename_i hNotLess
    simp [hNotLess]

/- The `>` that the source's comment asks for would do. -/
theorem ordersByDue_greater (tasks : Set (FutureTask T)) :
    OrdersByDue (greater FutureTask.due) tasks := by
  refine ⟨strictWeak_greater FutureTask.due tasks, ?_⟩
  intro first hFirst
  exact (topmost_greater_iff.mp hFirst).2

/- It is what the source computes, ties apart. -/
theorem futureTaskOrdering_eq_greater_iff
    (a b : FutureTask T) :
    futureTaskOrdering a b = greater FutureTask.due a b ↔
      a.due ≠ b.due := by
  rw [futureTaskOrdering_eq_notLess]
  exact notLess_eq_greater_iff

/-
  No set of tasks is ordered lawfully, unless it is empty: a
  task compares less than itself, and so do two tasks that are
  due at one time, either way. The other laws hold.
-/
theorem ordersByDue_futureTaskOrdering_iff
    (tasks : Set (FutureTask T)) :
    (OrdersByDue futureTaskOrdering tasks ↔ tasks = ∅) ∧
    ((∀ a ∈ tasks, ∀ b ∈ tasks, a ≠ b →
        futureTaskOrdering a b = true →
          futureTaskOrdering b a = false) ↔
      Set.InjOn FutureTask.due tasks) ∧
    (∀ a b c : FutureTask T,
      futureTaskOrdering a b = true →
        futureTaskOrdering b c = true →
          futureTaskOrdering a c = true) ∧
    (∀ a b : FutureTask T,
      ¬ Incomparable futureTaskOrdering a b) ∧
    ∀ first, Topmost futureTaskOrdering tasks first →
      ∀ other ∈ tasks, first.due ≤ other.due := by
  rw [futureTaskOrdering_eq_notLess]
  refine ⟨?_, asymm_notLess_iff _ _,
    fun _ _ _ => notLess_trans,
    fun _ _ => not_incomparable_notLess,
    fun _ hFirst _ => le_of_topmost_notLess hFirst⟩
  constructor
  · intro hOrders
    exact (strictWeak_notLess_iff _ _).mp hOrders.strictWeak
  · intro hEmpty
    exact ⟨(strictWeak_notLess_iff _ _).mpr hEmpty,
      fun _ hFirst _ => le_of_topmost_notLess hFirst⟩

/- Two tasks due at one time, each less than the other. -/
theorem not_ordersByDue_tie :
    futureTaskOrdering (FutureTask.mk 1 5)
        (FutureTask.mk 1 5) = true ∧
      futureTaskOrdering (FutureTask.mk 1 5)
        (FutureTask.mk 2 5) = true ∧
      futureTaskOrdering (FutureTask.mk 2 5)
        (FutureTask.mk 1 5) = true ∧
      ¬ OrdersByDue futureTaskOrdering
        {FutureTask.mk 1 5, FutureTask.mk 2 5} := by
  refine ⟨by decide, by decide, by decide, ?_⟩
  intro hOrders
  have hSelf :=
    hOrders.strictWeak.irrefl (FutureTask.mk 1 5)
      (Set.mem_insert _ _)
  exact absurd hSelf (by decide)

end OefCore
