import Mathlib.Data.List.Induction
import Mathlib.Tactic.Abel
import OefCore.Library.PriorityQueue
import OefCore.Threading.Taskpool

/-
  Delayed tasks: `Taskpool::after`, and how
  `lockless_getNextFutureWork` takes them out again.

  `future_tasks` is any priority queue that yields a task of
  least due time.  A call of `after` is known by the due time
  that it computes, whatever the delay.

  Main declarations:
    * `getNextFutureWork`, `GivesOut`
    * `DelayedEvent`, `DelayedRun`
    * `DelayedRun.inOrder`
    * `sortedTasks`, `nextFuture_sortedTasks`
-/

namespace OefCore

variable {T : Type}

/- `std::priority_queue` with `FutureTaskOrdering`. -/
abbrev FutureTasks (T : Type) :=
  PriorityQueue (FutureTask.due : FutureTask T → Nat)

------------------------------------------------------------
-- One Call
------------------------------------------------------------

/- `lockless_getNextFutureWork`: due tasks are taken from the
   queue until there is one that was not cancelled. -/
def getNextFutureWork
    (futureTasks : FutureTasks T)
    (cancelled : T → Bool)
    (now : Nat)
    (queue : futureTasks.Queue) :
    Option (FutureTask T) × futureTasks.Queue :=
  match _hTop : futureTasks.top queue with
  | none => (none, queue)
  | some top =>
      if top.due ≤ now then
        if cancelled top.task then
          getNextFutureWork futureTasks cancelled now
            (futureTasks.pop queue)
        else
          (some top, futureTasks.pop queue)
      else
        (none, queue)
termination_by (futureTasks.contents queue).card
decreasing_by
  exact futureTasks.card_pop_lt _hTop

/-
  What a call at some time gives out of the queued tasks, and
  what it leaves: the others are left, or were cancelled.
-/
structure GivesOut
    (cancelled : T → Bool)
    (now : Nat)
    (queued : Multiset (FutureTask T))
    (result : Option (FutureTask T))
    (left : Multiset (FutureTask T)) : Prop where
  due :
    ∀ futureTask, result = some futureTask →
      futureTask.due ≤ now ∧
        cancelled futureTask.task = false
  least :
    ∀ futureTask, result = some futureTask →
      ∀ other ∈ queued, cancelled other.task = false →
        futureTask.due ≤ other.due
  noneDue :
    result = none →
      ∀ other ∈ left, cancelled other.task = false →
        now < other.due
  split :
    ∃ dropped : Multiset (FutureTask T),
      (∀ other ∈ dropped, cancelled other.task = true) ∧
        queued =
          dropped + Multiset.ofList result.toList + left

theorem givesOut_getNextFutureWork
    (futureTasks : FutureTasks T)
    (cancelled : T → Bool)
    (now : Nat)
    (queue : futureTasks.Queue) :
    GivesOut cancelled now (futureTasks.contents queue)
      (getNextFutureWork futureTasks cancelled now queue).1
      (futureTasks.contents
        (getNextFutureWork futureTasks cancelled now
          queue).2) := by
  fun_induction getNextFutureWork futureTasks cancelled now queue with
  | case1 queue hTop =>
      have hNone := futureTasks.contents_of_none queue hTop
      constructor
      · intro futureTask hSome
        cases hSome
      · intro futureTask hSome
        cases hSome
      · intro _ other hOther
        rw [hNone] at hOther
        cases hOther
      · exact ⟨0, by simp, by simp⟩
  | case2 queue top hTop hDue hCancelled ih =>
      have hContents :=
        futureTasks.contents_of_some queue top hTop
      constructor
      · exact ih.due
      · intro futureTask hSome other hOther hLive
        rw [hContents] at hOther
        rcases Multiset.mem_cons.mp hOther with hEq | hRest
        · rw [hEq, hCancelled] at hLive
          cases hLive
        · exact ih.least futureTask hSome other hRest hLive
      · exact ih.noneDue
      · rcases ih.split with ⟨dropped, hDropped, hSplit⟩
        refine ⟨top ::ₘ dropped, ?_, ?_⟩
        · intro other hOther
          rcases Multiset.mem_cons.mp hOther with hEq | hRest
          · rw [hEq]
            exact hCancelled
          · exact hDropped other hRest
        · rw [hContents, hSplit, Multiset.cons_add,
            Multiset.cons_add]
  | case3 queue top hTop hDue hCancelled =>
      constructor
      · intro futureTask hSome
        cases hSome
        exact ⟨hDue, by simpa using hCancelled⟩
      · intro futureTask hSome other hOther _
        cases hSome
        exact futureTasks.key_top_le queue top hTop other hOther
      · intro hNone
        cases hNone
      · refine ⟨0, by simp, ?_⟩
        rw [futureTasks.contents_of_some queue top hTop]
        simp
  | case4 queue top hTop hDue =>
      constructor
      · intro futureTask hSome
        cases hSome
      · intro futureTask hSome
        cases hSome
      · intro _ other hOther _
        have hLe :=
          futureTasks.key_top_le queue top hTop other hOther
        omega
      · exact ⟨0, by simp, by simp⟩

------------------------------------------------------------
-- Runs
------------------------------------------------------------

/- `getNext` is a call of `lockless_getNextFutureWork`. -/
inductive DelayedEvent (T : Type) where
  | after (task : T) (due : Nat)
  | cancel (task : T)
  | getNext (now : Nat)

/- `queued` and `returned` keep track of all entries that ever
   were. -/
structure DelayedRun (futureTasks : FutureTasks T) where
  queue : futureTasks.Queue
  cancelled : T → Bool
  queued : Multiset (FutureTask T)
  returned : Multiset (FutureTask T)

namespace DelayedRun

variable {futureTasks : FutureTasks T}

def start (futureTasks : FutureTasks T) :
    DelayedRun futureTasks where
  queue := futureTasks.empty
  cancelled := fun _ => false
  queued := 0
  returned := 0

def getNext
    (r : DelayedRun futureTasks)
    (now : Nat) :
    Option (FutureTask T) × futureTasks.Queue :=
  getNextFutureWork futureTasks r.cancelled now r.queue

variable [DecidableEq T]

def step
    (r : DelayedRun futureTasks) :
    DelayedEvent T → DelayedRun futureTasks
  | .after task due =>
      { r with
        queue :=
          futureTasks.push r.queue { task := task, due := due }
        queued := { task := task, due := due } ::ₘ r.queued }
  | .cancel task =>
      { r with
        cancelled := Function.update r.cancelled task true }
  | .getNext now =>
      { r with
        queue := (r.getNext now).2
        returned :=
          Multiset.ofList (r.getNext now).1.toList +
            r.returned }

def run
    (r : DelayedRun futureTasks)
    (events : List (DelayedEvent T)) :
    DelayedRun futureTasks :=
  events.foldl step r

theorem run_snoc
    (r : DelayedRun futureTasks)
    (events : List (DelayedEvent T))
    (event : DelayedEvent T) :
    r.run (events ++ [event]) = (r.run events).step event := by
  simp [run]

/- Each entry is in the queue, or was returned, once for each
   time it was queued, or it was cancelled. -/
def Accounted (r : DelayedRun futureTasks) : Prop :=
  ∃ dropped : Multiset (FutureTask T),
    (∀ entry ∈ dropped, r.cancelled entry.task = true) ∧
      r.queued =
        dropped + r.returned + futureTasks.contents r.queue

omit [DecidableEq T] in
theorem accounted_start :
    (start futureTasks).Accounted := by
  refine ⟨0, by simp, ?_⟩
  simp [start, futureTasks.contents_empty]

theorem Accounted.step
    {r : DelayedRun futureTasks}
    (hAccounted : r.Accounted)
    (event : DelayedEvent T) :
    (r.step event).Accounted := by
  rcases hAccounted with ⟨dropped, hDropped, hQueued⟩
  cases event with
  | after task due =>
      refine ⟨dropped, hDropped, ?_⟩
      simp only [DelayedRun.step]
      rw [futureTasks.contents_push, hQueued,
        Multiset.add_cons]
  | cancel task =>
      refine ⟨dropped, ?_, hQueued⟩
      intro entry hEntry
      simp only [DelayedRun.step]
      by_cases hTask : entry.task = task
      · rw [hTask, Function.update_self]
      · rw [Function.update_of_ne hTask]
        exact hDropped entry hEntry
  | getNext now =>
      have hGives :=
        givesOut_getNextFutureWork futureTasks r.cancelled now
          r.queue
      rcases hGives.split with ⟨gone, hGone, hSplit⟩
      refine ⟨dropped + gone, ?_, ?_⟩
      · intro entry hEntry
        rcases Multiset.mem_add.mp hEntry with hOld | hNew
        · exact hDropped entry hOld
        · exact hGone entry hNew
      · simp only [DelayedRun.step]
        rw [hQueued, hSplit]
        simp only [getNext]
        abel

/-
  Delayed tasks come out when they are due, least due time
  first, each as often as it was queued; and only cancelled
  ones are passed over.
-/
theorem inOrder
    (futureTasks : FutureTasks T)
    (events : List (DelayedEvent T)) :
    ((start futureTasks).run events).Accounted ∧
      ∀ now,
        GivesOut ((start futureTasks).run events).cancelled now
          (futureTasks.contents
            ((start futureTasks).run events).queue)
          (((start futureTasks).run events).getNext now).1
          (futureTasks.contents
            (((start futureTasks).run events).getNext
              now).2) := by
  constructor
  · induction events using List.reverseRecOn with
    | nil => exact accounted_start
    | append_singleton front event ih =>
        rw [run_snoc]
        exact ih.step event
  · intro now
    exact givesOut_getNextFutureWork futureTasks _ now _

end DelayedRun

------------------------------------------------------------
-- Sorted Tasks
------------------------------------------------------------

theorem mem_pushFuture_iff
    (futureTask other : FutureTask T)
    (queue : List (FutureTask T)) :
    other ∈ Taskpool.pushFuture futureTask queue ↔
      other = futureTask ∨ other ∈ queue := by
  induction queue with
  | nil => simp [Taskpool.pushFuture]
  | cons first rest ih =>
      unfold Taskpool.pushFuture
      split
      · rw [List.mem_cons]
      · rw [List.mem_cons, ih, List.mem_cons]
        tauto

theorem perm_pushFuture
    (futureTask : FutureTask T)
    (queue : List (FutureTask T)) :
    (Taskpool.pushFuture futureTask queue).Perm
      (futureTask :: queue) := by
  induction queue with
  | nil => exact List.Perm.refl _
  | cons first rest ih =>
      unfold Taskpool.pushFuture
      split
      · exact List.Perm.refl _
      · exact (ih.cons first).trans (List.Perm.swap _ _ _)

theorem pairwise_pushFuture
    (futureTask : FutureTask T)
    {queue : List (FutureTask T)}
    (hSorted : queue.Pairwise (·.due ≤ ·.due)) :
    (Taskpool.pushFuture futureTask queue).Pairwise
      (·.due ≤ ·.due) := by
  induction queue with
  | nil => exact List.pairwise_singleton _ _
  | cons first rest ih =>
      rcases List.pairwise_cons.mp hSorted with ⟨hFirst, hRest⟩
      unfold Taskpool.pushFuture
      split
      · rename_i hOrdering
        have hLe : futureTask.due ≤ first.due := by
          unfold futureTaskOrdering at hOrdering
          split at hOrdering
          · cases hOrdering
          · omega
        apply List.pairwise_cons.mpr
        refine ⟨?_, hSorted⟩
        intro other hOther
        rcases List.mem_cons.mp hOther with hEq | hIn
        · rw [hEq]
          exact hLe
        · exact Nat.le_trans hLe (hFirst other hIn)
      · rename_i hOrdering
        have hLe : first.due ≤ futureTask.due := by
          unfold futureTaskOrdering at hOrdering
          split at hOrdering
          · omega
          · exact absurd rfl hOrdering
        apply List.pairwise_cons.mpr
        refine ⟨?_, ih hRest⟩
        intro other hOther
        rcases (mem_pushFuture_iff _ _ _).mp hOther with
          hEq | hIn
        · rw [hEq]
          exact hLe
        · exact hFirst other hIn

/- The tasks to come in the order in which they come out, as
   the pool keeps them. -/
def sortedTasks : FutureTasks T where
  Queue :=
    { queue : List (FutureTask T) //
      queue.Pairwise (·.due ≤ ·.due) }
  empty := ⟨[], List.Pairwise.nil⟩
  push := fun queue entry =>
    ⟨Taskpool.pushFuture entry queue.1,
      pairwise_pushFuture entry queue.2⟩
  top := fun queue => queue.1.head?
  pop := fun queue => ⟨queue.1.tail, queue.2.tail⟩
  contents := fun queue => Multiset.ofList queue.1
  contents_empty := rfl
  contents_push := by
    intro queue entry
    exact Multiset.coe_eq_coe.mpr (perm_pushFuture entry queue.1)
  contents_of_none := by
    intro queue hTop
    rw [List.head?_eq_none_iff.mp hTop]
    rfl
  contents_of_some := by
    rintro ⟨queue, hSorted⟩ entry hTop
    cases queue with
    | nil => cases hTop
    | cons first rest =>
        cases hTop
        rfl
  key_top_le := by
    rintro ⟨queue, hSorted⟩ entry hTop other hOther
    cases queue with
    | nil => cases hTop
    | cons first rest =>
        cases hTop
        rcases List.mem_cons.mp hOther with hEq | hRest
        · rw [hEq]
        · exact (List.pairwise_cons.mp hSorted).1 other hRest

/- On sorted tasks, the loop is the one of the pool. -/
theorem nextFuture_sortedTasks
    (cancelled : T → Bool)
    (now : Nat)
    (queue : (sortedTasks (T := T)).Queue) :
    Taskpool.nextFuture cancelled now queue.1 =
      ((getNextFutureWork sortedTasks cancelled now
          queue).1.map FutureTask.task,
        (getNextFutureWork sortedTasks cancelled now
          queue).2.1) := by
  fun_induction getNextFutureWork sortedTasks cancelled now
      queue with
  | case1 queue hTop =>
      have hNil := List.head?_eq_none_iff.mp hTop
      rw [hNil]
      rfl
  | case2 queue top hTop hDue hCancelled ih =>
      rcases List.head?_eq_some_iff.mp hTop with ⟨rest, hQueue⟩
      rw [hQueue, Taskpool.nextFuture, if_pos hDue,
        if_pos hCancelled, ← ih]
      simp [sortedTasks, hQueue]
  | case3 queue top hTop hDue hCancelled =>
      rcases List.head?_eq_some_iff.mp hTop with ⟨rest, hQueue⟩
      rw [hQueue, Taskpool.nextFuture, if_pos hDue,
        if_neg hCancelled]
      simp [sortedTasks, hQueue]
  | case4 queue top hTop hDue =>
      rcases List.head?_eq_some_iff.mp hTop with ⟨rest, hQueue⟩
      rw [hQueue, Taskpool.nextFuture, if_neg hDue]
      rfl

end OefCore
