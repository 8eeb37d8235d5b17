import Mathlib.Algebra.Order.BigOperators.Group.List
import Mathlib.Algebra.Order.Ring.Nat
import OefCore.Threading.TwoWorkers

/-
  What `cancelTaskGroup` does to the tasks of a group, and to
  those of the others.

  Main declarations:
    * `PoolRun.starts`, `PoolRun.NeverStarts`
    * `PoolRun.GroupCancelled`, `PoolRun.NoneToCome`
    * `PoolRun.groupCancelled_iff`
-/

namespace OefCore

namespace PoolRun

variable {T : Type}
variable [DecidableEq T]

------------------------------------------------------------
-- What Is Promised
------------------------------------------------------------

/- An event runs a task: a worker takes it, and finds it not
   cancelled. -/
def Starts
    (r : PoolRun T)
    (event : PoolEvent T)
    (task : T) : Prop :=
  r.popped event = some task ∧
    (r.pool.tasks task).cancelled = false

/- Whatever happens, the task is not run. -/
def NeverStarts
    (r : PoolRun T)
    (task : T) : Prop :=
  ∀ front event, ¬ (r.run front).Starts event task

/- A task of the group that is in the pool, and that no worker
   runs. -/
def InGroup
    (r : PoolRun T)
    (groupId : Nat)
    (task : T) : Prop :=
  (r.pool.tasks task).groupId = groupId ∧
    0 < r.pool.copies task ∧
      ∀ worker, r.pool.runningTasks worker ≠ some task

/- Where a task is, and whether it was cancelled. -/
structure Alike
    (r next : PoolRun T)
    (task : T) : Prop where
  pending :
    next.pool.pendingTasks.count task =
      r.pool.pendingTasks.count task
  suspended :
    next.pool.suspendedTasks task = r.pool.suspendedTasks task
  future :
    ∀ futureTask, futureTask.task = task →
      next.pool.futureTasks.count futureTask =
        r.pool.futureTasks.count futureTask
  running : next.pool.runningTasks = r.pool.runningTasks
  task : next.pool.tasks task = r.pool.tasks task

/-
  After a group was cancelled, no task of it that was in the
  pool is ever run, and those of other groups are as they
  were.
-/
structure GroupCancelled
    (r : PoolRun T)
    (groupId : Nat) : Prop where
  never :
    ∀ task, r.InGroup groupId task →
      (r.step (.cancelTaskGroup groupId)).NeverStarts task
  others :
    ∀ task, (r.pool.tasks task).groupId ≠ groupId →
      Alike r (r.step (.cancelTaskGroup groupId)) task

/- No task of the group is to come that is not cancelled yet,
   nor will be for being pending or suspended as well. -/
def NoneToCome
    (r : PoolRun T)
    (groupId : Nat) : Prop :=
  ∀ futureTask ∈ r.pool.futureTasks,
    r.InGroup groupId futureTask.task →
      (r.pool.tasks futureTask.task).cancelled = true ∨
        r.pool.ofGroup groupId futureTask.task = true

------------------------------------------------------------
-- Cancelled Tasks
------------------------------------------------------------

variable {r : PoolRun T}
variable {task : T}

theorem cancelled_of_taken
    {pool next : Taskpool T}
    {taken : T}
    (hTaken : Taskpool.Taken pool next taken)
    (other : T) :
    (next.tasks other).cancelled =
      (pool.tasks other).cancelled := by
  by_cases hOther : other = taken
  · rw [hOther, hTaken.tasks_task]
  · rw [hTaken.tasks_other other hOther]

/- What no operation of a pool undoes: the group of a task,
   and that it was cancelled. -/
structure Aged (before after : PoolTask) : Prop where
  groupId : after.groupId = before.groupId
  cancelled :
    before.cancelled = true → after.cancelled = true

theorem aged_refl (task : PoolTask) : Aged task task where
  groupId := rfl
  cancelled hCancelled := hCancelled

theorem aged_setPool
    (pool : Taskpool T)
    (set other : T)
    (value : Bool) :
    Aged (pool.tasks other)
      ((pool.setPool set value).tasks other) := by
  by_cases hOther : other = set
  · rw [hOther, Taskpool.tasks_setPool_self]
    exact ⟨rfl, fun hCancelled => hCancelled⟩
  · rw [Taskpool.tasks_setPool_of_ne _ hOther]
    exact aged_refl _

theorem aged_taken
    {pool next : Taskpool T}
    {taken : T}
    (hTaken : Taskpool.Taken pool next taken)
    (other : T) :
    Aged (pool.tasks other) (next.tasks other) := by
  by_cases hOther : other = taken
  · rw [hOther, hTaken.tasks_task]
    exact ⟨rfl, fun hCancelled => hCancelled⟩
  · rw [hTaken.tasks_other other hOther]
    exact aged_refl _

theorem aged_step
    (r : PoolRun T)
    (event : PoolEvent T)
    (task : T) :
    Aged (r.pool.tasks task)
      ((r.step event).pool.tasks task) := by
  cases event with
  | submit submitted isRunnable =>
      simp only [step, Taskpool.tasks_submit]
      exact aged_setPool _ _ _ _
  | submitAfter submitted now delay =>
      simp only [step, Taskpool.tasks_submitAfter]
      exact aged_setPool _ _ _ _
  | popFuture worker now =>
      simp only [step]
      split
      · rcases r.pool.futureWork_cases now with
          ⟨popped, pool, hPop, hTaken, _⟩ |
            ⟨dropped, futureTasks, hPop, _⟩
        · rw [hPop]
          exact aged_taken hTaken task
        · rw [hPop]
          exact aged_refl _
      · exact aged_refl _
  | popPending worker =>
      simp only [step]
      split
      · cases hPop : r.pool.popPending with
        | mk popped pool =>
            cases popped with
            | none =>
                rw [Taskpool.popPending_none hPop]
                exact aged_refl _
            | some popped =>
                exact aged_taken
                  (Taskpool.taken_popPending hPop) task
      · exact aged_refl _
  | result worker status =>
      simp only [step]
      split
      · exact aged_refl _
      · rename_i done _
        cases status with
        | defer =>
            exact aged_setPool (r.pool.eraseRunning worker)
              done task true
        | _ => exact aged_refl _
  | makeRunnable woken =>
      simp only [step, Taskpool.tasks_wakeTask]
      exact aged_refl _
  | cancel cancelled =>
      simp only [step]
      by_cases hTask : task = cancelled
      · rw [hTask, Taskpool.tasks_cancel_self]
        exact ⟨rfl, fun _ => rfl⟩
      · rw [Taskpool.tasks_cancel_of_ne _ hTask]
        exact aged_refl _
  | cancelTaskGroup groupId =>
      simp only [step, Taskpool.cancelTaskGroup]
      split
      · exact ⟨rfl, fun _ => rfl⟩
      · exact aged_refl _

/- A task stays cancelled. -/
theorem cancelled_step
    (hCancelled : (r.pool.tasks task).cancelled = true)
    (event : PoolEvent T) :
    ((r.step event).pool.tasks task).cancelled = true :=
  (aged_step r event task).cancelled hCancelled

theorem neverStarts_of_cancelled
    (hCancelled : (r.pool.tasks task).cancelled = true) :
    r.NeverStarts task := by
  have hStill : ∀ front,
      ((r.run front).pool.tasks task).cancelled = true := by
    intro front
    induction front using List.reverseRecOn with
    | nil => exact hCancelled
    | append_singleton most last ih =>
        rw [run_snoc]
        exact cancelled_step ih last
  intro front event hStarts
  have hNot := hStill front
  rw [hStarts.2] at hNot
  cases hNot

------------------------------------------------------------
-- Tasks That Are Run
------------------------------------------------------------

/- Only finitely many workers have a task. -/
theorem idle_from
    (groupId : T → Nat)
    (events : List (PoolEvent T)) :
    ∃ first, ∀ worker, first ≤ worker →
      ((start groupId).run events).pool.runningTasks worker =
        none := by
  induction events using List.reverseRecOn with
  | nil => exact ⟨0, fun _ _ => rfl⟩
  | append_singleton most event ih =>
      rcases ih with ⟨first, hIdle⟩
      rw [run_snoc]
      rcases runningTasks_step _ event with
        ⟨worker, taken, _, _, _, hRunning⟩ | ⟨_, hRunning⟩
      · refine ⟨max first (worker + 1), ?_⟩
        intro thread hThread
        rw [hRunning, Function.update_of_ne (by omega)]
        exact hIdle thread (by omega)
      · refine ⟨first, ?_⟩
        intro thread hThread
        cases hSome :
            ((run (start groupId) most).step
              event).pool.runningTasks thread with
        | none => rfl
        | some taken =>
            have hBefore := hRunning thread taken hSome
            rw [hIdle thread hThread] at hBefore
            cases hBefore

/- Dropping cancelled tasks leaves the others. -/
omit [DecidableEq T] in
theorem mem_of_dropped
    {dropped rest : List (FutureTask T)}
    {futureTask : FutureTask T}
    (hMem : futureTask ∈ dropped ++ rest)
    (hDropped : ∀ other ∈ dropped,
      (r.pool.tasks other.task).cancelled = true)
    (hNot :
      (r.pool.tasks futureTask.task).cancelled = false) :
    futureTask ∈ rest := by
  rcases List.mem_append.mp hMem with hGone | hRest
  · have hTrue := hDropped futureTask hGone
    rw [hNot] at hTrue
    cases hTrue
  · exact hRest

/- Once all tasks to come are due, one of them is taken, unless
   all of them are cancelled. -/
theorem exists_taken
    {futureTask : FutureTask T}
    (hMem : futureTask ∈ r.pool.futureTasks)
    (hNot :
      (r.pool.tasks futureTask.task).cancelled = false)
    {now : Nat}
    (hDue :
      ∀ other ∈ r.pool.futureTasks, other.due ≤ now) :
    ∃ taken pool,
      r.pool.locklessGetNextFutureWork now =
          (some taken, pool) ∧
        Taskpool.Taken r.pool pool taken ∧
        pool.futureTasks.length < r.pool.futureTasks.length ∧
        (futureTask.task ≠ taken →
          futureTask ∈ pool.futureTasks) := by
  rcases r.pool.futureWork_cases now with
    ⟨taken, pool, hPop, hTaken, _, dropped, top, hSplit,
      hDropped, hTop, _⟩ |
    ⟨dropped, rest, hPop, hSplit, hDropped, hLater⟩
  · refine ⟨taken, pool, hPop, hTaken, ?_, ?_⟩
    · rw [hSplit, List.length_append, List.length_cons]
      omega
    · intro hTask
      rw [hSplit] at hMem
      rcases List.mem_cons.mp
          (mem_of_dropped hMem hDropped hNot) with
        hHead | hRest
      · rw [hHead] at hTask
        exact absurd hTop hTask
      · exact hRest
  · rw [hSplit] at hMem
    have hRest := mem_of_dropped hMem hDropped hNot
    cases rest with
    | nil => cases hRest
    | cons first others =>
        have hLate := hLater first rfl
        have hSoon := hDue first (by
          rw [hSplit]
          simp)
        omega

/- A worker that is idle takes a task and completes it. -/
theorem pool_of_completed
    (now : Nat)
    {worker : Nat}
    (hIdle : r.pool.runningTasks worker = none)
    {taken : T}
    {pool : Taskpool T}
    (hPop :
      r.pool.locklessGetNextFutureWork now =
        (some taken, pool)) :
    ((r.step (.popFuture worker now)).step
        (.result worker .complete)).pool =
      (pool.markRunning worker taken).eraseRunning worker := by
  have hStep :
      r.step (.popFuture worker now) =
        { r with pool := pool.markRunning worker taken } := by
    simp only [step, hIdle, hPop, runPopped]
  rw [hStep]
  simp [step, result, Taskpool.markRunning]

/-
  A task to come that is not cancelled can be run: a worker
  takes what is due, one after the other.
-/
theorem exists_starts
    {worker : Nat}
    (hIdle : r.pool.runningTasks worker = none)
    {futureTask : FutureTask T}
    (hMem : futureTask ∈ r.pool.futureTasks)
    (hNot :
      (r.pool.tasks futureTask.task).cancelled = false) :
    ¬ r.NeverStarts futureTask.task := by
  -- induction on the number of tasks to come
  generalize hLength : r.pool.futureTasks.length = length
  induction length using Nat.strong_induction_on
    generalizing r with
  | _ length ih =>
      let now :=
        (r.pool.futureTasks.map FutureTask.due).sum
      have hDue :
          ∀ other ∈ r.pool.futureTasks, other.due ≤ now := by
        intro other hOther
        exact List.le_sum_of_mem (List.mem_map_of_mem hOther)
      rcases exists_taken hMem hNot hDue with
        ⟨taken, pool, hPop, hTaken, hShorter, hStill⟩
      intro hNever
      by_cases hTask : futureTask.task = taken
      · have hPopped :
            r.popped (.popFuture worker now) =
              some futureTask.task := by
          simp only [popped, hIdle, hPop, hTask]
        exact hNever [] (.popFuture worker now)
          ⟨hPopped, hNot⟩
      · have hNext := pool_of_completed now hIdle hPop
        refine ih pool.futureTasks.length (by omega)
          (r := (r.step (.popFuture worker now)).step
            (.result worker .complete)) ?_ ?_ ?_ ?_ ?_
        · rw [hNext]
          simp [Taskpool.eraseRunning]
        · rw [hNext]
          exact hStill hTask
        · rw [hNext]
          exact (cancelled_of_taken hTaken _).trans hNot
        · rw [hNext]
          rfl
        · intro front event hStarts
          exact hNever
            (.popFuture worker now ::
              .result worker .complete :: front)
            event hStarts

------------------------------------------------------------
-- Cancelling a Group
------------------------------------------------------------

theorem alike_cancelTaskGroup
    (r : PoolRun T)
    {groupId : Nat}
    {task : T}
    (hOther : (r.pool.tasks task).groupId ≠ groupId) :
    Alike r (r.step (.cancelTaskGroup groupId)) task where
  pending := by
    simp only [step, Taskpool.cancelTaskGroup]
    apply List.count_filter
    simpa using hOther
  suspended := by
    simp [step, Taskpool.cancelTaskGroup, hOther]
  future := fun _ _ => rfl
  running := rfl
  task := by
    simp [step, Taskpool.cancelTaskGroup, Taskpool.ofGroup,
      hOther]

/- A task of the group that was pending or suspended, or is
   cancelled already. -/
theorem cancelled_of_noneToCome
    {groupId : Nat}
    (hNone : r.NoneToCome groupId)
    (hGroup : r.InGroup groupId task) :
    ((r.step (.cancelTaskGroup groupId)).pool.tasks
      task).cancelled = true := by
  have hEither :
      (r.pool.tasks task).cancelled = true ∨
        r.pool.ofGroup groupId task = true := by
    rcases (Taskpool.copies_pos_iff _ _).mp hGroup.2.1 with
      hPending | hSuspended | ⟨futureTask, hMem, hTask⟩
    · right
      simp [Taskpool.ofGroup, hGroup.1, hPending]
    · right
      simp [Taskpool.ofGroup, hGroup.1, hSuspended]
    · have hCome := hNone futureTask hMem
      rw [hTask] at hCome
      exact hCome hGroup
  rcases hEither with hBefore | hNow
  · exact cancelled_step hBefore _
  · simp only [step, Taskpool.cancelTaskGroup, hNow, if_true]

/-
  In every state of a pool, cancelling a group is complete
  exactly if none of its tasks is to come in the future only.
-/
theorem groupCancelled_iff
    (groupId : T → Nat)
    (events : List (PoolEvent T))
    (group : Nat) :
    ((start groupId).run events).GroupCancelled group ↔
      ((start groupId).run events).NoneToCome group := by
  constructor
  · intro hCancelled futureTask hMem hGroup
    have hNever :=
      hCancelled.never futureTask.task hGroup
    by_contra hNeither
    rw [not_or] at hNeither
    rcases idle_from groupId events with ⟨worker, hIdle⟩
    have hIdleNow :
        (((start groupId).run events).step
          (.cancelTaskGroup group)).pool.runningTasks worker =
            none :=
      hIdle worker (Nat.le_refl _)
    have hNot :
        ((((start groupId).run events).step
          (.cancelTaskGroup group)).pool.tasks
            futureTask.task).cancelled = false := by
      simp only [step, Taskpool.cancelTaskGroup,
        if_neg hNeither.2]
      simpa using hNeither.1
    exact exists_starts hIdleNow hMem hNot hNever
  · intro hNone
    constructor
    · intro task hGroup
      apply neverStarts_of_cancelled
      exact cancelled_of_noneToCome hNone hGroup
    · exact fun _ hOther => alike_cancelTaskGroup _ hOther

/- A delayed task of the group is run when it is due. -/
theorem not_groupCancelled_of_delayed :
    ¬ ((start fun _ : Unit => 7).run
      [.submitAfter () 0 1000]).GroupCancelled 7 := by
  intro hCancelled
  have hNever := hCancelled.never () ⟨rfl, by decide, by
    intro worker hSome
    cases hSome⟩
  exact hNever [] (.popFuture 0 1000) ⟨rfl, rfl⟩

end PoolRun

end OefCore
