import OefCore.Library.Runs
import OefCore.Threading.Taskpool

/-
  Conservation of tasks: where a task is that was submitted
  and has not finished, along runs of a pool.

  Taking a task and recording it as running are one step, as
  are recording that it ran and acting on its result.

  Main declarations:
    * `PoolEvent`, `PoolRun`, `PoolRun.step`
    * `PoolRun.Conserved`, `PoolRun.conserved`
-/

namespace OefCore

------------------------------------------------------------
-- Runs
------------------------------------------------------------

variable {T : Type}

/- What happens to a pool before it is stopped. -/
inductive PoolEvent (T : Type) where
  | submit (task : T) (isRunnable : Bool)
  | submitAfter (task : T) (now delay : Nat)
  | popFuture (worker now : Nat)
  | popPending (worker : Nat)
  | result (worker : Nat) (status : ExitState)
  | makeRunnable (task : T)
  | cancel (task : T)
  | cancelTaskGroup (groupId : Nat)

/- The task that an event submits. -/
def PoolEvent.submitted : PoolEvent T → Option T
  | submit task _ => some task
  | submitAfter task _ _ => some task
  | _ => none

/- `owed` says of a task that it was submitted, and that no
   run of it has finished since. -/
structure PoolRun (T : Type) where
  pool : Taskpool T
  owed : T → Bool

namespace PoolRun

variable [DecidableEq T]

def start (groupId : T → Nat) : PoolRun T where
  pool := Taskpool.construct groupId
  owed := fun _ => false

/- A worker runs what it took, if anything. -/
def runPopped
    (r : PoolRun T)
    (worker : Nat) : Option T × Taskpool T → PoolRun T
  | (none, pool) => { r with pool := pool }
  | (some task, pool) =>
      { r with pool := pool.markRunning worker task }

def result
    (r : PoolRun T)
    (worker : Nat)
    (task : T)
    (status : ExitState) : PoolRun T :=
  let pool := r.pool.eraseRunning worker
  match status with
  | .defer => { r with pool := pool.suspend task }
  | _ =>
      { pool := pool
        owed := Function.update r.owed task false }

/- Only a worker without a task takes one, and only one with a
   task has a result. -/
def step (r : PoolRun T) : PoolEvent T → PoolRun T
  | .submit task isRunnable =>
      { pool := r.pool.submit task isRunnable
        owed := Function.update r.owed task true }
  | .submitAfter task now delay =>
      { pool := r.pool.submitAfter task now delay
        owed := Function.update r.owed task true }
  | .popFuture worker now =>
      match r.pool.runningTasks worker with
      | none =>
          r.runPopped worker
            (r.pool.locklessGetNextFutureWork now)
      | some _ => r
  | .popPending worker =>
      match r.pool.runningTasks worker with
      | none => r.runPopped worker r.pool.popPending
      | some _ => r
  | .result worker status =>
      match r.pool.runningTasks worker with
      | none => r
      | some task => r.result worker task status
  | .makeRunnable task =>
      { r with pool := r.pool.wakeTask task }
  | .cancel task => { r with pool := r.pool.cancel task }
  | .cancelTaskGroup groupId =>
      { r with pool := r.pool.cancelTaskGroup groupId }

def run
    (r : PoolRun T)
    (events : List (PoolEvent T)) : PoolRun T :=
  events.foldl step r

theorem run_snoc
    (r : PoolRun T)
    (events : List (PoolEvent T))
    (event : PoolEvent T) :
    r.run (events ++ [event]) = (r.run events).step event := by
  simp [run]

------------------------------------------------------------
-- What Is Promised
------------------------------------------------------------

/- A task that is to be run: owed, and not cancelled. -/
def Due
    (r : PoolRun T)
    (task : T) : Prop :=
  r.owed task = true ∧ (r.pool.tasks task).cancelled = false

/- It is pending, suspended, due in the future, or running. -/
def Somewhere
    (r : PoolRun T)
    (task : T) : Prop :=
  task ∈ r.pool.pendingTasks ∨
    r.pool.suspendedTasks task = true ∨
      (∃ futureTask ∈ r.pool.futureTasks,
        futureTask.task = task) ∨
        ∃ worker, r.pool.runningTasks worker = some task

/- It is in one container once, or run by one worker; `copies`
   counts the pending, the suspended and the future one. -/
def Once
    (r : PoolRun T)
    (task : T) : Prop :=
  (r.pool.copies task = 1 ∧
    ∀ worker, r.pool.runningTasks worker ≠ some task) ∨
      (r.pool.copies task = 0 ∧
        ∃! worker, r.pool.runningTasks worker = some task)

/- No submission of the task is made while it is running. -/
def NotWhileRunning
    (r : PoolRun T)
    (task : T)
    (event : PoolEvent T) : Prop :=
  event.submitted = some task →
    ∀ worker, r.pool.runningTasks worker ≠ some task

def NeverResubmitted
    (r : PoolRun T)
    (events : List (PoolEvent T))
    (task : T) : Prop :=
  ∀ front event back,
    events = front ++ event :: back →
      (r.run front).NotWhileRunning task event

structure Conserved
    (r : PoolRun T)
    (events : List (PoolEvent T))
    (task : T) : Prop where
  somewhere :
    (r.run events).Due task → (r.run events).Somewhere task
  once :
    r.NeverResubmitted events task →
      (r.run events).Due task → (r.run events).Once task

------------------------------------------------------------
-- The Invariant
------------------------------------------------------------

/-
  A task with a pool pointer is in the pool, and a task that
  is owed is there or running, unless it was cancelled.
-/
structure Kept
    (r : PoolRun T)
    (task : T) : Prop where
  pool :
    (r.pool.tasks task).pool = true →
      (r.pool.tasks task).cancelled = false →
        0 < r.pool.copies task
  due :
    r.Due task →
      0 < r.pool.copies task ∨
        ∃ worker, r.pool.runningTasks worker = some task

def SingleAt
    (r : PoolRun T)
    (task : T) : Prop :=
  r.pool.Single r.pool.runningTasks task

theorem Kept.somewhere
    {r : PoolRun T}
    {task : T}
    (hKept : r.Kept task)
    (hDue : r.Due task) :
    r.Somewhere task := by
  rcases hKept.due hDue with hCopies | hRunning
  · rw [Taskpool.copies_pos_iff] at hCopies
    rcases hCopies with hPending | hSuspended | hFuture
    · exact Or.inl hPending
    · exact Or.inr (Or.inl hSuspended)
    · exact Or.inr (Or.inr (Or.inl hFuture))
  · exact Or.inr (Or.inr (Or.inr hRunning))

theorem Kept.once
    {r : PoolRun T}
    {task : T}
    (hKept : r.Kept task)
    (hSingle : r.SingleAt task)
    (hDue : r.Due task) :
    r.Once task := by
  have hLe := hSingle.copies_le
  by_cases hCopies : 0 < r.pool.copies task
  · left
    exact ⟨by omega, hSingle.not_held_of_copies hCopies⟩
  · right
    have hRunning :=
      (hKept.due hDue).resolve_left hCopies
    rcases hRunning with ⟨worker, hWorker⟩
    refine ⟨by omega, worker, hWorker, ?_⟩
    intro other hOther
    exact hSingle.held_unique other worker hOther hWorker

theorem kept_start
    (groupId : T → Nat)
    (task : T) :
    (start groupId).Kept task where
  pool hPool := by cases hPool
  due hDue := by cases hDue.1

------------------------------------------------------------
-- Steps
------------------------------------------------------------

section Steps

variable {r : PoolRun T}
variable {task : T}

/- A task that a step does not concern. -/
theorem Kept.unaffected
    (hKept : r.Kept task)
    {next : PoolRun T}
    (hTasks : next.pool.tasks task = r.pool.tasks task)
    (hCopies :
      (r.pool.tasks task).cancelled = false →
        next.pool.copies task = r.pool.copies task)
    (hOwed : next.owed task = true → r.owed task = true)
    (hRunning : ∀ worker,
      r.pool.runningTasks worker = some task →
        next.pool.runningTasks worker = some task) :
    next.Kept task := by
  constructor
  · intro hPool hUncancelled
    rw [hTasks] at hPool hUncancelled
    rw [hCopies hUncancelled]
    exact hKept.pool hPool hUncancelled
  · intro hDue
    rcases hDue with ⟨hNext, hUncancelled⟩
    rw [hTasks] at hUncancelled
    rcases hKept.due ⟨hOwed hNext, hUncancelled⟩ with
      hSome | ⟨worker, hWorker⟩
    · left
      rw [hCopies hUncancelled]
      exact hSome
    · exact Or.inr ⟨worker, hRunning worker hWorker⟩

/- A task that is in the pool. -/
theorem kept_of_copies
    (hSome : 0 < r.pool.copies task) :
    r.Kept task where
  pool _ _ := hSome
  due _ := Or.inl hSome

theorem Kept.runPopped
    (hKept : r.Kept task)
    {worker : Nat}
    {popped : T}
    {pool : Taskpool T}
    (hIdle : r.pool.runningTasks worker = none)
    (hTaken : Taskpool.Taken r.pool pool popped) :
    (r.runPopped worker (some popped, pool)).Kept task := by
  by_cases hTask : task = popped
  · subst hTask
    constructor
    · intro hPool
      have hNot : (pool.tasks task).pool = false := by
        rw [hTaken.tasks_task]
      have hStill : (pool.tasks task).pool = true := hPool
      rw [hNot] at hStill
      cases hStill
    · intro _
      right
      exact ⟨worker, Function.update_self _ _ _⟩
  · apply hKept.unaffected
    · exact hTaken.tasks_other task hTask
    · exact hTaken.copies_kept task hTask
    · exact fun hOwed => hOwed
    · intro thread hSome
      have hThread : thread ≠ worker := by
        intro hEq
        rw [hEq, hIdle] at hSome
        cases hSome
      simp only [PoolRun.runPopped, Taskpool.markRunning,
        Function.update_of_ne hThread, hTaken.runningTasks_eq]
      exact hSome

theorem Kept.popFuture
    (hKept : r.Kept task)
    (worker now : Nat) :
    (r.step (.popFuture worker now)).Kept task := by
  simp only [step]
  split
  · rename_i hIdle
    rcases r.pool.futureWork_cases now with
      ⟨popped, pool, hPop, hTaken, _⟩ |
        ⟨dropped, futureTasks, hPop, hSplit, hCancelled, _⟩
    · rw [hPop]
      exact hKept.runPopped hIdle hTaken
    · rw [hPop]
      apply hKept.unaffected
      · rfl
      · intro hUncancelled
        have hCopies := Taskpool.copies_dropped hSplit task
        have hNone := Taskpool.futureCopies_eq_zero hCancelled
          hUncancelled
        rw [hNone] at hCopies
        exact hCopies
      · exact fun hOwed => hOwed
      · exact fun _ hSome => hSome
  · exact hKept

theorem Kept.popPending
    (hKept : r.Kept task)
    (worker : Nat) :
    (r.step (.popPending worker)).Kept task := by
  simp only [step]
  split
  · rename_i hIdle
    cases hPop : r.pool.popPending with
    | mk popped pool =>
        cases popped with
        | none =>
            rw [Taskpool.popPending_none hPop]
            exact hKept
        | some popped =>
            exact hKept.runPopped hIdle
              (Taskpool.taken_popPending hPop)
  · exact hKept

/- The result of a task, seen from another task. -/
omit [DecidableEq T] in
theorem erased_of_ne
    {pool : Taskpool T}
    {worker thread : Nat}
    {done other : T}
    (hDone : pool.runningTasks worker = some done)
    (hNe : other ≠ done)
    (hSome : pool.runningTasks thread = some other) :
    (pool.eraseRunning worker).runningTasks thread =
      some other := by
  have hThread : thread ≠ worker := by
    intro hEq
    rw [hEq, hDone, Option.some.injEq] at hSome
    exact hNe hSome.symm
  unfold Taskpool.eraseRunning
  simp only [Function.update_of_ne hThread]
  exact hSome

theorem Kept.result
    (hKept : r.Kept task)
    {worker : Nat}
    {done : T}
    (hDone : r.pool.runningTasks worker = some done)
    (status : ExitState) :
    (r.result worker done status).Kept task := by
  by_cases hDefer : status = .defer
  · subst hDefer
    by_cases hTask : task = done
    · apply kept_of_copies
      rw [hTask]
      exact (Taskpool.copies_suspend_self _ done).2
    · apply hKept.unaffected
      · exact Taskpool.tasks_setPool_of_ne
          (r.pool.eraseRunning worker) hTask true
      · intro _
        exact Taskpool.copies_suspend_of_ne
          (r.pool.eraseRunning worker) hTask
      · exact fun hOwed => hOwed
      · exact fun _ hSome => erased_of_ne hDone hTask hSome
  · have hResult :
        r.result worker done status =
          { pool := r.pool.eraseRunning worker
            owed := Function.update r.owed done false } := by
      cases status with
      | defer => exact absurd rfl hDefer
      | _ => rfl
    rw [hResult]
    by_cases hTask : task = done
    · constructor
      · exact hKept.pool
      · intro hDue
        have hOwed := hDue.1
        rw [hTask] at hOwed
        simp at hOwed
    · apply hKept.unaffected
      · rfl
      · exact fun _ => rfl
      · intro hOwed
        simpa [hTask] using hOwed
      · exact fun _ hSome => erased_of_ne hDone hTask hSome

theorem Kept.submit
    (hKept : r.Kept task)
    (submitted : T)
    (isRunnable : Bool) :
    (r.step (.submit submitted isRunnable)).Kept task := by
  simp only [step]
  by_cases hTask : task = submitted
  · subst hTask
    cases hPool : (r.pool.tasks task).pool with
    | true =>
        have hSame :
            r.pool.submit task isRunnable = r.pool := by
          unfold Taskpool.submit
          rw [if_pos hPool]
        rw [hSame]
        exact
          { pool := hKept.pool
            due := fun hDue => Or.inl (hKept.pool hPool hDue.2) }
    | false =>
        apply kept_of_copies
        exact (Taskpool.copies_submit_self hPool isRunnable).2
  · apply hKept.unaffected
    · simp only [Taskpool.tasks_submit]
      exact Taskpool.tasks_setPool_of_ne _ hTask _
    · exact fun _ => Taskpool.copies_submit_of_ne _ hTask _
    · intro hOwed
      simpa [hTask] using hOwed
    · intro worker hSome
      simp only [Taskpool.runningTasks_submit]
      exact hSome

theorem Kept.submitAfter
    (hKept : r.Kept task)
    (submitted : T)
    (now delay : Nat) :
    (r.step (.submitAfter submitted now delay)).Kept task := by
  simp only [step]
  cases hPool : (r.pool.tasks submitted).pool with
  | true =>
      have hSame :
          r.pool.submitAfter submitted now delay = r.pool := by
        unfold Taskpool.submitAfter
        rw [if_pos hPool]
      rw [hSame]
      by_cases hTask : task = submitted
      · subst hTask
        exact
          { pool := hKept.pool
            due := fun hDue => Or.inl (hKept.pool hPool hDue.2) }
      · apply hKept.unaffected
        · rfl
        · exact fun _ => rfl
        · intro hOwed
          simpa [hTask] using hOwed
        · exact fun _ hSome => hSome
  | false =>
      have hCopies :=
        Taskpool.copies_submitAfter hPool now delay task
      by_cases hTask : task = submitted
      · rw [if_pos hTask.symm] at hCopies
        apply kept_of_copies
        simp only
        omega
      · rw [if_neg (Ne.symm hTask)] at hCopies
        apply hKept.unaffected
        · simp only [Taskpool.tasks_submitAfter]
          exact Taskpool.tasks_setPool_of_ne _ hTask _
        · exact fun _ => hCopies
        · intro hOwed
          simpa [hTask] using hOwed
        · intro worker hSome
          simp only [Taskpool.runningTasks_submitAfter]
          exact hSome

/- A cancelled task is not promised anything. -/
theorem kept_of_cancelled
    (hCancelled : (r.pool.tasks task).cancelled = true) :
    r.Kept task where
  pool _ hNot := by
    rw [hCancelled] at hNot
    cases hNot
  due hDue := by
    have hNot := hDue.2
    rw [hCancelled] at hNot
    cases hNot

theorem Kept.cancel
    (hKept : r.Kept task)
    (cancelled : T) :
    (r.step (.cancel cancelled)).Kept task := by
  simp only [step]
  by_cases hTask : task = cancelled
  · apply kept_of_cancelled
    rw [hTask]
    simp only [Taskpool.tasks_cancel_self]
  · apply hKept.unaffected
    · exact Taskpool.tasks_cancel_of_ne _ hTask
    · exact fun _ => Taskpool.copies_cancel_of_ne _ hTask
    · exact fun hOwed => hOwed
    · intro worker hSome
      simp only [Taskpool.runningTasks_cancel]
      exact hSome

theorem Kept.cancelTaskGroup
    (hKept : r.Kept task)
    (groupId : Nat) :
    (r.step (.cancelTaskGroup groupId)).Kept task := by
  simp only [step]
  cases hGroup : r.pool.ofGroup groupId task with
  | true =>
      apply kept_of_cancelled
      simp only [Taskpool.cancelTaskGroup, hGroup, if_true]
  | false =>
      apply hKept.unaffected
      · simp only [Taskpool.cancelTaskGroup, hGroup,
          Bool.false_eq_true, if_false]
      · intro _
        exact Taskpool.copies_cancelTaskGroup_of_not _ hGroup
      · exact fun hOwed => hOwed
      · exact fun _ hSome => hSome

theorem Kept.step
    (hKept : r.Kept task)
    (event : PoolEvent T) :
    (r.step event).Kept task := by
  cases event with
  | submit submitted isRunnable =>
      exact hKept.submit submitted isRunnable
  | submitAfter submitted now delay =>
      exact hKept.submitAfter submitted now delay
  | popFuture worker now => exact hKept.popFuture worker now
  | popPending worker => exact hKept.popPending worker
  | result worker status =>
      simp only [PoolRun.step]
      split
      · exact hKept
      · rename_i done hDone
        exact hKept.result hDone status
  | makeRunnable woken =>
      apply hKept.unaffected
      · simp only [PoolRun.step, Taskpool.tasks_wakeTask]
      · intro _
        exact Taskpool.copies_wakeTask _ _ _
      · exact fun hOwed => hOwed
      · intro worker hSome
        simp only [PoolRun.step,
          Taskpool.runningTasks_wakeTask]
        exact hSome
  | cancel cancelled => exact hKept.cancel cancelled
  | cancelTaskGroup groupId =>
      exact hKept.cancelTaskGroup groupId

/- A task that is not submitted while it runs stays single. -/
theorem SingleAt.runPopped
    (hSingle : r.SingleAt task)
    {worker : Nat}
    {popped : T}
    {pool : Taskpool T}
    (hTaken : Taskpool.Taken r.pool pool popped) :
    (r.runPopped worker (some popped, pool)).SingleAt task := by
  have hAfter := hSingle.taken hTaken worker
  have hRunning :
      (pool.markRunning worker popped).runningTasks =
        Function.update r.pool.runningTasks worker
          (some popped) := by
    unfold Taskpool.markRunning
    rw [hTaken.runningTasks_eq]
  unfold SingleAt
  simp only [PoolRun.runPopped]
  rw [hRunning]
  exact { hAfter with }

theorem SingleAt.result
    (hSingle : r.SingleAt task)
    {worker : Nat}
    {done : T}
    (hDone : r.pool.runningTasks worker = some done)
    (status : ExitState) :
    (r.result worker done status).SingleAt task := by
  have hDropped := hSingle.dropped worker
  have hSuspended := hSingle.suspend hDone
  cases status with
  | defer => exact { hSuspended with }
  | _ => exact { hDropped with }

theorem SingleAt.step
    (hSingle : r.SingleAt task)
    {event : PoolEvent T}
    (hNot : r.NotWhileRunning task event) :
    (r.step event).SingleAt task := by
  cases event with
  | submit submitted isRunnable =>
      have hHeld : submitted = task → ∀ worker,
          r.pool.runningTasks worker ≠ some task :=
        fun hTask => hNot (congrArg some hTask)
      have hNext :=
        Taskpool.Single.submit hSingle hHeld isRunnable
      unfold SingleAt
      simp only [PoolRun.step, Taskpool.runningTasks_submit]
      exact hNext
  | submitAfter submitted now delay =>
      have hHeld : submitted = task → ∀ worker,
          r.pool.runningTasks worker ≠ some task :=
        fun hTask => hNot (congrArg some hTask)
      have hNext :=
        Taskpool.Single.submitAfter hSingle hHeld now delay
      unfold SingleAt
      simp only [PoolRun.step,
        Taskpool.runningTasks_submitAfter]
      exact hNext
  | popFuture worker now =>
      simp only [PoolRun.step]
      split
      · rcases r.pool.futureWork_cases now with
          ⟨popped, pool, hPop, hTaken, _⟩ |
            ⟨dropped, futureTasks, hPop, hSplit, _⟩
        · rw [hPop]
          exact hSingle.runPopped hTaken
        · rw [hPop]
          exact Taskpool.Single.dropFuture hSingle hSplit
      · exact hSingle
  | popPending worker =>
      simp only [PoolRun.step]
      split
      · cases hPop : r.pool.popPending with
        | mk popped pool =>
            cases popped with
            | none =>
                rw [Taskpool.popPending_none hPop]
                exact hSingle
            | some popped =>
                exact hSingle.runPopped
                  (Taskpool.taken_popPending hPop)
      · exact hSingle
  | result worker status =>
      simp only [PoolRun.step]
      split
      · exact hSingle
      · rename_i done hDone
        exact hSingle.result hDone status
  | makeRunnable woken =>
      have hNext := Taskpool.Single.wakeTask hSingle woken
      unfold SingleAt
      simp only [PoolRun.step, Taskpool.runningTasks_wakeTask]
      exact hNext
  | cancel cancelled =>
      have hNext := Taskpool.Single.cancel hSingle cancelled
      unfold SingleAt
      simp only [PoolRun.step, Taskpool.runningTasks_cancel]
      exact hNext
  | cancelTaskGroup groupId =>
      exact Taskpool.Single.cancelTaskGroup hSingle groupId

end Steps

------------------------------------------------------------
-- Conservation
------------------------------------------------------------

theorem kept_run
    (groupId : T → Nat)
    (events : List (PoolEvent T))
    (task : T) :
    ((start groupId).run events).Kept task := by
  induction events using List.reverseRecOn with
  | nil => exact kept_start groupId task
  | append_singleton front event ih =>
      rw [run_snoc]
      exact ih.step event

theorem singleAt_run
    {groupId : T → Nat}
    {events : List (PoolEvent T)}
    {task : T}
    (hNever : (start groupId).NeverResubmitted events task) :
    ((start groupId).run events).SingleAt task := by
  refine Runs.invariant_prefix
    (fun front => ((start groupId).run front).SingleAt task)
    ?_ ?_ (List.prefix_refl events)
  · exact Taskpool.Single.construct groupId task
  · intro front event back hSplit hSingle
    rw [run_snoc]
    exact hSingle.step (hNever front event back hSplit)

end PoolRun

end OefCore
