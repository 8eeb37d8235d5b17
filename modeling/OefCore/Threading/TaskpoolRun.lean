import OefCore.Threading.Taskpool

/-
  `Taskpool::run`: the workers of a pool, each in its loop.

  The run of a task is left open; `L` is the places a worker
  can be at within it.

  Main declarations:
    * `WorkerState`, `Threadpool`, `LoopStep`
    * `Threadpool.loop`, `Threadpool.Looped`
    * `Threadpool.Looped.placed`
-/

namespace OefCore

------------------------------------------------------------
-- Workers
------------------------------------------------------------

/- Where a worker is in the loop. -/
inductive WorkerState (T L : Type) where
  | idle
  | popped (task : T)
  | marked (task : T)
  | running (task : T) (place : L)
  | finished (task : T) (status : ExitState)
  | erased (task : T) (status : ExitState)
  deriving DecidableEq, Repr

namespace WorkerState

variable {T L : Type}

/- `mytask`. -/
def mytask : WorkerState T L → Option T
  | idle => none
  | popped task => some task
  | marked task => some task
  | running task _ => some task
  | finished task _ => some task
  | erased task _ => some task

/- The run has returned DEFER, and the task is not suspended
   yet. -/
def Deferring
    (state : WorkerState T L)
    (task : T) : Prop :=
  state = finished task .defer ∨ state = erased task .defer

theorem Deferring.mytask_eq
    {state : WorkerState T L}
    {task : T}
    (hDeferring : state.Deferring task) :
    state.mytask = some task := by
  rcases hDeferring with hFinished | hErased
  · rw [hFinished]
    rfl
  · rw [hErased]
    rfl

theorem not_deferring_idle
    (task : T) :
    ¬ (idle : WorkerState T L).Deferring task := by
  rintro (hEq | hEq) <;> cases hEq

theorem not_deferring_running
    (task other : T)
    (place : L) :
    ¬ (running task place : WorkerState T L).Deferring
      other := by
  rintro (hEq | hEq) <;> cases hEq

end WorkerState

structure Threadpool (T L : Type) where
  pool : Taskpool T
  workers : Nat → WorkerState T L

/- The steps of the loop other than those of the run of a
   task. -/
inductive LoopStep where
  | popFuture (now : Nat)
  | popPending
  | markRunning
  | start
  | eraseRunning
  | conclude
  deriving DecidableEq, Repr

namespace Threadpool

variable {T L : Type}

def setWorker
    (self : Threadpool T L)
    (worker : Nat)
    (state : WorkerState T L) : Threadpool T L :=
  { self with
    workers := Function.update self.workers worker state }

/- The tasks that workers hold. -/
def held
    (self : Threadpool T L)
    (worker : Nat) : Option T :=
  (self.workers worker).mytask

variable [DecidableEq T]

/- What a worker does when it takes the step; a worker that
   is elsewhere does nothing. -/
def loop
    (self : Threadpool T L)
    (entry : T → L)
    (worker : Nat)
    (step : LoopStep) : Threadpool T L :=
  match step, self.workers worker with
  | .popFuture now, .idle =>
      match self.pool.locklessGetNextFutureWork now with
      | (none, pool) => { self with pool := pool }
      | (some task, pool) =>
          { self with pool := pool }.setWorker worker
            (.popped task)
  | .popPending, .idle =>
      match self.pool.popPending with
      | (none, _) => self
      | (some task, pool) =>
          { self with pool := pool }.setWorker worker
            (.popped task)
  | .markRunning, .popped task =>
      { self with
        pool := self.pool.markRunning worker task }.setWorker
          worker (.marked task)
  | .start, .marked task =>
      if (self.pool.tasks task).cancelled then
        self.setWorker worker (.finished task .cancelled)
      else
        self.setWorker worker (.running task (entry task))
  | .eraseRunning, .finished task status =>
      { self with
        pool := self.pool.eraseRunning worker }.setWorker
          worker (.erased task status)
  | .conclude, .erased task status =>
      match status with
      | .defer =>
          { self with
            pool := self.pool.suspend task }.setWorker worker
              .idle
      | _ => self.setWorker worker .idle
  | _, _ => self

/- Idle workers over a pool to which tasks were submitted;
   `isRunnable` is their answer to it. -/
def start
    (groupId : T → Nat)
    (isRunnable : T → Bool)
    (submitted : List T) : Threadpool T L where
  pool :=
    submitted.foldl
      (fun pool task => pool.submit task (isRunnable task))
      (Taskpool.construct groupId)
  workers := fun _ => .idle

------------------------------------------------------------
-- Steps of the Loop
------------------------------------------------------------

/- What a step of the loop can do. -/
inductive Looped
    (self : Threadpool T L)
    (entry : T → L)
    (worker : Nat) :
    LoopStep → Threadpool T L → Prop where
  | stays (step : LoopStep) :
      Looped self entry worker step self
  | polls
      (now : Nat)
      {dropped futureTasks : List (FutureTask T)}
      (hSplit :
        self.pool.futureTasks = dropped ++ futureTasks) :
      Looped self entry worker (.popFuture now)
        { self with
          pool :=
            { self.pool with futureTasks := futureTasks } }
  | pops
      (step : LoopStep)
      {task : T}
      {pool : Taskpool T}
      (hIdle : self.workers worker = .idle)
      (hTaken : Taskpool.Taken self.pool pool task) :
      Looped self entry worker step
        ({ self with pool := pool }.setWorker worker
          (.popped task))
  | marks
      {task : T}
      (hPopped : self.workers worker = .popped task) :
      Looped self entry worker .markRunning
        ({ self with
          pool :=
            self.pool.markRunning worker task }.setWorker
              worker (.marked task))
  | cancels
      {task : T}
      (hMarked : self.workers worker = .marked task)
      (hCancelled :
        (self.pool.tasks task).cancelled = true) :
      Looped self entry worker .start
        (self.setWorker worker (.finished task .cancelled))
  | starts
      {task : T}
      (hMarked : self.workers worker = .marked task)
      (hCancelled :
        (self.pool.tasks task).cancelled = false) :
      Looped self entry worker .start
        (self.setWorker worker (.running task (entry task)))
  | erases
      {task : T}
      {status : ExitState}
      (hFinished :
        self.workers worker = .finished task status) :
      Looped self entry worker .eraseRunning
        ({ self with
          pool := self.pool.eraseRunning worker }.setWorker
            worker (.erased task status))
  | suspends
      {task : T}
      (hErased : self.workers worker = .erased task .defer) :
      Looped self entry worker .conclude
        ({ self with
          pool := self.pool.suspend task }.setWorker worker
            .idle)
  | drops
      {task : T}
      {status : ExitState}
      (hErased : self.workers worker = .erased task status)
      (hStatus : status ≠ .defer) :
      Looped self entry worker .conclude
        (self.setWorker worker .idle)

theorem looped
    (self : Threadpool T L)
    (entry : T → L)
    (worker : Nat)
    (step : LoopStep) :
    Looped self entry worker step
      (self.loop entry worker step) := by
  cases hWorker : self.workers worker with
  | idle =>
      cases step with
      | popFuture now =>
          rcases self.pool.futureWork_cases now with
            ⟨task, pool, hPop, hTaken, _⟩ |
              ⟨dropped, futureTasks, hPop, hSplit, _⟩
          · simp only [loop, hWorker, hPop]
            exact .pops _ hWorker hTaken
          · simp only [loop, hWorker, hPop]
            exact .polls now hSplit
      | popPending =>
          cases hPop : self.pool.popPending with
          | mk popped pool =>
              cases popped with
              | none =>
                  simp only [loop, hWorker, hPop]
                  exact .stays _
              | some task =>
                  simp only [loop, hWorker, hPop]
                  exact .pops _ hWorker
                    (Taskpool.taken_popPending hPop)
      | _ =>
          simp only [loop, hWorker]
          exact .stays _
  | popped task =>
      cases step with
      | markRunning =>
          simp only [loop, hWorker]
          exact .marks hWorker
      | _ =>
          simp only [loop, hWorker]
          exact .stays _
  | marked task =>
      cases step with
      | start =>
          simp only [loop, hWorker]
          cases hCancelled :
              (self.pool.tasks task).cancelled with
          | true => exact .cancels hWorker hCancelled
          | false => exact .starts hWorker hCancelled
      | _ =>
          simp only [loop, hWorker]
          exact .stays _
  | running task place =>
      cases step <;>
        simp only [loop, hWorker] <;>
        exact .stays _
  | finished task status =>
      cases step with
      | eraseRunning =>
          simp only [loop, hWorker]
          exact .erases hWorker
      | _ =>
          simp only [loop, hWorker]
          exact .stays _
  | erased task status =>
      cases step with
      | conclude =>
          simp only [loop, hWorker]
          cases status with
          | defer => exact .suspends hWorker
          | complete => exact .drops hWorker (by decide)
          | cancelled => exact .drops hWorker (by decide)
          | errored => exact .drops hWorker (by decide)
      | _ =>
          simp only [loop, hWorker]
          exact .stays _

------------------------------------------------------------
-- Workers Before and After
------------------------------------------------------------

section Workers

omit [DecidableEq T]

variable {self : Threadpool T L}

@[simp]
theorem pool_setWorker
    (self : Threadpool T L)
    (worker : Nat)
    (state : WorkerState T L) :
    (self.setWorker worker state).pool = self.pool :=
  rfl

@[simp]
theorem workers_setWorker_self
    (self : Threadpool T L)
    (worker : Nat)
    (state : WorkerState T L) :
    (self.setWorker worker state).workers worker = state := by
  simp [setWorker]

theorem workers_setWorker_of_ne
    (self : Threadpool T L)
    {worker other : Nat}
    (hNe : other ≠ worker)
    (state : WorkerState T L) :
    (self.setWorker worker state).workers other =
      self.workers other := by
  simp [setWorker, hNe]

theorem held_setWorker
    (self : Threadpool T L)
    (worker : Nat)
    (state : WorkerState T L) :
    (self.setWorker worker state).held =
      Function.update self.held worker state.mytask := by
  funext other
  by_cases hOther : other = worker
  · subst hOther
    simp [held]
  · simp [held, workers_setWorker_of_ne _ hOther, hOther]

/- A worker that goes on with its task. -/
theorem held_setWorker_of_mytask
    {worker : Nat}
    {state : WorkerState T L}
    (hTask : state.mytask = self.held worker) :
    (self.setWorker worker state).held = self.held := by
  rw [held_setWorker, hTask, Function.update_eq_self]

/- A deferring worker is the one that moved, or was so
   before. -/
theorem deferring_setWorker
    {worker other : Nat}
    {state : WorkerState T L}
    {task : T}
    (hDeferring :
      ((self.setWorker worker state).workers other).Deferring
        task) :
    (other = worker ∧ state.Deferring task) ∨
      (other ≠ worker ∧
        (self.workers other).Deferring task) := by
  by_cases hOther : other = worker
  · subst hOther
    rw [workers_setWorker_self] at hDeferring
    exact Or.inl ⟨rfl, hDeferring⟩
  · rw [workers_setWorker_of_ne _ hOther] at hDeferring
    exact Or.inr ⟨hOther, hDeferring⟩

end Workers

------------------------------------------------------------
-- What the Loop Keeps
------------------------------------------------------------

variable {self next : Threadpool T L}
variable {entry : T → L}
variable {worker : Nat}
variable {step : LoopStep}

/- No task is in two places. -/
def Placed (self : Threadpool T L) : Prop :=
  ∀ task, self.pool.Single self.held task

theorem Placed.setWorker
    (hPlaced : self.Placed)
    {state : WorkerState T L}
    (hTask : state.mytask = self.held worker) :
    (self.setWorker worker state).Placed := by
  unfold Placed
  rw [held_setWorker_of_mytask hTask, pool_setWorker]
  exact hPlaced

/- Two workers do not hold one task. -/
theorem Placed.worker_eq
    (hPlaced : self.Placed)
    {other : Nat}
    {task : T}
    (hWorker : self.held worker = some task)
    (hOther : self.held other = some task) :
    other = worker :=
  (hPlaced task).held_unique other worker hOther hWorker

theorem Placed.not_suspended
    (hPlaced : self.Placed)
    {task : T}
    (hHeld : self.held worker = some task) :
    self.pool.suspendedTasks task = false := by
  cases hSuspended : self.pool.suspendedTasks task with
  | false => rfl
  | true =>
      have hSome :=
        Taskpool.copies_pos_of_suspended hSuspended
      exact absurd hHeld
        ((hPlaced task).not_held_of_copies hSome worker)

theorem Placed.not_pending
    (hPlaced : self.Placed)
    {task : T}
    (hHeld : self.held worker = some task) :
    task ∉ self.pool.pendingTasks := by
  intro hMem
  have hSome := Taskpool.copies_pos_of_pending hMem
  exact (hPlaced task).not_held_of_copies hSome worker hHeld

theorem Placed.pool_of_suspended
    (hPlaced : self.Placed)
    {task : T}
    (hSuspended : self.pool.suspendedTasks task = true) :
    (self.pool.tasks task).pool = true :=
  (hPlaced task).copies_pool
    (Taskpool.copies_pos_of_suspended hSuspended)

theorem Looped.placed
    (hLooped : Looped self entry worker step next)
    (hPlaced : self.Placed) :
    next.Placed := by
  cases hLooped with
  | stays => exact hPlaced
  | polls now hSplit =>
      exact fun task => (hPlaced task).dropFuture hSplit
  | pops _ hIdle hTaken =>
      intro task
      rw [held_setWorker]
      exact (hPlaced task).taken hTaken worker
  | marks hPopped =>
      apply Placed.setWorker
      · exact fun task => { hPlaced task with }
      · rw [held, hPopped]
        rfl
  | cancels hMarked =>
      apply hPlaced.setWorker
      rw [held, hMarked]
      rfl
  | starts hMarked =>
      apply hPlaced.setWorker
      rw [held, hMarked]
      rfl
  | erases hFinished =>
      apply Placed.setWorker
      · exact fun task => { hPlaced task with }
      · rw [held, hFinished]
        rfl
  | suspends hErased =>
      rename_i suspended
      have hHeld : self.held worker = some suspended := by
        rw [held, hErased]
        rfl
      intro task
      rw [held_setWorker]
      exact (hPlaced task).suspend hHeld
  | drops hErased =>
      intro task
      rw [held_setWorker]
      exact (hPlaced task).dropped worker

/- No step of the loop lets a run return DEFER. -/
theorem Looped.deferring
    (hLooped : Looped self entry worker step next)
    {other : Nat}
    {task : T}
    (hDeferring : (next.workers other).Deferring task) :
    (self.workers other).Deferring task := by
  cases hLooped with
  | stays => exact hDeferring
  | polls => exact hDeferring
  | erases hFinished =>
      rcases deferring_setWorker hDeferring with
        ⟨rfl, hState⟩ | ⟨_, hBefore⟩
      · rcases hState with hEq | hEq
        · cases hEq
        · cases hEq
          exact Or.inl hFinished
      · exact hBefore
  | _ =>
      rcases deferring_setWorker hDeferring with
        ⟨_, hState⟩ | ⟨_, hBefore⟩
      · rcases hState with hEq | hEq <;> cases hEq
      · exact hBefore

/- A step of the loop suspends only the task of a worker that
   got DEFER for it. -/
theorem Looped.suspended
    (hLooped : Looped self entry worker step next)
    {task : T}
    (hSuspended : next.pool.suspendedTasks task = true) :
    self.pool.suspendedTasks task = true ∨
      (step = .conclude ∧
        self.workers worker = .erased task .defer) := by
  cases hLooped with
  | pops _ hIdle hTaken =>
      left
      have hSame := hTaken.suspendedTasks_eq
      rwa [pool_setWorker, hSame] at hSuspended
  | suspends hErased =>
      rename_i suspended
      by_cases hTask : task = suspended
      · right
        rw [hTask]
        exact ⟨rfl, hErased⟩
      · left
        simpa [Taskpool.suspend, hTask] using hSuspended
  | _ => exact Or.inl hSuspended

/- No step of the loop wakes a task. -/
theorem Looped.suspended_kept
    (hLooped : Looped self entry worker step next)
    {task : T}
    (hSuspended : self.pool.suspendedTasks task = true) :
    next.pool.suspendedTasks task = true := by
  cases hLooped with
  | pops _ _ hTaken =>
      have hSame := hTaken.suspendedTasks_eq
      rwa [pool_setWorker, hSame]
  | suspends hErased =>
      rename_i suspended
      by_cases hTask : task = suspended
      · simp [Taskpool.suspend, hTask]
      · simpa [Taskpool.suspend, hTask] using hSuspended
  | _ => exact hSuspended

/- A task whose run returned DEFER is still on its way, or
   suspended. -/
theorem Looped.deferring_kept
    (hLooped : Looped self entry worker step next)
    {other : Nat}
    {task : T}
    (hDeferring : (self.workers other).Deferring task) :
    next.pool.suspendedTasks task = true ∨
      ∃ thread, (next.workers thread).Deferring task := by
  by_cases hOther : other = worker
  · subst hOther
    cases hLooped with
    | stays => exact Or.inr ⟨other, hDeferring⟩
    | polls => exact Or.inr ⟨other, hDeferring⟩
    | erases hFinished =>
        rw [hFinished] at hDeferring
        rcases hDeferring with hEq | hEq
        · cases hEq
          right
          exact ⟨other, Or.inr (workers_setWorker_self _ _ _)⟩
        · cases hEq
    | suspends hErased =>
        rw [hErased] at hDeferring
        rcases hDeferring with hEq | hEq
        · cases hEq
        · cases hEq
          left
          simp [Taskpool.suspend]
    | drops hErased hStatus =>
        rw [hErased] at hDeferring
        rcases hDeferring with hEq | hEq
        · cases hEq
        · cases hEq
          exact absurd rfl hStatus
    | pops _ hState =>
        rw [hState] at hDeferring
        rcases hDeferring with hEq | hEq <;> cases hEq
    | marks hState =>
        rw [hState] at hDeferring
        rcases hDeferring with hEq | hEq <;> cases hEq
    | cancels hState =>
        rw [hState] at hDeferring
        rcases hDeferring with hEq | hEq <;> cases hEq
    | starts hState =>
        rw [hState] at hDeferring
        rcases hDeferring with hEq | hEq <;> cases hEq
  · right
    refine ⟨other, ?_⟩
    cases hLooped with
    | stays => exact hDeferring
    | polls => exact hDeferring
    | _ =>
        rw [workers_setWorker_of_ne _ hOther]
        exact hDeferring

/- A step of the loop brings no task into the pool but the one
   that it suspends. -/
theorem Looped.copies
    (hLooped : Looped self entry worker step next)
    {task : T}
    (hSome : 0 < next.pool.copies task) :
    0 < self.pool.copies task ∨
      self.workers worker = .erased task .defer := by
  cases hLooped with
  | polls _ hSplit =>
      left
      have hCopies := Taskpool.copies_dropped hSplit task
      simp only at hSome
      omega
  | pops _ hIdle hTaken =>
      rename_i taken pool
      left
      rw [pool_setWorker] at hSome
      by_cases hTask : task = taken
      · have hCopies := hTaken.copies_task
        rw [hTask]
        omega
      · have hCopies := hTaken.copies_other task hTask
        simp only at hSome
        omega
  | suspends hErased =>
      rename_i suspended
      by_cases hTask : task = suspended
      · right
        rw [hTask]
        exact hErased
      · left
        rw [pool_setWorker,
          Taskpool.copies_suspend_of_ne _ hTask] at hSome
        exact hSome
  | _ => exact Or.inl hSome

------------------------------------------------------------
-- Starting
------------------------------------------------------------

/- Only a task that is not runnable is suspended at once. -/
theorem suspended_submit
    {pool : Taskpool T}
    {submitted task : T}
    {isRunnable : Bool}
    (hSuspended :
      (pool.submit submitted isRunnable).suspendedTasks task =
        true) :
    pool.suspendedTasks task = true ∨
      (task = submitted ∧ isRunnable = false) := by
  unfold Taskpool.submit at hSuspended
  split at hSuspended
  · exact Or.inl hSuspended
  · cases isRunnable with
    | true => exact Or.inl hSuspended
    | false =>
        by_cases hTask : task = submitted
        · exact Or.inr ⟨hTask, rfl⟩
        · left
          simpa [Taskpool.suspend, hTask] using hSuspended

theorem suspended_start
    {groupId : T → Nat}
    {isRunnable : T → Bool}
    {submitted : List T}
    {task : T}
    (hSuspended :
      (start groupId isRunnable submitted :
        Threadpool T L).pool.suspendedTasks task = true) :
    isRunnable task = false := by
  have hFold : ∀ (others : List T) (pool : Taskpool T),
      (pool.suspendedTasks task = true →
        isRunnable task = false) →
      (others.foldl
        (fun pool task => pool.submit task (isRunnable task))
          pool).suspendedTasks task = true →
        isRunnable task = false := by
    intro others
    induction others with
    | nil => exact fun _ hPool => hPool
    | cons first rest ih =>
        intro pool hPool
        apply ih
        intro hSubmitted
        rcases suspended_submit hSubmitted with
          hBefore | ⟨hTask, hNot⟩
        · exact hPool hBefore
        · rw [hTask]
          exact hNot
  exact hFold _ _ (fun hNone => by cases hNone) hSuspended

theorem placed_start
    (groupId : T → Nat)
    (isRunnable : T → Bool)
    (submitted : List T) :
    (start groupId isRunnable submitted :
      Threadpool T L).Placed := by
  intro task
  have hFold : ∀ pool : Taskpool T,
      pool.Single (fun _ => none) task →
        (submitted.foldl
          (fun pool task => pool.submit task (isRunnable task))
          pool).Single (fun _ => none) task := by
    induction submitted with
    | nil => exact fun _ hSingle => hSingle
    | cons first rest ih =>
        intro pool hSingle
        apply ih
        exact hSingle.submit (fun _ _ hNone => by cases hNone) _
  exact hFold _ (Taskpool.Single.construct groupId task)

end Threadpool

end OefCore
