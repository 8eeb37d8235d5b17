import OefCore.Library.Runs
import OefCore.Tasks.TNonBlockingWorkerTask
import OefCore.Threading.TaskpoolRun

/-
  Wake-ups in the task pool: workers that run tasks and
  suspend them, and calls of `makeRunnable` in between.

  A section under a lock is one step; so is `suspend`, which
  takes none.

  Main declarations:
    * `TaskBody`, `RunPlace`, `WakeEvent`, `WakeRun`
    * `WakeRun.Kept`, `WakeRun.Undisturbed`
    * `WakeRun.noLostWakeUp_iff`
-/

namespace OefCore

------------------------------------------------------------
-- Runs
------------------------------------------------------------

variable {T W : Type}

/- A task is a `TNonBlockingWorkerTask`, or one of which only
   the answer of `isRunnable` is known. -/
inductive TaskBody (W : Type) where
  | worker (task : TNonBlockingWorkerTask W)
  | other (isRunnable : Bool)

def TaskBody.isRunnable : TaskBody W → Bool
  | worker task => task.isRunnable
  | other isRunnable => isRunnable

/- The places in the run of a task: about to fill the current
   workloads, going through them, or in the run of a task of
   another kind. -/
inductive RunPlace (W : Type) where
  | filling
  | visiting (left : List (QueueEntry W))
  | elsewhere
  deriving DecidableEq, Repr

def TaskBody.entry : TaskBody W → RunPlace W
  | worker _ => .filling
  | other _ => .elsewhere

/- `process` and `raise` are for the calls of `process`, which
   goes through the current workloads in any order; `finish`
   is the end of the run of a task of another kind. -/
inductive WakeEvent (T W : Type) where
  | loop (worker : Nat) (step : LoopStep)
  | fill (worker : Nat)
  | process
      (worker : Nat)
      (entry : QueueEntry W)
      (result : WorkloadProcessed)
  | raise (worker : Nat)
  | check (worker : Nat)
  | finish (worker : Nat) (status : ExitState)
  | makeRunnable (task : T)
  | post (task : T) (workload : W)
  | cancel (task : T)

/- `called` says of a task whether `makeRunnable` was called
   on it since a worker took it. -/
structure WakeRun (T W : Type) where
  threads : Threadpool T (RunPlace W)
  bodies : T → TaskBody W
  called : T → Bool

namespace WakeRun

variable [DecidableEq T] [DecidableEq W]

/- Idle workers, and tasks that were submitted to the default
   pool one after the other. -/
def start
    (groupId : T → Nat)
    (bodies : T → TaskBody W)
    (submitted : List T) : WakeRun T W where
  threads :=
    Threadpool.start groupId
      (fun task => (bodies task).isRunnable) submitted
  bodies := bodies
  called := fun _ => false

def entries (r : WakeRun T W) (task : T) : RunPlace W :=
  (r.bodies task).entry

def setBody
    (r : WakeRun T W)
    (task : T)
    (body : TNonBlockingWorkerTask W) : WakeRun T W :=
  { r with
    bodies := Function.update r.bodies task (.worker body) }

def setWorker
    (r : WakeRun T W)
    (worker : Nat)
    (state : WorkerState T (RunPlace W)) : WakeRun T W :=
  { r with threads := r.threads.setWorker worker state }

/- Every call of `makeRunnable` is noted. -/
def makeRunnable
    (r : WakeRun T W)
    (task : T) : WakeRun T W :=
  { r with
    threads :=
      { r.threads with pool := r.threads.pool.wakeTask task }
    called := Function.update r.called task true }

/- A worker that has just taken a task has no call of
   `makeRunnable` to look back on. -/
def popped
    (r : WakeRun T W)
    (worker : Nat) : WakeRun T W :=
  match r.threads.workers worker with
  | .popped task =>
      { r with called := Function.update r.called task false }
  | _ => r

def loop
    (r : WakeRun T W)
    (worker : Nat)
    (step : LoopStep) : WakeRun T W :=
  let next :=
    { r with
      threads := r.threads.loop r.entries worker step }
  match r.threads.workers worker with
  | .idle => next.popped worker
  | _ => next

/- An event of a worker or a task that is elsewhere does
   nothing. -/
def step (r : WakeRun T W) : WakeEvent T W → WakeRun T W
  | .loop worker step => r.loop worker step
  | .fill worker =>
      match r.threads.workers worker with
      | .running task .filling =>
          match r.bodies task with
          | .worker body =>
              (r.setBody task body.fill).setWorker worker
                (.running task (.visiting body.fill.current))
          | .other _ => r
      | _ => r
  | .process worker entry result =>
      match r.threads.workers worker with
      | .running task (.visiting left) =>
          match r.bodies task with
          | .worker body =>
              if entry ∈ left then
                (r.setBody task
                  (body.process entry result)).setWorker worker
                    (.running task
                      (.visiting (left.erase entry)))
              else
                r
          | .other _ => r
      | _ => r
  | .raise worker =>
      match r.threads.workers worker with
      | .running task (.visiting (_ :: _)) =>
          r.setWorker worker (.finished task .errored)
      | _ => r
  | .check worker =>
      match r.threads.workers worker with
      | .running task (.visiting []) =>
          match r.bodies task with
          | .worker body =>
              if body.rests then
                r.setWorker worker (.finished task .defer)
              else
                r.setWorker worker (.running task .filling)
          | .other _ => r
      | _ => r
  | .finish worker status =>
      match r.threads.workers worker with
      | .running task .elsewhere =>
          match r.bodies task with
          | .worker _ => r
          | .other _ =>
              r.setWorker worker (.finished task status)
      | _ => r
  | .makeRunnable task => r.makeRunnable task
  | .post task workload =>
      match r.bodies task with
      | .worker body =>
          (r.setBody task (body.post workload)).makeRunnable
            task
      | .other _ => r
  | .cancel task =>
      { r with
        threads :=
          { r.threads with pool := r.threads.pool.cancel task } }

def run
    (r : WakeRun T W)
    (events : List (WakeEvent T W)) : WakeRun T W :=
  events.foldl step r

theorem run_snoc
    (r : WakeRun T W)
    (events : List (WakeEvent T W))
    (event : WakeEvent T W) :
    r.run (events ++ [event]) = (r.run events).step event := by
  simp [run]

------------------------------------------------------------
-- What Is Promised
------------------------------------------------------------

/-
  No wake-up was lost with the last event of a run: a task
  that is suspended after `makeRunnable` was called on it is
  pending; and where no worker is at work, a suspended worker
  task has nothing that it could do.
-/
structure NoLostWakeUp
    (r : WakeRun T W)
    (events : List (WakeEvent T W)) : Prop where
  pending :
    ∀ front worker task,
      events = front ++ [.loop worker .conclude] →
        (r.run front).threads.workers worker =
            .erased task .defer →
          (r.run front).called task = true →
            task ∈ (r.run events).threads.pool.pendingTasks
  rests :
    (∀ worker,
      (r.run events).threads.workers worker = .idle) →
    ∀ task body,
      (r.run events).threads.pool.suspendedTasks task = true →
        (r.run events).bodies task = .worker body →
          body.queue = [] ∨ body.n ≤ body.current.length

/- No task is suspended on which `makeRunnable` was called
   since a worker took it. -/
def Undisturbed
    (r : WakeRun T W)
    (event : WakeEvent T W) : Prop :=
  ∀ worker task,
    event = .loop worker .conclude →
      r.threads.workers worker = .erased task .defer →
        r.called task = false

------------------------------------------------------------
-- The Invariant
------------------------------------------------------------

/-
  What undisturbed events keep up: a worker task that is
  suspended, or is about to be with no call of `makeRunnable`
  to come between, rests.
-/
structure Steady (r : WakeRun T W) : Prop where
  placed : r.threads.Placed
  suspended :
    ∀ task body,
      r.threads.pool.suspendedTasks task = true →
        r.bodies task = .worker body → body.rests = true
  deferring :
    ∀ worker task body,
      (r.threads.workers worker).Deferring task →
        r.bodies task = .worker body →
          r.called task = false → body.rests = true

omit [DecidableEq W] in
theorem steady_start
    (groupId : T → Nat)
    (bodies : T → TaskBody W)
    (submitted : List T) :
    (start groupId bodies submitted).Steady where
  placed := Threadpool.placed_start _ _ _
  suspended := by
    intro task body hSuspended hBody
    have hNot := Threadpool.suspended_start hSuspended
    have hBodies : bodies task = .worker body := hBody
    rw [hBodies] at hNot
    exact TNonBlockingWorkerTask.rests_of_not_runnable hNot
  deferring := by
    intro worker task body hDeferring
    exact absurd hDeferring
      (WorkerState.not_deferring_idle task)

section Steps

variable {r : WakeRun T W}
variable {worker : Nat}
variable {task : T}
variable {place : RunPlace W}

omit [DecidableEq T] [DecidableEq W] in
theorem held_of_running
    (hRunning :
      r.threads.workers worker = .running task place) :
    r.threads.held worker = some task := by
  rw [Threadpool.held, hRunning]
  rfl

/- The run of a task changes its own task only. -/
omit [DecidableEq W] in
theorem Steady.setBody
    (hSteady : r.Steady)
    (hRunning :
      r.threads.workers worker = .running task place)
    (body : TNonBlockingWorkerTask W) :
    (r.setBody task body).Steady := by
  have hHeld := held_of_running hRunning
  constructor
  · exact hSteady.placed
  · intro other otherBody hSuspended hBody
    have hNe : other ≠ task := by
      intro hEq
      rw [hEq] at hSuspended
      have hNot := hSteady.placed.not_suspended hHeld
      have hStill : r.threads.pool.suspendedTasks task = true :=
        hSuspended
      rw [hNot] at hStill
      cases hStill
    apply hSteady.suspended other otherBody hSuspended
    simpa [WakeRun.setBody, hNe] using hBody
  · intro thread other otherBody hDeferring hBody hCalled
    have hNe : other ≠ task := by
      intro hEq
      rw [hEq] at hDeferring
      have hThread :=
        hSteady.placed.worker_eq hHeld hDeferring.mytask_eq
      have hState :
          (r.threads.workers thread).Deferring task :=
        hDeferring
      rw [hThread, hRunning] at hState
      exact WorkerState.not_deferring_running _ _ _ hState
    apply hSteady.deferring thread other otherBody hDeferring
    · simpa [WakeRun.setBody, hNe] using hBody
    · exact hCalled

/- The run of a task goes on, or returns DEFER only to rest. -/
omit [DecidableEq W] in
theorem Steady.setWorker
    (hSteady : r.Steady)
    (hRunning :
      r.threads.workers worker = .running task place)
    {state : WorkerState T (RunPlace W)}
    (hTask : state.mytask = some task)
    (hRests : ∀ body, state.Deferring task →
      r.bodies task = .worker body → body.rests = true) :
    (r.setWorker worker state).Steady := by
  constructor
  · apply hSteady.placed.setWorker
    rw [hTask, held_of_running hRunning]
  · exact hSteady.suspended
  · intro thread other body hDeferring hBody hCalled
    rcases Threadpool.deferring_setWorker hDeferring with
      ⟨_, hState⟩ | ⟨_, hBefore⟩
    · have hOther := hState.mytask_eq
      rw [hTask, Option.some.injEq] at hOther
      subst hOther
      exact hRests body hState hBody
    · exact hSteady.deferring thread other body hBefore hBody
        hCalled

omit [DecidableEq W] in
theorem Steady.makeRunnable
    (hSteady : r.Steady)
    (task : T) :
    (r.makeRunnable task).Steady := by
  constructor
  · exact fun other => (hSteady.placed other).wakeTask task
  · intro other body hSuspended hBody
    apply hSteady.suspended other body _ hBody
    exact Taskpool.suspendedTasks_wakeTask hSuspended
  · intro thread other body hDeferring hBody hCalled
    have hNe : other ≠ task := by
      intro hEq
      simp [WakeRun.makeRunnable, hEq] at hCalled
    apply hSteady.deferring thread other body hDeferring hBody
    simpa [WakeRun.makeRunnable, hNe] using hCalled

/- A post wakes its task, should it be suspended. -/
omit [DecidableEq W] in
theorem Steady.post
    (hSteady : r.Steady)
    (task : T)
    (body : TNonBlockingWorkerTask W) :
    ((r.setBody task body).makeRunnable task).Steady := by
  constructor
  · exact fun other => (hSteady.placed other).wakeTask task
  · intro other otherBody hSuspended hBody
    have hBefore : r.threads.pool.suspendedTasks other = true :=
      Taskpool.suspendedTasks_wakeTask hSuspended
    have hNe : other ≠ task := by
      intro hEq
      subst hEq
      have hPool := hSteady.placed.pool_of_suspended hBefore
      have hWoken :=
        (Taskpool.wakeTask_of_suspended hPool hBefore).2
      have hStill :
          (r.threads.pool.wakeTask other).suspendedTasks
            other = true :=
        hSuspended
      rw [hWoken] at hStill
      cases hStill
    apply hSteady.suspended other otherBody hBefore
    simpa [WakeRun.makeRunnable, WakeRun.setBody, hNe] using hBody
  · intro thread other otherBody hDeferring hBody hCalled
    have hNe : other ≠ task := by
      intro hEq
      simp [WakeRun.makeRunnable, hEq] at hCalled
    apply hSteady.deferring thread other otherBody hDeferring
    · simpa [WakeRun.makeRunnable, WakeRun.setBody, hNe] using hBody
    · simpa [WakeRun.makeRunnable, WakeRun.setBody, hNe] using hCalled

theorem Steady.cancel
    (hSteady : r.Steady)
    (task : T) :
    (r.step (.cancel task)).Steady := by
  constructor
  · exact fun other => (hSteady.placed other).cancel task
  · intro other body hSuspended hBody
    apply hSteady.suspended other body _ hBody
    exact Taskpool.suspendedTasks_cancel hSuspended
  · exact hSteady.deferring

------------------------------------------------------------
-- Steps of the Loop
------------------------------------------------------------

omit [DecidableEq W] in
@[simp]
theorem threads_popped
    (r : WakeRun T W)
    (worker : Nat) :
    (r.popped worker).threads = r.threads := by
  unfold popped
  split <;> rfl

omit [DecidableEq W] in
@[simp]
theorem bodies_popped
    (r : WakeRun T W)
    (worker : Nat) :
    (r.popped worker).bodies = r.bodies := by
  unfold popped
  split <;> rfl

omit [DecidableEq W] in
theorem threads_loop
    (r : WakeRun T W)
    (worker : Nat)
    (step : LoopStep) :
    (r.loop worker step).threads =
      r.threads.loop r.entries worker step := by
  unfold loop
  simp only
  split
  · exact threads_popped _ _
  · rfl

omit [DecidableEq W] in
theorem bodies_loop
    (r : WakeRun T W)
    (worker : Nat)
    (step : LoopStep) :
    (r.loop worker step).bodies = r.bodies := by
  unfold loop
  simp only
  split
  · exact bodies_popped _ _
  · rfl

/- Only for a task that is taken, the calls are forgotten. -/
omit [DecidableEq W] in
theorem called_loop
    {r : WakeRun T W}
    {step : LoopStep}
    (hCalled : (r.loop worker step).called task = false) :
    r.called task = false ∨
      (r.threads.loop r.entries worker step).workers worker =
        .popped task := by
  unfold loop at hCalled
  simp only at hCalled
  split at hCalled
  · unfold popped at hCalled
    split at hCalled
    · rename_i taken hTaken
      by_cases hTask : task = taken
      · right
        rw [hTask]
        exact hTaken
      · left
        simpa [hTask] using hCalled
    · exact Or.inl hCalled
  · exact Or.inl hCalled

omit [DecidableEq W] in
theorem Steady.loop
    (hSteady : r.Steady)
    {step : LoopStep}
    (hUndisturbed : r.Undisturbed (.loop worker step)) :
    (r.loop worker step).Steady := by
  have hLooped := r.threads.looped r.entries worker step
  have hPlaced := hLooped.placed hSteady.placed
  constructor
  · rw [threads_loop]
    exact hPlaced
  · intro other body hSuspended hBody
    rw [threads_loop] at hSuspended
    rw [bodies_loop] at hBody
    rcases hLooped.suspended hSuspended with
      hBefore | ⟨hStep, hErased⟩
    · exact hSteady.suspended other body hBefore hBody
    · subst hStep
      have hCalled := hUndisturbed worker other rfl hErased
      exact hSteady.deferring worker other body
        (Or.inr hErased) hBody hCalled
  · intro thread other body hDeferring hBody hCalled
    rw [threads_loop] at hDeferring
    rw [bodies_loop] at hBody
    have hBefore := hLooped.deferring hDeferring
    rcases called_loop hCalled with hNot | hPopped
    · exact hSteady.deferring thread other body hBefore hBody
        hNot
    · have hTaken :
          (r.threads.loop r.entries worker step).held worker =
            some other := by
        rw [Threadpool.held, hPopped]
        rfl
      have hThread :=
        hPlaced.worker_eq hTaken hDeferring.mytask_eq
      rw [hThread, hPopped] at hDeferring
      rcases hDeferring with hEq | hEq <;> cases hEq

/- Every undisturbed event keeps the invariant up. -/
theorem Steady.step
    (hSteady : r.Steady)
    {event : WakeEvent T W}
    (hUndisturbed : r.Undisturbed event) :
    (r.step event).Steady := by
  cases event with
  | loop worker step => exact hSteady.loop hUndisturbed
  | fill worker =>
      simp only [WakeRun.step]
      split
      · rename_i task hRunning
        split
        · rename_i body hBody
          have hNext := hSteady.setBody hRunning body.fill
          exact hNext.setWorker hRunning rfl
            (fun _ hDeferring => absurd hDeferring
              (WorkerState.not_deferring_running _ _ _))
        · exact hSteady
      · exact hSteady
  | process worker entry result =>
      simp only [WakeRun.step]
      split
      · rename_i task left hRunning
        split
        · rename_i body hBody
          split
          · have hNext := hSteady.setBody hRunning
              (body.process entry result)
            exact hNext.setWorker hRunning rfl
              (fun _ hDeferring => absurd hDeferring
                (WorkerState.not_deferring_running _ _ _))
          · exact hSteady
        · exact hSteady
      · exact hSteady
  | raise worker =>
      simp only [WakeRun.step]
      split
      · rename_i task first rest hRunning
        apply hSteady.setWorker hRunning rfl
        rintro body (hEq | hEq) <;> cases hEq
      · exact hSteady
  | check worker =>
      simp only [WakeRun.step]
      split
      · rename_i task hRunning
        split
        · rename_i body hBody
          split
          · rename_i hRests
            apply hSteady.setWorker hRunning rfl
            intro other _ hOther
            rw [hBody] at hOther
            cases hOther
            exact hRests
          · exact hSteady.setWorker hRunning rfl
              (fun _ hDeferring => absurd hDeferring
                (WorkerState.not_deferring_running _ _ _))
        · exact hSteady
      · exact hSteady
  | finish worker status =>
      simp only [WakeRun.step]
      split
      · rename_i task hRunning
        split
        · exact hSteady
        · rename_i isRunnable hOther
          apply hSteady.setWorker hRunning rfl
          intro body _ hBody
          rw [hOther] at hBody
          cases hBody
      · exact hSteady
  | makeRunnable task => exact hSteady.makeRunnable task
  | post task workload =>
      simp only [WakeRun.step]
      split
      · exact hSteady.post _ _
      · exact hSteady
  | cancel task => exact hSteady.cancel task

end Steps

------------------------------------------------------------
-- No Lost Wake-up
------------------------------------------------------------

theorem Steady.noLostWakeUp
    {r : WakeRun T W}
    {events : List (WakeEvent T W)}
    (hSteady : (r.run events).Steady)
    (hLast : ∀ front event,
      events = front ++ [event] →
        (r.run front).Undisturbed event) :
    r.NoLostWakeUp events where
  pending := by
    intro front worker task hEvents hErased hCalled
    have hNot := hLast front _ hEvents worker task rfl hErased
    rw [hCalled] at hNot
    cases hNot
  rests := by
    intro _ task body hSuspended hBody
    exact body.rests_iff.mp
      (hSteady.suspended task body hSuspended hBody)

/- A run that has been steady, and its last event. -/
def Quiet
    (r : WakeRun T W)
    (events : List (WakeEvent T W)) : Prop :=
  (r.run events).Steady ∧
    ∀ front event,
      events = front ++ [event] →
        (r.run front).Undisturbed event

/- A task that is suspended by its worker was not pending,
   and is not pending then. -/
theorem undisturbed_of_noLostWakeUp
    {r : WakeRun T W}
    {front : List (WakeEvent T W)}
    {event : WakeEvent T W}
    (hPlaced : (r.run front).threads.Placed)
    (hKept : r.NoLostWakeUp (front ++ [event])) :
    (r.run front).Undisturbed event := by
  intro worker task hEvent hErased
  subst hEvent
  cases hCalled : (r.run front).called task with
  | false => rfl
  | true =>
      have hMem := hKept.pending front worker task rfl hErased
        hCalled
      have hHeld :
          (r.run front).threads.held worker = some task := by
        rw [Threadpool.held, hErased]
        rfl
      have hSame :
          (r.run (front ++ [.loop worker .conclude])
            ).threads.pool.pendingTasks =
              (r.run front).threads.pool.pendingTasks := by
        rw [run_snoc]
        simp only [WakeRun.step, threads_loop, Threadpool.loop,
          hErased]
        rfl
      rw [hSame] at hMem
      exact absurd hMem (hPlaced.not_pending hHeld)

/-
  No wake-up is lost along a run exactly if no `makeRunnable`
  on a task falls between its being taken and its being
  suspended.
-/
theorem noLostWakeUp_iff
    (groupId : T → Nat)
    (bodies : T → TaskBody W)
    (submitted : List T)
    (events : List (WakeEvent T W)) :
    (∀ front, front <+: events →
      (start groupId bodies submitted).NoLostWakeUp front) ↔
      ∀ front event back,
        events = front ++ event :: back →
          ((start groupId bodies submitted).run
            front).Undisturbed event := by
  apply Runs.forall_prefix_iff
    (start groupId bodies submitted).Quiet
  · constructor
    · exact steady_start groupId bodies submitted
    · intro front event hNil
      exact absurd hNil.symm (by simp)
  · intro front hQuiet
    exact hQuiet.1.noLostWakeUp hQuiet.2
  · intro front event _ _ hQuiet hUndisturbed
    constructor
    · rw [run_snoc]
      exact hQuiet.1.step hUndisturbed
    · intro most last hSplit
      have hParts := List.append_inj' hSplit rfl
      have hLast : event = last := by
        simpa using hParts.2
      rw [← hParts.1, ← hLast]
      exact hUndisturbed
  · intro front event _ _ hQuiet hKept
    exact undisturbed_of_noLostWakeUp hQuiet.1.placed hKept

/- A worker task, to which a second workload is posted while
   its worker is about to suspend it. -/
def postedTooEarly : List (WakeEvent Unit Unit) :=
  [.post () (),
    .loop 0 .popPending,
    .loop 0 .markRunning,
    .loop 0 .start,
    .fill 0,
    .process 0 { workload := (), waitable := 0 } .complete,
    .check 0,
    .post () (),
    .loop 0 .eraseRunning,
    .loop 0 .conclude]

/- The second workload stays in the queue of a task that is
   suspended, with all workers idle. -/
theorem not_noLostWakeUp_of_postedTooEarly :
    ¬ ∀ front, front <+: postedTooEarly →
      (start (fun _ => 0)
        (fun _ => .worker (TNonBlockingWorkerTask.construct 1))
        [()]).NoLostWakeUp front := by
  intro hAll
  have hKept := hAll postedTooEarly (List.prefix_refl _)
  have hRests := hKept.rests
    (by
      intro worker
      cases worker with
      | zero => rfl
      | succ other => rfl)
    () _ rfl rfl
  rcases hRests with hNone | hFull
  · cases hNone
  · exact absurd hFull (by decide)

end WakeRun

end OefCore
