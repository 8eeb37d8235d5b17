import OefCore.Threading.TaskpoolRun

/-
  Several task pools and the tasks in them, with the mutexes
  that the functions of a pool take.

  A function runs without others in between; a mutex that is
  taken twice never gives way. The tasks are plain ones: they
  do not override `cancel`.

  Main declarations:
    * `PoolContents`, `TaskState`, `Pools`
    * `Taskpools`, `PoolFault`, `Taskpools.withLock`
    * `Taskpools.stop`, `Taskpools.taskCancel`,
      `Taskpools.submitCall`
    * `PoolsEvent`, `Taskpools.step`, `Taskpools.run`
-/

namespace OefCore

------------------------------------------------------------
-- Pools and Tasks
------------------------------------------------------------

/- What one pool keeps; the order of `suspendedTasks` has no
   meaning. -/
structure PoolContents (T : Type) where
  quit : Bool
  pendingTasks : List T
  runningTasks : List (Nat × T)
  suspendedTasks : List T
  futureTasks : List (FutureTask T)

/- What the pools read and write of a task. -/
structure TaskState (P : Type) where
  pool : Option P
  cancelled : Bool
  groupId : Nat

/- The workers are those of each pool, by thread number. -/
structure Pools (P T : Type) where
  contents : P → PoolContents T
  tasks : T → TaskState P
  defaultTaskpool : Option P
  workers : P → Nat → WorkerState T Unit

namespace PoolContents

variable {T : Type}

def construct : PoolContents T where
  quit := false
  pendingTasks := []
  runningTasks := []
  suspendedTasks := []
  futureTasks := []

/- One of the containers that wait for a worker has the task. -/
def Queues
    (self : PoolContents T)
    (task : T) : Prop :=
  task ∈ self.pendingTasks ∨
    task ∈ self.suspendedTasks ∨
      ∃ futureTask ∈ self.futureTasks, futureTask.task = task

variable [DecidableEq T]

def remove
    (self : PoolContents T)
    (task : T) : PoolContents T :=
  { self with
    pendingTasks := self.pendingTasks.filter (· ≠ task)
    suspendedTasks := self.suspendedTasks.filter (· ≠ task) }

def makeRunnable
    (self : PoolContents T)
    (task : T) : PoolContents T :=
  if task ∈ self.suspendedTasks then
    { self with
      suspendedTasks := self.suspendedTasks.filter (· ≠ task)
      pendingTasks := task :: self.pendingTasks }
  else
    self

def suspend
    (self : PoolContents T)
    (task : T) : PoolContents T :=
  { self with
    suspendedTasks := self.suspendedTasks.insert task }

def after
    (self : PoolContents T)
    (task : T)
    (due : Nat) : PoolContents T :=
  { self with
    futureTasks :=
      Taskpool.pushFuture { task := task, due := due }
        self.futureTasks }

def markRunning
    (self : PoolContents T)
    (threadIdx : Nat)
    (task : T) : PoolContents T :=
  { self with
    runningTasks :=
      (threadIdx, task) ::
        self.runningTasks.filter (·.1 ≠ threadIdx) }

def eraseRunning
    (self : PoolContents T)
    (threadIdx : Nat) : PoolContents T :=
  { self with
    runningTasks :=
      self.runningTasks.filter (·.1 ≠ threadIdx) }

end PoolContents

namespace Pools

variable {P T : Type}
variable [DecidableEq P] [DecidableEq T]

def construct (groupId : T → Nat) : Pools P T where
  contents := fun _ => .construct
  tasks := fun task =>
    { pool := none
      cancelled := false
      groupId := groupId task }
  defaultTaskpool := none
  workers := fun _ _ => .idle

def modify
    (self : Pools P T)
    (p : P)
    (f : PoolContents T → PoolContents T) : Pools P T :=
  { self with
    contents :=
      Function.update self.contents p (f (self.contents p)) }

def setPool
    (self : Pools P T)
    (task : T)
    (pool : Option P) : Pools P T :=
  { self with
    tasks :=
      Function.update self.tasks task
        { self.tasks task with pool := pool } }

def setCancelled
    (self : Pools P T)
    (task : T) : Pools P T :=
  { self with
    tasks :=
      Function.update self.tasks task
        { self.tasks task with cancelled := true } }

/- `Task::setGroupId`. -/
def setGroupId
    (self : Pools P T)
    (task : T)
    (groupId : Nat) : Pools P T :=
  { self with
    tasks :=
      Function.update self.tasks task
        { self.tasks task with groupId := groupId } }

def setWorker
    (self : Pools P T)
    (p : P)
    (threadIdx : Nat)
    (state : WorkerState T Unit) : Pools P T :=
  { self with
    workers :=
      Function.update self.workers p
        (Function.update (self.workers p) threadIdx state) }

/- `Taskpool::suspend`. -/
def suspend
    (self : Pools P T)
    (p : P)
    (task : T) : Pools P T :=
  (self.setPool task (some p)).modify p (·.suspend task)

/- The section of `run` that takes a pending task. -/
def popPending
    (self : Pools P T)
    (p : P)
    (threadIdx : Nat) : Pools P T :=
  match (self.contents p).pendingTasks with
  | [] => self
  | task :: pendingTasks =>
      ((self.modify p fun contents =>
        { contents with
          pendingTasks := pendingTasks }).setPool task
            none).setWorker p threadIdx (.popped task)

def locklessGetNextFutureWork
    (self : Pools P T)
    (p : P)
    (threadIdx now : Nat) : Pools P T :=
  match Taskpool.nextFuture
      (fun task => (self.tasks task).cancelled) now
        (self.contents p).futureTasks with
  | (none, futureTasks) =>
      self.modify p fun contents =>
        { contents with futureTasks := futureTasks }
  | (some task, futureTasks) =>
      ((self.modify p fun contents =>
        { contents with
          futureTasks := futureTasks }).setPool task
            none).setWorker p threadIdx (.popped task)

/- The tasks that `cancelTaskGroup` collects. -/
def ofGroup
    (self : Pools P T)
    (p : P)
    (groupId : Nat) : List T :=
  (self.contents p).pendingTasks.filter
      (fun task => (self.tasks task).groupId = groupId) ++
    (self.contents p).suspendedTasks.filter
      (fun task => (self.tasks task).groupId = groupId)

/- The section of `cancelTaskGroup` that takes them out. -/
def withoutGroup
    (self : Pools P T)
    (p : P)
    (groupId : Nat) : Pools P T :=
  self.modify p fun contents =>
    { contents with
      pendingTasks :=
        contents.pendingTasks.filter
          (fun task => (self.tasks task).groupId ≠ groupId)
      suspendedTasks :=
        contents.suspendedTasks.filter
          (fun task => (self.tasks task).groupId ≠ groupId) }

end Pools

------------------------------------------------------------
-- Mutexes
------------------------------------------------------------

/- What ends a run: a mutex is taken by the thread that has
   it, a list is changed that a loop walks along, or a null
   pointer is followed. -/
inductive PoolFault where
  | deadlock
  | invalidated
  | nullPointer
  deriving DecidableEq, Repr

/- `iterated` says that a loop walks along the pending tasks
   of the pool. -/
structure Taskpools (P T : Type) where
  pools : Pools P T
  locked : P → Bool
  iterated : P → Bool

namespace Taskpools

variable {P T : Type}
variable [DecidableEq P] [DecidableEq T]

def construct (groupId : T → Nat) : Taskpools P T where
  pools := .construct groupId
  locked := fun _ => false
  iterated := fun _ => false

/- A change that needs no mutex. -/
def change
    (self : Taskpools P T)
    (f : Pools P T → Pools P T) : Taskpools P T :=
  { self with pools := f self.pools }

def lock
    (self : Taskpools P T)
    (p : P) : Except PoolFault (Taskpools P T) :=
  if self.locked p then
    .error .deadlock
  else
    .ok { self with
      locked := Function.update self.locked p true }

def unlock
    (self : Taskpools P T)
    (p : P) : Taskpools P T :=
  { self with locked := Function.update self.locked p false }

def setIterated
    (self : Taskpools P T)
    (p : P)
    (iterated : Bool) : Taskpools P T :=
  { self with
    iterated := Function.update self.iterated p iterated }

/- The pending tasks, to be compared. -/
def pendingTasks
    (self : Taskpools P T)
    (p : P) : List T :=
  (self.pools.contents p).pendingTasks

def runningTasks
    (self : Taskpools P T)
    (p : P) : List T :=
  (self.pools.contents p).runningTasks.map Prod.snd

/- A section under the mutex that calls no other function. -/
def withLock
    (self : Taskpools P T)
    (p : P)
    (body : Pools P T → Pools P T) :
    Except PoolFault (Taskpools P T) := do
  let held ← self.lock p
  let changed := held.change body
  if held.iterated p &&
      changed.pendingTasks p ≠ held.pendingTasks p then
    throw .invalidated
  return changed.unlock p

------------------------------------------------------------
-- Functions of a Pool
------------------------------------------------------------

def remove
    (self : Taskpools P T)
    (p : P)
    (task : T) : Except PoolFault (Taskpools P T) :=
  self.withLock p fun pools =>
    pools.modify p (·.remove task)

def makeRunnable
    (self : Taskpools P T)
    (p : P)
    (task : T) : Except PoolFault (Taskpools P T) :=
  self.withLock p fun pools =>
    pools.modify p (·.makeRunnable task)

def suspend
    (self : Taskpools P T)
    (p : P)
    (task : T) : Taskpools P T :=
  self.change fun pools => pools.suspend p task

/- `isRunnable` is the answer of the task. -/
def submit
    (self : Taskpools P T)
    (p : P)
    (task : T)
    (isRunnable : Bool) :
    Except PoolFault (Taskpools P T) :=
  if isRunnable then
    self.withLock p fun pools =>
      pools.modify p fun contents =>
        { contents with
          pendingTasks := contents.pendingTasks ++ [task] }
  else
    .ok (self.suspend p task)

def after
    (self : Taskpools P T)
    (p : P)
    (task : T)
    (now delay : Nat) : Except PoolFault (Taskpools P T) :=
  self.withLock p fun pools =>
    pools.modify p (·.after task (now + delay))

/- The gauges show the sizes; the pool stays as it is. -/
def updateStatus
    (self : Taskpools P T)
    (p : P) : Except PoolFault (Taskpools P T) :=
  self.withLock p id

/- `Task::cancel`. -/
def taskCancel
    (self : Taskpools P T)
    (task : T) : Except PoolFault (Taskpools P T) :=
  let cancelled := self.change (·.setCancelled task)
  match (cancelled.pools.tasks task).pool with
  | some p => cancelled.remove p task
  | none => .ok cancelled

/- Each task of a list is cancelled. -/
def cancelAll
    (self : Taskpools P T)
    (tasks : List T) : Except PoolFault (Taskpools P T) :=
  tasks.foldlM taskCancel self

def setQuit
    (self : Taskpools P T)
    (p : P) : Taskpools P T :=
  self.change fun pools =>
    pools.modify p ({ · with quit := true })

def clearPending
    (self : Taskpools P T)
    (p : P) : Taskpools P T :=
  (self.setIterated p false).change fun pools =>
    pools.modify p ({ · with pendingTasks := [] })

/- The tasks are cancelled under the mutex of the pool. -/
def stop
    (self : Taskpools P T)
    (p : P) : Except PoolFault (Taskpools P T) := do
  let held ← self.lock p
  let quitting := held.setQuit p
  let looped ←
    (quitting.setIterated p true).cancelAll
      (quitting.pendingTasks p)
  let cleared := looped.clearPending p
  let stopped ← cleared.cancelAll (cleared.runningTasks p)
  return stopped.unlock p

/- The tasks are cancelled after the mutex was given back. -/
def cancelTaskGroup
    (self : Taskpools P T)
    (p : P)
    (groupId : Nat) : Except PoolFault (Taskpools P T) := do
  let without ← self.withLock p (·.withoutGroup p groupId)
  without.cancelAll (self.pools.ofGroup p groupId)

------------------------------------------------------------
-- Functions of a Task
------------------------------------------------------------

/- `Task::makeRunnable`. -/
def taskMakeRunnable
    (self : Taskpools P T)
    (task : T) : Except PoolFault (Taskpools P T) :=
  match (self.pools.tasks task).pool with
  | some p => self.makeRunnable p task
  | none => .ok self

/- A task leaves the pool that it points to. -/
def leave
    (self : Taskpools P T)
    (task : T) : Except PoolFault (Taskpools P T) :=
  match (self.pools.tasks task).pool with
  | some p => self.remove p task
  | none => .ok self

/- What the overloads that are given a pool share: a task that
   already points to it is left alone. The pool may be null. -/
def submitBy
    (self : Taskpools P T)
    (enter :
      Taskpools P T → P → Except PoolFault (Taskpools P T))
    (task : T)
    (pool : Option P) :
    Except PoolFault (Bool × Taskpools P T) :=
  if (self.pools.tasks task).pool = pool then
    .ok (true, self)
  else do
    let left ← self.leave task
    let pointing := left.change (·.setPool task pool)
    match pool with
    | none => throw .nullPointer
    | some p =>
        let entered ← enter pointing p
        return (true, entered)

/- `Task::submit` to a pool. -/
def taskSubmit
    (self : Taskpools P T)
    (task : T)
    (pool : Option P)
    (isRunnable : Bool) :
    Except PoolFault (Bool × Taskpools P T) :=
  self.submitBy (fun pointing p =>
    pointing.submit p task isRunnable) task pool

/- `Task::submit` to the default pool, if there is one. -/
def taskSubmitDefault
    (self : Taskpools P T)
    (task : T)
    (isRunnable : Bool) :
    Except PoolFault (Bool × Taskpools P T) :=
  let x := self.pools.defaultTaskpool
  if (self.pools.tasks task).pool = x then
    .ok (true, self)
  else if x.isSome then
    self.taskSubmit task x isRunnable
  else
    .ok (false, self)

/- `Task::submit` to a pool with a delay. -/
def taskSubmitAfter
    (self : Taskpools P T)
    (task : T)
    (pool : Option P)
    (now delay : Nat) :
    Except PoolFault (Bool × Taskpools P T) :=
  self.submitBy (fun pointing p =>
    pointing.after p task now delay) task pool

/- `Task::submit` to the default pool with a delay. -/
def taskSubmitDefaultAfter
    (self : Taskpools P T)
    (task : T)
    (now delay : Nat) :
    Except PoolFault (Bool × Taskpools P T) :=
  let x := self.pools.defaultTaskpool
  if x.isSome then
    self.taskSubmitAfter task x now delay
  else
    .ok (false, self)

/- The overloads of `Task::submit`. -/
inductive SubmitCall (P : Type) where
  | toPool (pool : Option P) (isRunnable : Bool)
  | toDefault (isRunnable : Bool)
  | toPoolAfter (pool : Option P) (now delay : Nat)
  | toDefaultAfter (now delay : Nat)
  deriving DecidableEq, Repr

def submitCall
    (self : Taskpools P T)
    (task : T) :
    SubmitCall P → Except PoolFault (Bool × Taskpools P T)
  | .toPool pool isRunnable =>
      self.taskSubmit task pool isRunnable
  | .toDefault isRunnable =>
      self.taskSubmitDefault task isRunnable
  | .toPoolAfter pool now delay =>
      self.taskSubmitAfter task pool now delay
  | .toDefaultAfter now delay =>
      self.taskSubmitDefaultAfter task now delay

------------------------------------------------------------
-- Workers
------------------------------------------------------------

/- What a worker does when it takes a step of the loop; a
   worker that is elsewhere does nothing. It may have looked
   at `quit` before that was set. -/
def work
    (self : Taskpools P T)
    (p : P)
    (threadIdx : Nat)
    (step : LoopStep) : Except PoolFault (Taskpools P T) :=
  match step, self.pools.workers p threadIdx with
  | .popFuture now, .idle =>
      self.withLock p
        (·.locklessGetNextFutureWork p threadIdx now)
  | .popPending, .idle =>
      self.withLock p (·.popPending p threadIdx)
  | .markRunning, .popped task =>
      self.withLock p fun pools =>
        (pools.modify p
          (·.markRunning threadIdx task)).setWorker p threadIdx
            (.marked task)
  | .start, .marked task =>
      .ok (self.change fun pools =>
        pools.setWorker p threadIdx
          (if (pools.tasks task).cancelled then
            .finished task .cancelled
          else
            .running task ()))
  | .eraseRunning, .finished task status =>
      self.withLock p fun pools =>
        (pools.modify p
          (·.eraseRunning threadIdx)).setWorker p threadIdx
            (.erased task status)
  | .conclude, .erased task status =>
      let idle := self.change (·.setWorker p threadIdx .idle)
      match status with
      | .defer => .ok (idle.suspend p task)
      | _ => .ok idle
  | _, _ => .ok self

/- The run of a task returns. -/
def returns
    (self : Taskpools P T)
    (p : P)
    (threadIdx : Nat)
    (status : ExitState) : Taskpools P T :=
  match self.pools.workers p threadIdx with
  | .running task _ =>
      self.change fun pools =>
        pools.setWorker p threadIdx (.finished task status)
  | _ => self

------------------------------------------------------------
-- Runs
------------------------------------------------------------

end Taskpools

/- The public functions of pools and tasks, and the steps of
   the workers. -/
inductive PoolsEvent (P T : Type) where
  | submitCall (task : T) (call : Taskpools.SubmitCall P)
  | taskCancel (task : T)
  | taskMakeRunnable (task : T)
  | setGroupId (task : T) (groupId : Nat)
  | submit (p : P) (task : T) (isRunnable : Bool)
  | suspend (p : P) (task : T)
  | after (p : P) (task : T) (now delay : Nat)
  | remove (p : P) (task : T)
  | makeRunnable (p : P) (task : T)
  | cancelTaskGroup (p : P) (groupId : Nat)
  | updateStatus (p : P)
  | stop (p : P)
  | setDefault (pool : Option P)
  | work (p : P) (threadIdx : Nat) (step : LoopStep)
  | returns (p : P) (threadIdx : Nat) (status : ExitState)
  deriving DecidableEq, Repr

namespace Taskpools

variable {P T : Type}
variable [DecidableEq P] [DecidableEq T]

/- A default pool that is gone is null. -/
def step
    (self : Taskpools P T) :
    PoolsEvent P T → Except PoolFault (Taskpools P T)
  | .submitCall task call =>
      (self.submitCall task call).map Prod.snd
  | .taskCancel task => self.taskCancel task
  | .taskMakeRunnable task => self.taskMakeRunnable task
  | .setGroupId task groupId =>
      .ok (self.change (·.setGroupId task groupId))
  | .submit p task isRunnable => self.submit p task isRunnable
  | .suspend p task => .ok (self.suspend p task)
  | .after p task now delay => self.after p task now delay
  | .remove p task => self.remove p task
  | .makeRunnable p task => self.makeRunnable p task
  | .cancelTaskGroup p groupId =>
      self.cancelTaskGroup p groupId
  | .updateStatus p => self.updateStatus p
  | .stop p => self.stop p
  | .setDefault pool =>
      .ok (self.change fun pools =>
        { pools with defaultTaskpool := pool })
  | .work p threadIdx step => self.work p threadIdx step
  | .returns p threadIdx status =>
      .ok (self.returns p threadIdx status)

/- A call that never returns, or a crash, ends the run. -/
def run
    (self : Taskpools P T)
    (events : List (PoolsEvent P T)) :
    Except PoolFault (Taskpools P T) :=
  events.foldlM step self

theorem run_cons
    (self : Taskpools P T)
    (event : PoolsEvent P T)
    (events : List (PoolsEvent P T)) :
    self.run (event :: events) =
      (self.step event).bind (fun first => first.run events) :=
  rfl

/- The first step of a run that comes to its end. -/
theorem exists_step_of_run_cons
    {self next : Taskpools P T}
    {event : PoolsEvent P T}
    {events : List (PoolsEvent P T)}
    (hNext : self.run (event :: events) = .ok next) :
    ∃ first,
      self.step event = .ok first ∧
        first.run events = .ok next := by
  rw [run_cons] at hNext
  cases hStep : self.step event with
  | error fault =>
      rw [hStep] at hNext
      cases hNext
  | ok first =>
      rw [hStep] at hNext
      exact ⟨first, rfl, hNext⟩

theorem run_snoc
    (self : Taskpools P T)
    (events : List (PoolsEvent P T))
    (event : PoolsEvent P T) :
    self.run (events ++ [event]) =
      (self.run events).bind (step · event) := by
  unfold run
  rw [List.foldlM_append]
  simp only [List.foldlM_cons, List.foldlM_nil, bind_pure]
  rfl

end Taskpools

end OefCore
