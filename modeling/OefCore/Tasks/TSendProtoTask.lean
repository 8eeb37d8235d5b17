import OefCore.BasicComms.EndpointBase
import OefCore.Threading.Notification
import OefCore.Threading.TaskpoolRun

/-
  `TSendProtoTask`: tasks that send one message each on one
  endpoint, and the writer that drains its queue.

  The places are those between two sections under a lock, or
  two accesses to a notification.

  Main declarations:
    * `SendPlace`, `WriterState`, `SendTasks`, `SendTaskEvent`
    * `SendTasks.advance`, `SendTasks.write`
    * `SendTasks.step`, `SendTasks.run`
-/

namespace OefCore

------------------------------------------------------------
-- States
------------------------------------------------------------

variable {T M : Type}

/-
  The places in `TSendProtoTask::run`.  A notification is the
  one of the builder that `send` returned, `waiting` what
  `Waiting` told of it.
-/
inductive SendPlace where
  | sending
  | sent (notification : Option Nat)
  | asked (notification : Nat) (waiting : Bool)
  | attached (notification : Nat) (waiting : Bool)
  | calling (notification : Nat) (waiting : Bool)
  | clearing (notification : Nat) (waiting : Bool)
  | decided (waiting : Bool)
  | flushed
  deriving DecidableEq, Repr

/-
  The places in `ProtoMessageSender::checkForSpace`, and in
  the `wake` that it calls; `left` are the notifications that
  `wake` has still to notify.
-/
inductive WriterState where
  | idle
  | looking
  | waking
  | notifying (left : List Nat)
  | dispatching (notification : Nat) (left : List Nat)
  | clearing (notification : Nat) (left : List Nat)
  | woken
  | popping
  deriving DecidableEq, Repr

/- The notifications whose callbacks are still to be called by
   the `wake` that goes on. -/
def WriterState.left : WriterState → List Nat
  | notifying left => left
  | dispatching notification left => notification :: left
  | clearing _ left => left
  | _ => []

/-
  The pool, an endpoint, and what was done so far: whose
  `send` made a notification, the messages pushed with the
  tasks they are of, the wakes begun when `run` returned DEFER
  for a task that was not made runnable since, and the wakes
  that were begun and done.
-/
structure SendTasks (T M : Type) where
  threads : Threadpool T SendPlace
  pb : T → Option M
  txq : List (Option M)
  waiting : List Nat
  notifications : Nat → NotificationImplementation T
  created : Nat
  writer : WriterState
  owner : Nat → Option T
  pushed : List (T × Option M)
  deferred : T → Option Nat
  wakesBegun : Nat
  wakesDone : Nat

/-
  The writer takes its steps by `write`, until it stops; it
  may start when asio has written the last messages, or in
  `run_sending`.
-/
inductive SendTaskEvent where
  | loop (worker : Nat) (step : LoopStep)
  | advance (worker : Nat)
  | runSending (worker : Nat) (drains : Bool)
  | drain
  | write
  | stop
  deriving DecidableEq, Repr

namespace SendTasks

variable [DecidableEq T]

/- Tasks that were submitted one after the other, each with its
   message, and an endpoint with a queue. -/
def start
    (groupId : T → Nat)
    (pb : T → M)
    (submitted : List T)
    (txq : List (Option M)) : SendTasks T M where
  threads := Threadpool.start groupId (fun _ => true) submitted
  pb := fun task => some (pb task)
  txq := txq
  waiting := []
  notifications := fun _ => .create
  created := 0
  writer := .idle
  owner := fun _ => none
  pushed := []
  deferred := fun _ => none
  wakesBegun := 0
  wakesDone := 0

------------------------------------------------------------
-- Parts of the Steps
------------------------------------------------------------

def setWorker
    (r : SendTasks T M)
    (worker : Nat)
    (state : WorkerState T SendPlace) : SendTasks T M :=
  { r with threads := r.threads.setWorker worker state }

def setNotification
    (r : SendTasks T M)
    (notification : Nat)
    (value : NotificationImplementation T) : SendTasks T M :=
  { r with
    notifications :=
      Function.update r.notifications notification value }

/- A callback: the `makeRunnable` of a task. -/
def makeRunnable
    (r : SendTasks T M)
    (task : T) : SendTasks T M :=
  let pool := r.threads.pool.wakeTask task
  { r with
    threads := { r.threads with pool := pool }
    deferred :=
      if task ∈ pool.pendingTasks then
        Function.update r.deferred task none
      else
        r.deferred }

def callHandlers
    (r : SendTasks T M)
    (notification : Nat) : SendTasks T M :=
  (r.notifications notification).handlers.foldl makeRunnable r

/- `EndpointBase::send`, under the lock of the queue. -/
def send
    (r : SendTasks T M)
    (task : T) : Option Nat × SendTasks T M :=
  if r.txq.length < EndpointBase.bufferSizeLimit then
    (none,
      { r with
        txq := r.txq ++ [r.pb task]
        pushed := r.pushed ++ [(task, r.pb task)] })
  else
    (some r.created,
      { r with
        waiting := r.waiting ++ [r.created]
        notifications :=
          Function.update r.notifications r.created .create
        created := r.created + 1
        owner := Function.update r.owner r.created (some task) })

------------------------------------------------------------
-- Steps
------------------------------------------------------------

/- The next step of the run of a task; at the call of
   `run_sending`, that is another event. -/
def advance
    (r : SendTasks T M)
    (worker : Nat)
    (task : T) : SendPlace → SendTasks T M
  | .sending =>
      (r.send task).2.setWorker worker
        (.running task (.sent (r.send task).1))
  | .sent none =>
      r.setWorker worker (.running task (.decided false))
  | .sent (some notification) =>
      r.setWorker worker
        (.running task
          (.asked notification
            (r.notifications notification).isWaiting))
  | .asked notification waiting =>
      (r.setNotification notification
        ((r.notifications notification).setCallbacks
          (some task) none none)).setWorker worker
            (.running task (.attached notification waiting))
  | .attached notification waiting =>
      if (r.notifications notification).isWaiting then
        r.setWorker worker (.running task (.decided waiting))
      else
        r.setWorker worker
          (.running task (.calling notification waiting))
  | .calling notification waiting =>
      (r.callHandlers notification).setWorker worker
        (.running task (.clearing notification waiting))
  | .clearing notification waiting =>
      (r.setNotification notification
        (r.notifications notification).invalidate).setWorker
          worker (.running task (.decided waiting))
  | .decided true =>
      { r with
        deferred :=
          Function.update r.deferred task
            (some r.wakesBegun) }.setWorker worker
              (.finished task .defer)
  | .decided false => r
  | .flushed =>
      { r with
        pb := Function.update r.pb task none }.setWorker worker
          (.finished task .complete)

/- The next step of the writer. -/
def write (r : SendTasks T M) : SendTasks T M :=
  match r.writer with
  | .idle => r
  | .looking =>
      if EndpointBase.isTXQFull r.txq then
        { r with writer := .popping }
      else
        { r with writer := .waking }
  | .waking =>
      { r with
        waiting := []
        writer := .notifying r.waiting
        wakesBegun := r.wakesBegun + 1 }
  | .notifying [] =>
      { r with
        writer := .woken
        wakesDone := r.wakesDone + 1 }
  | .notifying (notification :: left) =>
      match (r.notifications notification).updateState
          .success with
      | (true, value) =>
          { r.setNotification notification value with
            writer := .dispatching notification left }
      | (false, _) => { r with writer := .notifying left }
  | .dispatching notification left =>
      { r.callHandlers notification with
        writer := .clearing notification left }
  | .clearing notification left =>
      { r.setNotification notification
          (r.notifications notification).invalidate with
        writer := .notifying left }
  | .woken =>
      if r.txq.isEmpty then
        { r with writer := .idle }
      else
        { r with writer := .popping }
  | .popping =>
      { r with
        txq := r.txq.drop 1
        writer := .looking }

def step (r : SendTasks T M) : SendTaskEvent → SendTasks T M
  | .loop worker step =>
      { r with
        threads :=
          r.threads.loop (fun _ => .sending) worker step }
  | .advance worker =>
      match r.threads.workers worker with
      | .running task place => r.advance worker task place
      | _ => r
  | .runSending worker drains =>
      match r.threads.workers worker, r.writer with
      | .running task (.decided false), .idle =>
          { r.setWorker worker (.running task .flushed) with
            writer := if drains then .looking else .idle }
      | _, _ => r
  | .drain =>
      match r.writer with
      | .idle => { r with writer := .looking }
      | _ => r
  | .write => r.write
  -- no endpoint, no space, or an endianness that is not known
  | .stop =>
      match r.writer with
      | .looking => { r with writer := .idle }
      | .popping => { r with writer := .idle }
      | _ => r

def run
    (r : SendTasks T M)
    (events : List SendTaskEvent) : SendTasks T M :=
  events.foldl step r

end SendTasks

end OefCore
