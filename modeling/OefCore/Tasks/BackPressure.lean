import OefCore.Tasks.TSendProtoTask

/-
  Back-pressure: what becomes of the messages of tasks whose
  endpoint has a full queue.

  Main declarations:
    * `SendTasks.NothingLost`, `SendTasks.unhurried`
    * `SendTasks.Steady`
    * `SendTasks.nothingLost`
-/

namespace OefCore

namespace SendTasks

variable {T M : Type}
variable [DecidableEq T]

------------------------------------------------------------
-- What Is Promised
------------------------------------------------------------

/- The messages pushed for a task. -/
def pushesOf
    (r : SendTasks T M)
    (task : T) : List (Option M) :=
  (r.pushed.filter fun push => push.1 = task).map Prod.snd

/-
  A task is complete with its message pushed once; it defers
  with its message not pushed, and no wake that was begun
  after that is done before the task was made runnable.
-/
structure NothingLost
    (pb : T → M)
    (r : SendTasks T M) : Prop where
  complete :
    ∀ worker task,
      r.threads.workers worker = .finished task .complete →
        r.pushesOf task = [some (pb task)]
  deferring :
    ∀ worker task,
      r.threads.workers worker = .finished task .defer →
        r.pushesOf task = []
  woken :
    ∀ task begun,
      r.deferred task = some begun → r.wakesDone ≤ begun

/-
  The drain does not overtake a task whose message was
  refused: its notification is not resolved before the
  builder's last look at it, and the callbacks are not called
  before the pool has suspended it.
-/
def unhurried
    (r : SendTasks T M) : SendTaskEvent → Bool
  | .advance worker =>
      match r.threads.workers worker with
      | .running _ (.sent (some notification)) =>
          (r.notifications notification).isWaiting
      | .running _ (.attached notification _) =>
          (r.notifications notification).isWaiting
      | _ => true
  | .write =>
      match r.writer with
      | .dispatching notification _ =>
          match r.owner notification with
          | some task => r.threads.pool.suspendedTasks task
          | none => true
      | _ => true
  | _ => true

def unhurriedRun
    (r : SendTasks T M) : List SendTaskEvent → Bool
  | [] => true
  | event :: events =>
      r.unhurried event && (r.step event).unhurriedRun events

------------------------------------------------------------
-- Notifications
------------------------------------------------------------

/- The writer is in a call of `wake`. -/
def inWake : WriterState → Bool
  | .notifying _ => true
  | .dispatching _ _ => true
  | .clearing _ _ => true
  | _ => false

/- The notifications that a call of `wake` has in hand. -/
def inHand : WriterState → List Nat
  | .notifying left => left
  | .dispatching notification left => notification :: left
  | .clearing notification left => notification :: left
  | _ => []

/- Those that it has not notified. -/
def unnotified : WriterState → List Nat
  | .notifying left => left
  | .dispatching _ left => left
  | .clearing _ left => left
  | _ => []

/- Notifications are kept account of. -/
structure Booked (r : SendTasks T M) : Prop where
  wakes :
    r.wakesBegun = r.wakesDone + (inWake r.writer).toNat
  nodup : (r.waiting ++ inHand r.writer).Nodup
  created :
    ∀ n ∈ r.waiting ++ inHand r.writer, n < r.created
  unresolved :
    ∀ n ∈ r.waiting ++ unnotified r.writer,
      (r.notifications n).state = .waiting
  dispatching :
    ∀ n left, r.writer = .dispatching n left →
      (r.notifications n).state = .success

/- A notification of a task whose callbacks are still to be
   called. -/
structure Live
    (r : SendTasks T M)
    (task : T)
    (n : Nat) : Prop where
  created : n < r.created
  owner : r.owner n = some task
  known : n ∈ r.waiting ∨ n ∈ r.writer.left

/- It has the callback that makes its task runnable. -/
structure Watched
    (r : SendTasks T M)
    (task : T)
    (n : Nat) : Prop extends Live r task n where
  callback :
    (r.notifications n).callbackSuccess = some task

/- It is reached by the first wake that was not begun when the
   task deferred. -/
structure Awaited
    (r : SendTasks T M)
    (task : T)
    (n : Nat) : Prop extends Watched r task n where
  reached :
    ∀ begun, r.deferred task = some begun →
      (n ∈ r.waiting ∧ r.wakesBegun ≤ begun) ∨
        (n ∈ r.writer.left ∧ r.wakesBegun ≤ begun + 1)

------------------------------------------------------------
-- The Invariant
------------------------------------------------------------

def Unsent
    (pb : T → M)
    (r : SendTasks T M)
    (task : T) : Prop :=
  r.pb task = some (pb task) ∧ r.pushesOf task = []

def Sent
    (pb : T → M)
    (r : SendTasks T M)
    (task : T) : Prop :=
  r.pushesOf task = [some (pb task)]

/- What is known of a task at a place of its run. -/
def FitsAt
    (pb : T → M)
    (r : SendTasks T M)
    (task : T) : SendPlace → Prop
  | .sending => Unsent pb r task
  | .sent none => Sent pb r task
  | .sent (some n) => Unsent pb r task ∧ Live r task n
  | .asked n waiting =>
      Unsent pb r task ∧ Live r task n ∧ waiting = true
  | .attached n waiting =>
      Unsent pb r task ∧ Watched r task n ∧ waiting = true
  | .calling _ _ => False
  | .clearing _ _ => False
  | .decided true =>
      Unsent pb r task ∧ ∃ n, Watched r task n
  | .decided false => Sent pb r task
  | .flushed => Sent pb r task

/- What is known of the task that a worker holds. -/
def Fits
    (pb : T → M)
    (r : SendTasks T M) : WorkerState T SendPlace → Prop
  | .idle => True
  | .popped task => Unsent pb r task
  | .marked task => Unsent pb r task
  | .running task place => FitsAt pb r task place
  | .finished task .complete => Sent pb r task
  | .finished task .defer =>
      Unsent pb r task ∧ ∃ n, Awaited r task n
  | .finished _ _ => True
  | .erased task .defer =>
      Unsent pb r task ∧ ∃ n, Awaited r task n
  | .erased _ _ => True

structure Steady
    (pb : T → M)
    (r : SendTasks T M) : Prop where
  placed : r.threads.Placed
  booked : r.Booked
  unsent :
    ∀ task, 0 < r.threads.pool.copies task →
      Unsent pb r task
  suspended :
    ∀ task, r.threads.pool.suspendedTasks task = true →
      ∃ n, Awaited r task n
  workers : ∀ worker, Fits pb r (r.threads.workers worker)
  deferred :
    ∀ task begun, r.deferred task = some begun →
      r.threads.pool.suspendedTasks task = true ∨
        ∃ worker,
          (r.threads.workers worker).Deferring task

variable {pb : T → M}
variable {r next : SendTasks T M}
variable {task : T}

theorem Fits.deferring
    {state : WorkerState T SendPlace}
    (hFits : Fits pb r state)
    (hDeferring : state.Deferring task) :
    ∃ n, Awaited r task n := by
  rcases hDeferring with hEq | hEq
  · rw [hEq] at hFits
    exact hFits.2
  · rw [hEq] at hFits
    exact hFits.2

omit [DecidableEq T] in
theorem Awaited.wakesDone_le
    {n begun : Nat}
    (hAwaited : Awaited r task n)
    (hBooked : r.Booked)
    (hDeferred : r.deferred task = some begun) :
    r.wakesDone ≤ begun := by
  have hWakes := hBooked.wakes
  rcases hAwaited.reached begun hDeferred with
    ⟨_, hBegun⟩ | ⟨hLeft, hBegun⟩
  · omega
  · have hIn : inWake r.writer = true := by
      cases hWriter : r.writer with
      | notifying left => rfl
      | dispatching n left => rfl
      | clearing n left => rfl
      | _ =>
          rw [hWriter] at hLeft
          cases hLeft
    rw [hIn, Bool.toNat_true] at hWakes
    omega

theorem Steady.losesNothing (hSteady : Steady pb r) :
    NothingLost pb r where
  complete := by
    intro worker task hFinished
    have hFits := hSteady.workers worker
    rw [hFinished] at hFits
    exact hFits
  deferring := by
    intro worker task hFinished
    have hFits := hSteady.workers worker
    rw [hFinished] at hFits
    exact hFits.1.2
  woken := by
    intro task begun hDeferred
    have hAwaited : ∃ n, Awaited r task n := by
      rcases hSteady.deferred task begun hDeferred with
        hSuspended | ⟨worker, hDeferring⟩
      · exact hSteady.suspended task hSuspended
      · exact (hSteady.workers worker).deferring hDeferring
    rcases hAwaited with ⟨n, hAwaited⟩
    exact hAwaited.wakesDone_le hSteady.booked hDeferred

theorem steady_start
    (groupId : T → Nat)
    (pb : T → M)
    (submitted : List T)
    (txq : List (Option M)) :
    Steady pb (start groupId pb submitted txq) where
  placed := Threadpool.placed_start _ _ _
  booked :=
    { wakes := rfl
      nodup := List.nodup_nil
      created := by
        intro n hMem
        cases hMem
      unresolved := by
        intro n hMem
        cases hMem
      dispatching := by
        intro n left hEq
        cases hEq }
  unsent := fun _ _ => ⟨rfl, rfl⟩
  suspended := by
    intro task hSuspended
    have hNot := Threadpool.suspended_start hSuspended
    cases hNot
  workers := fun _ => trivial
  deferred := by
    intro task begun hNone
    cases hNone

------------------------------------------------------------
-- What a Step Leaves Alone
------------------------------------------------------------

/- What is known of a task stays known. -/
structure Keeps
    (r next : SendTasks T M)
    (task : T) : Prop where
  pb : next.pb task = r.pb task
  pushes : next.pushesOf task = r.pushesOf task
  live : ∀ {n}, Live r task n → Live next task n
  watched : ∀ {n}, Watched r task n → Watched next task n
  awaited : ∀ {n}, Awaited r task n → Awaited next task n

theorem Keeps.unsent
    (hKeeps : Keeps r next task)
    (hUnsent : Unsent pb r task) :
    Unsent pb next task := by
  unfold Unsent
  rw [hKeeps.pb, hKeeps.pushes]
  exact hUnsent

theorem Keeps.sent
    (hKeeps : Keeps r next task)
    (hSent : Sent pb r task) :
    Sent pb next task := by
  unfold Sent
  rw [hKeeps.pushes]
  exact hSent

theorem Keeps.fitsAt
    (hKeeps : Keeps r next task)
    {place : SendPlace}
    (hFits : FitsAt pb r task place) :
    FitsAt pb next task place := by
  cases place with
  | sending => exact hKeeps.unsent hFits
  | sent notification =>
      cases notification with
      | none => exact hKeeps.sent hFits
      | some n =>
          exact ⟨hKeeps.unsent hFits.1, hKeeps.live hFits.2⟩
  | asked n waiting =>
      exact ⟨hKeeps.unsent hFits.1, hKeeps.live hFits.2.1,
        hFits.2.2⟩
  | attached n waiting =>
      exact ⟨hKeeps.unsent hFits.1, hKeeps.watched hFits.2.1,
        hFits.2.2⟩
  | calling n waiting => exact hFits
  | clearing n waiting => exact hFits
  | decided waiting =>
      cases waiting with
      | true =>
          rcases hFits with ⟨hUnsent, n, hWatched⟩
          exact ⟨hKeeps.unsent hUnsent, n,
            hKeeps.watched hWatched⟩
      | false => exact hKeeps.sent hFits
  | flushed => exact hKeeps.sent hFits

theorem Keeps.awaiting
    (hKeeps : Keeps r next task)
    (hFits : Unsent pb r task ∧ ∃ n, Awaited r task n) :
    Unsent pb next task ∧ ∃ n, Awaited next task n := by
  rcases hFits with ⟨hUnsent, n, hAwaited⟩
  exact ⟨hKeeps.unsent hUnsent, n, hKeeps.awaited hAwaited⟩

theorem Fits.keeps
    {state : WorkerState T SendPlace}
    (hFits : Fits pb r state)
    (hKeeps : ∀ task, state.mytask = some task →
      Keeps r next task) :
    Fits pb next state := by
  cases state with
  | idle => exact trivial
  | popped task => exact (hKeeps task rfl).unsent hFits
  | marked task => exact (hKeeps task rfl).unsent hFits
  | running task place => exact (hKeeps task rfl).fitsAt hFits
  | finished task status =>
      cases status with
      | complete => exact (hKeeps task rfl).sent hFits
      | defer => exact (hKeeps task rfl).awaiting hFits
      | cancelled => exact trivial
      | errored => exact trivial
  | erased task status =>
      cases status with
      | defer => exact (hKeeps task rfl).awaiting hFits
      | complete => exact trivial
      | cancelled => exact trivial
      | errored => exact trivial

/- The fields that decide what is known of a task are as they
   were. -/
structure Untouched
    (r next : SendTasks T M)
    (task : T) : Prop where
  pb : next.pb task = r.pb task := by rfl
  pushes : next.pushesOf task = r.pushesOf task := by rfl
  created : r.created ≤ next.created := by
    exact Nat.le_refl _
  owner :
    ∀ n, n < r.created → next.owner n = r.owner n := by
      exact fun _ _ => rfl
  waiting : ∀ n, n ∈ r.waiting → n ∈ next.waiting := by
    exact fun _ hMem => hMem
  left :
    ∀ n, Live r task n → n ∈ r.writer.left →
      n ∈ next.writer.left := by
        exact fun _ _ hMem => hMem
  callback :
    ∀ n, Live r task n →
      (next.notifications n).callbackSuccess =
        (r.notifications n).callbackSuccess := by
          exact fun _ _ => rfl
  deferred :
    ∀ begun, next.deferred task = some begun →
      r.deferred task = some begun := by
        exact fun _ hSome => hSome
  wakesBegun : next.wakesBegun = r.wakesBegun := by rfl

theorem Untouched.refl
    (r : SendTasks T M)
    (task : T) :
    Untouched r r task :=
  { }

theorem Untouched.keeps
    (hSame : Untouched r next task) :
    Keeps r next task := by
  have hLive : ∀ {n}, Live r task n → Live next task n := by
    intro n hLive
    have hKnown : n ∈ next.waiting ∨ n ∈ next.writer.left := by
      rcases hLive.known with hBefore | hBefore
      · exact Or.inl (hSame.waiting n hBefore)
      · exact Or.inr (hSame.left n hLive hBefore)
    exact
      { created := Nat.lt_of_lt_of_le hLive.created hSame.created
        owner := by
          rw [hSame.owner n hLive.created]
          exact hLive.owner
        known := hKnown }
  have hWatched : ∀ {n}, Watched r task n →
      Watched next task n := by
    intro n hWatched
    exact
      { toLive := hLive hWatched.toLive
        callback := by
          rw [hSame.callback n hWatched.toLive]
          exact hWatched.callback }
  refine ⟨hSame.pb, hSame.pushes, hLive, hWatched, ?_⟩
  intro n hAwaited
  refine ⟨hWatched hAwaited.toWatched, ?_⟩
  intro begun hNext
  rw [hSame.wakesBegun]
  rcases hAwaited.reached begun
      (hSame.deferred begun hNext) with
    ⟨hMem, hLe⟩ | ⟨hMem, hLe⟩
  · exact Or.inl ⟨hSame.waiting n hMem, hLe⟩
  · exact Or.inr ⟨hSame.left n hAwaited.toLive hMem, hLe⟩

------------------------------------------------------------
-- Steps of the Loop
------------------------------------------------------------

theorem fits_setWorker
    {threads : Threadpool T SendPlace}
    (hWorkers : ∀ worker, Fits pb r (threads.workers worker))
    {worker : Nat}
    {state : WorkerState T SendPlace}
    (hFits : Fits pb r state)
    (other : Nat) :
    Fits pb r
      ((threads.setWorker worker state).workers other) := by
  by_cases hOther : other = worker
  · rw [hOther, Threadpool.workers_setWorker_self]
    exact hFits
  · rw [Threadpool.workers_setWorker_of_ne _ hOther]
    exact hWorkers other

/- The workers after a step of the loop. -/
theorem Steady.fits_loop
    (hSteady : Steady pb r)
    {entry : T → SendPlace}
    (hEntry : ∀ task, entry task = .sending)
    {worker : Nat}
    {step : LoopStep}
    {threads : Threadpool T SendPlace}
    (hLooped : r.threads.Looped entry worker step threads)
    (other : Nat) :
    Fits pb r (threads.workers other) := by
  have hFits := hSteady.workers worker
  cases hLooped with
  | stays => exact hSteady.workers other
  | polls => exact hSteady.workers other
  | pops _ hIdle hTaken =>
      apply fits_setWorker hSteady.workers
      apply hSteady.unsent
      have hCopies := hTaken.copies_task
      omega
  | marks hPopped =>
      rw [hPopped] at hFits
      apply fits_setWorker hSteady.workers
      exact hFits
  | cancels =>
      apply fits_setWorker hSteady.workers
      exact trivial
  | starts hMarked =>
      rename_i task _
      rw [hMarked] at hFits
      apply fits_setWorker hSteady.workers
      unfold Fits
      rw [hEntry task]
      exact hFits
  | erases hFinished =>
      rename_i task status
      rw [hFinished] at hFits
      apply fits_setWorker hSteady.workers
      cases status with
      | defer => exact hFits
      | complete => exact trivial
      | cancelled => exact trivial
      | errored => exact trivial
  | suspends =>
      apply fits_setWorker hSteady.workers
      exact trivial
  | drops =>
      apply fits_setWorker hSteady.workers
      exact trivial

/- A task that deferred is about to be suspended until it
   is. -/
theorem Steady.deferred_loop
    (hSteady : Steady pb r)
    {entry : T → SendPlace}
    {worker : Nat}
    {step : LoopStep}
    {threads : Threadpool T SendPlace}
    (hLooped : r.threads.Looped entry worker step threads)
    {begun : Nat}
    (hDeferred : r.deferred task = some begun) :
    threads.pool.suspendedTasks task = true ∨
      ∃ other, (threads.workers other).Deferring task := by
  rcases hSteady.deferred task begun hDeferred with
    hSuspended | ⟨other, hDeferring⟩
  · left
    exact hLooped.suspended_kept hSuspended
  · exact hLooped.deferring_kept hDeferring

theorem Steady.loop
    (hSteady : Steady pb r)
    (worker : Nat)
    (step : LoopStep) :
    Steady pb (r.step (.loop worker step)) := by
  have hLooped := r.threads.looped (fun _ => .sending) worker
    step
  have hKeeps : ∀ task,
      Keeps r (r.step (.loop worker step)) task := by
    intro task
    exact Untouched.keeps { Untouched.refl r task with }
  constructor
  · exact hLooped.placed hSteady.placed
  · exact { hSteady.booked with }
  · intro task hSome
    apply (hKeeps task).unsent
    rcases hLooped.copies hSome with hBefore | hErased
    · exact hSteady.unsent task hBefore
    · have hFits := hSteady.workers worker
      rw [hErased] at hFits
      exact hFits.1
  · intro task hSuspended
    have hAwaited : ∃ n, Awaited r task n := by
      rcases hLooped.suspended hSuspended with
        hBefore | ⟨_, hErased⟩
      · exact hSteady.suspended task hBefore
      · have hFits := hSteady.workers worker
        rw [hErased] at hFits
        exact hFits.2
    rcases hAwaited with ⟨n, hAwaited⟩
    exact ⟨n, (hKeeps task).awaited hAwaited⟩
  · intro other
    have hFits := hSteady.fits_loop (fun _ => rfl) hLooped other
    exact hFits.keeps fun task _ => hKeeps task
  · intro task begun hDeferred
    exact hSteady.deferred_loop hLooped hDeferred

------------------------------------------------------------
-- Steps of a Task
------------------------------------------------------------

/- The run of a task goes on. -/
theorem Steady.work
    (hSteady : Steady pb r)
    {worker : Nat}
    {place : SendPlace}
    (hRunning :
      r.threads.workers worker = .running task place)
    {state : WorkerState T SendPlace}
    (hThreads :
      next.threads = r.threads.setWorker worker state)
    (hTask : state.mytask = some task)
    (hBooked : next.Booked)
    (hKeeps : ∀ other, other ≠ task → Keeps r next other)
    (hFits : Fits pb next state)
    (hDeferred : ∀ other begun,
      next.deferred other = some begun →
        r.deferred other = some begun ∨
          state.Deferring other) :
    Steady pb next := by
  have hHeld : r.threads.held worker = some task := by
    rw [Threadpool.held, hRunning]
    rfl
  have hPool : next.threads.pool = r.threads.pool := by
    rw [hThreads]
    rfl
  have hNe : ∀ {other}, 0 < r.threads.pool.copies other →
      other ≠ task := by
    intro other hSome hEq
    rw [hEq] at hSome
    exact (hSteady.placed task).not_held_of_copies hSome worker
      hHeld
  constructor
  · rw [hThreads]
    apply hSteady.placed.setWorker
    rw [hTask, hHeld]
  · exact hBooked
  · intro other hSome
    rw [hPool] at hSome
    exact (hKeeps other (hNe hSome)).unsent
      (hSteady.unsent other hSome)
  · intro other hSuspended
    rw [hPool] at hSuspended
    have hOther :=
      hNe (Taskpool.copies_pos_of_suspended hSuspended)
    rcases hSteady.suspended other hSuspended with
      ⟨n, hAwaited⟩
    exact ⟨n, (hKeeps other hOther).awaited hAwaited⟩
  · intro thread
    rw [hThreads]
    by_cases hThread : thread = worker
    · rw [hThread, Threadpool.workers_setWorker_self]
      exact hFits
    · rw [Threadpool.workers_setWorker_of_ne _ hThread]
      apply (hSteady.workers thread).keeps
      intro other hOther
      apply hKeeps
      intro hEq
      rw [hEq] at hOther
      exact hThread
        (hSteady.placed.worker_eq hHeld hOther)
  · intro other begun hSome
    rw [hPool, hThreads]
    rcases hDeferred other begun hSome with hBefore | hNow
    · rcases hSteady.deferred other begun hBefore with
        hSuspended | ⟨thread, hDeferring⟩
      · exact Or.inl hSuspended
      · right
        refine ⟨thread, ?_⟩
        have hThread : thread ≠ worker := by
          intro hEq
          rw [hEq, hRunning] at hDeferring
          exact WorkerState.not_deferring_running _ _ _
            hDeferring
        rw [Threadpool.workers_setWorker_of_ne _ hThread]
        exact hDeferring
    · right
      refine ⟨worker, ?_⟩
      rw [Threadpool.workers_setWorker_self]
      exact hNow

/- Only the place of the worker changes. -/
theorem Steady.move
    (hSteady : Steady pb r)
    {worker : Nat}
    {place : SendPlace}
    (hRunning :
      r.threads.workers worker = .running task place)
    {after : SendPlace}
    (hFits : FitsAt pb r task after) :
    Steady pb
      (r.setWorker worker (.running task after)) := by
  have hKeeps : ∀ other,
      Keeps r (r.setWorker worker (.running task after))
        other := by
    intro other
    exact Untouched.keeps { Untouched.refl r other with }
  apply hSteady.work hRunning rfl rfl
  · exact { hSteady.booked with }
  · exact fun other _ => hKeeps other
  · exact (hKeeps task).fitsAt hFits
  · exact fun _ _ hSome => Or.inl hSome

theorem pushesOf_push
    (r : SendTasks T M)
    (task other : T)
    (message : Option M) :
    ({ r with
      pushed := r.pushed ++ [(task, message)] } :
        SendTasks T M).pushesOf other =
      r.pushesOf other ++
        if task = other then [message] else [] := by
  unfold pushesOf
  by_cases hTask : task = other
  · simp [hTask]
  · simp [hTask]

/- A message is pushed. -/
theorem Steady.push
    (hSteady : Steady pb r)
    {worker : Nat}
    {place : SendPlace}
    (hRunning :
      r.threads.workers worker = .running task place)
    (hUnsent : Unsent pb r task)
    (hSpace : r.txq.length < EndpointBase.bufferSizeLimit) :
    Steady pb
      ((r.send task).2.setWorker worker
        (.running task (.sent (r.send task).1))) := by
  have hSend :
      r.send task =
        (none,
          { r with
            txq := r.txq ++ [r.pb task]
            pushed := r.pushed ++ [(task, r.pb task)] }) := by
    unfold send
    rw [if_pos hSpace]
  rw [hSend]
  apply hSteady.work hRunning rfl rfl
  · exact { hSteady.booked with }
  · intro other hOther
    have hPushes := pushesOf_push r task other (r.pb task)
    rw [if_neg (Ne.symm hOther), List.append_nil] at hPushes
    exact Untouched.keeps
      { Untouched.refl r other with pushes := hPushes }
  · have hPushes := pushesOf_push r task task (r.pb task)
    rw [if_pos rfl, hUnsent.2, List.nil_append] at hPushes
    have hMessage : [r.pb task] = [some (pb task)] := by
      rw [hUnsent.1]
    exact hPushes.trans hMessage
  · exact fun _ _ hSome => Or.inl hSome

/- A message is refused, for a new notification. -/
omit [DecidableEq T] in
theorem Booked.refuse
    (hBooked : r.Booked)
    (task : T) :
    ({ r with
      waiting := r.waiting ++ [r.created]
      notifications :=
        Function.update r.notifications r.created .create
      created := r.created + 1
      owner :=
        Function.update r.owner r.created (some task) } :
        SendTasks T M).Booked := by
  have hNe : ∀ n ∈ r.waiting ++ inHand r.writer,
      n ≠ r.created := by
    intro n hMem hEq
    have hLt := hBooked.created n hMem
    omega
  constructor
  · exact hBooked.wakes
  · have hPerm :
        (r.waiting ++ [r.created] ++ inHand r.writer).Perm
          (r.created :: (r.waiting ++ inHand r.writer)) := by
      rw [List.append_assoc]
      exact List.perm_middle
    rw [hPerm.nodup_iff, List.nodup_cons]
    refine ⟨?_, hBooked.nodup⟩
    intro hMem
    exact hNe _ hMem rfl
  · intro n hMem
    simp only [List.append_assoc, List.singleton_append,
      List.mem_append, List.mem_cons] at hMem
    have hLt : n ∈ r.waiting ++ inHand r.writer →
        n < r.created := hBooked.created n
    rw [List.mem_append] at hLt
    simp only
    rcases hMem with hWaiting | hNew | hHand
    · have hOld := hLt (Or.inl hWaiting)
      omega
    · omega
    · have hOld := hLt (Or.inr hHand)
      omega
  · intro n hMem
    by_cases hNew : n = r.created
    · rw [hNew]
      simp [NotificationImplementation.create]
    · simp only [Function.update_of_ne hNew]
      apply hBooked.unresolved
      simpa [hNew] using hMem
  · intro n left hWriter
    have hHand : n ∈ r.waiting ++ inHand r.writer := by
      rw [List.mem_append, hWriter]
      right
      exact List.mem_cons_self
    simp only [Function.update_of_ne (hNe n hHand)]
    exact hBooked.dispatching n left hWriter

theorem Steady.refuse
    (hSteady : Steady pb r)
    {worker : Nat}
    {place : SendPlace}
    (hRunning :
      r.threads.workers worker = .running task place)
    (hUnsent : Unsent pb r task)
    (hFull :
      ¬ r.txq.length < EndpointBase.bufferSizeLimit) :
    Steady pb
      ((r.send task).2.setWorker worker
        (.running task (.sent (r.send task).1))) := by
  have hSend :
      r.send task =
        (some r.created,
          { r with
            waiting := r.waiting ++ [r.created]
            notifications :=
              Function.update r.notifications r.created .create
            created := r.created + 1
            owner :=
              Function.update r.owner r.created
                (some task) }) := by
    unfold send
    rw [if_neg hFull]
  have hOwner : ∀ n, n < r.created →
      Function.update r.owner r.created (some task) n =
        r.owner n := by
    intro n hLt
    rw [Function.update_of_ne (Nat.ne_of_lt hLt)]
  rw [hSend]
  apply hSteady.work hRunning rfl rfl
  · exact { hSteady.booked.refuse task with }
  · intro other _
    exact Untouched.keeps
      { Untouched.refl r other with
        created := Nat.le_succ _
        owner := hOwner
        waiting := fun _ hMem => List.mem_append_left _ hMem
        callback := by
          intro n hLive
          have hNe := Nat.ne_of_lt hLive.created
          simp only [setWorker, Function.update_of_ne hNe] }
  · refine ⟨hUnsent, ?_, ?_, ?_⟩
    · exact Nat.lt_succ_self _
    · exact Function.update_self _ _ _
    · left
      exact List.mem_append_right _ (List.mem_singleton_self _)
  · exact fun _ _ hSome => Or.inl hSome

/- The destructor of the builder attaches the callbacks. -/
theorem Steady.attach
    (hSteady : Steady pb r)
    {worker n : Nat}
    {waiting : Bool}
    (hRunning :
      r.threads.workers worker =
        .running task (.asked n waiting))
    (hUnsent : Unsent pb r task)
    (hLive : Live r task n)
    (hWaiting : waiting = true) :
    Steady pb
      ((r.setNotification n
        ((r.notifications n).setCallbacks (some task) none
          none)).setWorker worker
            (.running task (.attached n waiting))) := by
  have hState : ∀ other,
      (Function.update r.notifications n
        ((r.notifications n).setCallbacks (some task) none
          none) other).state = (r.notifications other).state := by
    intro other
    by_cases hOther : other = n
    · rw [hOther, Function.update_self]
      rfl
    · rw [Function.update_of_ne hOther]
  apply hSteady.work hRunning rfl rfl
  · exact
      { hSteady.booked with
        unresolved := by
          intro other hMem
          exact (hState other).trans
            (hSteady.booked.unresolved other hMem)
        dispatching := by
          intro other left hWriter
          exact (hState other).trans
            (hSteady.booked.dispatching other left hWriter) }
  · intro other hOther
    have hNe : ∀ m, Live r other m → m ≠ n := by
      intro m hOtherLive hEq
      have hOwner := hOtherLive.owner
      rw [hEq, hLive.owner, Option.some.injEq] at hOwner
      exact hOther hOwner.symm
    exact Untouched.keeps
      { Untouched.refl r other with
        callback := by
          intro m hOtherLive
          simp only [setWorker, setNotification,
            Function.update_of_ne (hNe m hOtherLive)] }
  · refine ⟨hUnsent, ⟨⟨hLive.created, hLive.owner,
      hLive.known⟩, ?_⟩, hWaiting⟩
    simp [setWorker, setNotification,
      NotificationImplementation.setCallbacks]
  · exact fun _ _ hSome => Or.inl hSome

/- DEFER is returned. -/
theorem Steady.defer
    (hSteady : Steady pb r)
    {worker n : Nat}
    (hRunning :
      r.threads.workers worker =
        .running task (.decided true))
    (hUnsent : Unsent pb r task)
    (hWatched : Watched r task n) :
    Steady pb
      ({ r with
        deferred :=
          Function.update r.deferred task
            (some r.wakesBegun) }.setWorker worker
              (.finished task .defer)) := by
  apply hSteady.work hRunning rfl rfl
  · exact { hSteady.booked with }
  · intro other hOther
    exact Untouched.keeps
      { Untouched.refl r other with
        deferred := by
          intro begun hSome
          simpa [setWorker, hOther] using hSome }
  · refine ⟨hUnsent, n, ⟨⟨⟨hWatched.created, hWatched.owner,
      hWatched.known⟩, hWatched.callback⟩, ?_⟩⟩
    intro begun hSome
    have hBegun : r.wakesBegun = begun := by
      simpa [setWorker] using hSome
    rcases hWatched.known with hMem | hMem
    · exact Or.inl ⟨hMem, Nat.le_of_eq hBegun⟩
    · right
      refine ⟨hMem, ?_⟩
      simp only [setWorker]
      omega
  · intro other begun hSome
    by_cases hOther : other = task
    · right
      rw [hOther]
      exact Or.inl rfl
    · left
      simpa [setWorker, hOther] using hSome

/- The message is let go, and COMPLETE is returned. -/
theorem Steady.complete
    (hSteady : Steady pb r)
    {worker : Nat}
    (hRunning :
      r.threads.workers worker = .running task .flushed)
    (hSent : Sent pb r task) :
    Steady pb
      ({ r with
        pb := Function.update r.pb task none }.setWorker worker
          (.finished task .complete)) := by
  apply hSteady.work hRunning rfl rfl
  · exact { hSteady.booked with }
  · intro other hOther
    exact Untouched.keeps
      { Untouched.refl r other with
        pb := by simp [setWorker, hOther] }
  · exact hSent
  · exact fun _ _ hSome => Or.inl hSome

/- Every step of the run of a task keeps the invariant up, if
   it was not overtaken. -/
theorem Steady.advance
    (hSteady : Steady pb r)
    {worker : Nat}
    {place : SendPlace}
    (hRunning :
      r.threads.workers worker = .running task place)
    (hUnhurried : r.unhurried (.advance worker) = true) :
    Steady pb (r.advance worker task place) := by
  have hFits := hSteady.workers worker
  rw [hRunning] at hFits
  simp only [unhurried, hRunning] at hUnhurried
  cases place with
  | sending =>
      by_cases hSpace :
          r.txq.length < EndpointBase.bufferSizeLimit
      · exact hSteady.push hRunning hFits hSpace
      · exact hSteady.refuse hRunning hFits hSpace
  | sent notification =>
      cases notification with
      | none => exact hSteady.move hRunning hFits
      | some n =>
          apply hSteady.move hRunning
          exact ⟨hFits.1, hFits.2, hUnhurried⟩
  | asked n waiting =>
      exact hSteady.attach hRunning hFits.1 hFits.2.1 hFits.2.2
  | attached n waiting =>
      rcases hFits with ⟨hUnsent, hWatched, hWaiting⟩
      simp only [SendTasks.advance, hUnhurried, if_true]
      apply hSteady.move hRunning
      rw [hWaiting]
      exact ⟨hUnsent, n, hWatched⟩
  | calling n waiting => exact hFits.elim
  | clearing n waiting => exact hFits.elim
  | decided waiting =>
      cases waiting with
      | true =>
          rcases hFits with ⟨hUnsent, n, hWatched⟩
          exact hSteady.defer hRunning hUnsent hWatched
      | false => exact hSteady
  | flushed => exact hSteady.complete hRunning hFits

------------------------------------------------------------
-- Steps of the Writer
------------------------------------------------------------

/- The workers stay where they are. -/
theorem Steady.stay
    (hSteady : Steady pb r)
    (hThreads : next.threads = r.threads)
    (hDeferred : next.deferred = r.deferred)
    (hBooked : next.Booked)
    (hKeeps : ∀ task, Keeps r next task) :
    Steady pb next := by
  constructor
  · rw [hThreads]
    exact hSteady.placed
  · exact hBooked
  · intro task hSome
    rw [hThreads] at hSome
    exact (hKeeps task).unsent (hSteady.unsent task hSome)
  · intro task hSuspended
    rw [hThreads] at hSuspended
    rcases hSteady.suspended task hSuspended with ⟨n, hAwaited⟩
    exact ⟨n, (hKeeps task).awaited hAwaited⟩
  · intro worker
    rw [hThreads]
    exact (hSteady.workers worker).keeps
      fun task _ => hKeeps task
  · intro task begun hSome
    rw [hDeferred] at hSome
    rw [hThreads]
    exact hSteady.deferred task begun hSome

omit [DecidableEq T] in
theorem not_inWake
    {writer : WriterState}
    (hResting : inWake writer = false) :
    inHand writer = [] ∧ unnotified writer = [] ∧
      writer.left = [] := by
  cases writer <;> first
    | exact ⟨rfl, rfl, rfl⟩
    | cases hResting

/- The writer goes on, before or after its call of `wake`. -/
theorem Steady.rest
    (hSteady : Steady pb r)
    (hBefore : inWake r.writer = false)
    {writer : WriterState}
    (hAfter : inWake writer = false)
    (txq : List (Option M)) :
    Steady pb { r with writer := writer, txq := txq } := by
  rcases not_inWake hBefore with ⟨hHand, hNone, hLeft⟩
  rcases not_inWake hAfter with ⟨hHand', hNone', _⟩
  have hBooked := hSteady.booked
  apply hSteady.stay
  · rfl
  · rfl
  · exact
      { wakes := by
          have hWakes := hBooked.wakes
          rw [hBefore] at hWakes
          simp only [hAfter]
          exact hWakes
        nodup := by
          have hNodup := hBooked.nodup
          rw [hHand] at hNodup
          simp only [hHand']
          exact hNodup
        created := by
          have hCreated := hBooked.created
          rw [hHand] at hCreated
          simp only [hHand']
          exact hCreated
        unresolved := by
          have hUnresolved := hBooked.unresolved
          rw [hNone] at hUnresolved
          simp only [hNone']
          exact hUnresolved
        dispatching := by
          intro n left hWriter
          simp only at hWriter
          rw [hWriter] at hAfter
          cases hAfter }
  · intro task
    exact Untouched.keeps
      { Untouched.refl r task with
        left := by
          intro n _ hMem
          rw [hLeft] at hMem
          cases hMem }

omit [DecidableEq T] in
/- What is booked while the writer is in a known state. -/
theorem Booked.at_writer
    (hBooked : r.Booked)
    {writer : WriterState}
    (hWriter : r.writer = writer) :
    (r.waiting ++ inHand writer).Nodup ∧
      (∀ n ∈ r.waiting ++ inHand writer, n < r.created) ∧
        (∀ n ∈ r.waiting ++ unnotified writer,
          (r.notifications n).state = .waiting) ∧
          r.wakesBegun =
            r.wakesDone + (inWake writer).toNat := by
  rw [← hWriter]
  exact ⟨hBooked.nodup, hBooked.created, hBooked.unresolved,
    hBooked.wakes⟩

/- A wake begins with all that wait. -/
theorem Steady.beginWake
    (hSteady : Steady pb r)
    (hWriter : r.writer = .waking) :
    Steady pb
      { r with
        waiting := []
        writer := .notifying r.waiting
        wakesBegun := r.wakesBegun + 1 } := by
  have hBooked := hSteady.booked
  rcases hBooked.at_writer hWriter with
    ⟨hNodup, hCreated, hUnresolved, hWakes⟩
  simp only [inHand, unnotified, inWake, List.append_nil,
    Bool.toNat_false]
    at hNodup hCreated hUnresolved hWakes
  have hKnown : ∀ {n},
      n ∈ r.waiting ∨ n ∈ r.writer.left → n ∈ r.waiting := by
    intro n hKnown
    rcases hKnown with hMem | hMem
    · exact hMem
    · rw [hWriter] at hMem
      cases hMem
  have hLive : ∀ {task n}, Live r task n →
      Live
        { r with
          waiting := []
          writer := .notifying r.waiting
          wakesBegun := r.wakesBegun + 1 } task n := by
    intro task n hLive
    exact
      { created := hLive.created
        owner := hLive.owner
        known := Or.inr (hKnown hLive.known) }
  apply hSteady.stay
  · rfl
  · rfl
  · exact
      { wakes := by
          simp only [inWake, Bool.toNat_true]
          omega
        nodup := hNodup
        created := hCreated
        unresolved := hUnresolved
        dispatching := by
          intro n left hNot
          cases hNot }
  · intro task
    refine
      { pb := rfl
        pushes := rfl
        live := hLive
        watched := fun hWatched =>
          ⟨hLive hWatched.toLive, hWatched.callback⟩
        awaited := ?_ }
    intro n hAwaited
    refine ⟨⟨hLive hAwaited.toLive, hAwaited.callback⟩, ?_⟩
    intro begun hSome
    right
    rcases hAwaited.reached begun hSome with
      ⟨hMem, hLe⟩ | ⟨hMem, _⟩
    · exact ⟨hMem, Nat.succ_le_succ hLe⟩
    · rw [hWriter] at hMem
      cases hMem

/- A wake is done with none left. -/
theorem Steady.endWake
    (hSteady : Steady pb r)
    (hWriter : r.writer = .notifying []) :
    Steady pb
      { r with
        writer := .woken
        wakesDone := r.wakesDone + 1 } := by
  have hBooked := hSteady.booked
  rcases hBooked.at_writer hWriter with
    ⟨hNodup, hCreated, hUnresolved, hWakes⟩
  simp only [inWake, Bool.toNat_true] at hWakes
  apply hSteady.stay
  · rfl
  · rfl
  · exact
      { wakes := by
          simp only [inWake, Bool.toNat_false]
          omega
        nodup := hNodup
        created := hCreated
        unresolved := hUnresolved
        dispatching := by
          intro n left hNot
          cases hNot }
  · intro task
    exact Untouched.keeps
      { Untouched.refl r task with
        left := by
          intro n _ hMem
          rw [hWriter] at hMem
          cases hMem }

omit [DecidableEq T] in
theorem Booked.not_mem
    (hBooked : r.Booked)
    {n : Nat}
    {left : List Nat}
    (hHand : inHand r.writer = n :: left)
    {m : Nat}
    (hMem : m ∈ r.waiting ++ left) :
    m ≠ n := by
  have hNodup := hBooked.nodup
  rw [hHand] at hNodup
  have hPerm :
      (r.waiting ++ n :: left).Perm
        (n :: (r.waiting ++ left)) :=
    List.perm_middle
  rw [hPerm.nodup_iff, List.nodup_cons] at hNodup
  intro hEq
  rw [hEq] at hMem
  exact hNodup.1 hMem

/- A notification is resolved. -/
theorem Steady.resolve
    (hSteady : Steady pb r)
    {n : Nat}
    {left : List Nat}
    (hWriter : r.writer = .notifying (n :: left)) :
    Steady pb
      { r.setNotification n
          { r.notifications n with state := .success } with
        writer := .dispatching n left } := by
  have hBooked := hSteady.booked
  rcases hBooked.at_writer hWriter with
    ⟨hNodup, hCreated, hUnresolved, hWakes⟩
  have hNe : ∀ {m}, m ∈ r.waiting ++ left → m ≠ n :=
    hBooked.not_mem (by rw [hWriter]; rfl)
  apply hSteady.stay
  · rfl
  · rfl
  · exact
      { wakes := hWakes
        nodup := hNodup
        created := hCreated
        unresolved := by
          intro m hMem
          simp only [setNotification,
            Function.update_of_ne (hNe hMem)]
          apply hUnresolved
          rcases List.mem_append.mp hMem with hFirst | hLast
          · exact List.mem_append_left _ hFirst
          · exact List.mem_append_right _
              (List.mem_cons_of_mem _ hLast)
        dispatching := by
          intro m others hSame
          cases hSame
          simp [setNotification] }
  · intro task
    exact Untouched.keeps
      { Untouched.refl r task with
        left := by
          intro m _ hMem
          rw [hWriter] at hMem
          exact hMem
        callback := by
          intro m _
          by_cases hEq : m = n
          · simp [setNotification, hEq]
          · simp [setNotification, hEq] }

/- The callbacks of a notification are cleared. -/
theorem Steady.invalidate
    (hSteady : Steady pb r)
    {n : Nat}
    {left : List Nat}
    (hWriter : r.writer = .clearing n left) :
    Steady pb
      { r.setNotification n (r.notifications n).invalidate with
        writer := .notifying left } := by
  have hBooked := hSteady.booked
  rcases hBooked.at_writer hWriter with
    ⟨hNodup, hCreated, hUnresolved, hWakes⟩
  have hNe : ∀ {m}, m ∈ r.waiting ++ left → m ≠ n :=
    hBooked.not_mem (by rw [hWriter]; rfl)
  apply hSteady.stay
  · rfl
  · rfl
  · exact
      { wakes := hWakes
        nodup := by
          have hSub :
              (r.waiting ++ left).Sublist
                (r.waiting ++ n :: left) :=
            (List.sublist_cons_self n left).append_left _
          exact hNodup.sublist hSub
        created := by
          intro m hMem
          apply hCreated
          rcases List.mem_append.mp hMem with hFirst | hLast
          · exact List.mem_append_left _ hFirst
          · exact List.mem_append_right _
              (List.mem_cons_of_mem _ hLast)
        unresolved := by
          intro m hMem
          simp only [setNotification,
            Function.update_of_ne (hNe hMem)]
          exact hUnresolved m hMem
        dispatching := by
          intro m others hNot
          cases hNot }
  · intro task
    exact Untouched.keeps
      { Untouched.refl r task with
        left := by
          intro m _ hMem
          rw [hWriter] at hMem
          exact hMem
        callback := by
          intro m hLive
          have hMem : m ∈ r.waiting ++ left := by
            have hKnown := hLive.known
            rw [hWriter] at hKnown
            exact List.mem_append.mpr hKnown
          simp only [setNotification,
            Function.update_of_ne (hNe hMem)] }

------------------------------------------------------------
-- Callbacks
------------------------------------------------------------

/- What calls of `makeRunnable` leave of the pool, and of the
   tasks that deferred. -/
structure Woke
    (r : SendTasks T M)
    (pool : Taskpool T)
    (deferred : T → Option Nat) : Prop where
  copies :
    ∀ task, pool.copies task = r.threads.pool.copies task
  tasks : pool.tasks = r.threads.pool.tasks
  suspended :
    ∀ task, pool.suspendedTasks task = true →
      r.threads.pool.suspendedTasks task = true
  deferred :
    ∀ task begun, deferred task = some begun →
      r.deferred task = some begun ∧
        (r.threads.pool.suspendedTasks task = true →
          pool.suspendedTasks task = true)

theorem woke_makeRunnable
    (r : SendTasks T M)
    (task : T) :
    Woke r (r.makeRunnable task).threads.pool
      (r.makeRunnable task).deferred where
  copies := fun other =>
    Taskpool.copies_wakeTask r.threads.pool task other
  tasks := Taskpool.tasks_wakeTask r.threads.pool task
  suspended := fun _ hSuspended =>
    Taskpool.suspendedTasks_wakeTask hSuspended
  deferred := by
    intro other begun hSome
    have hKept :
        r.deferred other = some begun ∧
          (other = task →
            task ∉
              (r.threads.pool.wakeTask
                task).pendingTasks) := by
      simp only [makeRunnable] at hSome
      split at hSome
      · have hNe : other ≠ task := by
          intro hEq
          rw [hEq, Function.update_self] at hSome
          cases hSome
        rw [Function.update_of_ne hNe] at hSome
        exact ⟨hSome, fun hEq => absurd hEq hNe⟩
      · rename_i hNot
        exact ⟨hSome, fun _ => hNot⟩
    refine ⟨hKept.1, ?_⟩
    intro hSuspended
    exact Taskpool.suspended_or_pending_wakeTask hSuspended
      hKept.2

theorem foldl_makeRunnable
    (callbacks : List T)
    (r : SendTasks T M) :
    ∃ pool deferred,
      callbacks.foldl makeRunnable r =
        { r with
          threads := { r.threads with pool := pool }
          deferred := deferred } ∧
      Woke r pool deferred ∧
      ∀ task ∈ callbacks,
        (r.threads.pool.tasks task).pool = true →
          pool.suspendedTasks task = false := by
  induction callbacks generalizing r with
  | nil =>
      refine ⟨r.threads.pool, r.deferred, rfl, ?_, ?_⟩
      · exact
          { copies := fun _ => rfl
            tasks := rfl
            suspended := fun _ hSuspended => hSuspended
            deferred := fun _ _ hSome =>
              ⟨hSome, fun hSuspended => hSuspended⟩ }
      · intro task hMem
        cases hMem
  | cons first rest ih =>
      rcases ih (r.makeRunnable first) with
        ⟨pool, deferred, hFold, hWoke, hAwake⟩
      have hFirst := woke_makeRunnable r first
      refine ⟨pool, deferred, hFold, ?_, ?_⟩
      · exact
          { copies := fun task =>
              (hWoke.copies task).trans (hFirst.copies task)
            tasks := hWoke.tasks.trans hFirst.tasks
            suspended := fun task hSuspended =>
              hFirst.suspended task
                (hWoke.suspended task hSuspended)
            deferred := by
              intro task begun hSome
              rcases hWoke.deferred task begun hSome with
                ⟨hMiddle, hLast⟩
              rcases hFirst.deferred task begun hMiddle with
                ⟨hBefore, hNext⟩
              exact ⟨hBefore, fun hSuspended =>
                hLast (hNext hSuspended)⟩ }
      · intro task hMem hPool
        rcases List.mem_cons.mp hMem with hTask | hRest
        · cases hSuspended : pool.suspendedTasks task with
          | false => rfl
          | true =>
              have hMiddle := hWoke.suspended task hSuspended
              have hBefore := hFirst.suspended task hMiddle
              have hAwakened :=
                (Taskpool.wakeTask_of_suspended hPool
                  hBefore).2
              have hStill :
                  (r.threads.pool.wakeTask task).suspendedTasks
                    task = true := by
                rw [hTask] at hMiddle ⊢
                exact hMiddle
              rw [hAwakened] at hStill
              cases hStill
        · apply hAwake task hRest
          have hTasks := hFirst.tasks
          rw [hTasks]
          exact hPool

/- The tasks when the callbacks of a notification have been
   called. -/
def called
    (r : SendTasks T M)
    (pool : Taskpool T)
    (deferred : T → Option Nat)
    (n : Nat)
    (left : List Nat) : SendTasks T M :=
  { r with
    threads := { r.threads with pool := pool }
    deferred := deferred
    writer := .clearing n left }

omit [DecidableEq T] in
theorem mem_left_of_dispatching
    {n m : Nat}
    {left : List Nat}
    (hWriter : r.writer = .dispatching n left)
    (hMem : m ∈ r.writer.left)
    (hNe : m ≠ n) :
    m ∈ left := by
  rw [hWriter] at hMem
  exact (List.mem_cons.mp hMem).resolve_left hNe

namespace Woke

variable {pool : Taskpool T} {deferred : T → Option Nat}

/- Who waits for another notification goes on waiting. -/
theorem awaited
    (hWoke : Woke r pool deferred)
    {n m : Nat}
    {left : List Nat}
    (hWriter : r.writer = .dispatching n left)
    (hNe : m ≠ n)
    {task : T}
    (hAwaited : Awaited r task m) :
    Awaited (r.called pool deferred n left) task m := by
  refine ⟨⟨⟨hAwaited.created, hAwaited.owner, ?_⟩,
    hAwaited.callback⟩, ?_⟩
  · rcases hAwaited.known with hMem | hMem
    · exact Or.inl hMem
    · exact Or.inr (mem_left_of_dispatching hWriter hMem hNe)
  · intro begun hSome
    have hBefore := (hWoke.deferred task begun hSome).1
    rcases hAwaited.reached begun hBefore with
      ⟨hMem, hLe⟩ | ⟨hMem, hLe⟩
    · exact Or.inl ⟨hMem, hLe⟩
    · exact Or.inr
        ⟨mem_left_of_dispatching hWriter hMem hNe, hLe⟩

/- Nothing changes for a task that it is not the notification
   of. -/
theorem keeps
    (hWoke : Woke r pool deferred)
    {n : Nat}
    {left : List Nat}
    (hWriter : r.writer = .dispatching n left)
    {task : T}
    (hNot : r.owner n ≠ some task) :
    Keeps r (r.called pool deferred n left) task :=
  Untouched.keeps
    { Untouched.refl r task with
      left := by
        intro m hLive hMem
        refine mem_left_of_dispatching hWriter hMem ?_
        intro hEq
        rw [← hEq] at hNot
        exact hNot hLive.owner
      deferred := fun begun hSome =>
        (hWoke.deferred task begun hSome).1 }

/- A task that is still suspended waits for another one. -/
theorem ne_of_suspended
    (hWoke : Woke r pool deferred)
    (hSteady : Steady pb r)
    {n m : Nat}
    (hState : (r.notifications n).state = .success)
    (hAwake :
      ∀ task ∈ (r.notifications n).handlers,
        (r.threads.pool.tasks task).pool = true →
          pool.suspendedTasks task = false)
    {task : T}
    (hSuspended : pool.suspendedTasks task = true)
    (hAwaited : Awaited r task m) :
    m ≠ n := by
  intro hEq
  have hHandler : task ∈ (r.notifications n).handlers := by
    have hCallback := hAwaited.callback
    rw [hEq] at hCallback
    simp [NotificationImplementation.handlers, hState,
      hCallback]
  have hAwakened :=
    hAwake task hHandler
      (hSteady.placed.pool_of_suspended
        (hWoke.suspended task hSuspended))
  rw [hAwakened] at hSuspended
  cases hSuspended

end Woke

/- The callbacks are called for a task that is suspended. -/
theorem Steady.dispatch
    (hSteady : Steady pb r)
    {n : Nat}
    {left : List Nat}
    (hWriter : r.writer = .dispatching n left)
    (hOwner : ∀ task, r.owner n = some task →
      r.threads.pool.suspendedTasks task = true) :
    Steady pb
      { r.callHandlers n with writer := .clearing n left } := by
  have hBooked := hSteady.booked
  rcases hBooked.at_writer hWriter with
    ⟨hNodup, hCreated, hUnresolved, hWakes⟩
  have hState := hBooked.dispatching n left hWriter
  rcases foldl_makeRunnable (r.notifications n).handlers r with
    ⟨pool, deferred, hFold, hWoke, hAwake⟩
  have hCall :
      r.callHandlers n =
        { r with
          threads := { r.threads with pool := pool }
          deferred := deferred } :=
    hFold
  rw [hCall]
  change Steady pb (r.called pool deferred n left)
  constructor
  · intro task
    apply (hSteady.placed task).shrink
    · exact Nat.le_of_eq (hWoke.copies task)
    · exact congrArg (fun tasks => (tasks task).pool)
        hWoke.tasks
    · exact fun _ hHeld => hHeld
  · exact
      { wakes := hWakes
        nodup := hNodup
        created := hCreated
        unresolved := hUnresolved
        dispatching := by
          intro m others hNot
          cases hNot }
  · intro task hSome
    have hBefore : 0 < r.threads.pool.copies task := by
      rw [← hWoke.copies task]
      exact hSome
    exact hSteady.unsent task hBefore
  · intro task hSuspended
    rcases hSteady.suspended task
        (hWoke.suspended task hSuspended) with ⟨m, hAwaited⟩
    have hNe :=
      hWoke.ne_of_suspended hSteady hState hAwake hSuspended
        hAwaited
    exact ⟨m, hWoke.awaited hWriter hNe hAwaited⟩
  · intro worker
    apply (hSteady.workers worker).keeps
    intro task hTask
    apply hWoke.keeps hWriter
    intro hOwned
    have hSuspended := hOwner task hOwned
    have hNot := hSteady.placed.not_suspended hTask
    rw [hNot] at hSuspended
    cases hSuspended
  · intro task begun hSome
    rcases hWoke.deferred task begun hSome with
      ⟨hBefore, hStill⟩
    rcases hSteady.deferred task begun hBefore with
      hSuspended | hDeferring
    · exact Or.inl (hStill hSuspended)
    · exact Or.inr hDeferring

/- Every step of the writer keeps the invariant up, if it
   does not overtake a task. -/
theorem Steady.write
    (hSteady : Steady pb r)
    (hUnhurried : r.unhurried .write = true) :
    Steady pb r.write := by
  simp only [unhurried] at hUnhurried
  have hRest : ∀ {writer},
      inWake r.writer = false → inWake writer = false →
        ∀ txq, Steady pb { r with writer := writer, txq := txq } :=
    fun hBefore hAfter txq => hSteady.rest hBefore hAfter txq
  unfold SendTasks.write
  cases hWriter : r.writer with
  | idle => exact hSteady
  | looking =>
      simp only
      split
      · exact hRest (by rw [hWriter]; rfl) rfl r.txq
      · exact hRest (by rw [hWriter]; rfl) rfl r.txq
  | waking => exact hSteady.beginWake hWriter
  | notifying left =>
      cases left with
      | nil => exact hSteady.endWake hWriter
      | cons n left =>
          have hState :
              (r.notifications n).state = .waiting := by
            apply hSteady.booked.unresolved
            rw [hWriter]
            exact List.mem_append_right _ List.mem_cons_self
          have hUpdate :
              (r.notifications n).updateState .success =
                (true,
                  { r.notifications n with
                    state := .success }) := by
            simp [NotificationImplementation.updateState,
              NotificationImplementation.isWaiting, hState]
          simp only [hUpdate]
          exact hSteady.resolve hWriter
  | dispatching n left =>
      apply hSteady.dispatch hWriter
      intro task hOwner
      simpa [hWriter, hOwner] using hUnhurried
  | clearing n left => exact hSteady.invalidate hWriter
  | woken =>
      simp only
      split
      · exact hRest (by rw [hWriter]; rfl) rfl r.txq
      · exact hRest (by rw [hWriter]; rfl) rfl r.txq
  | popping => exact hRest (by rw [hWriter]; rfl) rfl _

------------------------------------------------------------
-- Nothing Is Lost
------------------------------------------------------------

theorem Steady.step
    (hSteady : Steady pb r)
    {event : SendTaskEvent}
    (hUnhurried : r.unhurried event = true) :
    Steady pb (r.step event) := by
  cases event with
  | loop worker step => exact hSteady.loop worker step
  | advance worker =>
      simp only [SendTasks.step]
      split
      · rename_i task place hRunning
        exact hSteady.advance hRunning hUnhurried
      · exact hSteady
  | runSending worker drains =>
      simp only [SendTasks.step]
      split
      · rename_i task hRunning hWriter
        have hFits := hSteady.workers worker
        rw [hRunning] at hFits
        have hMoved : Steady pb
            (r.setWorker worker (.running task .flushed)) :=
          hSteady.move hRunning hFits
        apply hMoved.rest
        · exact congrArg inWake hWriter
        · cases drains <;> rfl
      · exact hSteady
  | drain =>
      simp only [SendTasks.step]
      split
      · rename_i hWriter
        exact hSteady.rest (by rw [hWriter]; rfl) rfl r.txq
      · exact hSteady
  | write => exact hSteady.write hUnhurried
  | stop =>
      simp only [SendTasks.step]
      split
      · rename_i hWriter
        exact hSteady.rest (by rw [hWriter]; rfl) rfl r.txq
      · rename_i hWriter
        exact hSteady.rest (by rw [hWriter]; rfl) rfl r.txq
      · exact hSteady

theorem Steady.run
    (events : List SendTaskEvent)
    (hSteady : Steady pb r)
    (hUnhurried : r.unhurriedRun events = true)
    {front : List SendTaskEvent}
    (hFront : front <+: events) :
    Steady pb (r.run front) := by
  induction events generalizing r front with
  | nil =>
      rw [List.prefix_nil.mp hFront]
      exact hSteady
  | cons event events ih =>
      rw [unhurriedRun, Bool.and_eq_true] at hUnhurried
      cases front with
      | nil => exact hSteady
      | cons first rest =>
          rw [List.cons_prefix_cons] at hFront
          rw [hFront.1]
          exact ih (hSteady.step hUnhurried.1) hUnhurried.2
            hFront.2

/-
  Along a run in which no drain overtakes a task, every
  message is pushed once or its task is woken.
-/
theorem nothingLost
    (groupId : T → Nat)
    (pb : T → M)
    (submitted : List T)
    (txq : List (Option M))
    (events : List SendTaskEvent)
    (hUnhurried :
      (start groupId pb submitted txq).unhurriedRun events =
        true)
    (front : List SendTaskEvent)
    (hFront : front <+: events) :
    NothingLost pb
      ((start groupId pb submitted txq).run front) :=
  (Steady.run events (steady_start groupId pb submitted txq)
    hUnhurried hFront).losesNothing

/- A task is refused by a full queue, suspended, and woken by
   the drain; it then sends its message. -/
def refusedAndWoken : List SendTaskEvent :=
  [.loop 0 .popPending, .loop 0 .markRunning, .loop 0 .start,
    .advance 0, .advance 0, .advance 0, .advance 0,
    .advance 0, .loop 0 .eraseRunning, .loop 0 .conclude,
    .drain, .write, .write, .write, .write, .write, .write,
    .write, .write, .write, .stop,
    .loop 0 .popPending, .loop 0 .markRunning, .loop 0 .start,
    .advance 0, .advance 0, .runSending 0 false, .advance 0]

theorem nothingLost_of_refusedAndWoken :
    (start (fun _ => 0) (fun _ => ()) [()]
      (List.replicate 50 (some ()))).unhurriedRun
        refusedAndWoken = true ∧
      NothingLost (fun _ => ())
        ((start (fun _ => 0) (fun _ => ()) [()]
          (List.replicate 50 (some ()))).run
            refusedAndWoken) :=
  ⟨by decide +kernel,
    nothingLost (fun _ : Unit => 0) (fun _ => ()) [()]
      (List.replicate 50 (some ())) refusedAndWoken
      (by decide +kernel) refusedAndWoken
      (List.prefix_refl _)⟩

/- The drain resolves the notification of the refused message
   before the task has asked whether it waits. -/
def overtaken : List SendTaskEvent :=
  [.loop 0 .popPending, .loop 0 .markRunning, .loop 0 .start,
    .advance 0,
    .drain, .write, .write, .write, .write, .write, .write,
    .write, .write, .write, .stop,
    .advance 0, .advance 0, .advance 0, .advance 0,
    .advance 0, .runSending 0 false, .advance 0]

/- The task is complete, and its message was not pushed. -/
theorem not_nothingLost_of_overtaken :
    ¬ ∀ front, front <+: overtaken →
      NothingLost (fun _ => ())
        ((start (fun _ => 0) (fun _ => ()) [()]
          (List.replicate 50 (some ()))).run front) := by
  intro hAll
  have hLost := hAll overtaken (List.prefix_refl _)
  have hPushed := hLost.complete 0 () (by decide +kernel)
  exact absurd hPushed (by decide +kernel)

end SendTasks

end OefCore
