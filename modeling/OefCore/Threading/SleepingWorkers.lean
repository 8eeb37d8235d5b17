import OefCore.Library.Runs
import OefCore.Threading.DelayedTasks

/-
  How long the workers of a pool sleep: the wait at the top of
  `Taskpool::run`, and what wakes a worker from it.

  Times are in milliseconds.  A section under the lock is one
  step; the clock goes on between the steps.

  Main declarations:
    * `getNextWakeTime`
    * `WorkerPlace`, `SleepRun`, `SleepEvent`
    * `SleepRun.Punctual`, `SleepRun.DueSoon`
    * `SleepRun.punctual_iff`
-/

namespace OefCore

variable {T : Type}
variable {futureTasks : FutureTasks T}
variable {threads : Nat}

------------------------------------------------------------
-- Workers That Wait
------------------------------------------------------------

/- `lockless_getNextWakeTime`. -/
def getNextWakeTime
    (futureTasks : FutureTasks T)
    (queue : futureTasks.Queue)
    (currentTime deflt : Nat) : Nat :=
  match futureTasks.top queue with
  | some top => top.due
  | none => currentTime + deflt

/- Where a worker is in the loop: at its top; with the time
   read; waiting, since some time; past the wait; without
   delayed work; running a task. -/
inductive WorkerPlace where
  | top
  | timed (now : Nat)
  | asleep (since deadline : Nat)
  | awake
  | emptyHanded
  | busy
  deriving DecidableEq, Repr

def WorkerPlace.isAsleep : WorkerPlace → Bool
  | asleep _ _ => true
  | _ => false

structure SleepRun
    (futureTasks : FutureTasks T)
    (threads : Nat) where
  clock : Nat
  queue : futureTasks.Queue
  pendingTasks : List T
  cancelled : T → Bool
  workers : Fin threads → WorkerPlace

/-
  `choice` picks the one among the waiting workers that
  `notify_one` wakes; `wake` is for timeouts and for wake-ups
  without a reason.  `makeRunnable` is called on a task that
  is suspended.
-/
inductive SleepEvent (T : Type) (threads : Nat) where
  | tick (milliseconds : Nat)
  | after (task : T) (due : Nat)
  | submit (task : T) (choice : Nat)
  | makeRunnable (task : T) (choice : Nat)
  | cancel (task : T)
  | readClock (worker : Fin threads)
  | wait (worker : Fin threads)
  | wake (worker : Fin threads)
  | getFutureWork (worker : Fin threads) (now : Nat)
  | getPendingWork (worker : Fin threads)
  | finish (worker : Fin threads)

namespace SleepRun

def start
    (futureTasks : FutureTasks T)
    (threads clock : Nat) : SleepRun futureTasks threads where
  clock := clock
  queue := futureTasks.empty
  pendingTasks := []
  cancelled := fun _ => false
  workers := fun _ => .top

def setWorker
    (r : SleepRun futureTasks threads)
    (worker : Fin threads)
    (place : WorkerPlace) : SleepRun futureTasks threads :=
  { r with
    workers := Function.update r.workers worker place }

def sleepers
    (r : SleepRun futureTasks threads) : List (Fin threads) :=
  (List.finRange threads).filter fun worker =>
    (r.workers worker).isAsleep

/- `work_available.notify_one()`. -/
def notifyOne
    (r : SleepRun futureTasks threads)
    (choice : Nat) : SleepRun futureTasks threads :=
  match r.sleepers[choice % r.sleepers.length]? with
  | some worker => r.setWorker worker .awake
  | none => r

section Steps

variable [DecidableEq T]

/- A worker that is elsewhere does nothing. -/
def step
    (r : SleepRun futureTasks threads) :
    SleepEvent T threads → SleepRun futureTasks threads
  | .tick milliseconds =>
      { r with clock := r.clock + milliseconds }
  | .after task due =>
      { r with
        queue :=
          futureTasks.push r.queue { task := task, due := due } }
  | .submit task choice =>
      { r with
        pendingTasks := r.pendingTasks ++ [task] }.notifyOne
          choice
  | .makeRunnable task choice =>
      { r with
        pendingTasks := task :: r.pendingTasks }.notifyOne
          choice
  | .cancel task =>
      { r with
        cancelled := Function.update r.cancelled task true }
  | .readClock worker =>
      match r.workers worker with
      | .top => r.setWorker worker (.timed r.clock)
      | _ => r
  | .wait worker =>
      match r.workers worker with
      | .timed now =>
          if r.pendingTasks.isEmpty then
            r.setWorker worker
              (.asleep r.clock
                (getNextWakeTime futureTasks r.queue now 100))
          else
            r.setWorker worker .awake
      | _ => r
  | .wake worker =>
      match r.workers worker with
      | .asleep _ _ => r.setWorker worker .awake
      | _ => r
  | .getFutureWork worker now =>
      match r.workers worker with
      | .awake =>
          match getNextFutureWork futureTasks r.cancelled now
              r.queue with
          | (some _, queue) =>
              { r with queue := queue }.setWorker worker .busy
          | (none, queue) =>
              { r with queue := queue }.setWorker worker
                .emptyHanded
      | _ => r
  | .getPendingWork worker =>
      match r.workers worker with
      | .emptyHanded =>
          match r.pendingTasks with
          | _ :: pendingTasks =>
              { r with
                pendingTasks := pendingTasks }.setWorker worker
                  .busy
          | [] => r.setWorker worker .top
      | _ => r
  | .finish worker =>
      match r.workers worker with
      | .busy => r.setWorker worker .top
      | _ => r

def run
    (r : SleepRun futureTasks threads)
    (events : List (SleepEvent T threads)) :
    SleepRun futureTasks threads :=
  events.foldl step r

theorem run_snoc
    (r : SleepRun futureTasks threads)
    (events : List (SleepEvent T threads))
    (event : SleepEvent T threads) :
    r.run (events ++ [event]) = (r.run events).step event := by
  simp [run]

end Steps

------------------------------------------------------------
-- What Is Promised
------------------------------------------------------------

/- Nobody sleeps for more than 100 ms, and of workers that are
   all asleep, one is up within 100 ms of the first due time. -/
structure Punctual
    (r : SleepRun futureTasks threads) : Prop where
  timely :
    ∀ worker since deadline,
      r.workers worker = .asleep since deadline →
        deadline ≤ since + 100
  someone :
    (∀ worker, (r.workers worker).isAsleep = true) →
      ∀ first ∈ futureTasks.contents r.queue,
        (∀ other ∈ futureTasks.contents r.queue,
          first.due ≤ other.due) →
          ∃ worker since deadline,
            r.workers worker = .asleep since deadline ∧
              deadline ≤ first.due + 100

/- Where a worker goes to sleep, the first of the delayed tasks
   is due within 100 ms. -/
def DueSoon
    (r : SleepRun futureTasks threads) :
    SleepEvent T threads → Prop
  | .wait worker =>
      ∀ now first,
        r.workers worker = .timed now →
          r.pendingTasks = [] →
            futureTasks.top r.queue = some first →
              first.due ≤ r.clock + 100
  | _ => True

/- A delay is not negative. -/
def Delayed
    (r : SleepRun futureTasks threads) :
    SleepEvent T threads → Prop
  | .after _ due => r.clock ≤ due
  | _ => True

------------------------------------------------------------
-- Sleep
------------------------------------------------------------

/- Every sleeper is up in time for the tasks that are queued,
   now and later on. -/
structure Rested
    (r : SleepRun futureTasks threads) : Prop where
  timed :
    ∀ worker now,
      r.workers worker = .timed now → now ≤ r.clock
  since :
    ∀ worker since deadline,
      r.workers worker = .asleep since deadline →
        since ≤ r.clock
  timely :
    ∀ worker since deadline,
      r.workers worker = .asleep since deadline →
        deadline ≤ since + 100
  inTime :
    ∀ worker since deadline,
      r.workers worker = .asleep since deadline →
        ∀ entry ∈ futureTasks.contents r.queue,
          deadline ≤ entry.due + 100

theorem rested_start (clock : Nat) :
    (start futureTasks threads clock).Rested where
  timed _ _ hTimed := by cases hTimed
  since _ _ _ hAsleep := by cases hAsleep
  timely _ _ _ hAsleep := by cases hAsleep
  inTime _ _ _ hAsleep := by cases hAsleep

theorem isAsleep_iff (place : WorkerPlace) :
    place.isAsleep = true ↔
      ∃ since deadline, place = .asleep since deadline := by
  cases place <;> simp [WorkerPlace.isAsleep]

theorem Rested.punctual
    {r : SleepRun futureTasks threads}
    (hRested : r.Rested)
    (hThreads : 0 < threads) :
    r.Punctual where
  timely := hRested.timely
  someone := by
    intro hAll first hFirst _
    rcases (isAsleep_iff _).mp (hAll ⟨0, hThreads⟩) with
      ⟨since, deadline, hAsleep⟩
    exact ⟨_, since, deadline, hAsleep,
      hRested.inTime _ since deadline hAsleep first hFirst⟩

/-
  Nobody goes to sleep: a worker that sleeps did so before, and
  what is queued was queued before or is not due yet.
-/
structure Stirs
    (r next : SleepRun futureTasks threads) : Prop where
  clock_le : r.clock ≤ next.clock
  timed :
    ∀ worker now,
      next.workers worker = .timed now →
        r.workers worker = .timed now ∨ now = r.clock
  asleep :
    ∀ worker since deadline,
      next.workers worker = .asleep since deadline →
        r.workers worker = .asleep since deadline
  queued :
    ∀ entry ∈ futureTasks.contents next.queue,
      entry ∈ futureTasks.contents r.queue ∨
        r.clock ≤ entry.due

theorem Rested.stirs
    {r next : SleepRun futureTasks threads}
    (hRested : r.Rested)
    (hStirs : Stirs r next) :
    next.Rested where
  timed worker now hTimed := by
    have hClock := hStirs.clock_le
    rcases hStirs.timed worker now hTimed with hBefore | hNow
    · have hLe := hRested.timed worker now hBefore
      omega
    · omega
  since worker since deadline hAsleep := by
    have hBefore := hStirs.asleep worker since deadline hAsleep
    exact Nat.le_trans (hRested.since worker since deadline
      hBefore) hStirs.clock_le
  timely worker since deadline hAsleep :=
    hRested.timely worker since deadline
      (hStirs.asleep worker since deadline hAsleep)
  inTime worker since deadline hAsleep entry hEntry := by
    have hBefore := hStirs.asleep worker since deadline hAsleep
    have hSince := hRested.since worker since deadline hBefore
    have hTimely := hRested.timely worker since deadline hBefore
    rcases hStirs.queued entry hEntry with hOld | hLater
    · exact hRested.inTime worker since deadline hBefore entry
        hOld
    · omega

theorem stirs_refl (r : SleepRun futureTasks threads) :
    Stirs r r where
  clock_le := Nat.le_refl _
  timed _ _ hTimed := Or.inl hTimed
  asleep _ _ _ hAsleep := hAsleep
  queued _ hEntry := Or.inl hEntry

theorem workers_setWorker_self
    (r : SleepRun futureTasks threads)
    (worker : Fin threads)
    (place : WorkerPlace) :
    (r.setWorker worker place).workers worker = place := by
  simp [setWorker]

theorem workers_setWorker_of_ne
    (r : SleepRun futureTasks threads)
    {worker other : Fin threads}
    (hNe : other ≠ worker)
    (place : WorkerPlace) :
    (r.setWorker worker place).workers other =
      r.workers other := by
  simp [setWorker, hNe]

/- One worker moves, to a place where it neither sleeps nor
   has an old time. -/
theorem stirs_setWorker
    (r : SleepRun futureTasks threads)
    (worker : Fin threads)
    {place : WorkerPlace}
    (hAwake : place.isAsleep = false)
    (hTimed : ∀ now, place = .timed now → now = r.clock) :
    Stirs r (r.setWorker worker place) where
  clock_le := Nat.le_refl _
  timed other now hOther := by
    by_cases hSame : other = worker
    · rw [hSame, workers_setWorker_self] at hOther
      exact Or.inr (hTimed now hOther)
    · rw [workers_setWorker_of_ne _ hSame] at hOther
      exact Or.inl hOther
  asleep other since deadline hOther := by
    by_cases hSame : other = worker
    · rw [hSame, workers_setWorker_self] at hOther
      rw [hOther] at hAwake
      cases hAwake
    · rw [workers_setWorker_of_ne _ hSame] at hOther
      exact hOther
  queued _ hEntry := Or.inl hEntry

/- What is no concern of the sleepers may change, too. -/
theorem Stirs.of_same
    {r before next : SleepRun futureTasks threads}
    (hStirs : Stirs before next)
    (hClock : before.clock = r.clock)
    (hWorkers : before.workers = r.workers)
    (hQueue :
      ∀ entry ∈ futureTasks.contents before.queue,
        entry ∈ futureTasks.contents r.queue) :
    Stirs r next where
  clock_le := by
    rw [← hClock]
    exact hStirs.clock_le
  timed := by
    rw [← hClock, ← hWorkers]
    exact hStirs.timed
  asleep := by
    rw [← hWorkers]
    exact hStirs.asleep
  queued entry hEntry := by
    rw [← hClock]
    rcases hStirs.queued entry hEntry with hOld | hLater
    · exact Or.inl (hQueue entry hOld)
    · exact Or.inr hLater

theorem stirs_notifyOne
    (r : SleepRun futureTasks threads)
    (choice : Nat) :
    Stirs r (r.notifyOne choice) := by
  unfold notifyOne
  split
  · exact stirs_setWorker r _ rfl (by intro now hNow; cases hNow)
  · exact stirs_refl r

section Runs

variable [DecidableEq T]

omit [DecidableEq T] in
/- What is left of the queue was in it. -/
theorem mem_of_mem_left
    (r : SleepRun futureTasks threads)
    (now : Nat)
    {entry : FutureTask T}
    (hEntry :
      entry ∈ futureTasks.contents
        (getNextFutureWork futureTasks r.cancelled now
          r.queue).2) :
    entry ∈ futureTasks.contents r.queue := by
  have hGives :=
    givesOut_getNextFutureWork futureTasks r.cancelled now
      r.queue
  rcases hGives.split with ⟨dropped, _, hSplit⟩
  rw [hSplit]
  exact Multiset.mem_add.mpr (Or.inr hEntry)

/- Every event but a wait lets the sleepers sleep. -/
theorem stirs_step
    {r : SleepRun futureTasks threads}
    {event : SleepEvent T threads}
    (hWait : ∀ worker, event ≠ .wait worker)
    (hDelayed : r.Delayed event) :
    Stirs r (r.step event) := by
  cases event with
  | tick milliseconds =>
      have hStill := stirs_refl r
      exact { hStill with clock_le := Nat.le_add_right _ _ }
  | after task due =>
      have hStill := stirs_refl r
      refine { hStill with queued := ?_ }
      intro entry hEntry
      simp only [step] at hEntry
      rw [futureTasks.contents_push] at hEntry
      rcases Multiset.mem_cons.mp hEntry with hNew | hOld
      · right
        rw [hNew]
        exact hDelayed
      · exact Or.inl hOld
  | submit task choice =>
      exact (stirs_notifyOne _ choice).of_same rfl rfl
        (fun _ hEntry => hEntry)
  | makeRunnable task choice =>
      exact (stirs_notifyOne _ choice).of_same rfl rfl
        (fun _ hEntry => hEntry)
  | cancel task => exact { stirs_refl r with }
  | readClock worker =>
      simp only [step]
      split
      · apply stirs_setWorker r worker rfl
        intro now hNow
        cases hNow
        rfl
      · exact stirs_refl r
  | wait worker => exact absurd rfl (hWait worker)
  | wake worker =>
      simp only [step]
      split
      · exact stirs_setWorker r worker rfl
          (by intro now hNow; cases hNow)
      · exact stirs_refl r
  | getFutureWork worker now =>
      have hLeft :
          ∀ entry ∈ futureTasks.contents
              (getNextFutureWork futureTasks r.cancelled now
                r.queue).2,
            entry ∈ futureTasks.contents r.queue :=
        fun _ hEntry => mem_of_mem_left r now hEntry
      simp only [step]
      split
      · split
        · rename_i queue hNext
          rw [hNext] at hLeft
          exact (stirs_setWorker _ worker rfl
            (by intro now hNow; cases hNow)).of_same rfl rfl
              hLeft
        · rename_i queue hNext
          rw [hNext] at hLeft
          exact (stirs_setWorker _ worker rfl
            (by intro now hNow; cases hNow)).of_same rfl rfl
              hLeft
      · exact stirs_refl r
  | getPendingWork worker =>
      simp only [step]
      split
      · split
        · exact (stirs_setWorker _ worker rfl
            (by intro now hNow; cases hNow)).of_same rfl rfl
              (fun _ hEntry => hEntry)
        · exact stirs_setWorker r worker rfl
            (by intro now hNow; cases hNow)
      · exact stirs_refl r
  | finish worker =>
      simp only [step]
      split
      · exact stirs_setWorker r worker rfl
          (by intro now hNow; cases hNow)
      · exact stirs_refl r

/- What a wait of a worker can do. -/
theorem step_wait_cases
    (r : SleepRun futureTasks threads)
    (worker : Fin threads) :
    (∃ now,
        r.workers worker = .timed now ∧
          r.pendingTasks = [] ∧
            r.step (.wait worker) =
              r.setWorker worker
                (.asleep r.clock
                  (getNextWakeTime futureTasks r.queue now
                    100))) ∨
      Stirs r (r.step (.wait worker)) ∧
        ∀ now, r.workers worker = .timed now →
          r.pendingTasks ≠ [] := by
  simp only [step]
  split
  · rename_i now hTimed
    by_cases hNone : r.pendingTasks = []
    · left
      refine ⟨now, hTimed, hNone, ?_⟩
      rw [hNone]
      rfl
    · right
      rw [if_neg (by simpa using hNone)]
      refine ⟨?_, fun _ _ => hNone⟩
      exact stirs_setWorker r worker rfl
        (by intro later hLater; cases hLater)
  · rename_i hOther
    right
    refine ⟨stirs_refl r, ?_⟩
    intro now hTimed
    exact absurd hTimed (hOther now)

/- A wake time is not after that of any delayed task. -/
omit [DecidableEq T] in
theorem getNextWakeTime_le
    {queue : futureTasks.Queue}
    {entry : FutureTask T}
    (hEntry : entry ∈ futureTasks.contents queue)
    (now deflt : Nat) :
    getNextWakeTime futureTasks queue now deflt ≤
      entry.due := by
  unfold getNextWakeTime
  cases hTop : futureTasks.top queue with
  | none =>
      rw [futureTasks.contents_of_none queue hTop] at hEntry
      cases hEntry
  | some top =>
      exact futureTasks.key_top_le queue top hTop entry hEntry

omit [DecidableEq T] in
/- Who sleeps after a worker has gone to sleep. -/
theorem asleep_setWorker
    (r : SleepRun futureTasks threads)
    (worker : Fin threads)
    {now later : Nat}
    (other : Fin threads)
    (since deadline : Nat)
    (hAsleep :
      (r.setWorker worker (.asleep now later)).workers other =
        .asleep since deadline) :
    (since = now ∧ deadline = later) ∨
      r.workers other = .asleep since deadline := by
  by_cases hSame : other = worker
  · rw [hSame, workers_setWorker_self] at hAsleep
    cases hAsleep
    exact Or.inl ⟨rfl, rfl⟩
  · rw [workers_setWorker_of_ne _ hSame] at hAsleep
    exact Or.inr hAsleep

theorem Rested.wait
    {r : SleepRun futureTasks threads}
    (hRested : r.Rested)
    {worker : Fin threads}
    (hSoon : r.DueSoon (.wait worker)) :
    (r.step (.wait worker)).Rested := by
  rcases r.step_wait_cases worker with
    ⟨now, hTimed, hNone, hStep⟩ | ⟨hStirs, _⟩
  · have hNow := hRested.timed worker now hTimed
    have hWake :
        getNextWakeTime futureTasks r.queue now 100 ≤
          r.clock + 100 := by
      unfold getNextWakeTime
      cases hTop : futureTasks.top r.queue with
      | none =>
          simp only
          omega
      | some first =>
          exact hSoon now first hTimed hNone hTop
    have hPlaces : ∀ other since deadline,
        (r.step (.wait worker)).workers other =
            .asleep since deadline →
          (since = r.clock ∧
              deadline =
                getNextWakeTime futureTasks r.queue now 100) ∨
            r.workers other = .asleep since deadline := by
      rw [hStep]
      exact asleep_setWorker r worker
    have hClock : (r.step (.wait worker)).clock = r.clock := by
      rw [hStep]
      rfl
    have hQueue : (r.step (.wait worker)).queue = r.queue := by
      rw [hStep]
      rfl
    constructor
    · intro other later hLater
      rw [hStep] at hLater
      by_cases hSame : other = worker
      · rw [hSame, workers_setWorker_self] at hLater
        cases hLater
      · rw [workers_setWorker_of_ne _ hSame] at hLater
        rw [hClock]
        exact hRested.timed other later hLater
    · intro other since deadline hAsleep
      rw [hClock]
      rcases hPlaces other since deadline hAsleep with
        ⟨hSince, _⟩ | hBefore
      · omega
      · exact hRested.since other since deadline hBefore
    · intro other since deadline hAsleep
      rcases hPlaces other since deadline hAsleep with
        ⟨hSince, hDeadline⟩ | hBefore
      · omega
      · exact hRested.timely other since deadline hBefore
    · intro other since deadline hAsleep entry hEntry
      rw [hQueue] at hEntry
      rcases hPlaces other since deadline hAsleep with
        ⟨_, hDeadline⟩ | hBefore
      · have hLe := getNextWakeTime_le hEntry now 100
        omega
      · exact hRested.inTime other since deadline hBefore entry
          hEntry
  · exact hRested.stirs hStirs

theorem Rested.step
    {r : SleepRun futureTasks threads}
    (hRested : r.Rested)
    {event : SleepEvent T threads}
    (hDelayed : r.Delayed event)
    (hSoon : r.DueSoon event) :
    (r.step event).Rested := by
  by_cases hWait : ∃ worker, event = .wait worker
  · rcases hWait with ⟨worker, hEvent⟩
    subst hEvent
    exact hRested.wait hSoon
  · apply hRested.stirs
    apply stirs_step _ hDelayed
    intro worker hEvent
    exact hWait ⟨worker, hEvent⟩

/- A worker that sleeps for no more than 100 ms went to sleep
   with the first task due by then. -/
theorem Punctual.dueSoon
    {r : SleepRun futureTasks threads}
    {event : SleepEvent T threads}
    (hPunctual : (r.step event).Punctual) :
    r.DueSoon event := by
  cases event with
  | wait worker =>
      intro now first hTimed hNone hTop
      rcases r.step_wait_cases worker with
        ⟨other, _, _, hStep⟩ | ⟨_, hBusy⟩
      · have hAsleep :
            (r.step (.wait worker)).workers worker =
              .asleep r.clock
                (getNextWakeTime futureTasks r.queue other
                  100) := by
          rw [hStep, workers_setWorker_self]
        have hTimely := hPunctual.timely worker _ _ hAsleep
        rw [getNextWakeTime, hTop] at hTimely
        exact hTimely
      · exact absurd hNone (hBusy now hTimed)
  | _ => trivial

/-
  The workers are punctual along a run exactly if nobody goes
  to sleep with the first delayed task due in more than
  100 ms.
-/
theorem punctual_iff
    (futureTasks : FutureTasks T)
    (clock : Nat)
    (hThreads : 0 < threads)
    (events : List (SleepEvent T threads))
    (hDelayed :
      ∀ front event back,
        events = front ++ event :: back →
          ((start futureTasks threads clock).run
            front).Delayed event) :
    (∀ front, front <+: events →
      ((start futureTasks threads clock).run
        front).Punctual) ↔
      ∀ front event back,
        events = front ++ event :: back →
          ((start futureTasks threads clock).run
            front).DueSoon event := by
  apply Runs.forall_prefix_iff
    fun front =>
      ((start futureTasks threads clock).run front).Rested
  · exact rested_start clock
  · exact fun _ hRested => hRested.punctual hThreads
  · intro front event back hSplit hRested hSoon
    rw [run_snoc]
    exact hRested.step (hDelayed front event back hSplit) hSoon
  · intro front event _ _ _ hPunctual
    rw [run_snoc] at hPunctual
    exact hPunctual.dueSoon

end Runs

/- The only worker goes to sleep, and a task comes in that is
   due in 50 ms. -/
def dozing : List (SleepEvent Unit 1) :=
  [.readClock 0, .wait 0, .after () 50]

theorem punctual_iff_dozing :
    (∀ front, front <+: dozing →
      ((start sortedTasks 1 0).run front).Punctual) ↔
      ∀ front event back,
        dozing = front ++ event :: back →
          ((start sortedTasks 1 0).run front).DueSoon
            event := by
  apply punctual_iff sortedTasks 0 (by decide)
  intro front event back hSplit
  rcases front with _ | ⟨first, _ | ⟨second, _ | ⟨third, rest⟩⟩⟩
  · cases hSplit
    trivial
  · cases hSplit
    trivial
  · cases hSplit
    exact Nat.zero_le 50
  · simp [dozing] at hSplit

/- The only worker goes to sleep over a task that is due in ten
   minutes, and then one comes in that is due in 50 ms. -/
def oversleeping : List (SleepEvent Unit 1) :=
  [.after () 600000, .readClock 0, .wait 0, .after () 50]

theorem not_punctual_of_oversleeping :
    ¬ ∀ front, front <+: oversleeping →
      ((start sortedTasks 1 0).run front).Punctual := by
  intro hAll
  have hPunctual := hAll oversleeping (List.prefix_refl _)
  have hAsleep :
      ∀ worker,
        ((start sortedTasks 1 0).run oversleeping).workers
          worker = .asleep 0 600000 := by
    decide
  have hContents :
      sortedTasks.contents
          ((start sortedTasks 1 0).run oversleeping).queue =
        Multiset.ofList
          [{ task := (), due := 50 },
            { task := (), due := 600000 }] :=
    rfl
  have hFirst :=
    hPunctual.someone
      (fun worker => by rw [hAsleep worker]; rfl)
      { task := (), due := 50 }
      (by rw [hContents]; exact List.mem_cons_self)
      (by
        intro other hOther
        rw [hContents] at hOther
        rcases List.mem_cons.mp hOther with hEq | hRest
        · rw [hEq]
        · rw [List.mem_singleton.mp hRest]
          decide)
  rcases hFirst with ⟨worker, since, deadline, hDozes, hLe⟩
  rw [hAsleep worker] at hDozes
  cases hDozes
  exact absurd hLe (by decide)

end SleepRun

end OefCore
