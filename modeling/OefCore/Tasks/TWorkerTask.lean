import OefCore.Tasks.WorkLedger

/-
  `TWorkerTask`: a task that works on the workloads that are
  posted to it, on one at a time.

  Main declarations:
    * `TWorkerTask`, `TWorkerTask.takeUp`, `processed`
    * `WorkerRun`, `WorkerEvent`
    * `WorkerRun.LifeCycle`, `Continues`
    * `WorkerRun.lifeCycle_iff`
-/

namespace OefCore

variable {W : Type}

------------------------------------------------------------
-- The Task
------------------------------------------------------------

/- A workload is a pointer, which may be null.  `current` is
   none until a first workload is taken, and `lastResult` until
   a first result is there. -/
structure TWorkerTask (W : Type) where
  current : Option (QueueEntry (Option W))
  lastResult : Option WorkloadProcessed
  queue : List (QueueEntry (Option W))
  waitables : Nat
  deriving DecidableEq, Repr

namespace TWorkerTask

def construct : TWorkerTask W where
  current := none
  lastResult := none
  queue := []
  waitables := 0

/- What `post` does before it makes the task runnable. -/
def post
    (self : TWorkerTask W)
    (workload : Option W) : TWorkerTask W :=
  { self with
    queue :=
      self.queue ++
        [{ workload := workload, waitable := self.waitables }]
    waitables := self.waitables + 1 }

/- The current entry, if its workload is not null. -/
def inHand
    (self : TWorkerTask W) : Option (QueueEntry (Option W)) :=
  self.current.filter fun entry => entry.workload.isSome

/- The state of a workload that is in hand. -/
def workloadState (self : TWorkerTask W) : WorkloadState :=
  Id.run do
    let mut state := WorkloadState.resume
    if self.lastResult = some .notStarted then
      state := .start
    -- not in an else branch: START is overwritten
    state := .resume
    return state

/- The workload for the next call of `process`; none when there
   is no work. -/
def takeUp
    (self : TWorkerTask W) :
    Option
      (QueueEntry (Option W) × WorkloadState × TWorkerTask W) :=
  match self.inHand with
  | some entry => some (entry, self.workloadState, self)
  | none =>
      match self.queue with
      | [] => none
      | front :: queue =>
          some
            (front, .start,
              { self with
                current := some front
                queue := queue })

/- What follows from the result of the call. -/
def processed
    (self : TWorkerTask W) :
    WorkloadProcessed → TWorkerTask W
  | .complete =>
      { self with
        lastResult := some .complete
        current :=
          self.current.map fun entry =>
            { entry with workload := none } }
  | result => { self with lastResult := some result }

theorem workloadState_eq (self : TWorkerTask W) :
    self.workloadState = .resume := by
  unfold workloadState
  split <;> rfl

theorem takeUp_inHand
    {self : TWorkerTask W}
    {entry : QueueEntry (Option W)}
    (hHand : self.inHand = some entry) :
    self.takeUp = some (entry, .resume, self) := by
  unfold takeUp
  rw [hHand, workloadState_eq]

theorem takeUp_front
    {self : TWorkerTask W}
    (hHand : self.inHand = none)
    {front : QueueEntry (Option W)}
    {queue : List (QueueEntry (Option W))}
    (hQueue : self.queue = front :: queue) :
    self.takeUp =
      some
        (front, .start,
          { self with
            current := some front
            queue := queue }) := by
  unfold takeUp
  rw [hHand, hQueue]

theorem takeUp_none
    {self : TWorkerTask W}
    (hHand : self.inHand = none)
    (hQueue : self.queue = []) :
    self.takeUp = none := by
  unfold takeUp
  rw [hHand, hQueue]

/- Nothing is in hand after COMPLETE. -/
theorem inHand_complete (self : TWorkerTask W) :
    (self.processed .complete).inHand = none := by
  unfold processed inHand
  cases self.current <;> rfl

theorem queue_processed
    (self : TWorkerTask W)
    (result : WorkloadProcessed) :
    (self.processed result).queue = self.queue := by
  cases result <;> rfl

end TWorkerTask

------------------------------------------------------------
-- Runs
------------------------------------------------------------

/- `running` is true during a call of `run`. -/
structure WorkerRun (W : Type) where
  task : TWorkerTask W
  running : Bool
  posted : List (QueueEntry (Option W))
  log : List (WorkloadCall (Option W))
  wakes : List Nat

/- A turn of the loop of `run` has the result of the call of
   `process` in it, if there is a call. -/
inductive WorkerEvent (W : Type) where
  | post (workload : Option W)
  | run
  | turn (result : Option WorkloadProcessed)

namespace WorkerRun

def start : WorkerRun W where
  task := .construct
  running := false
  posted := []
  log := []
  wakes := []

/- `process` was called, and it returned or threw. -/
def answered
    (r : WorkerRun W)
    (entry : QueueEntry (Option W))
    (state : WorkloadState)
    (result : Option WorkloadProcessed) : WorkerRun W :=
  let called : WorkerRun W :=
    { r with
      log :=
        r.log ++
          [{ entry := entry, state := state, result := result }] }
  match result with
  | none => { called with running := false }
  | some .complete =>
      { called with
        task := r.task.processed .complete
        wakes := r.wakes ++ [entry.waitable] }
  | some processed =>
      { called with
        task := r.task.processed processed
        running := false }

/- Calls do not overlap: what comes at another time does not
   happen. -/
def step (r : WorkerRun W) : WorkerEvent W → WorkerRun W
  | .post workload =>
      if r.running then
        r
      else
        { r with
          task := r.task.post workload
          posted :=
            r.posted ++
              [{ workload := workload
                 waitable := r.task.waitables }] }
  | .run => { r with running := true }
  | .turn result =>
      if r.running then
        match r.task.takeUp with
        | none => { r with running := false }
        | some (entry, state, task) =>
            { r with task := task }.answered entry state result
      else
        r

def run
    (r : WorkerRun W)
    (events : List (WorkerEvent W)) : WorkerRun W :=
  events.foldl step r

theorem run_snoc
    (r : WorkerRun W)
    (events : List (WorkerEvent W))
    (event : WorkerEvent W) :
    r.run (events ++ [event]) = (r.run events).step event := by
  simp [run]

------------------------------------------------------------
-- What Is Promised
------------------------------------------------------------

end WorkerRun

/- A workload is passed to `process` only when all those posted
   before it are complete. -/
def InOrder
    (posted : List (QueueEntry W))
    (log : List (WorkloadCall W)) : Prop :=
  ∀ front call back,
    log = front ++ call :: back →
      ∀ earlier ∈ posted,
        earlier.waitable < call.entry.waitable →
          Completed front earlier

namespace WorkerRun

/- The life cycle of the workloads.  Waitables tell the posted
   workloads apart, in the order posted. -/
structure LifeCycle (r : WorkerRun W) : Prop where
  numbered :
    r.posted.map QueueEntry.waitable =
      List.range r.posted.length
  inOrder : InOrder r.posted r.log
  inTurn : InTurn r.log
  apart : Apart r.log
  woken :
    ∀ entry ∈ r.posted, Completed r.log entry →
      r.wakes.count entry.waitable = 1
  notWoken :
    ∀ entry ∈ r.posted, ¬Completed r.log entry →
      r.wakes.count entry.waitable = 0
  kept :
    ∀ entry ∈ r.posted,
      entry ∈ r.task.queue ∨ r.task.inHand = some entry ∨
        Completed r.log entry

/- A workload that is in hand was begun before; and if it is a
   null pointer that is taken from the queue, the answer to it
   is COMPLETE. -/
def Continues (r : WorkerRun W) : WorkerEvent W → Prop
  | .turn result =>
      r.running = true →
        (∀ entry, r.task.inHand = some entry →
          Begun r.log entry) ∧
          (r.task.inHand = none →
            ∀ front queue, r.task.queue = front :: queue →
              front.workload = none →
                result = some .complete)
  | _ => True

end WorkerRun

------------------------------------------------------------
-- One Workload at a Time
------------------------------------------------------------

theorem inOrder_snoc
    (posted : List (QueueEntry W))
    (log : List (WorkloadCall W))
    (call : WorkloadCall W) :
    InOrder posted (log ++ [call]) ↔
      InOrder posted log ∧
        ∀ earlier ∈ posted,
          earlier.waitable < call.entry.waitable →
            Completed log earlier :=
  Runs.forall_split_snoc
    (fun front (call : WorkloadCall W) =>
      ∀ earlier ∈ posted,
        earlier.waitable < call.entry.waitable →
          Completed front earlier)
    log call

/- A sound ledger with at most one workload worked on, and those
   that wait in the order posted. -/
structure Lined (l : WorkLedger W) : Prop where
  sound : l.Sound
  inTurn : InTurn l.log
  inOrder : InOrder l.posted l.log
  sorted :
    l.waiting.Pairwise
      (fun entry later => entry.waitable < later.waitable)
  single : ∀ entry ∈ l.working, l.working = [entry]
  first :
    ∀ entry ∈ l.working, ∀ later ∈ l.waiting,
      entry.waitable < later.waitable

namespace Lined

variable {l : WorkLedger W}

theorem empty : Lined (WorkLedger.empty : WorkLedger W) where
  sound := WorkLedger.sound_empty
  inTurn := inTurn_nil
  inOrder := by
    intro front call back hSplit
    simp [WorkLedger.empty] at hSplit
  sorted := List.Pairwise.nil
  single := by simp [WorkLedger.empty]
  first := by simp [WorkLedger.empty]

theorem post
    (hLined : Lined l)
    (workload : W) :
    Lined (l.post workload) := by
  have hLater :
      ∀ entry ∈ l.posted,
        entry.waitable < (l.newEntry workload).waitable :=
    fun entry hEntry => hLined.sound.waitable_lt hEntry
  constructor
  · exact hLined.sound.post workload
  · exact hLined.inTurn
  · intro front call back hSplit earlier hEarlier hLt
    rcases List.mem_append.mp hEarlier with hOld | hNew
    · exact hLined.inOrder front call back hSplit earlier hOld
        hLt
    · have hCall : call ∈ l.log := by
        have hMem : call ∈ front ++ call :: back :=
          List.mem_append_right _ List.mem_cons_self
        rw [← hSplit] at hMem
        exact hMem
      have hBefore :=
        hLater call.entry (hLined.sound.called call hCall)
      rw [List.mem_singleton.mp hNew] at hLt
      exact absurd (Nat.lt_trans hBefore hLt)
        (Nat.lt_irrefl _)
  · apply List.pairwise_append.mpr
    refine ⟨hLined.sorted, List.pairwise_singleton _ _, ?_⟩
    intro entry hEntry later hNew
    rw [List.mem_singleton.mp hNew]
    exact hLater entry (hLined.sound.waitingPosted entry hEntry)
  · exact hLined.single
  · intro entry hEntry later hMem
    rcases List.mem_append.mp hMem with hOld | hNew
    · exact hLined.first entry hEntry later hOld
    · rw [List.mem_singleton.mp hNew]
      exact hLater entry
        (hLined.sound.workingPosted entry hEntry)

variable [DecidableEq W]

theorem take
    (hLined : Lined l)
    (hIdle : l.working = [])
    {front : QueueEntry W}
    {waiting : List (QueueEntry W)}
    (hWaiting : l.waiting = front :: waiting) :
    Lined (l.take front waiting) := by
  have hSorted := hLined.sorted
  rw [hWaiting, List.pairwise_cons] at hSorted
  have hWorking : l.working.insert front = [front] := by
    rw [hIdle]
    rfl
  constructor
  · exact hLined.sound.take hWaiting
  · exact hLined.inTurn
  · exact hLined.inOrder
  · exact hSorted.2
  · intro entry hEntry
    simp only [WorkLedger.take, hWorking] at hEntry ⊢
    rw [List.mem_singleton.mp hEntry]
  · intro entry hEntry later hLater
    simp only [WorkLedger.take, hWorking] at hEntry
    rw [List.mem_singleton.mp hEntry]
    exact hSorted.1 later hLater

/- All that was posted before the workload that is worked on
   is complete. -/
omit [DecidableEq W] in
theorem completed_before
    (hLined : Lined l)
    {entry : QueueEntry W}
    (hWorking : entry ∈ l.working)
    {earlier : QueueEntry W}
    (hEarlier : earlier ∈ l.posted)
    (hLt : earlier.waitable < entry.waitable) :
    Completed l.log earlier := by
  rcases hLined.sound.kept earlier hEarlier with
    hWaiting | hOther | hDone
  · have hLater :=
      hLined.first entry hWorking earlier hWaiting
    exact absurd (Nat.lt_trans hLt hLater) (Nat.lt_irrefl _)
  · rw [hLined.single entry hWorking] at hOther
    rw [List.mem_singleton.mp hOther] at hLt
    exact absurd hLt (Nat.lt_irrefl _)
  · exact hDone

theorem answer
    (hLined : Lined l)
    {call : WorkloadCall W}
    (hWorking : call.entry ∈ l.working)
    (hState : call.state = .resume ↔ Begun l.log call.entry) :
    Lined (l.answer call) := by
  have hLedger :
      (l.answer call).posted = l.posted ∧
        (l.answer call).waiting = l.waiting ∧
          ∀ entry ∈ (l.answer call).working,
            (l.answer call).working = [entry] ∧
              entry ∈ l.working := by
    have hSingle := hLined.single _ hWorking
    unfold WorkLedger.answer
    split
    · simp [hSingle]
    · refine ⟨rfl, rfl, ?_⟩
      intro entry hEntry
      exact ⟨hLined.single entry hEntry, hEntry⟩
  rcases hLedger with ⟨hPosted, hWaiting, hKept⟩
  constructor
  · exact hLined.sound.answer hWorking
  · rw [WorkLedger.log_answer]
    exact (inTurn_snoc _ _).mpr ⟨hLined.inTurn, hState⟩
  · rw [WorkLedger.log_answer, hPosted, inOrder_snoc]
    refine ⟨hLined.inOrder, ?_⟩
    intro earlier hEarlier hLt
    exact hLined.completed_before hWorking hEarlier hLt
  · rw [hWaiting]
    exact hLined.sorted
  · intro entry hEntry
    exact (hKept entry hEntry).1
  · rw [hWaiting]
    intro entry hEntry
    exact hLined.first entry (hKept entry hEntry).2

end Lined

------------------------------------------------------------
-- Turns
------------------------------------------------------------

namespace WorkerRun

def ledger (r : WorkerRun W) : WorkLedger (Option W) where
  posted := r.posted
  waiting := r.task.queue
  working := r.task.inHand.toList
  log := r.log
  wakes := r.wakes

structure Steady (r : WorkerRun W) : Prop where
  lined : Lined r.ledger
  waitables_eq : r.task.waitables = r.posted.length

theorem steady_start : (start : WorkerRun W).Steady where
  lined := Lined.empty
  waitables_eq := rfl

variable {r : WorkerRun W}

theorem Steady.promised
    (hSteady : r.Steady) :
    r.LifeCycle where
  numbered := hSteady.lined.sound.numbered
  inOrder := hSteady.lined.inOrder
  inTurn := hSteady.lined.inTurn
  apart := hSteady.lined.sound.apart
  woken := hSteady.lined.sound.woken
  notWoken := hSteady.lined.sound.notWoken
  kept entry hPosted := by
    have hKept := hSteady.lined.sound.kept entry hPosted
    simp only [ledger, Option.mem_toList] at hKept
    exact hKept

theorem Steady.post
    (hSteady : r.Steady)
    (workload : Option W) :
    (r.step (.post workload)).Steady := by
  simp only [step]
  cases r.running with
  | true => exact hSteady
  | false =>
      have hLined := hSteady.lined.post workload
      unfold WorkLedger.post WorkLedger.newEntry at hLined
      constructor
      · simp only [ledger, TWorkerTask.post,
          hSteady.waitables_eq]
        exact hLined
      · simp [TWorkerTask.post, hSteady.waitables_eq]

theorem step_inHand
    (hRunning : r.running = true)
    {entry : QueueEntry (Option W)}
    (hHand : r.task.inHand = some entry)
    (result : Option WorkloadProcessed) :
    r.step (.turn result) =
      r.answered entry .resume result := by
  unfold step
  dsimp only
  rw [if_pos hRunning, TWorkerTask.takeUp_inHand hHand]

theorem step_front
    (hRunning : r.running = true)
    (hHand : r.task.inHand = none)
    {front : QueueEntry (Option W)}
    {queue : List (QueueEntry (Option W))}
    (hQueue : r.task.queue = front :: queue)
    (result : Option WorkloadProcessed) :
    r.step (.turn result) =
      { r with
        task :=
          { r.task with
            current := some front
            queue := queue } }.answered front .start
              result := by
  unfold step
  dsimp only
  rw [if_pos hRunning, TWorkerTask.takeUp_front hHand hQueue]

/- There is no work. -/
theorem step_none
    (hRunning : r.running = true)
    (hHand : r.task.inHand = none)
    (hQueue : r.task.queue = [])
    (result : Option WorkloadProcessed) :
    r.step (.turn result) = { r with running := false } := by
  unfold step
  dsimp only
  rw [if_pos hRunning, TWorkerTask.takeUp_none hHand hQueue]

theorem waitables_answered
    (r : WorkerRun W)
    (entry : QueueEntry (Option W))
    (state : WorkloadState)
    (result : Option WorkloadProcessed) :
    (r.answered entry state result).task.waitables =
      r.task.waitables := by
  rcases result with _ | processed
  · rfl
  · cases processed <;> rfl

theorem posted_answered
    (r : WorkerRun W)
    (entry : QueueEntry (Option W))
    (state : WorkloadState)
    (result : Option WorkloadProcessed) :
    (r.answered entry state result).posted = r.posted := by
  rcases result with _ | processed
  · rfl
  · cases processed <;> rfl

theorem log_answered
    (r : WorkerRun W)
    (entry : QueueEntry (Option W))
    (state : WorkloadState)
    (result : Option WorkloadProcessed) :
    (r.answered entry state result).log =
      r.log ++
        [{ entry := entry, state := state, result := result }] := by
  rcases result with _ | processed
  · rfl
  · cases processed <;> rfl

theorem queue_answered
    (r : WorkerRun W)
    (entry : QueueEntry (Option W))
    (state : WorkloadState)
    (result : Option WorkloadProcessed) :
    (r.answered entry state result).task.queue =
      r.task.queue := by
  rcases result with _ | processed
  · rfl
  · cases processed <;> rfl

/- An answer other than COMPLETE leaves in hand what is. -/
theorem inHand_answered
    (r : WorkerRun W)
    (entry : QueueEntry (Option W))
    (state : WorkloadState)
    {result : Option WorkloadProcessed}
    (hResult : result ≠ some .complete) :
    (r.answered entry state result).task.inHand =
      r.task.inHand := by
  rcases result with _ | processed
  · rfl
  · cases processed with
    | complete => exact absurd rfl hResult
    | notComplete => rfl
    | notStarted => rfl

variable [DecidableEq W]

/- COMPLETE is an answer in the ledger, also for a null
   pointer. -/
theorem ledger_complete
    (r : WorkerRun W)
    (entry : QueueEntry (Option W))
    (state : WorkloadState)
    {l : WorkLedger (Option W)}
    (hLedger :
      l = { r.ledger with working := [entry] }) :
    (r.answered entry state (some .complete)).ledger =
      l.answer
        { entry := entry
          state := state
          result := some .complete } := by
  rw [hLedger]
  simp [answered, ledger, WorkLedger.answer,
    TWorkerTask.inHand_complete, TWorkerTask.queue_processed]

/- Any answer for a workload in hand is one in the ledger. -/
theorem ledger_inHand
    {entry : QueueEntry (Option W)}
    (hHand : r.task.inHand = some entry)
    (state : WorkloadState)
    (result : Option WorkloadProcessed) :
    (r.answered entry state result).ledger =
      r.ledger.answer
        { entry := entry, state := state, result := result } := by
  by_cases hComplete : result = some .complete
  · rw [hComplete]
    apply ledger_complete
    simp only [ledger, hHand, Option.toList_some]
  · unfold WorkLedger.answer
    rw [if_neg hComplete]
    simp only [ledger, posted_answered, queue_answered,
      log_answered, inHand_answered r entry state hComplete]
    rcases result with _ | processed
    · rfl
    · cases processed with
      | complete => exact absurd rfl hComplete
      | notComplete => rfl
      | notStarted => rfl

/- The workload in hand is passed on once more. -/
theorem Steady.turn_inHand
    (hSteady : r.Steady)
    {entry : QueueEntry (Option W)}
    (hHand : r.task.inHand = some entry)
    (hBegun : Begun r.log entry)
    (result : Option WorkloadProcessed) :
    (r.answered entry .resume result).Steady := by
  have hWorking : entry ∈ r.ledger.working := by
    simp only [ledger, hHand, Option.toList_some]
    exact List.mem_cons_self
  constructor
  · rw [ledger_inHand hHand]
    exact hSteady.lined.answer hWorking
      (iff_of_true rfl hBegun)
  · rw [waitables_answered, posted_answered]
    exact hSteady.waitables_eq

/- A workload is taken from the queue and passed on; a null
   pointer is answered by COMPLETE. -/
theorem Steady.turn_front
    (hSteady : r.Steady)
    (hHand : r.task.inHand = none)
    {front : QueueEntry (Option W)}
    {queue : List (QueueEntry (Option W))}
    (hQueue : r.task.queue = front :: queue)
    {result : Option WorkloadProcessed}
    (hNull :
      front.workload = none → result = some .complete) :
    ({ r with
        task :=
          { r.task with
            current := some front
            queue := queue } }.answered front .start
              result).Steady := by
  have hIdle : r.ledger.working = [] := by
    simp only [ledger, hHand, Option.toList_none]
  have hTake := hSteady.lined.take hIdle hQueue
  have hUncalled : ¬Begun r.log front := by
    rintro ⟨call, hCall, hSame, _⟩
    apply hSteady.lined.sound.waitingUncalled front _ call
      hCall hSame
    simp only [ledger, hQueue]
    exact List.mem_cons_self
  have hTaken :
      r.ledger.take front queue =
        { posted := r.posted
          waiting := queue
          working := [front]
          log := r.log
          wakes := r.wakes } := by
    unfold WorkLedger.take
    rw [hIdle]
    rfl
  have hAnswer :
      Lined
        ((r.ledger.take front queue).answer
          { entry := front
            state := .start
            result := result }) := by
    apply hTake.answer
    · rw [hTaken]
      exact List.mem_cons_self
    · exact iff_of_false WorkloadState.noConfusion hUncalled
  constructor
  · cases hWorkload : front.workload with
    | none =>
        rw [hNull hWorkload] at hAnswer ⊢
        rw [ledger_complete _ _ _ hTaken]
        exact hAnswer
    | some workload =>
        rw [ledger_inHand]
        · rw [hTaken] at hAnswer
          simpa [ledger, TWorkerTask.inHand, Option.filter,
            hWorkload] using hAnswer
        · simp [TWorkerTask.inHand, Option.filter, hWorkload]
  · rw [waitables_answered, posted_answered]
    exact hSteady.waitables_eq

theorem Steady.step
    (hSteady : r.Steady)
    {event : WorkerEvent W}
    (hContinues : r.Continues event) :
    (r.step event).Steady := by
  cases event with
  | post workload => exact hSteady.post workload
  | run => exact ⟨hSteady.lined, hSteady.waitables_eq⟩
  | turn result =>
      cases hRunning : r.running with
      | false =>
          simp only [WorkerRun.step, hRunning,
            Bool.false_eq_true, if_false]
          exact hSteady
      | true =>
          rcases hContinues hRunning with ⟨hBegun, hNull⟩
          cases hHand : r.task.inHand with
          | some entry =>
              rw [step_inHand hRunning hHand]
              exact hSteady.turn_inHand hHand
                (hBegun entry hHand) result
          | none =>
              cases hQueue : r.task.queue with
              | nil =>
                  rw [step_none hRunning hHand hQueue]
                  exact ⟨hSteady.lined, hSteady.waitables_eq⟩
              | cons front queue =>
                  rw [step_front hRunning hHand hQueue]
                  exact hSteady.turn_front hHand hQueue
                    (hNull hHand front queue hQueue)

------------------------------------------------------------
-- Turns That Break the Promise
------------------------------------------------------------

omit [DecidableEq W] in
/- A workload in hand is passed on with RESUME. -/
theorem begun_of_inTurn
    {entry : QueueEntry (Option W)}
    {result : Option WorkloadProcessed}
    (hInTurn : InTurn (r.answered entry .resume result).log) :
    Begun r.log entry := by
  rw [log_answered, inTurn_snoc] at hInTurn
  exact hInTurn.2.mp rfl

omit [DecidableEq W] in
/- A null pointer that is not complete is lost. -/
theorem complete_of_kept
    (hSteady : r.Steady)
    {front : QueueEntry (Option W)}
    {queue : List (QueueEntry (Option W))}
    (hQueue : r.task.queue = front :: queue)
    (hWorkload : front.workload = none)
    {result : Option WorkloadProcessed}
    (hLife :
      ({ r with
          task :=
            { r.task with
              current := some front
              queue := queue } }.answered front .start
                result).LifeCycle) :
    result = some .complete := by
  have hSound := hSteady.lined.sound
  have hNodup := hSound.waitingNodup
  simp only [ledger, hQueue, List.nodup_cons] at hNodup
  have hFront : front ∈ r.ledger.waiting := by
    simp only [ledger, hQueue]
    exact List.mem_cons_self
  have hPosted := hSound.waitingPosted front hFront
  by_contra hResult
  rcases hLife.kept front (by
      rw [posted_answered]
      exact hPosted) with hWaiting | hWorking | hDone
  · rw [queue_answered] at hWaiting
    exact hNodup.1 hWaiting
  · rw [inHand_answered _ _ _ hResult] at hWorking
    simp [TWorkerTask.inHand, Option.filter,
      hWorkload] at hWorking
  · rw [log_answered, completed_snoc] at hDone
    rcases hDone with ⟨call, hCall, hSame, _⟩ | hCall
    · exact hSound.waitingUncalled front hFront call hCall
        hSame
    · exact hResult hCall.2

omit [DecidableEq W] in
theorem continues_of_lifeCycle
    (hSteady : r.Steady)
    {event : WorkerEvent W}
    (hLife : (r.step event).LifeCycle) :
    r.Continues event := by
  cases event with
  | post workload => exact trivial
  | run => exact trivial
  | turn result =>
      intro hRunning
      constructor
      · intro entry hHand
        rw [step_inHand hRunning hHand] at hLife
        exact begun_of_inTurn hLife.inTurn
      · intro hHand front queue hQueue hWorkload
        rw [step_front hRunning hHand hQueue] at hLife
        exact complete_of_kept hSteady hQueue hWorkload hLife

/-
  The workloads live as promised all along a run exactly if no
  workload is in hand for another call before a call for it
  returned something other than NOT_STARTED, and null pointers
  are answered by COMPLETE.
-/
theorem lifeCycle_iff (events : List (WorkerEvent W)) :
    (∀ front, front <+: events →
        (start.run front : WorkerRun W).LifeCycle) ↔
      ∀ front event back,
        events = front ++ event :: back →
          (start.run front : WorkerRun W).Continues event := by
  apply Runs.forall_prefix_iff
    (fun front => (start.run front : WorkerRun W).Steady)
  · exact steady_start
  · intro front hSteady
    exact hSteady.promised
  · intro front event back _ hSteady hContinues
    rw [run_snoc]
    exact hSteady.step hContinues
  · intro front event back _ hSteady hLife
    rw [run_snoc] at hLife
    exact continues_of_lifeCycle hSteady hLife

/- A workload that was not started is resumed. -/
theorem not_lifeCycle_notStarted :
    ¬ ∀ events : List (WorkerEvent Nat),
      (start.run events : WorkerRun Nat).LifeCycle := by
  intro hAll
  have hLife :=
    hAll
      [.post (some 7), .run, .turn (some .notStarted), .run,
        .turn (some .complete)]
  have hSecond :=
    hLife.inTurn
      [{ entry := { workload := some 7, waitable := 0 }
         state := .start
         result := some .notStarted }]
      { entry := { workload := some 7, waitable := 0 }
        state := .resume
        result := some .complete }
      [] rfl
  rcases hSecond.mp rfl with ⟨call, hCall, _, result, hSome, hNot⟩
  rw [List.mem_singleton.mp hCall] at hSome
  exact hNot (Option.some.inj hSome).symm

end WorkerRun

end OefCore
