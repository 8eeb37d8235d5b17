import OefCore.Tasks.WorkLedger

/-
  The life cycle of the workloads of a
  `TNonBlockingWorkerTask`: calls of `post` and of `run`, one
  at a time, with any behaviour of `process`.

  Main declarations:
    * `WorkPlace`, `NonBlockingRun`, `NonBlockingEvent`
    * `ProcessBehaviour`, `NonBlockingRun.advance`
    * `NonBlockingRun.LifeCycle`, `Ended`
    * `NonBlockingRun.lifeCycle`
-/

namespace OefCore

variable {W : Type}

------------------------------------------------------------
-- Runs
------------------------------------------------------------

/- Where `run` is: not called; at the top of its loop; among
   the current workloads, with those left to be visited; at an
   end, by DEFER or by what `process` threw. -/
inductive WorkPlace (W : Type) where
  | outside
  | top
  | visiting (left : List (QueueEntry W))
  | deferred
  | thrown
  deriving DecidableEq, Repr

def WorkPlace.isInside : WorkPlace W → Bool
  | top => true
  | visiting _ => true
  | _ => false

/- `posted` are the workloads that were posted, `log` the calls
   of `process` and `wakes` the waitables that were woken. -/
structure NonBlockingRun (W : Type) where
  task : TNonBlockingWorkerTask W
  place : WorkPlace W
  posted : List (QueueEntry W)
  log : List (WorkloadCall W)
  wakes : List Nat

/- The current workloads are visited in the order of a hash set,
   which is any order. -/
inductive NonBlockingEvent (W : Type) where
  | post (workload : W)
  | run
  | fill
  | process
      (entry : QueueEntry W)
      (result : Option WorkloadProcessed)
  | test

namespace NonBlockingRun

def start (n : Nat) : NonBlockingRun W where
  task := .construct n
  place := .outside
  posted := []
  log := []
  wakes := []

section Steps

variable [DecidableEq W]

/- `process` returns, or it throws and the loop is left. -/
def visit
    (r : NonBlockingRun W)
    (left : List (QueueEntry W))
    (entry : QueueEntry W)
    (result : Option WorkloadProcessed) : NonBlockingRun W :=
  let called : NonBlockingRun W :=
    { r with
      log :=
        r.log ++
          [{ entry := entry
             state := r.task.workloadState entry
             result := result }] }
  match result with
  | none => { called with place := .thrown }
  | some processed =>
      { called with
        task := r.task.process entry processed
        place := .visiting (left.erase entry)
        wakes :=
          if processed = .complete then
            r.wakes ++ [entry.waitable]
          else
            r.wakes }

/- Calls do not overlap: what comes at another time does not
   happen. -/
def step
    (r : NonBlockingRun W) :
    NonBlockingEvent W → NonBlockingRun W
  | .post workload =>
      if r.place.isInside then
        r
      else
        { r with
          task := r.task.post workload
          place := .outside
          posted :=
            r.posted ++
              [{ workload := workload
                 waitable := r.task.waitables }] }
  | .run =>
      if r.place.isInside then
        r
      else
        { r with place := .top }
  | .fill =>
      match r.place with
      | .top =>
          { r with
            task := r.task.fill
            place := .visiting r.task.fill.current }
      | _ => r
  | .process entry result =>
      match r.place with
      | .visiting left =>
          if entry ∈ left then
            r.visit left entry result
          else
            r
      | _ => r
  | .test =>
      match r.place with
      | .visiting [] =>
          { r with
            place :=
              if r.task.rests then
                .deferred
              else
                .top }
      | _ => r

def run
    (r : NonBlockingRun W)
    (events : List (NonBlockingEvent W)) : NonBlockingRun W :=
  events.foldl step r

theorem run_snoc
    (r : NonBlockingRun W)
    (events : List (NonBlockingEvent W))
    (event : NonBlockingEvent W) :
    r.run (events ++ [event]) = (r.run events).step event := by
  simp [run]

end Steps

end NonBlockingRun

/- What `process` does, and the order of the hash set, may
   depend on all the calls so far. -/
structure ProcessBehaviour (W : Type) where
  next : List (WorkloadCall W) → Nat
  result :
    List (WorkloadCall W) → QueueEntry W →
      Option WorkloadProcessed

namespace NonBlockingRun

variable [DecidableEq W]

/- One step on in the call of `run`. -/
def advance
    (behaviour : ProcessBehaviour W)
    (r : NonBlockingRun W) : NonBlockingRun W :=
  match r.place with
  | .top => r.step .fill
  | .visiting [] => r.step .test
  | .visiting (first :: left) =>
      let entry :=
        (first :: left).getD (behaviour.next r.log) first
      r.step (.process entry (behaviour.result r.log entry))
  | _ => r

------------------------------------------------------------
-- What Is Promised
------------------------------------------------------------

omit [DecidableEq W] in
/- The life cycle of the workloads.  Waitables tell the posted
   workloads apart. -/
structure LifeCycle
    (r : NonBlockingRun W)
    (n : Nat) : Prop where
  numbered :
    r.posted.map QueueEntry.waitable =
      List.range r.posted.length
  inTurn : InTurn r.log
  apart : Apart r.log
  woken :
    ∀ entry ∈ r.posted, Completed r.log entry →
      r.wakes.count entry.waitable = 1
  notWoken :
    ∀ entry ∈ r.posted, ¬Completed r.log entry →
      r.wakes.count entry.waitable = 0
  bounded : r.task.current.length ≤ n
  kept :
    ∀ entry ∈ r.posted,
      entry ∈ r.task.queue ∨ entry ∈ r.task.current ∨
        Completed r.log entry
  deferred :
    r.place = .deferred →
      r.task.queue = [] ∨ n ≤ r.task.current.length

/- A call of `run` came to its end: by DEFER, with an empty
   queue or all places taken, or by what `process` threw. -/
def Ended (r : NonBlockingRun W) : Prop :=
  (r.place = .deferred ∧
      (r.task.queue = [] ∨
        r.task.n ≤ r.task.current.length)) ∨
    (r.place = .thrown ∧
      ∃ call, r.log.getLast? = some call ∧ call.result = none)

------------------------------------------------------------
-- The Containers
------------------------------------------------------------

omit [DecidableEq W] in
def ledger (r : NonBlockingRun W) : WorkLedger W where
  posted := r.posted
  waiting := r.task.queue
  working := r.task.current
  log := r.log
  wakes := r.wakes

end NonBlockingRun

/- A sound ledger with at most `n` workloads worked on, those
   of them that have not begun in `notStarted`. -/
structure Stocked
    (n : Nat)
    (l : WorkLedger W)
    (notStarted : List (QueueEntry W)) : Prop where
  sound : l.Sound
  inTurn : InTurn l.log
  bounded : l.working.length ≤ n
  nodup : notStarted.Nodup
  starts :
    ∀ entry ∈ l.working,
      (entry ∈ notStarted ↔ ¬Begun l.log entry)

namespace Stocked

variable {n : Nat}
variable {l : WorkLedger W}
variable {notStarted : List (QueueEntry W)}

theorem empty (n : Nat) :
    Stocked n (WorkLedger.empty : WorkLedger W) [] where
  sound := WorkLedger.sound_empty
  inTurn := inTurn_nil
  bounded := Nat.zero_le n
  nodup := List.nodup_nil
  starts := by simp [WorkLedger.empty]

theorem post
    (hStocked : Stocked n l notStarted)
    (workload : W) :
    Stocked n (l.post workload) notStarted where
  sound := hStocked.sound.post workload
  inTurn := hStocked.inTurn
  bounded := hStocked.bounded
  nodup := hStocked.nodup
  starts := hStocked.starts

variable [DecidableEq W]

theorem take
    (hStocked : Stocked n l notStarted)
    {front : QueueEntry W}
    {waiting : List (QueueEntry W)}
    (hWaiting : l.waiting = front :: waiting)
    (hRoom : l.working.length < n) :
    Stocked n (l.take front waiting)
      (notStarted.insert front) := by
  have hFront : front ∈ l.waiting := by
    rw [hWaiting]
    exact List.mem_cons_self
  have hUncalled : ¬Begun l.log front := by
    rintro ⟨call, hCall, hSame, _⟩
    exact hStocked.sound.waitingUncalled front hFront call
      hCall hSame
  have hApart : front ∉ l.working :=
    hStocked.sound.apartFromWorking front hFront
  constructor
  · exact hStocked.sound.take hWaiting
  · exact hStocked.inTurn
  · simp only [WorkLedger.take]
    rw [List.length_insert_of_not_mem hApart]
    exact hRoom
  · exact hStocked.nodup.insert
  · intro entry hEntry
    simp only [WorkLedger.take] at hEntry ⊢
    rw [List.mem_insert_iff]
    rcases List.mem_insert_iff.mp hEntry with hSame | hOld
    · rw [hSame]
      exact iff_of_true (Or.inl rfl) hUncalled
    · have hOther : entry ≠ front := by
        intro hSame
        rw [hSame] at hOld
        exact hApart hOld
      rw [or_iff_right hOther]
      exact hStocked.starts entry hOld

/- The call is made in the state that the workload is in. -/
theorem inTurn_answer
    (hStocked : Stocked n l notStarted)
    {call : WorkloadCall W}
    (hWorking : call.entry ∈ l.working)
    (hState :
      call.state =
        if call.entry ∈ notStarted then .start else .resume) :
    InTurn (l.log ++ [call]) := by
  apply (inTurn_snoc _ _).mpr
  refine ⟨hStocked.inTurn, ?_⟩
  rw [hState]
  have hStarts := hStocked.starts _ hWorking
  by_cases hNot : call.entry ∈ notStarted
  · rw [if_pos hNot]
    exact iff_of_false WorkloadState.noConfusion
      (hStarts.mp hNot)
  · rw [if_neg hNot]
    exact iff_of_true rfl
      (not_not.mp (fun hBegun => hNot (hStarts.mpr hBegun)))

/- NOT_STARTED and an exception leave the workload in the
   state that it is in. -/
theorem answer_notBegun
    (hStocked : Stocked n l notStarted)
    {call : WorkloadCall W}
    (hWorking : call.entry ∈ l.working)
    (hState :
      call.state =
        if call.entry ∈ notStarted then .start else .resume)
    (hResult :
      call.result = none ∨ call.result = some .notStarted) :
    Stocked n (l.answer call) notStarted := by
  have hNotComplete : call.result ≠ some .complete := by
    rcases hResult with hNone | hNot
    · rw [hNone]
      decide
    · rw [hNot]
      decide
  have hBegun :
      ∀ entry, Begun (l.log ++ [call]) entry ↔
        Begun l.log entry := by
    intro entry
    rw [begun_snoc]
    apply or_iff_left
    rintro ⟨_, result, hSome, hOther⟩
    rcases hResult with hNone | hNot
    · rw [hNone] at hSome
      cases hSome
    · rw [hNot] at hSome
      exact hOther (Option.some.inj hSome).symm
  have hSound := hStocked.sound.answer hWorking
  have hInTurn := hStocked.inTurn_answer hWorking hState
  unfold WorkLedger.answer at hSound ⊢
  rw [if_neg hNotComplete] at hSound ⊢
  constructor
  · exact hSound
  · exact hInTurn
  · exact hStocked.bounded
  · exact hStocked.nodup
  · intro entry hEntry
    rw [hBegun]
    exact hStocked.starts entry hEntry

/- Any other result takes it out of `notStarted`. -/
theorem answer_begun
    (hStocked : Stocked n l notStarted)
    {call : WorkloadCall W}
    (hWorking : call.entry ∈ l.working)
    (hState :
      call.state =
        if call.entry ∈ notStarted then .start else .resume)
    {result : WorkloadProcessed}
    (hResult : call.result = some result)
    (hBegins : result ≠ .notStarted) :
    Stocked n (l.answer call)
      (notStarted.erase call.entry) := by
  have hBegun :
      ∀ entry, Begun (l.log ++ [call]) entry ↔
        Begun l.log entry ∨ call.entry = entry := by
    intro entry
    rw [begun_snoc, and_iff_left ⟨result, hResult, hBegins⟩]
  have hSub :
      ∀ entry ∈ (l.answer call).working, entry ∈ l.working := by
    intro entry hEntry
    unfold WorkLedger.answer at hEntry
    split at hEntry
    · exact List.mem_of_mem_erase hEntry
    · exact hEntry
  have hLength :
      (l.answer call).working.length ≤ l.working.length := by
    unfold WorkLedger.answer
    split
    · exact List.length_erase_le
    · exact Nat.le_refl _
  constructor
  · exact hStocked.sound.answer hWorking
  · rw [WorkLedger.log_answer]
    exact hStocked.inTurn_answer hWorking hState
  · exact Nat.le_trans hLength hStocked.bounded
  · exact hStocked.nodup.erase _
  · intro entry hEntry
    have hStarts := hStocked.starts entry (hSub entry hEntry)
    rw [WorkLedger.log_answer, hBegun, not_or,
      hStocked.nodup.mem_erase_iff, hStarts, and_comm]
    exact and_congr_right
      (fun _ => ⟨fun h hSame => h hSame.symm,
        fun h hSame => h hSame.symm⟩)

end Stocked

namespace NonBlockingRun

------------------------------------------------------------
-- Steps
------------------------------------------------------------

/- The containers of the task are stocked, and the workloads
   left to be visited are current. -/
structure Steady (r : NonBlockingRun W) : Prop where
  stocked :
    Stocked r.task.n r.ledger r.task.notStarted
  waitables_eq : r.task.waitables = r.posted.length
  visiting :
    ∀ left, r.place = .visiting left →
      left.Nodup ∧ ∀ entry ∈ left, entry ∈ r.task.current
  deferred : r.place = .deferred → r.task.rests = true
  thrown :
    r.place = .thrown →
      ∃ call, r.log.getLast? = some call ∧ call.result = none

theorem steady_start (n : Nat) :
    (start n : NonBlockingRun W).Steady where
  stocked := Stocked.empty n
  waitables_eq := rfl
  visiting _ hVisiting := by cases hVisiting
  deferred hDeferred := by cases hDeferred
  thrown hThrown := by cases hThrown

variable [DecidableEq W]
variable {r : NonBlockingRun W}

theorem Steady.post
    (hSteady : r.Steady)
    (workload : W) :
    (r.step (.post workload)).Steady := by
  simp only [step]
  cases hPlace : r.place.isInside with
  | true => exact hSteady
  | false =>
      have hStocked := hSteady.stocked.post workload
      unfold WorkLedger.post WorkLedger.newEntry at hStocked
      constructor
      · simp only [ledger, TNonBlockingWorkerTask.post,
          hSteady.waitables_eq]
        exact hStocked
      · simp [TNonBlockingWorkerTask.post,
          hSteady.waitables_eq]
      · intro left hVisiting
        cases hVisiting
      · intro hDeferred
        cases hDeferred
      · intro hThrown
        cases hThrown

theorem Steady.call
    (hSteady : r.Steady) :
    (r.step .run).Steady := by
  simp only [step]
  cases hPlace : r.place.isInside with
  | true => exact hSteady
  | false =>
      constructor
      · exact hSteady.stocked
      · exact hSteady.waitables_eq
      · intro left hVisiting
        cases hVisiting
      · intro hDeferred
        cases hDeferred
      · intro hThrown
        cases hThrown

/- Every workload that moves from the queue is taken up. -/
theorem Steady.stocked_fill
    (hSteady : r.Steady) :
    Stocked r.task.n { r with task := r.task.fill }.ledger
      r.task.fill.notStarted := by
  apply TNonBlockingWorkerTask.fillFrom_keeps
    (fun queue current notStarted =>
      Stocked r.task.n
        { posted := r.posted
          waiting := queue
          working := current
          log := r.log
          wakes := r.wakes }
        notStarted)
  · intro front queue current notStarted hRoom hKeeps
    exact hKeeps.take rfl hRoom
  · exact hSteady.stocked

theorem Steady.fill
    (hSteady : r.Steady) :
    (r.step .fill).Steady := by
  simp only [step]
  cases hPlace : r.place with
  | top =>
      have hStocked := hSteady.stocked_fill
      constructor
      · exact hStocked
      · exact hSteady.waitables_eq
      · intro left hVisiting
        cases hVisiting
        exact ⟨hStocked.sound.workingNodup, fun _ hMem => hMem⟩
      · intro hDeferred
        cases hDeferred
      · intro hThrown
        cases hThrown
  | _ => exact hSteady

/- What is visited becomes an answer in the ledger. -/
theorem ledger_visit
    (r : NonBlockingRun W)
    (left : List (QueueEntry W))
    (entry : QueueEntry W)
    (result : Option WorkloadProcessed) :
    (r.visit left entry result).ledger =
      r.ledger.answer
        { entry := entry
          state := r.task.workloadState entry
          result := result } := by
  rcases result with _ | processed
  · rfl
  · cases processed <;> rfl

theorem Steady.stocked_visit
    (hSteady : r.Steady)
    (left : List (QueueEntry W))
    {entry : QueueEntry W}
    (hWorking : entry ∈ r.task.current)
    (result : Option WorkloadProcessed) :
    Stocked r.task.n (r.visit left entry result).ledger
      (r.visit left entry result).task.notStarted := by
  have hStocked := hSteady.stocked
  rw [ledger_visit]
  rcases result with _ | processed
  · exact hStocked.answer_notBegun hWorking rfl (Or.inl rfl)
  · cases processed with
    | complete =>
        exact hStocked.answer_begun hWorking rfl rfl
          WorkloadProcessed.noConfusion
    | notComplete =>
        exact hStocked.answer_begun hWorking rfl rfl
          WorkloadProcessed.noConfusion
    | notStarted =>
        exact hStocked.answer_notBegun hWorking rfl
          (Or.inr rfl)

theorem n_visit
    (r : NonBlockingRun W)
    (left : List (QueueEntry W))
    (entry : QueueEntry W)
    (result : Option WorkloadProcessed) :
    (r.visit left entry result).task.n = r.task.n := by
  rcases result with _ | processed
  · rfl
  · cases processed <;> rfl

theorem waitables_visit
    (r : NonBlockingRun W)
    (left : List (QueueEntry W))
    (entry : QueueEntry W)
    (result : Option WorkloadProcessed) :
    (r.visit left entry result).task.waitables =
      r.task.waitables := by
  rcases result with _ | processed
  · rfl
  · cases processed <;> rfl

theorem posted_visit
    (r : NonBlockingRun W)
    (left : List (QueueEntry W))
    (entry : QueueEntry W)
    (result : Option WorkloadProcessed) :
    (r.visit left entry result).posted = r.posted := by
  rcases result with _ | processed <;> rfl

/- The other workloads stay current. -/
theorem current_visit
    {entry other : QueueEntry W}
    (hOther : other ≠ entry)
    (hCurrent : other ∈ r.task.current)
    (left : List (QueueEntry W))
    (result : Option WorkloadProcessed) :
    other ∈ (r.visit left entry result).task.current := by
  rcases result with _ | processed
  · exact hCurrent
  · cases processed with
    | complete => exact (List.mem_erase_of_ne hOther).mpr hCurrent
    | notComplete => exact hCurrent
    | notStarted => exact hCurrent

theorem Steady.visit
    (hSteady : r.Steady)
    {left : List (QueueEntry W)}
    (hPlace : r.place = .visiting left)
    {entry : QueueEntry W}
    (hLeft : entry ∈ left)
    (result : Option WorkloadProcessed) :
    (r.visit left entry result).Steady := by
  rcases hSteady.visiting left hPlace with ⟨hNodup, hSub⟩
  constructor
  · rw [n_visit]
    exact hSteady.stocked_visit left (hSub entry hLeft) result
  · rw [waitables_visit, posted_visit]
    exact hSteady.waitables_eq
  · intro others hVisiting
    have hOthers : others = left.erase entry := by
      rcases result with _ | processed
      · cases hVisiting
      · cases hVisiting
        rfl
    rw [hOthers]
    refine ⟨hNodup.erase entry, ?_⟩
    intro other hOther
    rcases hNodup.mem_erase_iff.mp hOther with ⟨hNe, hMem⟩
    exact current_visit hNe (hSub other hMem) left result
  · intro hDeferred
    rcases result with _ | processed <;> cases hDeferred
  · intro hThrown
    rcases result with _ | processed
    · exact ⟨_, List.getLast?_concat, rfl⟩
    · cases hThrown

theorem Steady.process
    (hSteady : r.Steady)
    (entry : QueueEntry W)
    (result : Option WorkloadProcessed) :
    (r.step (.process entry result)).Steady := by
  simp only [step]
  cases hPlace : r.place with
  | visiting left =>
      by_cases hLeft : entry ∈ left
      · simp only [hLeft, if_true]
        exact hSteady.visit hPlace hLeft result
      · simp only [hLeft, if_false]
        exact hSteady
  | _ => exact hSteady

theorem Steady.test
    (hSteady : r.Steady) :
    (r.step .test).Steady := by
  simp only [step]
  cases hPlace : r.place with
  | visiting left =>
      cases left with
      | nil =>
          constructor
          · exact hSteady.stocked
          · exact hSteady.waitables_eq
          · intro others hVisiting
            dsimp only at hVisiting
            split at hVisiting <;> cases hVisiting
          · intro hDeferred
            dsimp only at hDeferred
            split at hDeferred
            · assumption
            · cases hDeferred
          · intro hThrown
            dsimp only at hThrown
            split at hThrown <;> cases hThrown
      | cons first left => exact hSteady
  | _ => exact hSteady

theorem Steady.step
    (hSteady : r.Steady)
    (event : NonBlockingEvent W) :
    (r.step event).Steady := by
  cases event with
  | post workload => exact hSteady.post workload
  | run => exact hSteady.call
  | fill => exact hSteady.fill
  | process entry result => exact hSteady.process entry result
  | test => exact hSteady.test

theorem Steady.run
    (hSteady : r.Steady)
    (events : List (NonBlockingEvent W)) :
    (r.run events).Steady := by
  induction events using List.reverseRecOn with
  | nil => exact hSteady
  | append_singleton events event ih =>
      rw [run_snoc]
      exact ih.step event

/- The parameter of the template stays what it is. -/
theorem n_step
    (r : NonBlockingRun W)
    (event : NonBlockingEvent W) :
    (r.step event).task.n = r.task.n := by
  cases event with
  | post workload =>
      simp only [NonBlockingRun.step]
      split <;> rfl
  | run =>
      simp only [NonBlockingRun.step]
      split <;> rfl
  | fill =>
      simp only [NonBlockingRun.step]
      split <;> rfl
  | process entry result =>
      simp only [NonBlockingRun.step]
      split
      · split
        · exact n_visit _ _ _ _
        · rfl
      · rfl
  | test =>
      simp only [NonBlockingRun.step]
      split <;> rfl

theorem n_run
    (r : NonBlockingRun W)
    (events : List (NonBlockingEvent W)) :
    (r.run events).task.n = r.task.n := by
  induction events using List.reverseRecOn with
  | nil => rfl
  | append_singleton events event ih =>
      rw [run_snoc, n_step, ih]

omit [DecidableEq W] in
theorem Steady.promised
    (hSteady : r.Steady) :
    r.LifeCycle r.task.n where
  numbered := hSteady.stocked.sound.numbered
  inTurn := hSteady.stocked.inTurn
  apart := hSteady.stocked.sound.apart
  woken := hSteady.stocked.sound.woken
  notWoken := hSteady.stocked.sound.notWoken
  bounded := hSteady.stocked.bounded
  kept := hSteady.stocked.sound.kept
  deferred hDeferred :=
    (TNonBlockingWorkerTask.rests_iff r.task).mp
      (hSteady.deferred hDeferred)

------------------------------------------------------------
-- The End of a Call
------------------------------------------------------------

/-
  How far a call of `run` is from its end: each round of the
  loop but the first takes a workload from the queue, and each
  visit is of one workload less.
-/
def distance (r : NonBlockingRun W) : Nat :=
  match r.place with
  | .top =>
      (r.task.queue.length + r.task.rests.toNat) *
        (r.task.n + 2) + r.task.n + 2
  | .visiting left =>
      (r.task.queue.length + 1) * (r.task.n + 2) +
        left.length + 1
  | _ => 0

omit [DecidableEq W] in
theorem rests_toNat_pos
    (task : TNonBlockingWorkerTask W)
    (hRests : task.rests = false) :
    0 < task.queue.length ∧ task.current.length < task.n := by
  have hNot : ¬(task.queue = [] ∨
      task.n ≤ task.current.length) := by
    rw [← TNonBlockingWorkerTask.rests_iff, hRests]
    exact Bool.false_ne_true
  rw [not_or] at hNot
  exact ⟨List.length_pos_iff.mpr hNot.1,
    Nat.lt_of_not_le hNot.2⟩

/- The queue gets no longer. -/
theorem queue_fillFrom_le
    (n : Nat)
    (current notStarted queue : List (QueueEntry W)) :
    (TNonBlockingWorkerTask.fillFrom n current notStarted
      queue).1.length ≤ queue.length := by
  induction queue generalizing current notStarted with
  | nil => exact Nat.le_refl _
  | cons front queue ih =>
      unfold TNonBlockingWorkerTask.fillFrom
      split
      · exact Nat.le_succ_of_le (ih _ _)
      · exact Nat.le_refl _

/- With a workload in the queue and room, it gets shorter. -/
theorem queue_fill_le (task : TNonBlockingWorkerTask W) :
    task.fill.queue.length + 1 ≤
      task.queue.length + task.rests.toNat := by
  have hLe :
      task.fill.queue.length ≤ task.queue.length :=
    queue_fillFrom_le _ _ _ _
  cases hRests : task.rests with
  | true => exact Nat.succ_le_succ hLe
  | false =>
      rcases rests_toNat_pos task hRests with
        ⟨hQueue, hRoom⟩
      have hFill :
          task.fill.queue =
            (TNonBlockingWorkerTask.fillFrom task.n
              task.current task.notStarted task.queue).1 :=
        rfl
      rw [hFill]
      cases hFront : task.queue with
      | nil => simp [hFront] at hQueue
      | cons front queue =>
          unfold TNonBlockingWorkerTask.fillFrom
          rw [if_pos hRoom]
          exact Nat.succ_le_succ (queue_fillFrom_le _ _ _ _)

theorem distance_fill
    (hSteady : r.Steady)
    (hPlace : r.place = .top) :
    (r.step .fill).distance < r.distance := by
  have hQueue := queue_fill_le r.task
  have hCurrent : r.task.fill.current.length ≤ r.task.n :=
    hSteady.stocked_fill.bounded
  have hProduct :=
    Nat.mul_le_mul_right (r.task.n + 2) hQueue
  simp only [step, distance, hPlace]
  have hn : r.task.fill.n = r.task.n := rfl
  rw [hn]
  omega

theorem distance_test
    (hPlace : r.place = .visiting []) :
    (r.step .test).distance < r.distance := by
  simp only [step, distance, hPlace]
  cases hRests : r.task.rests with
  | true => simp
  | false =>
      simp only [Bool.false_eq_true, if_false,
        Bool.toNat_false, Nat.add_zero, List.length_nil,
        Nat.add_mul]
      omega

theorem distance_visit
    {left : List (QueueEntry W)}
    (hPlace : r.place = .visiting left)
    {entry : QueueEntry W}
    (hLeft : entry ∈ left)
    (result : Option WorkloadProcessed) :
    (r.visit left entry result).distance < r.distance := by
  have hLength := List.length_erase_of_mem hLeft
  have hPos := List.length_pos_of_mem hLeft
  rcases result with _ | processed
  · simp only [visit, distance, hPlace]
    omega
  · have hQueue :
        (r.task.process entry processed).queue =
          r.task.queue := by
      cases processed <;> rfl
    have hn :
        (r.task.process entry processed).n = r.task.n := by
      cases processed <;> rfl
    simp only [visit, distance, hPlace, hQueue, hn]
    omega

/- Some event of the run comes next, and brings it nearer to
   its end. -/
theorem advance_nearer
    (behaviour : ProcessBehaviour W)
    (hSteady : r.Steady)
    (hInside : r.place.isInside = true) :
    ∃ event : NonBlockingEvent W,
      r.advance behaviour = r.step event ∧
        (r.step event).place ≠ .outside ∧
          (r.step event).distance < r.distance := by
  unfold advance
  cases hPlace : r.place with
  | top =>
      refine ⟨.fill, rfl, ?_, distance_fill hSteady hPlace⟩
      simp [NonBlockingRun.step, hPlace]
  | visiting left =>
      cases left with
      | nil =>
          refine ⟨.test, rfl, ?_, distance_test hPlace⟩
          simp only [NonBlockingRun.step, hPlace]
          split <;> simp
      | cons first left =>
          have hMem :
              (first :: left).getD (behaviour.next r.log)
                first ∈ first :: left := by
            rw [List.getD_eq_getElem?_getD]
            cases hGet :
                (first :: left)[behaviour.next r.log]? with
            | none => exact List.mem_cons_self
            | some entry => exact List.mem_of_getElem? hGet
          refine ⟨.process _ _, rfl, ?_⟩
          simp only [NonBlockingRun.step, hPlace, hMem,
            if_true]
          refine ⟨?_, distance_visit hPlace hMem _⟩
          unfold visit
          split <;> simp
  | outside =>
      rw [hPlace] at hInside
      cases hInside
  | deferred =>
      rw [hPlace] at hInside
      cases hInside
  | thrown =>
      rw [hPlace] at hInside
      cases hInside

/- A call of `run` that is under way, or is over, comes to an
   end. -/
theorem Steady.ended
    (hSteady : r.Steady)
    (behaviour : ProcessBehaviour W)
    (hOutside : r.place ≠ .outside) :
    ∃ count, ((advance behaviour)^[count] r).Ended := by
  induction hDistance : r.distance using Nat.strongRecOn
    generalizing r with
  | ind distance ih =>
      cases hInside : r.place.isInside with
      | true =>
          rcases advance_nearer behaviour hSteady hInside with
            ⟨event, hAdvance, hNext, hNearer⟩
          rw [hDistance] at hNearer
          rcases ih _ hNearer (hSteady.step event) hNext rfl
            with ⟨count, hEnded⟩
          refine ⟨count + 1, ?_⟩
          rw [Function.iterate_succ_apply, hAdvance]
          exact hEnded
      | false =>
          refine ⟨0, ?_⟩
          unfold Ended
          cases hPlace : r.place with
          | outside => exact absurd hPlace hOutside
          | deferred =>
              exact Or.inl ⟨hPlace,
                (TNonBlockingWorkerTask.rests_iff r.task).mp
                  (hSteady.deferred hPlace)⟩
          | thrown =>
              exact Or.inr ⟨hPlace, hSteady.thrown hPlace⟩
          | top =>
              rw [hPlace] at hInside
              cases hInside
          | visiting left =>
              rw [hPlace] at hInside
              cases hInside

end NonBlockingRun

end OefCore
