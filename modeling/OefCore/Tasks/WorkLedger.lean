import OefCore.Library.Runs
import OefCore.Tasks.TNonBlockingWorkerTask

/-
  What the tasks that work on posted workloads are for: every
  workload is waiting, is worked on, or is complete, and its
  waitable is woken when it completes.

  Main declarations:
    * `WorkloadCall`, `Completed`, `Begun`
    * `Apart`, `InTurn`
    * `WorkLedger`, `WorkLedger.Sound`
    * `WorkLedger.Sound.post`, `take`, `answer`
-/

namespace OefCore

variable {W : Type}

------------------------------------------------------------
-- Calls
------------------------------------------------------------

/- A call of `process`, with what it returned; it may have
   thrown. -/
structure WorkloadCall (W : Type) where
  entry : QueueEntry W
  state : WorkloadState
  result : Option WorkloadProcessed
  deriving DecidableEq, Repr

/- A call for the workload returned COMPLETE. -/
def Completed
    (log : List (WorkloadCall W))
    (entry : QueueEntry W) : Prop :=
  ∃ call ∈ log,
    call.entry = entry ∧ call.result = some .complete

/- A call for the workload returned something other than
   NOT_STARTED. -/
def Begun
    (log : List (WorkloadCall W))
    (entry : QueueEntry W) : Prop :=
  ∃ call ∈ log,
    call.entry = entry ∧
      ∃ result, call.result = some result ∧
        result ≠ .notStarted

theorem exists_mem_snoc
    {A : Type}
    (Holds : A → Prop)
    (front : List A)
    (last : A) :
    (∃ a ∈ front ++ [last], Holds a) ↔
      (∃ a ∈ front, Holds a) ∨ Holds last := by
  constructor
  · rintro ⟨a, hMem, hHolds⟩
    rcases List.mem_append.mp hMem with hFront | hLast
    · exact Or.inl ⟨a, hFront, hHolds⟩
    · rw [List.mem_singleton.mp hLast] at hHolds
      exact Or.inr hHolds
  · rintro (⟨a, hFront, hHolds⟩ | hHolds)
    · exact ⟨a, List.mem_append_left _ hFront, hHolds⟩
    · exact ⟨last, List.mem_append_right _
        List.mem_cons_self, hHolds⟩

theorem completed_snoc
    (log : List (WorkloadCall W))
    (call : WorkloadCall W)
    (entry : QueueEntry W) :
    Completed (log ++ [call]) entry ↔
      Completed log entry ∨
        (call.entry = entry ∧ call.result = some .complete) :=
  exists_mem_snoc _ log call

theorem begun_snoc
    (log : List (WorkloadCall W))
    (call : WorkloadCall W)
    (entry : QueueEntry W) :
    Begun (log ++ [call]) entry ↔
      Begun log entry ∨
        (call.entry = entry ∧
          ∃ result, call.result = some result ∧
            result ≠ .notStarted) :=
  exists_mem_snoc _ log call

/- No workload is passed to `process` after COMPLETE. -/
def Apart (log : List (WorkloadCall W)) : Prop :=
  ∀ front call back,
    log = front ++ call :: back → ¬Completed front call.entry

/- START until a call returned something other than NOT_STARTED,
   RESUME from then on. -/
def InTurn (log : List (WorkloadCall W)) : Prop :=
  ∀ front call back,
    log = front ++ call :: back →
      (call.state = .resume ↔ Begun front call.entry)

theorem apart_nil : Apart ([] : List (WorkloadCall W)) := by
  intro front call back hSplit
  simp at hSplit

theorem apart_snoc
    (log : List (WorkloadCall W))
    (call : WorkloadCall W) :
    Apart (log ++ [call]) ↔
      Apart log ∧ ¬Completed log call.entry :=
  Runs.forall_split_snoc
    (fun front (call : WorkloadCall W) =>
      ¬Completed front call.entry) log call

theorem inTurn_nil : InTurn ([] : List (WorkloadCall W)) := by
  intro front call back hSplit
  simp at hSplit

theorem inTurn_snoc
    (log : List (WorkloadCall W))
    (call : WorkloadCall W) :
    InTurn (log ++ [call]) ↔
      InTurn log ∧
        (call.state = .resume ↔ Begun log call.entry) :=
  Runs.forall_split_snoc
    (fun front (call : WorkloadCall W) =>
      call.state = .resume ↔ Begun front call.entry) log call

------------------------------------------------------------
-- The Ledger
------------------------------------------------------------

/- `wakes` are the waitables that were woken, in order. -/
structure WorkLedger (W : Type) where
  posted : List (QueueEntry W)
  waiting : List (QueueEntry W)
  working : List (QueueEntry W)
  log : List (WorkloadCall W)
  wakes : List Nat

namespace WorkLedger

def empty : WorkLedger W where
  posted := []
  waiting := []
  working := []
  log := []
  wakes := []

def newEntry
    (l : WorkLedger W)
    (workload : W) : QueueEntry W where
  workload := workload
  waitable := l.posted.length

def post (l : WorkLedger W) (workload : W) : WorkLedger W :=
  { l with
    posted := l.posted ++ [l.newEntry workload]
    waiting := l.waiting ++ [l.newEntry workload] }

section Operations

variable [DecidableEq W]

/- The first of the waiting workloads is taken up. -/
def take
    (l : WorkLedger W)
    (front : QueueEntry W)
    (waiting : List (QueueEntry W)) : WorkLedger W :=
  { l with
    waiting := waiting
    working := l.working.insert front }

/- A call of `process` ends. -/
def answer
    (l : WorkLedger W)
    (call : WorkloadCall W) : WorkLedger W :=
  if call.result = some .complete then
    { l with
      working := l.working.erase call.entry
      log := l.log ++ [call]
      wakes := l.wakes ++ [call.entry.waitable] }
  else
    { l with log := l.log ++ [call] }

theorem log_answer
    (l : WorkLedger W)
    (call : WorkloadCall W) :
    (l.answer call).log = l.log ++ [call] := by
  unfold answer
  split <;> rfl

end Operations

/-
  Every workload has a waitable of its own, and is waiting, is
  worked on or is complete; its waitable was woken once if it
  is complete, and otherwise not.
-/
structure Sound (l : WorkLedger W) : Prop where
  numbered :
    l.posted.map QueueEntry.waitable =
      List.range l.posted.length
  waitingNodup : l.waiting.Nodup
  waitingPosted : ∀ entry ∈ l.waiting, entry ∈ l.posted
  waitingUncalled :
    ∀ entry ∈ l.waiting, ∀ call ∈ l.log, call.entry ≠ entry
  apartFromWorking : ∀ entry ∈ l.waiting, entry ∉ l.working
  workingNodup : l.working.Nodup
  workingPosted : ∀ entry ∈ l.working, entry ∈ l.posted
  workingOpen :
    ∀ entry ∈ l.working, ¬Completed l.log entry
  kept :
    ∀ entry ∈ l.posted,
      entry ∈ l.waiting ∨ entry ∈ l.working ∨
        Completed l.log entry
  called : ∀ call ∈ l.log, call.entry ∈ l.posted
  apart : Apart l.log
  woken :
    ∀ entry ∈ l.posted, Completed l.log entry →
      l.wakes.count entry.waitable = 1
  notWoken :
    ∀ entry ∈ l.posted, ¬Completed l.log entry →
      l.wakes.count entry.waitable = 0
  wakesMade :
    ∀ waitable ∈ l.wakes, waitable < l.posted.length

theorem sound_empty : (empty : WorkLedger W).Sound where
  numbered := rfl
  waitingNodup := List.nodup_nil
  waitingPosted := by simp [empty]
  waitingUncalled := by simp [empty]
  apartFromWorking := by simp [empty]
  workingNodup := List.nodup_nil
  workingPosted := by simp [empty]
  workingOpen := by simp [empty]
  kept := by simp [empty]
  called := by simp [empty]
  apart := apart_nil
  woken := by simp [empty]
  notWoken := by simp [empty]
  wakesMade := by simp [empty]

------------------------------------------------------------
-- Waitables
------------------------------------------------------------

variable {l : WorkLedger W}

theorem Sound.waitable_lt
    (hSound : l.Sound)
    {entry : QueueEntry W}
    (hPosted : entry ∈ l.posted) :
    entry.waitable < l.posted.length := by
  have hMem :
      entry.waitable ∈ l.posted.map QueueEntry.waitable :=
    List.mem_map_of_mem hPosted
  rw [hSound.numbered] at hMem
  exact List.mem_range.mp hMem

theorem Sound.eq_of_waitable_eq
    (hSound : l.Sound)
    {entry other : QueueEntry W}
    (hEntry : entry ∈ l.posted)
    (hOther : other ∈ l.posted)
    (hSame : entry.waitable = other.waitable) :
    entry = other := by
  have hNodup :
      (l.posted.map QueueEntry.waitable).Nodup := by
    rw [hSound.numbered]
    exact List.nodup_range
  exact List.inj_on_of_nodup_map hNodup hEntry hOther hSame

theorem Sound.newEntry_notMem
    (hSound : l.Sound)
    (workload : W) :
    l.newEntry workload ∉ l.posted := by
  intro hMem
  exact Nat.lt_irrefl _ (hSound.waitable_lt hMem)

------------------------------------------------------------
-- Posting
------------------------------------------------------------

theorem Sound.post
    (hSound : l.Sound)
    (workload : W) :
    (l.post workload).Sound := by
  have hNew := hSound.newEntry_notMem workload
  have hUncalled :
      ∀ call ∈ l.log, call.entry ≠ l.newEntry workload := by
    intro call hCall hSame
    rw [← hSame] at hNew
    exact hNew (hSound.called call hCall)
  constructor
  · simp only [WorkLedger.post, List.map_append,
      List.length_append]
    rw [hSound.numbered]
    exact List.range_succ.symm
  · apply List.Nodup.append hSound.waitingNodup
      (List.nodup_singleton _)
    intro entry hEntry hLast
    rw [List.mem_singleton.mp hLast] at hEntry
    exact hNew (hSound.waitingPosted _ hEntry)
  · intro entry hEntry
    rcases List.mem_append.mp hEntry with hOld | hLast
    · exact List.mem_append_left _
        (hSound.waitingPosted entry hOld)
    · exact List.mem_append_right _ hLast
  · intro entry hEntry call hCall
    rcases List.mem_append.mp hEntry with hOld | hLast
    · exact hSound.waitingUncalled entry hOld call hCall
    · rw [List.mem_singleton.mp hLast]
      exact hUncalled call hCall
  · intro entry hEntry hWorking
    rcases List.mem_append.mp hEntry with hOld | hLast
    · exact hSound.apartFromWorking entry hOld hWorking
    · rw [List.mem_singleton.mp hLast] at hWorking
      exact hNew (hSound.workingPosted _ hWorking)
  · exact hSound.workingNodup
  · intro entry hEntry
    exact List.mem_append_left _
      (hSound.workingPosted entry hEntry)
  · exact hSound.workingOpen
  · intro entry hEntry
    rcases List.mem_append.mp hEntry with hOld | hLast
    · rcases hSound.kept entry hOld with hWaiting | hKept
      · exact Or.inl (List.mem_append_left _ hWaiting)
      · exact Or.inr hKept
    · exact Or.inl (List.mem_append_right _ hLast)
  · intro call hCall
    exact List.mem_append_left _ (hSound.called call hCall)
  · exact hSound.apart
  · intro entry hEntry hCompleted
    rcases List.mem_append.mp hEntry with hOld | hLast
    · exact hSound.woken entry hOld hCompleted
    · rcases hCompleted with ⟨call, hCall, hSame, _⟩
      rw [List.mem_singleton.mp hLast] at hSame
      exact absurd hSame (hUncalled call hCall)
  · intro entry hEntry hOpen
    rcases List.mem_append.mp hEntry with hOld | hLast
    · exact hSound.notWoken entry hOld hOpen
    · rw [List.mem_singleton.mp hLast]
      apply List.count_eq_zero_of_not_mem
      intro hWoken
      exact Nat.lt_irrefl _ (hSound.wakesMade _ hWoken)
  · intro waitable hWoken
    simp only [WorkLedger.post, List.length_append]
    exact Nat.lt_add_right _
      (hSound.wakesMade waitable hWoken)

variable [DecidableEq W]

------------------------------------------------------------
-- Taking Up
------------------------------------------------------------

theorem Sound.take
    (hSound : l.Sound)
    {front : QueueEntry W}
    {waiting : List (QueueEntry W)}
    (hWaiting : l.waiting = front :: waiting) :
    (l.take front waiting).Sound := by
  have hNodup := hSound.waitingNodup
  rw [hWaiting, List.nodup_cons] at hNodup
  have hFront : front ∈ l.waiting := by
    rw [hWaiting]
    exact List.mem_cons_self
  have hRest : ∀ entry ∈ waiting, entry ∈ l.waiting := by
    intro entry hEntry
    rw [hWaiting]
    exact List.mem_cons_of_mem _ hEntry
  constructor
  · exact hSound.numbered
  · exact hNodup.2
  · intro entry hEntry
    exact hSound.waitingPosted entry (hRest entry hEntry)
  · intro entry hEntry
    exact hSound.waitingUncalled entry (hRest entry hEntry)
  · intro entry hEntry hWorking
    rcases List.mem_insert_iff.mp hWorking with hSame | hOld
    · rw [hSame] at hEntry
      exact hNodup.1 hEntry
    · exact hSound.apartFromWorking entry
        (hRest entry hEntry) hOld
  · exact hSound.workingNodup.insert
  · intro entry hEntry
    rcases List.mem_insert_iff.mp hEntry with hSame | hOld
    · rw [hSame]
      exact hSound.waitingPosted front hFront
    · exact hSound.workingPosted entry hOld
  · intro entry hEntry hCompleted
    rcases List.mem_insert_iff.mp hEntry with hSame | hOld
    · rcases hCompleted with ⟨call, hCall, hCalled, _⟩
      rw [hSame] at hCalled
      exact hSound.waitingUncalled front hFront call hCall
        hCalled
    · exact hSound.workingOpen entry hOld hCompleted
  · intro entry hEntry
    rcases hSound.kept entry hEntry with hOld | hKept
    · rw [hWaiting] at hOld
      rcases List.mem_cons.mp hOld with hSame | hLeft
      · right
        left
        exact List.mem_insert_iff.mpr (Or.inl hSame)
      · exact Or.inl hLeft
    · right
      exact hKept.imp_left
        (fun hOld => List.mem_insert_iff.mpr (Or.inr hOld))
  · exact hSound.called
  · exact hSound.apart
  · exact hSound.woken
  · exact hSound.notWoken
  · exact hSound.wakesMade

------------------------------------------------------------
-- Answers
------------------------------------------------------------

omit [DecidableEq W] in
/- A call for a workload that is worked on is for none of those
   that wait. -/
theorem Sound.uncalled_snoc
    (hSound : l.Sound)
    {call : WorkloadCall W}
    (hWorking : call.entry ∈ l.working) :
    ∀ entry ∈ l.waiting, ∀ other ∈ l.log ++ [call],
      other.entry ≠ entry := by
  intro entry hEntry other hOther hSame
  rcases List.mem_append.mp hOther with hOld | hNew
  · exact hSound.waitingUncalled entry hEntry other hOld hSame
  · rw [List.mem_singleton.mp hNew] at hSame
    rw [← hSame] at hEntry
    exact hSound.apartFromWorking _ hEntry hWorking

omit [DecidableEq W] in
theorem Sound.called_snoc
    (hSound : l.Sound)
    {call : WorkloadCall W}
    (hWorking : call.entry ∈ l.working) :
    ∀ other ∈ l.log ++ [call], other.entry ∈ l.posted := by
  intro other hOther
  rcases List.mem_append.mp hOther with hOld | hNew
  · exact hSound.called other hOld
  · rw [List.mem_singleton.mp hNew]
    exact hSound.workingPosted _ hWorking

omit [DecidableEq W] in
theorem Sound.apart_call
    (hSound : l.Sound)
    {call : WorkloadCall W}
    (hWorking : call.entry ∈ l.working) :
    Apart (l.log ++ [call]) :=
  (apart_snoc _ _).mpr
    ⟨hSound.apart, hSound.workingOpen _ hWorking⟩

omit [DecidableEq W] in
/- A wake of one waitable is none of another. -/
theorem Sound.count_wake
    (hSound : l.Sound)
    {woken entry : QueueEntry W}
    (hWoken : woken ∈ l.posted)
    (hEntry : entry ∈ l.posted)
    (hOther : woken ≠ entry) :
    (l.wakes ++ [woken.waitable]).count entry.waitable =
      l.wakes.count entry.waitable := by
  have hApart : woken.waitable ≠ entry.waitable :=
    fun hSame => hOther
      (hSound.eq_of_waitable_eq hWoken hEntry hSame)
  rw [List.count_append, List.count_singleton]
  simp [hApart]

/- An answer other than COMPLETE leaves the workload where it
   is. -/
theorem Sound.answer_open
    (hSound : l.Sound)
    {call : WorkloadCall W}
    (hWorking : call.entry ∈ l.working)
    (hResult : call.result ≠ some .complete) :
    (l.answer call).Sound := by
  have hCompleted :
      ∀ entry, Completed (l.log ++ [call]) entry ↔
        Completed l.log entry := by
    intro entry
    rw [completed_snoc]
    exact or_iff_left (fun hCall => hResult hCall.2)
  unfold WorkLedger.answer
  rw [if_neg hResult]
  constructor
  · exact hSound.numbered
  · exact hSound.waitingNodup
  · exact hSound.waitingPosted
  · exact hSound.uncalled_snoc hWorking
  · exact hSound.apartFromWorking
  · exact hSound.workingNodup
  · exact hSound.workingPosted
  · intro entry hEntry
    rw [hCompleted]
    exact hSound.workingOpen entry hEntry
  · intro entry hEntry
    rw [hCompleted]
    exact hSound.kept entry hEntry
  · exact hSound.called_snoc hWorking
  · exact hSound.apart_call hWorking
  · intro entry hEntry
    rw [hCompleted]
    exact hSound.woken entry hEntry
  · intro entry hEntry
    rw [hCompleted]
    exact hSound.notWoken entry hEntry
  · exact hSound.wakesMade

/- COMPLETE takes the workload out and wakes its waitable, which
   was not woken before. -/
theorem Sound.answer_complete
    (hSound : l.Sound)
    {call : WorkloadCall W}
    (hWorking : call.entry ∈ l.working)
    (hResult : call.result = some .complete) :
    (l.answer call).Sound := by
  have hPosted := hSound.workingPosted _ hWorking
  have hOpen := hSound.workingOpen _ hWorking
  have hCompleted :
      ∀ entry, Completed (l.log ++ [call]) entry ↔
        Completed l.log entry ∨ call.entry = entry := by
    intro entry
    rw [completed_snoc, and_iff_left hResult]
  have hErase :
      ∀ entry, entry ∈ l.working.erase call.entry ↔
        entry ≠ call.entry ∧ entry ∈ l.working :=
    fun entry => List.Nodup.mem_erase_iff hSound.workingNodup
  unfold WorkLedger.answer
  rw [if_pos hResult]
  constructor
  · exact hSound.numbered
  · exact hSound.waitingNodup
  · exact hSound.waitingPosted
  · exact hSound.uncalled_snoc hWorking
  · intro entry hEntry hLeft
    exact hSound.apartFromWorking entry hEntry
      ((hErase entry).mp hLeft).2
  · exact hSound.workingNodup.erase _
  · intro entry hLeft
    exact hSound.workingPosted entry
      ((hErase entry).mp hLeft).2
  · intro entry hLeft hDone
    rcases (hErase entry).mp hLeft with ⟨hOther, hOld⟩
    rcases (hCompleted entry).mp hDone with hBefore | hSame
    · exact hSound.workingOpen entry hOld hBefore
    · exact hOther hSame.symm
  · intro entry hEntry
    rw [hCompleted]
    by_cases hSame : call.entry = entry
    · exact Or.inr (Or.inr (Or.inr hSame))
    · rcases hSound.kept entry hEntry with
        hWaiting | hOld | hDone
      · exact Or.inl hWaiting
      · right
        left
        exact (hErase entry).mpr ⟨fun h => hSame h.symm, hOld⟩
      · exact Or.inr (Or.inr (Or.inl hDone))
  · exact hSound.called_snoc hWorking
  · exact hSound.apart_call hWorking
  · intro entry hEntry hDone
    by_cases hSame : call.entry = entry
    · rw [← hSame, List.count_append,
        hSound.notWoken _ hPosted hOpen]
      simp
    · have hBefore : Completed l.log entry :=
        ((hCompleted entry).mp hDone).resolve_right hSame
      rw [hSound.count_wake hPosted hEntry hSame]
      exact hSound.woken entry hEntry hBefore
  · intro entry hEntry hNot
    rw [hCompleted, not_or] at hNot
    rw [hSound.count_wake hPosted hEntry hNot.2]
    exact hSound.notWoken entry hEntry hNot.1
  · intro waitable hWoken
    rcases List.mem_append.mp hWoken with hOld | hNew
    · exact hSound.wakesMade waitable hOld
    · rw [List.mem_singleton.mp hNew]
      exact hSound.waitable_lt hPosted

theorem Sound.answer
    (hSound : l.Sound)
    {call : WorkloadCall W}
    (hWorking : call.entry ∈ l.working) :
    (l.answer call).Sound := by
  by_cases hResult : call.result = some .complete
  · exact hSound.answer_complete hWorking hResult
  · exact hSound.answer_open hWorking hResult

end WorkLedger

end OefCore
