import Mathlib.Data.List.Nodup

/-
  `TNonBlockingWorkerTask`: a task that works on the workloads
  that are posted to it, on several at a time.

  Main declarations:
    * `QueueEntry`, `TNonBlockingWorkerTask`
    * `TNonBlockingWorkerTask.post`, `fill`, `process`,
      `rests`
    * `TNonBlockingWorkerTask.InOrder`
-/

namespace OefCore

inductive WorkloadProcessed where
  | complete
  | notComplete
  | notStarted
  deriving DecidableEq, Repr

inductive WorkloadState where
  | start
  | resume
  deriving DecidableEq, Repr

/- Each entry has a waitable of its own, known by number. -/
structure QueueEntry (W : Type) where
  workload : W
  waitable : Nat
  deriving DecidableEq, Repr

instance lawfulBEq_queueEntry
    {W : Type}
    [DecidableEq W] :
    LawfulBEq (QueueEntry W) :=
  inferInstance

/- A call of `process`. -/
structure ProcessCall (W : Type) where
  entry : QueueEntry W
  state : WorkloadState
  result : WorkloadProcessed
  deriving DecidableEq, Repr

/- `n` is the parameter of the template, `waitables` how many
   waitables were made. -/
structure TNonBlockingWorkerTask (W : Type) where
  n : Nat
  queue : List (QueueEntry W)
  current : List (QueueEntry W)
  notStarted : List (QueueEntry W)
  waitables : Nat
  calls : List (ProcessCall W)
  deriving DecidableEq, Repr

namespace TNonBlockingWorkerTask

variable {W : Type}

def construct (n : Nat) : TNonBlockingWorkerTask W where
  n := n
  queue := []
  current := []
  notStarted := []
  waitables := 0
  calls := []

def isRunnable (self : TNonBlockingWorkerTask W) : Bool :=
  !self.queue.isEmpty

/- What `post` does before it makes the task runnable. -/
def post
    (self : TNonBlockingWorkerTask W)
    (workload : W) : TNonBlockingWorkerTask W :=
  { self with
    queue :=
      self.queue ++
        [{ workload := workload, waitable := self.waitables }]
    waitables := self.waitables + 1 }

variable [DecidableEq W]

/- The section of `run` that takes workloads from the queue
   while there is room. -/
def fillFrom
    (n : Nat)
    (current notStarted : List (QueueEntry W)) :
    List (QueueEntry W) →
      List (QueueEntry W) × List (QueueEntry W) ×
        List (QueueEntry W)
  | [] => ([], current, notStarted)
  | front :: queue =>
      if current.length < n then
        fillFrom n (current.insert front)
          (notStarted.insert front) queue
      else
        (front :: queue, current, notStarted)

def fill
    (self : TNonBlockingWorkerTask W) :
    TNonBlockingWorkerTask W :=
  match fillFrom self.n self.current self.notStarted
      self.queue with
  | (queue, current, notStarted) =>
      { self with
        queue := queue
        current := current
        notStarted := notStarted }

/- How a workload is passed to `process`. -/
def workloadState
    (self : TNonBlockingWorkerTask W)
    (entry : QueueEntry W) : WorkloadState :=
  if entry ∈ self.notStarted then
    .start
  else
    .resume

/- The call of `process` for one of the current workloads, and
   what follows from its result. -/
def process
    (self : TNonBlockingWorkerTask W)
    (entry : QueueEntry W)
    (result : WorkloadProcessed) : TNonBlockingWorkerTask W :=
  let called :=
    { self with
      calls :=
        self.calls ++
          [{ entry := entry
             state := self.workloadState entry
             result := result }] }
  match result with
  | .complete =>
      { called with
        notStarted := self.notStarted.erase entry
        current := self.current.erase entry }
  | .notComplete =>
      { called with
        notStarted := self.notStarted.erase entry }
  | .notStarted => called

/- The test that lets `run` return DEFER. -/
def rests (self : TNonBlockingWorkerTask W) : Bool :=
  self.queue.isEmpty || decide (self.n ≤ self.current.length)

omit [DecidableEq W] in
theorem rests_iff (self : TNonBlockingWorkerTask W) :
    self.rests = true ↔
      self.queue = [] ∨ self.n ≤ self.current.length := by
  simp [rests]

omit [DecidableEq W] in
theorem rests_of_not_runnable
    {self : TNonBlockingWorkerTask W}
    (hNot : self.isRunnable = false) :
    self.rests = true := by
  unfold isRunnable at hNot
  rw [rests_iff]
  left
  simpa using hNot

------------------------------------------------------------
-- Filling
------------------------------------------------------------

/- What every move of a workload keeps holds when the current
   ones are filled. -/
theorem fillFrom_keeps
    (Keeps :
      List (QueueEntry W) → List (QueueEntry W) →
        List (QueueEntry W) → Prop)
    {n : Nat}
    (hMove : ∀ front queue current notStarted,
      current.length < n →
        Keeps (front :: queue) current notStarted →
          Keeps queue (current.insert front)
            (notStarted.insert front))
    (queue current notStarted : List (QueueEntry W))
    (hKeeps : Keeps queue current notStarted) :
    Keeps (fillFrom n current notStarted queue).1
      (fillFrom n current notStarted queue).2.1
      (fillFrom n current notStarted queue).2.2 := by
  induction queue generalizing current notStarted with
  | nil => exact hKeeps
  | cons front queue ih =>
      unfold fillFrom
      split
      · rename_i hRoom
        exact ih _ _ (hMove front queue current notStarted hRoom
          hKeeps)
      · exact hKeeps

theorem fill_eq (self : TNonBlockingWorkerTask W) :
    self.fill =
      { self with
        queue :=
          (fillFrom self.n self.current self.notStarted
            self.queue).1
        current :=
          (fillFrom self.n self.current self.notStarted
            self.queue).2.1
        notStarted :=
          (fillFrom self.n self.current self.notStarted
            self.queue).2.2 } :=
  rfl

------------------------------------------------------------
-- Workloads That Are Started and Then Complete
------------------------------------------------------------

/-
  Workloads wait in the queue, then are current, then
  complete; a current one has not begun and nothing that
  waits was passed to `process`.
-/
structure Ordered
    (waitables : Nat)
    (calls : List (ProcessCall W))
    (queue current notStarted : List (QueueEntry W)) :
    Prop where
  queueNodup : queue.Nodup
  queueMade : ∀ entry ∈ queue, entry.waitable < waitables
  queueApart : ∀ entry ∈ queue, entry ∉ current
  queueUncalled :
    ∀ entry ∈ queue, ∀ call ∈ calls, call.entry ≠ entry
  currentNodup : current.Nodup
  currentMade : ∀ entry ∈ current, entry.waitable < waitables
  currentStart : ∀ entry ∈ current, entry ∈ notStarted
  currentOpen :
    ∀ entry ∈ current, ∀ call ∈ calls,
      call.entry = entry → call.result ≠ .complete
  callsMade : ∀ call ∈ calls, call.entry.waitable < waitables
  callsStart : ∀ call ∈ calls, call.state = .start
  callsKept :
    ∀ call ∈ calls, call.entry ∈ current ∨
      ∃ last ∈ calls,
        last.entry = call.entry ∧ last.result = .complete

/- The lists of a worker are in order. -/
def InOrder (self : TNonBlockingWorkerTask W) : Prop :=
  Ordered self.waitables self.calls self.queue self.current
    self.notStarted

omit [DecidableEq W] in
theorem inOrder_construct (n : Nat) :
    (construct n : TNonBlockingWorkerTask W).InOrder := by
  constructor <;> simp [construct]

omit [DecidableEq W] in
theorem InOrder.post
    {self : TNonBlockingWorkerTask W}
    (hOrder : self.InOrder)
    (workload : W) :
    (self.post workload).InOrder := by
  have hNew :
      ∀ entry : QueueEntry W,
        entry.waitable < self.waitables →
          entry ≠
            { workload := workload
              waitable := self.waitables } := by
    intro entry hMade hSame
    rw [hSame] at hMade
    exact Nat.lt_irrefl _ hMade
  constructor
  · apply List.Nodup.append hOrder.queueNodup
      (List.nodup_singleton _)
    intro entry hQueue hLast
    exact hNew entry (hOrder.queueMade entry hQueue)
      (List.mem_singleton.mp hLast)
  · intro entry hEntry
    rcases List.mem_append.mp hEntry with hQueue | hLast
    · exact Nat.lt_succ_of_lt (hOrder.queueMade entry hQueue)
    · rw [List.mem_singleton.mp hLast]
      exact Nat.lt_succ_self _
  · intro entry hEntry hCurrent
    rcases List.mem_append.mp hEntry with hQueue | hLast
    · exact hOrder.queueApart entry hQueue hCurrent
    · exact hNew entry (hOrder.currentMade entry hCurrent)
        (List.mem_singleton.mp hLast)
  · intro entry hEntry call hCall hSame
    rcases List.mem_append.mp hEntry with hQueue | hLast
    · exact hOrder.queueUncalled entry hQueue call hCall hSame
    · exact hNew call.entry (hOrder.callsMade call hCall)
        (hSame.trans (List.mem_singleton.mp hLast))
  · exact hOrder.currentNodup
  · intro entry hEntry
    exact Nat.lt_succ_of_lt (hOrder.currentMade entry hEntry)
  · exact hOrder.currentStart
  · exact hOrder.currentOpen
  · intro call hCall
    exact Nat.lt_succ_of_lt (hOrder.callsMade call hCall)
  · exact hOrder.callsStart
  · exact hOrder.callsKept

theorem Ordered.move
    {waitables : Nat}
    {calls : List (ProcessCall W)}
    {front : QueueEntry W}
    {queue current notStarted : List (QueueEntry W)}
    (hOrder :
      Ordered waitables calls (front :: queue) current
        notStarted) :
    Ordered waitables calls queue (current.insert front)
      (notStarted.insert front) := by
  have hNodup := List.nodup_cons.mp hOrder.queueNodup
  constructor
  · exact hNodup.2
  · intro entry hEntry
    exact hOrder.queueMade entry (List.mem_cons_of_mem _ hEntry)
  · intro entry hEntry hCurrent
    rcases List.mem_insert_iff.mp hCurrent with hFront | hOld
    · rw [hFront] at hEntry
      exact hNodup.1 hEntry
    · exact hOrder.queueApart entry
        (List.mem_cons_of_mem _ hEntry) hOld
  · intro entry hEntry
    exact hOrder.queueUncalled entry
      (List.mem_cons_of_mem _ hEntry)
  · exact hOrder.currentNodup.insert
  · intro entry hEntry
    rcases List.mem_insert_iff.mp hEntry with hFront | hOld
    · rw [hFront]
      exact hOrder.queueMade front List.mem_cons_self
    · exact hOrder.currentMade entry hOld
  · intro entry hEntry
    rcases List.mem_insert_iff.mp hEntry with hFront | hOld
    · exact List.mem_insert_iff.mpr (Or.inl hFront)
    · exact List.mem_insert_iff.mpr
        (Or.inr (hOrder.currentStart entry hOld))
  · intro entry hEntry call hCall hSame
    rcases List.mem_insert_iff.mp hEntry with hFront | hOld
    · rw [hFront] at hSame
      exact absurd hSame
        (hOrder.queueUncalled front List.mem_cons_self call
          hCall)
    · exact hOrder.currentOpen entry hOld call hCall hSame
  · exact hOrder.callsMade
  · exact hOrder.callsStart
  · intro call hCall
    rcases hOrder.callsKept call hCall with hOld | hLast
    · left
      exact List.mem_insert_iff.mpr (Or.inr hOld)
    · right
      exact hLast

theorem InOrder.fill
    {self : TNonBlockingWorkerTask W}
    (hOrder : self.InOrder) :
    self.fill.InOrder := by
  rw [fill_eq]
  apply fillFrom_keeps (Ordered self.waitables self.calls)
  · intro front queue current notStarted _ hKeeps
    exact hKeeps.move
  · exact hOrder

/- A current workload is passed on with START. -/
theorem InOrder.workloadState
    {self : TNonBlockingWorkerTask W}
    (hOrder : self.InOrder)
    {entry : QueueEntry W}
    (hCurrent : entry ∈ self.current) :
    self.workloadState entry = .start := by
  unfold TNonBlockingWorkerTask.workloadState
  rw [if_pos (hOrder.currentStart entry hCurrent)]

theorem InOrder.process_notStarted
    {self : TNonBlockingWorkerTask W}
    (hOrder : self.InOrder)
    {entry : QueueEntry W}
    (hCurrent : entry ∈ self.current) :
    (self.process entry .notStarted).InOrder := by
  have hState := hOrder.workloadState hCurrent
  constructor
  · exact hOrder.queueNodup
  · exact hOrder.queueMade
  · exact hOrder.queueApart
  · intro other hOther call hCall hSame
    rcases List.mem_append.mp hCall with hOld | hNew
    · exact hOrder.queueUncalled other hOther call hOld hSame
    · rw [List.mem_singleton.mp hNew] at hSame
      rw [← hSame] at hOther
      exact hOrder.queueApart entry hOther hCurrent
  · exact hOrder.currentNodup
  · exact hOrder.currentMade
  · exact hOrder.currentStart
  · intro other hOther call hCall hSame
    rcases List.mem_append.mp hCall with hOld | hNew
    · exact hOrder.currentOpen other hOther call hOld hSame
    · rw [List.mem_singleton.mp hNew]
      exact WorkloadProcessed.noConfusion
  · intro call hCall
    rcases List.mem_append.mp hCall with hOld | hNew
    · exact hOrder.callsMade call hOld
    · rw [List.mem_singleton.mp hNew]
      exact hOrder.currentMade entry hCurrent
  · intro call hCall
    rcases List.mem_append.mp hCall with hOld | hNew
    · exact hOrder.callsStart call hOld
    · rw [List.mem_singleton.mp hNew]
      exact hState
  · intro call hCall
    rcases List.mem_append.mp hCall with hOld | hNew
    · rcases hOrder.callsKept call hOld with hKept | hLast
      · left
        exact hKept
      · rcases hLast with ⟨last, hMem, hEntry, hComplete⟩
        right
        exact ⟨last, List.mem_append_left _ hMem, hEntry,
          hComplete⟩
    · left
      rw [List.mem_singleton.mp hNew]
      exact hCurrent

theorem InOrder.process_complete
    {self : TNonBlockingWorkerTask W}
    (hOrder : self.InOrder)
    {entry : QueueEntry W}
    (hCurrent : entry ∈ self.current) :
    (self.process entry .complete).InOrder := by
  have hState := hOrder.workloadState hCurrent
  have hErase :
      ∀ other, other ∈ self.current.erase entry →
        other ≠ entry ∧ other ∈ self.current := by
    intro other hOther
    exact (List.Nodup.mem_erase_iff hOrder.currentNodup).mp
      hOther
  constructor
  · exact hOrder.queueNodup
  · exact hOrder.queueMade
  · intro other hOther hKept
    exact hOrder.queueApart other hOther (hErase other hKept).2
  · intro other hOther call hCall hSame
    rcases List.mem_append.mp hCall with hOld | hNew
    · exact hOrder.queueUncalled other hOther call hOld hSame
    · rw [List.mem_singleton.mp hNew] at hSame
      rw [← hSame] at hOther
      exact hOrder.queueApart entry hOther hCurrent
  · exact hOrder.currentNodup.erase entry
  · intro other hKept
    exact hOrder.currentMade other (hErase other hKept).2
  · intro other hKept
    rcases hErase other hKept with ⟨hOther, hOld⟩
    exact (List.mem_erase_of_ne hOther).mpr
      (hOrder.currentStart other hOld)
  · intro other hKept call hCall hSame
    rcases hErase other hKept with ⟨hOther, hOld⟩
    rcases List.mem_append.mp hCall with hBefore | hNew
    · exact hOrder.currentOpen other hOld call hBefore hSame
    · rw [List.mem_singleton.mp hNew] at hSame
      exact absurd hSame.symm hOther
  · intro call hCall
    rcases List.mem_append.mp hCall with hOld | hNew
    · exact hOrder.callsMade call hOld
    · rw [List.mem_singleton.mp hNew]
      exact hOrder.currentMade entry hCurrent
  · intro call hCall
    rcases List.mem_append.mp hCall with hOld | hNew
    · exact hOrder.callsStart call hOld
    · rw [List.mem_singleton.mp hNew]
      exact hState
  · intro call hCall
    by_cases hSame : call.entry = entry
    · right
      exact ⟨_, List.mem_append_right _ List.mem_cons_self,
        hSame.symm, rfl⟩
    · rcases List.mem_append.mp hCall with hOld | hNew
      · rcases hOrder.callsKept call hOld with hKept | hLast
        · left
          exact (List.mem_erase_of_ne hSame).mpr hKept
        · rcases hLast with ⟨last, hMem, hEntry, hComplete⟩
          right
          exact ⟨last, List.mem_append_left _ hMem, hEntry,
            hComplete⟩
      · rw [List.mem_singleton.mp hNew] at hSame
        exact absurd rfl hSame

end TNonBlockingWorkerTask

end OefCore
