import OefCore.Conversations.OutboundSearchConversation
import OefCore.Library.Runs
import OefCore.Tasks.TNonBlockingWorkerTask

/-
  `OutboundSearchConversationWorkerTask`: the worker that sends
  the initiators of search conversations.

  Main declarations:
    * `SearchEndpoint`, `SearchWorker`, `SearchWorkerEvent`
    * `SearchWorker.process`, `SearchWorker.step`
    * `SearchWorker.NoneDropped`, `SearchWorker.HasRoom`
    * `SearchWorker.noneDropped_iff`
-/

namespace OefCore

------------------------------------------------------------
-- The Worker
------------------------------------------------------------

abbrev SearchEntry := QueueEntry OutboundSearchConversation

/- The search connection, as far as the worker uses it. -/
structure SearchEndpoint where
  connected : Bool
  txq : List (Uri × Wire)
  deriving DecidableEq, Repr

/- Between two runs, about to fill the current workloads, or
   going through them. -/
inductive SearchPlace where
  | resting
  | filling
  | visiting (left : List SearchEntry)
  deriving DecidableEq, Repr

/- `appended` are the pairs put on the queue of the endpoint,
   with the workloads they are of. -/
structure SearchWorker where
  base : TNonBlockingWorkerTask OutboundSearchConversation
  ep : Option SearchEndpoint
  place : SearchPlace
  appended : List (SearchEntry × (Uri × Wire))
  deriving DecidableEq, Repr

/- `TNONBLOCKINGWORKERTASK_SIZE`. -/
def tNonBlockingWorkerTaskSize : Nat := 5

/-
  What happens to a worker: `connects` is what an attempt to
  connect returns and `running` whether its endpoint is then
  connected, `taken` how many messages the connection takes
  from the front of its queue.
-/
inductive SearchWorkerEvent where
  | post (conversation : OutboundSearchConversation)
  | run
  | fill
  | process
      (entry : SearchEntry)
      (connects running : Bool)
      (taken : Nat)
  | check
  | drain (taken : Nat)
  | disconnect

namespace SearchWorker

def construct (ep : Option SearchEndpoint) : SearchWorker where
  base := .construct tNonBlockingWorkerTaskSize
  ep := ep
  place := .resting
  appended := []

/- The pair that is sent for a conversation; the identity goes
   into the port. -/
def initiating
    (workload : OutboundSearchConversation) : Uri × Wire :=
  ({ workload.uri with port := workload.ident.toUInt16 },
    workload.initiator)

/- `send`, whose notification is dropped, and `run_sending`. -/
def initiate
    (self : SearchWorker)
    (ep : SearchEndpoint)
    (entry : SearchEntry)
    (taken : Nat) : SearchWorker :=
  let data := initiating entry.workload
  if ep.txq.length < EndpointBase.bufferSizeLimit then
    { self with
      ep := some
        { ep with txq := (ep.txq ++ [data]).drop taken }
      appended := self.appended ++ [(entry, data)] }
  else
    { self with
      ep := some { ep with txq := ep.txq.drop taken } }

/- An attempt to connect makes a new endpoint. -/
def newEndpoint (running : Bool) : SearchEndpoint where
  connected := running
  txq := []

def process
    (self : SearchWorker)
    (entry : SearchEntry)
    (connects running : Bool)
    (taken : Nat) : WorkloadProcessed × SearchWorker :=
  match self.ep.filter SearchEndpoint.connected with
  | some ep => (.complete, self.initiate ep entry taken)
  | none =>
      let ep := newEndpoint running
      if connects then
        (.complete, self.initiate ep entry taken)
      else
        (.notStarted, { self with ep := some ep })

/- An event that does not fit the place does nothing. -/
def step (self : SearchWorker) : SearchWorkerEvent → SearchWorker
  | .post conversation =>
      { self with base := self.base.post conversation }
  | .run =>
      match self.place with
      | .resting => { self with place := .filling }
      | _ => self
  | .fill =>
      match self.place with
      | .filling =>
          { self with
            base := self.base.fill
            place := .visiting self.base.fill.current }
      | _ => self
  | .process entry connects running taken =>
      match self.place with
      | .visiting left =>
          if entry ∈ left then
            let processed :=
              self.process entry connects running taken
            { processed.2 with
              base := self.base.process entry processed.1
              place := .visiting (left.erase entry) }
          else
            self
      | _ => self
  | .check =>
      match self.place with
      | .visiting [] =>
          { self with
            place :=
              if self.base.rests then .resting else .filling }
      | _ => self
  | .drain taken =>
      { self with
        ep :=
          self.ep.map fun ep =>
            { ep with txq := ep.txq.drop taken } }
  | .disconnect =>
      { self with
        ep := self.ep.map fun ep => { ep with connected := false } }

def run
    (self : SearchWorker)
    (events : List SearchWorkerEvent) : SearchWorker :=
  events.foldl step self

theorem run_snoc
    (self : SearchWorker)
    (events : List SearchWorkerEvent)
    (event : SearchWorkerEvent) :
    self.run (events ++ [event]) =
      (self.run events).step event := by
  simp [run]

------------------------------------------------------------
-- What Is Promised
------------------------------------------------------------

/- `process` has returned COMPLETE for a workload. -/
def Completed
    (self : SearchWorker)
    (entry : SearchEntry) : Prop :=
  ∃ call ∈ self.base.calls,
    call.entry = entry ∧ call.result = .complete

/- The pairs appended for a workload. -/
def appendedFor
    (self : SearchWorker)
    (entry : SearchEntry) : List (Uri × Wire) :=
  (self.appended.filter fun pair => pair.1 = entry).map
    Prod.snd

/-
  A workload that is complete was appended once; any other
  that was processed is current, and was and will be passed
  on with START.
-/
structure NoneDropped (worker : SearchWorker) : Prop where
  appended :
    ∀ entry, worker.Completed entry →
      worker.appendedFor entry = [initiating entry.workload]
  retried :
    ∀ call ∈ worker.base.calls,
      ¬ worker.Completed call.entry →
        call.entry ∈ worker.base.current ∧
          worker.base.workloadState call.entry = .start
  started : ∀ call ∈ worker.base.calls, call.state = .start

/- Where a workload is sent on the connection that there is,
   its queue is not full. -/
def HasRoom
    (self : SearchWorker)
    (event : SearchWorkerEvent) : Prop :=
  ∀ entry connects running taken left ep,
    event = .process entry connects running taken →
      self.place = .visiting left → entry ∈ left →
        self.ep = some ep → ep.connected = true →
          ep.txq.length < EndpointBase.bufferSizeLimit

------------------------------------------------------------
-- One Call of Process
------------------------------------------------------------

/-
  A call either returns NOT_STARTED, or it returns COMPLETE
  with the pair appended, or the queue of the connection that
  there is was full.
-/
theorem process_cases
    (self : SearchWorker)
    (entry : SearchEntry)
    (connects running : Bool)
    (taken : Nat) :
    ((self.process entry connects running taken).1 =
        .notStarted ∧
      (self.process entry connects running taken).2.appended =
        self.appended) ∨
    ((self.process entry connects running taken).1 =
        .complete ∧
      (self.process entry connects running taken).2.appended =
        self.appended ++
          [(entry, initiating entry.workload)]) ∨
    ((self.process entry connects running taken).1 =
        .complete ∧
      (self.process entry connects running taken).2.appended =
        self.appended ∧
      ∃ ep, self.ep = some ep ∧ ep.connected = true ∧
        EndpointBase.bufferSizeLimit ≤ ep.txq.length) := by
  unfold process
  split
  · rename_i ep hEp
    have hFound := Option.filter_eq_some_iff.mp hEp
    by_cases hRoom :
        ep.txq.length < EndpointBase.bufferSizeLimit
    · right
      left
      unfold initiate
      rw [if_pos hRoom]
      exact ⟨rfl, rfl⟩
    · right
      right
      unfold initiate
      rw [if_neg hRoom]
      exact ⟨rfl, rfl, ep, hFound.1, hFound.2,
        Nat.le_of_not_lt hRoom⟩
  · cases connects with
    | false =>
        left
        exact ⟨rfl, rfl⟩
    | true =>
        right
        left
        have hRoom :
            (newEndpoint running).txq.length <
              EndpointBase.bufferSizeLimit := by
          decide +revert
        simp only [initiate, if_pos hRoom]
        exact ⟨rfl, rfl⟩

/- With a full queue nothing is appended. -/
theorem process_of_full
    (self : SearchWorker)
    {ep : SearchEndpoint}
    (hEp : self.ep = some ep)
    (hConnected : ep.connected = true)
    (hFull : EndpointBase.bufferSizeLimit ≤ ep.txq.length)
    (entry : SearchEntry)
    (connects running : Bool)
    (taken : Nat) :
    (self.process entry connects running taken).1 =
        .complete ∧
      (self.process entry connects running taken).2.appended =
        self.appended := by
  have hFilter :
      self.ep.filter SearchEndpoint.connected = some ep := by
    rw [hEp]
    exact Option.filter_some_pos hConnected
  unfold process
  rw [hFilter]
  simp only [initiate, if_neg (Nat.not_lt.mpr hFull),
    and_self]

theorem step_process
    {self : SearchWorker}
    {left : List SearchEntry}
    (hPlace : self.place = .visiting left)
    {entry : SearchEntry}
    (hEntry : entry ∈ left)
    (connects running : Bool)
    (taken : Nat) :
    self.step (.process entry connects running taken) =
      { (self.process entry connects running taken).2 with
        base :=
          self.base.process entry
            (self.process entry connects running taken).1
        place := .visiting (left.erase entry) } := by
  simp only [step, hPlace, if_pos hEntry]

/- A workload that has not been completed has no call that
   completed it. -/
theorem not_completed_of_current
    {self : SearchWorker}
    (hOrder : self.base.InOrder)
    {entry : SearchEntry}
    (hCurrent : entry ∈ self.base.current) :
    ¬ self.Completed entry := by
  rintro ⟨call, hCall, hEntry, hComplete⟩
  exact hOrder.currentOpen entry hCurrent call hCall hEntry
    hComplete

theorem completed_process
    (self : SearchWorker)
    {next : SearchWorker}
    (entry : SearchEntry)
    (result : WorkloadProcessed)
    (hBase : next.base = self.base.process entry result)
    (other : SearchEntry) :
    next.Completed other ↔
      self.Completed other ∨
        (entry = other ∧ result = .complete) := by
  have hCalls :
      next.base.calls =
        self.base.calls ++
          [{ entry := entry
             state := self.base.workloadState entry
             result := result }] := by
    rw [hBase]
    cases result <;> rfl
  unfold Completed
  rw [hCalls]
  simp only [List.mem_append, List.mem_singleton]
  constructor
  · rintro ⟨call, hOld | hNew, hEntry, hComplete⟩
    · left
      exact ⟨call, hOld, hEntry, hComplete⟩
    · right
      rw [hNew] at hEntry hComplete
      exact ⟨hEntry, hComplete⟩
  · rintro (⟨call, hOld, hEntry, hComplete⟩ | ⟨hEntry, hResult⟩)
    · exact ⟨call, Or.inl hOld, hEntry, hComplete⟩
    · exact ⟨_, Or.inr rfl, hEntry, hResult⟩

------------------------------------------------------------
-- The Invariant
------------------------------------------------------------

/-
  Besides what is promised: the workloads of this round that
  are left are current, and nothing was appended for one that
  is not complete.
-/
structure Faithful (worker : SearchWorker) : Prop where
  order : worker.base.InOrder
  left :
    ∀ left, worker.place = .visiting left →
      left.Nodup ∧ ∀ entry ∈ left, entry ∈ worker.base.current
  sent :
    ∀ entry, worker.Completed entry →
      worker.appendedFor entry = [initiating entry.workload]
  unsent :
    ∀ entry, ¬ worker.Completed entry →
      worker.appendedFor entry = []

theorem faithful_construct (ep : Option SearchEndpoint) :
    (construct ep).Faithful := by
  constructor
  · exact TNonBlockingWorkerTask.inOrder_construct _
  · intro left hPlace
    exact SearchPlace.noConfusion hPlace
  · rintro entry ⟨call, hCall, _⟩
    exact absurd hCall List.not_mem_nil
  · intro entry _
    rfl

theorem Faithful.noneDropped
    {self : SearchWorker}
    (hFaithful : self.Faithful) :
    self.NoneDropped := by
  constructor
  · exact hFaithful.sent
  · intro call hCall hOpen
    rcases hFaithful.order.callsKept call hCall with
      hCurrent | hLast
    · exact ⟨hCurrent,
        hFaithful.order.workloadState hCurrent⟩
    · exact absurd hLast hOpen
  · exact hFaithful.order.callsStart

theorem completed_congr
    {self next : SearchWorker}
    (hCalls : next.base.calls = self.base.calls)
    (entry : SearchEntry) :
    next.Completed entry ↔ self.Completed entry := by
  unfold Completed
  rw [hCalls]

/- What neither completes a workload nor appends. -/
theorem Faithful.of_same
    {self next : SearchWorker}
    (hFaithful : self.Faithful)
    (hCompleted :
      ∀ entry, next.Completed entry ↔ self.Completed entry)
    (hAppended : next.appended = self.appended)
    (hOrder : next.base.InOrder)
    (hLeft :
      ∀ left, next.place = .visiting left →
        left.Nodup ∧
          ∀ entry ∈ left, entry ∈ next.base.current) :
    next.Faithful := by
  have hFor :
      ∀ entry,
        next.appendedFor entry = self.appendedFor entry := by
    intro entry
    unfold appendedFor
    rw [hAppended]
  constructor
  · exact hOrder
  · exact hLeft
  · intro entry hDone
    rw [hFor]
    exact hFaithful.sent entry ((hCompleted entry).mp hDone)
  · intro entry hOpen
    rw [hFor]
    apply hFaithful.unsent entry
    rwa [hCompleted] at hOpen

theorem appendedFor_append
    {self next : SearchWorker}
    {entry : SearchEntry}
    {data : Uri × Wire}
    (hAppended :
      next.appended = self.appended ++ [(entry, data)])
    (other : SearchEntry) :
    next.appendedFor other =
      self.appendedFor other ++
        if entry = other then [data] else [] := by
  unfold appendedFor
  rw [hAppended, List.filter_append, List.map_append]
  by_cases hSame : entry = other
  · simp [hSame]
  · simp [hSame]

/- A workload is completed and its pair appended. -/
theorem Faithful.of_sent
    {self next : SearchWorker}
    (hFaithful : self.Faithful)
    {entry : SearchEntry}
    (hCurrent : entry ∈ self.base.current)
    (hBase : next.base = self.base.process entry .complete)
    (hAppended :
      next.appended =
        self.appended ++ [(entry, initiating entry.workload)])
    (hLeft :
      ∀ left, next.place = .visiting left →
        left.Nodup ∧
          ∀ entry ∈ left, entry ∈ next.base.current) :
    next.Faithful := by
  have hOpen :=
    not_completed_of_current hFaithful.order hCurrent
  have hDoneIff := completed_process self entry .complete hBase
  constructor
  · rw [hBase]
    exact hFaithful.order.process_complete hCurrent
  · exact hLeft
  · intro other hDone
    rw [appendedFor_append hAppended]
    rcases (hDoneIff other).mp hDone with
      hOld | ⟨hSame, _⟩
    · have hOther : entry ≠ other := by
        intro hSame
        rw [hSame] at hOpen
        exact hOpen hOld
      rw [hFaithful.sent other hOld, if_neg hOther,
        List.append_nil]
    · rw [← hSame, hFaithful.unsent entry hOpen, if_pos rfl,
        List.nil_append]
  · intro other hNot
    rw [appendedFor_append hAppended]
    have hOther : entry ≠ other := by
      intro hSame
      exact hNot ((hDoneIff other).mpr (Or.inr ⟨hSame, rfl⟩))
    have hBefore : ¬ self.Completed other := by
      intro hOld
      exact hNot ((hDoneIff other).mpr (Or.inl hOld))
    rw [hFaithful.unsent other hBefore, if_neg hOther,
      List.append_nil]

theorem Faithful.process
    {self : SearchWorker}
    (hFaithful : self.Faithful)
    {left : List SearchEntry}
    (hPlace : self.place = .visiting left)
    {entry : SearchEntry}
    (hEntry : entry ∈ left)
    {connects running : Bool}
    {taken : Nat}
    (hRoom :
      self.HasRoom (.process entry connects running taken)) :
    (self.step
      (.process entry connects running taken)).Faithful := by
  rcases hFaithful.left left hPlace with ⟨hNodup, hLeft⟩
  have hCurrent := hLeft entry hEntry
  have hRest :
      ∀ other ∈ left.erase entry,
        other ≠ entry ∧ other ∈ self.base.current := by
    intro other hOther
    rcases (List.Nodup.mem_erase_iff hNodup).mp hOther with
      ⟨hNe, hMem⟩
    exact ⟨hNe, hLeft other hMem⟩
  rw [step_process hPlace hEntry]
  rcases self.process_cases entry connects running taken with
    ⟨hResult, hAppended⟩ | ⟨hResult, hAppended⟩ |
      ⟨_, _, ep, hEp, hConnected, hFull⟩
  · rw [hResult]
    apply hFaithful.of_same
    · intro other
      rw [completed_process self entry .notStarted rfl other]
      simp
    · exact hAppended
    · exact hFaithful.order.process_notStarted hCurrent
    · intro kept hKept
      rw [← SearchPlace.visiting.inj hKept]
      constructor
      · exact hNodup.erase entry
      · intro other hOther
        exact (hRest other hOther).2
  · rw [hResult]
    apply hFaithful.of_sent hCurrent
    · rfl
    · exact hAppended
    · intro kept hKept
      rw [← SearchPlace.visiting.inj hKept]
      constructor
      · exact hNodup.erase entry
      · intro other hOther
        rcases hRest other hOther with ⟨hNe, hMem⟩
        exact (List.mem_erase_of_ne hNe).mpr hMem
  · exact absurd
      (hRoom entry connects running taken left ep rfl hPlace
        hEntry hEp hConnected)
      (Nat.not_lt.mpr hFull)

------------------------------------------------------------
-- Every Event
------------------------------------------------------------

theorem Faithful.step
    {self : SearchWorker}
    (hFaithful : self.Faithful)
    (event : SearchWorkerEvent)
    (hRoom : self.HasRoom event) :
    (self.step event).Faithful := by
  cases event with
  | post conversation =>
      apply hFaithful.of_same
      · exact completed_congr rfl
      · rfl
      · exact hFaithful.order.post conversation
      · exact hFaithful.left
  | run =>
      cases hPlace : self.place with
      | resting =>
          simp only [SearchWorker.step, hPlace]
          apply hFaithful.of_same
          · exact completed_congr rfl
          · rfl
          · exact hFaithful.order
          · intro left hNow
            exact SearchPlace.noConfusion hNow
      | filling =>
          simpa only [SearchWorker.step, hPlace]
            using hFaithful
      | visiting left =>
          simpa only [SearchWorker.step, hPlace]
            using hFaithful
  | fill =>
      cases hPlace : self.place with
      | filling =>
          simp only [SearchWorker.step, hPlace]
          have hFill := hFaithful.order.fill
          apply hFaithful.of_same
          · exact completed_congr rfl
          · rfl
          · exact hFill
          · intro left hNow
            rw [← SearchPlace.visiting.inj hNow]
            exact ⟨hFill.currentNodup, fun _ hMem => hMem⟩
      | resting =>
          simpa only [SearchWorker.step, hPlace]
            using hFaithful
      | visiting left =>
          simpa only [SearchWorker.step, hPlace]
            using hFaithful
  | process entry connects running taken =>
      cases hPlace : self.place with
      | visiting left =>
          by_cases hEntry : entry ∈ left
          · exact hFaithful.process hPlace hEntry hRoom
          · simpa only [SearchWorker.step, hPlace,
              if_neg hEntry] using hFaithful
      | resting =>
          simpa only [SearchWorker.step, hPlace]
            using hFaithful
      | filling =>
          simpa only [SearchWorker.step, hPlace]
            using hFaithful
  | check =>
      cases hPlace : self.place with
      | visiting left =>
          cases left with
          | nil =>
              simp only [SearchWorker.step, hPlace]
              apply hFaithful.of_same
              · exact completed_congr rfl
              · rfl
              · exact hFaithful.order
              · intro left hNow
                simp only at hNow
                split at hNow
                · exact SearchPlace.noConfusion hNow
                · exact SearchPlace.noConfusion hNow
          | cons front left =>
              simpa only [SearchWorker.step, hPlace]
                using hFaithful
      | resting =>
          simpa only [SearchWorker.step, hPlace]
            using hFaithful
      | filling =>
          simpa only [SearchWorker.step, hPlace]
            using hFaithful
  | drain taken =>
      apply hFaithful.of_same
      · exact completed_congr rfl
      · rfl
      · exact hFaithful.order
      · exact hFaithful.left
  | disconnect =>
      apply hFaithful.of_same
      · exact completed_congr rfl
      · rfl
      · exact hFaithful.order
      · exact hFaithful.left

/- A workload whose pair met a full queue counts as complete,
   and nothing was appended for it. -/
theorem Faithful.hasRoom
    {self : SearchWorker}
    (hFaithful : self.Faithful)
    {event : SearchWorkerEvent}
    (hNone : (self.step event).NoneDropped) :
    self.HasRoom event := by
  intro entry connects running taken left ep hEvent hPlace
    hEntry hEp hConnected
  by_contra hOver
  have hFull : EndpointBase.bufferSizeLimit ≤ ep.txq.length :=
    Nat.le_of_not_lt hOver
  rcases self.process_of_full hEp hConnected hFull entry
    connects running taken with ⟨hResult, hAppended⟩
  rw [hEvent, step_process hPlace hEntry, hResult] at hNone
  have hCurrent := (hFaithful.left left hPlace).2 entry hEntry
  have hUnsent :=
    hFaithful.unsent entry
      (not_completed_of_current hFaithful.order hCurrent)
  have hSent :=
    hNone.appended entry
      ((completed_process self entry .complete rfl entry).mpr
        (Or.inr ⟨rfl, rfl⟩))
  unfold appendedFor at hSent hUnsent
  simp only [hAppended, hUnsent] at hSent
  exact List.cons_ne_nil _ _ hSent.symm

------------------------------------------------------------
-- No Request Is Dropped
------------------------------------------------------------

/-
  Whatever connection there is and whatever happens to it: no
  request is dropped exactly if a workload never meets a full
  queue on the connection that there is.
-/
theorem noneDropped_iff
    (ep : Option SearchEndpoint)
    (events : List SearchWorkerEvent) :
    (∀ front, front <+: events →
      ((construct ep).run front).NoneDropped) ↔
      ∀ front event back,
        events = front ++ event :: back →
          ((construct ep).run front).HasRoom event := by
  apply Runs.forall_prefix_iff
    (fun front => ((construct ep).run front).Faithful)
  · exact faithful_construct ep
  · intro front hFaithful
    exact hFaithful.noneDropped
  · intro front event back _ hFaithful hRoom
    rw [run_snoc]
    exact hFaithful.step event hRoom
  · intro front event back _ hFaithful hNone
    rw [run_snoc] at hNone
    exact hFaithful.hasRoom hNone

/- A conversation with nothing in it. -/
def emptyConversation : OutboundSearchConversation :=
  .construct .update .searchResponse 1
    { proto := ""
      host := ""
      path := ""
      port := 0
      valid := true }
    []

/- A connection with as much on its queue as `send` accepts. -/
def fullEndpoint : SearchEndpoint where
  connected := true
  txq :=
    List.replicate EndpointBase.bufferSizeLimit
      (initiating emptyConversation)

def refusedRun : List SearchWorkerEvent :=
  [.post emptyConversation, .run, .fill,
    .process
      { workload := emptyConversation
        waitable := 0 }
      true true 0]

/- The refusal of `send` is ignored, and COMPLETE returned. -/
theorem not_noneDropped_of_fullQueue :
    ¬ ∀ front, front <+: refusedRun →
      ((construct (some fullEndpoint)).run front).NoneDropped := by
  intro hAll
  have hNone := hAll refusedRun (List.prefix_refl _)
  have hSent :=
    hNone.appended
      { workload := emptyConversation
        waitable := 0 }
      ⟨_, List.mem_singleton_self _, rfl, rfl⟩
  exact absurd hSent (by decide +kernel)

end SearchWorker

end OefCore
