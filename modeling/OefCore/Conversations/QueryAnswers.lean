import OefCore.Conversations.SearchQueryTask
import OefCore.Library.Runs

/-
  Whether an agent that asked the search node gets an answer.

  A frame wakes the task only if its status is successful and
  the task is suspended by then; the answer is sent only if
  the last frame before it was parsed.

  Main declarations:
    * `SearchQueryRun.Answered`
    * `SearchQueryRun.HandledWell`
    * `SearchQueryRun.answered_iff`
-/

namespace OefCore

------------------------------------------------------------
-- Frames
------------------------------------------------------------

namespace SearchFrame

/- The reader does not refuse a frame of this size. -/
def Accepted (frame : SearchFrame) : Prop :=
  frame.bodySize ≤ 10000

def Succeeds
    (protos : SearchProtos)
    (frame : SearchFrame) : Prop :=
  (protos.header frame.leader).map
      (fun leader => leader.status.success) =
    some true

def Parses
    (protos : SearchProtos)
    (frame : SearchFrame) : Prop :=
  protos.responses .searchResponse frame.payload = true

/- A successful status and a payload that is parsed. -/
def Answers
    (protos : SearchProtos)
    (frame : SearchFrame) : Prop :=
  frame.Succeeds protos ∧ frame.Parses protos

instance (frame : SearchFrame) : Decidable frame.Accepted := by
  unfold Accepted
  infer_instance

instance
    (protos : SearchProtos)
    (frame : SearchFrame) :
    Decidable (frame.Succeeds protos) := by
  unfold Succeeds
  infer_instance

instance
    (protos : SearchProtos)
    (frame : SearchFrame) :
    Decidable (frame.Parses protos) := by
  unfold Parses
  infer_instance

instance
    (protos : SearchProtos)
    (frame : SearchFrame) :
    Decidable (frame.Answers protos) := by
  unfold Answers
  infer_instance

end SearchFrame

namespace SearchQueryRun

------------------------------------------------------------
-- What Is Promised
------------------------------------------------------------

/- The result list of a frame that answers, or an error for
   one that does not. -/
def AnswerFits
    (protos : SearchProtos)
    (ttl : UInt16)
    (arrived : List SearchFrame)
    (payload : ServerPayload) : Prop :=
  (∃ frame ∈ arrived, frame.Answers protos ∧
    payload =
      SearchQueryTask.results ttl
        (protos.searchResponse frame.payload)) ∨
  (∃ frame ∈ arrived, ¬ frame.Answers protos ∧
    ∃ operation cause detail,
      payload = .oefError operation cause detail)

/-
  Once a frame has come the task does not sleep, and when it
  has run, one message was passed to `sendReply`.
-/
structure Answered
    (protos : SearchProtos)
    (msgId : Int32)
    (ttl : UInt16)
    (query : SearchQueryRun) : Prop where
  woken : query.arrived ≠ [] → query.place ≠ .suspended
  answered :
    ∀ status, query.place = .done status →
      ∃ reply, query.replies = [reply] ∧
        reply.answerId = msgId.toInt ∧
        AnswerFits protos ttl query.arrived reply.payload

/- The frames that reached the conversation. -/
def heard (arrived : List SearchFrame) : List SearchFrame :=
  arrived.filter SearchFrame.Accepted

/-
  A frame for a suspended task is not refused and has a
  successful status; no frame comes before the task is
  suspended; and when the response is handled, the last frame
  that was not refused answers.
-/
def HandledWell
    (protos : SearchProtos)
    (self : SearchQueryRun) : SearchQueryEvent → Prop
  | .frame frame =>
      self.place = .suspended → IsFor protos self.ident frame →
        frame.Accepted ∧ frame.Succeeds protos
  | .advance =>
      (self.place = .deferred → self.arrived = []) ∧
      (self.place = .calling →
        self.task.machine.state = some .handleResponse →
          ∃ frame, (heard self.arrived).getLast? = some frame ∧
            frame.Answers protos)

------------------------------------------------------------
-- What a Conversation Has Heard
------------------------------------------------------------

/- The replies of a conversation are the payloads of the frames
   that answer; its status is that of the last frame. -/
structure Heard
    (protos : SearchProtos)
    (arrived : List SearchFrame)
    (conversation : OutboundSearchConversation) : Prop where
  kind : conversation.kind = .searchResponse
  responses :
    conversation.responses =
      ((heard arrived).filter
        (SearchFrame.Answers protos)).map SearchFrame.payload
  status :
    conversation.statusCode = some 0 ↔
      ∃ frame, (heard arrived).getLast? = some frame ∧
        frame.Answers protos

theorem heard_construct
    (protos : SearchProtos)
    (ident : UInt64)
    (uri : Uri)
    (initiator : Wire) :
    Heard protos []
      (.construct .update .searchResponse ident uri
        initiator) := by
  constructor
  · rfl
  · rfl
  · simp [OutboundSearchConversation.construct, heard]

theorem heard_snoc_refused
    (arrived : List SearchFrame)
    {frame : SearchFrame}
    (hRefused : ¬ frame.Accepted) :
    heard (arrived ++ [frame]) = heard arrived := by
  simp [heard, hRefused]

theorem heard_snoc
    (arrived : List SearchFrame)
    {frame : SearchFrame}
    (hAccepted : frame.Accepted) :
    heard (arrived ++ [frame]) = heard arrived ++ [frame] := by
  simp [heard, hAccepted]

theorem Heard.refused
    {protos : SearchProtos}
    {arrived : List SearchFrame}
    {conversation : OutboundSearchConversation}
    (hHeard : Heard protos arrived conversation)
    {frame : SearchFrame}
    (hRefused : ¬ frame.Accepted) :
    Heard protos (arrived ++ [frame]) conversation := by
  constructor
  · exact hHeard.kind
  · rw [heard_snoc_refused arrived hRefused]
    exact hHeard.responses
  · rw [heard_snoc_refused arrived hRefused]
    exact hHeard.status

/- A frame that is heard gives its status, and its payload if it
   answers. -/
theorem Heard.snoc
    {protos : SearchProtos}
    {arrived : List SearchFrame}
    {conversation after : OutboundSearchConversation}
    (hHeard : Heard protos arrived conversation)
    {frame : SearchFrame}
    (hAccepted : frame.Accepted)
    (hKind : after.kind = conversation.kind)
    (hResponses :
      after.responses =
        conversation.responses ++
          if frame.Answers protos then [frame.payload]
          else [])
    (hStatus :
      after.statusCode = some 0 ↔ frame.Answers protos) :
    Heard protos (arrived ++ [frame]) after := by
  constructor
  · rw [hKind]
    exact hHeard.kind
  · rw [heard_snoc arrived hAccepted, hResponses,
      hHeard.responses, List.filter_append, List.map_append]
    by_cases hAnswers : frame.Answers protos
    · simp [hAnswers]
    · simp [hAnswers]
  · rw [heard_snoc arrived hAccepted, hStatus]
    simp

------------------------------------------------------------
-- One Frame
------------------------------------------------------------

theorem errorCodeOf_ne_zero (status : TransportStatus) :
    OutboundSearch.errorCodeOf status ≠ 0 := by
  unfold OutboundSearch.errorCodeOf
  by_cases hZero : status.errorCode = 0
  · rw [if_pos hZero]
    decide
  · rw [if_neg hZero]
    exact hZero

/- What the handler of a frame does to the conversation. -/
theorem handled_cases
    (protos : SearchProtos)
    {arrived : List SearchFrame}
    {conversation : OutboundSearchConversation}
    (hHeard : Heard protos arrived conversation)
    {frame : SearchFrame}
    (hAccepted : frame.Accepted)
    {leader : TransportHeader}
    (hLeader : protos.header frame.leader = some leader) :
    let after :=
      handled protos.responses conversation
        (SearchFrame.callFor leader frame.payload)
    Heard protos (arrived ++ [frame]) after ∧
      (conversation.wakes < after.wakes ↔
        frame.Succeeds protos) := by
  have hSucceeds :
      frame.Succeeds protos ↔ leader.status.success = true := by
    unfold SearchFrame.Succeeds
    rw [hLeader]
    simp
  intro after
  cases hSuccess : leader.status.success with
  | false =>
      have hFails : ¬ frame.Succeeds protos := by
        rw [hSucceeds, hSuccess]
        decide
      have hNot : ¬ frame.Answers protos := by
        intro hAnswers
        exact hFails hAnswers.1
      have hAfter :
          after =
            conversation.handleError
              (OutboundSearch.errorCodeOf leader.status)
              (String.join leader.status.narrative) := by
        simp only [after, SearchFrame.callFor, hSuccess]
        rfl
      rw [hAfter]
      constructor
      · apply hHeard.snoc hAccepted
        · rfl
        · rw [if_neg hNot, List.append_nil]
          rfl
        · apply iff_of_false
          · intro hZero
            exact errorCodeOf_ne_zero leader.status
              (Option.some.inj hZero)
          · exact hNot
      · apply iff_of_false
        · exact Nat.lt_irrefl _
        · exact hFails
  | true =>
      have hYes : frame.Succeeds protos := hSucceeds.mpr hSuccess
      have hAfter :
          after =
            conversation.handleMessage protos.responses
              frame.payload := by
        simp only [after, SearchFrame.callFor, hSuccess]
        rfl
      rw [hAfter]
      unfold OutboundSearchConversation.handleMessage
      rw [hHeard.kind]
      by_cases hParses :
          protos.responses .searchResponse frame.payload = true
      · have hAnswers : frame.Answers protos := ⟨hYes, hParses⟩
        rw [if_pos hParses]
        constructor
        · apply hHeard.snoc hAccepted
          · exact hHeard.kind.symm
          · rw [if_pos hAnswers]
          · exact iff_of_true rfl hAnswers
        · exact iff_of_true (Nat.lt_succ_self _) hYes
      · have hNot : ¬ frame.Answers protos := by
          intro hAnswers
          exact hParses hAnswers.2
        rw [if_neg hParses]
        constructor
        · apply hHeard.snoc hAccepted
          · exact hHeard.kind.symm
          · rw [if_neg hNot, List.append_nil]
          · exact iff_of_false (by simp) hNot
        · exact iff_of_true (Nat.lt_succ_self _) hYes

------------------------------------------------------------
-- Waking
------------------------------------------------------------

/- The callback of the notification is in place. -/
def armed : NotificationImplementation Unit :=
  NotificationImplementation.create.setCallbacks (some ()) none
    none

theorem foldl_makeRunnable
    (callbacks : List Unit)
    {self : SearchQueryRun}
    (hAwake : self.place ≠ .suspended) :
    callbacks.foldl (fun run _ => run.makeRunnable) self =
      self := by
  induction callbacks with
  | nil => rfl
  | cons callback callbacks ih =>
      have hStay : self.makeRunnable = self := by
        unfold makeRunnable
        rw [if_neg hAwake]
      rw [List.foldl_cons, hStay]
      exact ih

/- The callbacks do nothing to a task that runs. -/
theorem dispatchCallbacks_of_awake
    {self : SearchQueryRun}
    (hAwake : self.place ≠ .suspended) :
    self.dispatchCallbacks =
      { self with
        notification := self.notification.invalidate } := by
  unfold dispatchCallbacks
  rw [foldl_makeRunnable _ hAwake]

/- A wake leaves alone what is not for waking. -/
theorem wake_of_awake
    {self : SearchQueryRun}
    (hAwake : self.place ≠ .suspended) :
    ∃ waiting notification,
      self.wake =
        { self with
          waiting := waiting
          notification := notification } := by
  unfold wake
  split
  · dsimp only
    split
    · rw [dispatchCallbacks_of_awake]
      · exact ⟨_, _, rfl⟩
      · exact hAwake
    · exact ⟨_, _, rfl⟩
  · exact ⟨self.waiting, self.notification, rfl⟩

/- The wake that a deferred task waits for. -/
theorem wake_of_suspended
    {self : SearchQueryRun}
    (hSuspended : self.place = .suspended)
    (hWaiting : self.waiting = true)
    (hArmed : self.notification = armed) :
    ∃ notification,
      self.wake =
        { self with
          waiting := false
          notification := notification
          place := .pending } := by
  unfold wake
  rw [if_pos hWaiting, hArmed]
  simp only [armed, NotificationImplementation.updateState,
    NotificationImplementation.setCallbacks,
    NotificationImplementation.create,
    NotificationImplementation.isWaiting, beq_self_eq_true,
    if_true, dispatchCallbacks,
    NotificationImplementation.handlers, Option.toList,
    List.append_nil, List.foldl_cons, List.foldl_nil,
    makeRunnable, hSuspended]
  exact ⟨_, rfl⟩

/- What the arrival of a frame can do. -/
inductive Arrived
    (protos : SearchProtos)
    (self : SearchQueryRun)
    (frame : SearchFrame) : SearchQueryRun → Prop where
  | ignored
      (hNot :
        self.conversation = none ∨
          ¬ IsFor protos self.ident frame) :
      Arrived protos self frame self
  | refused
      {conversation : OutboundSearchConversation}
      (hConversation : self.conversation = some conversation)
      (hFor : IsFor protos self.ident frame)
      (hRefused : ¬ frame.Accepted) :
      Arrived protos self frame
        { self with arrived := self.arrived ++ [frame] }
  | failed
      {conversation after : OutboundSearchConversation}
      (hConversation : self.conversation = some conversation)
      (hFor : IsFor protos self.ident frame)
      (hHeard : Heard protos (self.arrived ++ [frame]) after)
      (hFails : ¬ frame.Succeeds protos) :
      Arrived protos self frame
        { self with
          arrived := self.arrived ++ [frame]
          conversation := some after }
  | woken
      {conversation after : OutboundSearchConversation}
      (hConversation : self.conversation = some conversation)
      (hHeard : Heard protos (self.arrived ++ [frame]) after)
      (hAccepted : frame.Accepted)
      (hSucceeds : frame.Succeeds protos) :
      Arrived protos self frame
        { self with
          arrived := self.arrived ++ [frame]
          conversation := some after }.wake

theorem arrives
    (protos : SearchProtos)
    (self : SearchQueryRun)
    (hHeard : ∀ conversation,
      self.conversation = some conversation →
        Heard protos self.arrived conversation)
    (frame : SearchFrame) :
    Arrived protos self frame (self.arrive protos frame) := by
  unfold arrive
  cases hConversation : self.conversation with
  | none =>
      exact .ignored (Or.inl hConversation)
  | some conversation =>
      dsimp only
      by_cases hFor : IsFor protos self.ident frame
      · rcases Option.map_eq_some_iff.mp hFor with
          ⟨leader, hLeader, _⟩
        rw [if_pos hFor]
        by_cases hAccepted : frame.Accepted
        · have hTake :
              frame.take protos.header =
                .ok (SearchFrame.callFor leader frame.payload) := by
            unfold SearchFrame.take
            rw [if_neg (Nat.not_lt.mpr hAccepted), hLeader]
          rw [hTake]
          dsimp only
          rcases handled_cases protos
            (hHeard conversation hConversation) hAccepted
            hLeader with ⟨hAfter, hWakes⟩
          split
          · rename_i hWoken
            exact .woken hConversation hAfter hAccepted
              (hWakes.mp hWoken)
          · rename_i hNot
            apply Arrived.failed hConversation hFor hAfter
            intro hSucceeds
            exact hNot (hWakes.mpr hSucceeds)
        · have hTake :
              frame.take protos.header =
                .error
                  (.invalidArgument
                    (ProtoMessageEndpoint.refuses
                      frame.bodySize)) := by
            unfold SearchFrame.take
            rw [if_pos (Nat.lt_of_not_le hAccepted)]
          rw [hTake]
          dsimp only
          rw [← hConversation]
          exact .refused hConversation hFor hAccepted
      · rw [if_neg hFor]
        exact .ignored (Or.inr hFor)

------------------------------------------------------------
-- The Invariant
------------------------------------------------------------

/- The task has not begun, or it has its conversation and goes
   on with the response. -/
def AtEntry (self : SearchQueryRun) : Prop :=
  (self.task.machine.state = some .createConv ∧
    self.conversation = none ∧ self.arrived = []) ∨
  (self.task.machine.state = some .handleResponse ∧
    self.conversation.isSome = true)

/- How the parts of a run fit its place. -/
def Fits
    (protos : SearchProtos)
    (msgId : Int32)
    (ttl : UInt16)
    (self : SearchQueryRun) : Prop :=
  match self.place with
  | .pending | .calling =>
      self.AtEntry ∧ self.replies = []
  | .started =>
      self.conversation.isSome = true ∧ self.replies = []
  | .registered =>
      self.conversation.isSome = true ∧ self.replies = [] ∧
        (self.arrived = [] →
          self.waiting = true ∧ self.notification = .create)
  | .asked waiting =>
      self.conversation.isSome = true ∧ self.replies = [] ∧
        (self.arrived = [] →
          self.waiting = true ∧ self.notification = .create ∧
            waiting = true)
  | .deferred =>
      self.task.machine.state = some .handleResponse ∧
        self.conversation.isSome = true ∧ self.replies = [] ∧
        (self.arrived = [] →
          self.waiting = true ∧ self.notification = armed)
  | .suspended =>
      self.task.machine.state = some .handleResponse ∧
        self.conversation.isSome = true ∧ self.replies = [] ∧
        self.arrived = [] ∧ self.waiting = true ∧
        self.notification = armed
  | .done _ =>
      ∃ reply, self.replies = [reply] ∧
        reply.answerId = msgId.toInt ∧
        AnswerFits protos ttl self.arrived reply.payload

/- What is known of a run, besides what fits its place. -/
structure Sound
    (protos : SearchProtos)
    (msgId : Int32)
    (ttl : UInt16)
    (query : SearchQueryRun) : Prop where
  taskSendReply : query.task.sendReply = true
  taskMsgId : query.task.msgId = msgId.toUInt32
  taskTtl : query.task.ttl = ttl
  entrypoints :
    query.task.machine.entrypoints =
      SearchQueryTask.entryPoints
  heard :
    ∀ conversation, query.conversation = some conversation →
      Heard protos query.arrived conversation
  fits : query.Fits protos msgId ttl

theorem sound_start
    (protos : SearchProtos)
    (initiator : AgentSearch)
    (msgId : Int32)
    (coreKey agentUri : String)
    (ttl : UInt16)
    (ident : UInt64) :
    Sound protos msgId ttl
      (start
        (.ofQuery initiator msgId coreKey agentUri ttl)
        ident) := by
  constructor
  · rfl
  · rfl
  · rfl
  · rfl
  · intro conversation hNone
    exact nomatch hNone
  · exact ⟨Or.inl ⟨rfl, rfl, rfl⟩, rfl⟩

theorem AnswerFits.mono
    {protos : SearchProtos}
    {ttl : UInt16}
    {arrived later : List SearchFrame}
    {payload : ServerPayload}
    (hFits : AnswerFits protos ttl arrived payload) :
    AnswerFits protos ttl (arrived ++ later) payload := by
  rcases hFits with ⟨frame, hMem, hRest⟩ | ⟨frame, hMem, hRest⟩
  · left
    exact ⟨frame, List.mem_append_left _ hMem, hRest⟩
  · right
    exact ⟨frame, List.mem_append_left _ hMem, hRest⟩

theorem Sound.answered
    {protos : SearchProtos}
    {msgId : Int32}
    {ttl : UInt16}
    {self : SearchQueryRun}
    (hSound : Sound protos msgId ttl self) :
    Answered protos msgId ttl self := by
  have hFits := hSound.fits
  unfold Fits at hFits
  constructor
  · intro hSome hSuspended
    rw [hSuspended] at hFits
    exact hSome hFits.2.2.2.1
  · intro status hDone
    rw [hDone] at hFits
    exact hFits

------------------------------------------------------------
-- Frames Keep the Invariant
------------------------------------------------------------

/- Once more is heard, the rest is what fits the place. -/
theorem Sound.hears
    {protos : SearchProtos}
    {msgId : Int32}
    {ttl : UInt16}
    {self next : SearchQueryRun}
    (hSound : Sound protos msgId ttl self)
    {frame : SearchFrame}
    {after : OutboundSearchConversation}
    (hHeard : Heard protos (self.arrived ++ [frame]) after)
    (hTask : next.task = self.task)
    (hConversation : next.conversation = some after)
    (hArrived : next.arrived = self.arrived ++ [frame])
    (hFits : next.Fits protos msgId ttl) :
    Sound protos msgId ttl next := by
  constructor
  · rw [hTask]
    exact hSound.taskSendReply
  · rw [hTask]
    exact hSound.taskMsgId
  · rw [hTask]
    exact hSound.taskTtl
  · rw [hTask]
    exact hSound.entrypoints
  · intro other hOther
    rw [hConversation] at hOther
    rw [hArrived, ← Option.some.inj hOther]
    exact hHeard
  · exact hFits

/- A frame that changes nothing about the place. -/
theorem Sound.extend
    {protos : SearchProtos}
    {msgId : Int32}
    {ttl : UInt16}
    {self next : SearchQueryRun}
    (hSound : Sound protos msgId ttl self)
    {conversation after : OutboundSearchConversation}
    (hBefore : self.conversation = some conversation)
    (hAwake : self.place ≠ .suspended)
    {frame : SearchFrame}
    (hHeard : Heard protos (self.arrived ++ [frame]) after)
    (hTask : next.task = self.task)
    (hConversation : next.conversation = some after)
    (hArrived : next.arrived = self.arrived ++ [frame])
    (hReplies : next.replies = self.replies)
    (hPlace : next.place = self.place) :
    Sound protos msgId ttl next := by
  have hFits := hSound.fits
  have hSome : next.conversation.isSome = true := by
    rw [hConversation]
    rfl
  have hNonempty : next.arrived ≠ [] := by
    rw [hArrived]
    exact List.concat_ne_nil frame self.arrived
  have hEntry : self.AtEntry → next.AtEntry := by
    rintro (⟨_, hNone, _⟩ | ⟨hState, _⟩)
    · rw [hBefore] at hNone
      exact nomatch hNone
    · right
      rw [hTask]
      exact ⟨hState, hSome⟩
  apply hSound.hears hHeard hTask hConversation hArrived
  unfold Fits at hFits ⊢
  rw [hPlace]
  cases hAt : self.place with
  | pending | calling =>
      rw [hAt] at hFits
      rw [hReplies]
      exact ⟨hEntry hFits.1, hFits.2⟩
  | started =>
      rw [hAt] at hFits
      rw [hReplies]
      exact ⟨hSome, hFits.2⟩
  | registered =>
      rw [hAt] at hFits
      rw [hReplies]
      exact ⟨hSome, hFits.2.1,
        fun hEmpty => absurd hEmpty hNonempty⟩
  | asked waiting =>
      rw [hAt] at hFits
      rw [hReplies]
      exact ⟨hSome, hFits.2.1,
        fun hEmpty => absurd hEmpty hNonempty⟩
  | deferred =>
      rw [hAt] at hFits
      rw [hTask, hReplies]
      exact ⟨hFits.1, hSome, hFits.2.2.1,
        fun hEmpty => absurd hEmpty hNonempty⟩
  | suspended => exact absurd hAt hAwake
  | done status =>
      rw [hAt] at hFits
      rcases hFits with ⟨reply, hReply, hAnswer, hFit⟩
      rw [hReplies, hArrived]
      exact ⟨reply, hReply, hAnswer, hFit.mono⟩

/- The frame that wakes the task. -/
theorem Sound.wakeUp
    {protos : SearchProtos}
    {msgId : Int32}
    {ttl : UInt16}
    {self next : SearchQueryRun}
    (hSound : Sound protos msgId ttl self)
    (hSuspended : self.place = .suspended)
    {frame : SearchFrame}
    {after : OutboundSearchConversation}
    (hHeard : Heard protos (self.arrived ++ [frame]) after)
    (hTask : next.task = self.task)
    (hConversation : next.conversation = some after)
    (hArrived : next.arrived = self.arrived ++ [frame])
    (hReplies : next.replies = self.replies)
    (hPlace : next.place = .pending) :
    Sound protos msgId ttl next := by
  have hFits := hSound.fits
  unfold Fits at hFits
  rw [hSuspended] at hFits
  rcases hFits with ⟨hState, _, hNone, _⟩
  apply hSound.hears hHeard hTask hConversation hArrived
  unfold Fits
  rw [hPlace]
  constructor
  · right
    rw [hTask, hConversation]
    exact ⟨hState, rfl⟩
  · rw [hReplies]
    exact hNone

theorem Sound.arrive
    {protos : SearchProtos}
    {msgId : Int32}
    {ttl : UInt16}
    {self : SearchQueryRun}
    (hSound : Sound protos msgId ttl self)
    {frame : SearchFrame}
    (hWell : HandledWell protos self (.frame frame)) :
    Sound protos msgId ttl (self.arrive protos frame) := by
  have hArrives := arrives protos self hSound.heard frame
  generalize self.arrive protos frame = next at hArrives ⊢
  cases hArrives with
  | ignored => exact hSound
  | refused hConversation hFor hRefused =>
      have hAwake : self.place ≠ .suspended := by
        intro hSuspended
        exact hRefused (hWell hSuspended hFor).1
      exact hSound.extend hConversation hAwake
        ((hSound.heard _ hConversation).refused hRefused)
        rfl hConversation rfl rfl rfl
  | failed hConversation hFor hHeard hFails =>
      have hAwake : self.place ≠ .suspended := by
        intro hSuspended
        exact hFails (hWell hSuspended hFor).2
      exact hSound.extend hConversation hAwake hHeard
        rfl rfl rfl rfl rfl
  | @woken conversation after hConversation hHeard =>
      by_cases hSuspended : self.place = .suspended
      · have hFits := hSound.fits
        unfold Fits at hFits
        rw [hSuspended] at hFits
        rcases hFits with ⟨_, _, _, _, hWaiting, hArmed⟩
        have hWake :=
          @wake_of_suspended
            { self with
              arrived := self.arrived ++ [frame]
              conversation := some after }
            hSuspended hWaiting hArmed
        rcases hWake with ⟨notification, hWake⟩
        rw [hWake]
        exact hSound.wakeUp hSuspended hHeard
          rfl rfl rfl rfl rfl
      · have hWake :=
          @wake_of_awake
            { self with
              arrived := self.arrived ++ [frame]
              conversation := some after }
            hSuspended
        rcases hWake with ⟨waiting, notification, hWake⟩
        rw [hWake]
        exact hSound.extend hConversation hSuspended hHeard
          rfl rfl rfl rfl rfl

------------------------------------------------------------
-- The Task Keeps the Invariant
------------------------------------------------------------

/- The answer that handles a response, if the last frame
   answers. -/
theorem handleResponse_of_answers
    {protos : SearchProtos}
    {msgId : Int32}
    {ttl : UInt16}
    {self : SearchQueryRun}
    (hSound : Sound protos msgId ttl self)
    {conversation : OutboundSearchConversation}
    (hHeard : Heard protos self.arrived conversation)
    {last : SearchFrame}
    (hLast : (heard self.arrived).getLast? = some last)
    (hAnswers : last.Answers protos) :
    ∃ reply,
      self.task.handleResponse protos conversation =
        ({ first := 0, second := .complete }, some reply) ∧
      reply.answerId = msgId.toInt ∧
      AnswerFits protos ttl self.arrived reply.payload := by
  have hStatus : conversation.statusCode = some 0 :=
    hHeard.status.mpr ⟨last, hLast, hAnswers⟩
  have hMem :
      last ∈
        (heard self.arrived).filter
          (SearchFrame.Answers protos) := by
    rw [List.mem_filter]
    exact ⟨List.mem_of_getLast? hLast,
      decide_eq_true hAnswers⟩
  cases hFilter :
      (heard self.arrived).filter
        (SearchFrame.Answers protos) with
  | nil =>
      rw [hFilter] at hMem
      exact absurd hMem List.not_mem_nil
  | cons first others =>
      have hFirst :
          first ∈
            (heard self.arrived).filter
              (SearchFrame.Answers protos) := by
        rw [hFilter]
        exact List.mem_cons_self
      rcases List.mem_filter.mp hFirst with ⟨hHeardIn, hGood⟩
      have hResponses :
          conversation.responses =
            first.payload :: others.map SearchFrame.payload := by
        rw [hHeard.responses, hFilter]
        rfl
      refine ⟨self.task.answer
        (protos.searchResponse first.payload), ?_, ?_, ?_⟩
      · unfold SearchQueryTask.handleResponse
        rw [hResponses]
        simp only [hStatus, ne_eq, not_true_eq_false, if_false,
          hSound.taskSendReply, if_true]
      · unfold SearchQueryTask.answer
        rw [hSound.taskMsgId]
        rfl
      · left
        refine ⟨first, (List.mem_filter.mp hHeardIn).1,
          of_decide_eq_true hGood, ?_⟩
        unfold SearchQueryTask.answer
        rw [hSound.taskTtl]

/- Otherwise nothing is passed to `sendReply`. -/
theorem handleResponse_of_not
    {protos : SearchProtos}
    (task : SearchQueryTask)
    {arrived : List SearchFrame}
    {conversation : OutboundSearchConversation}
    (hHeard : Heard protos arrived conversation)
    (hNot :
      ¬ ∃ frame, (heard arrived).getLast? = some frame ∧
        frame.Answers protos) :
    task.handleResponse protos conversation =
      ({ first := 0, second := .errored }, none) := by
  have hStatus : conversation.statusCode ≠ some 0 := by
    intro hZero
    exact hNot (hHeard.status.mp hZero)
  unfold SearchQueryTask.handleResponse
  split
  · rfl
  · rw [if_pos hStatus]

/- A step that only moves on. -/
theorem Sound.move
    {protos : SearchProtos}
    {msgId : Int32}
    {ttl : UInt16}
    {self next : SearchQueryRun}
    (hSound : Sound protos msgId ttl self)
    (machine : StateMachineTask SearchConversationEntry)
    (hEntrypoints :
      machine.entrypoints = SearchQueryTask.entryPoints)
    (hTask :
      next.task = { self.task with machine := machine })
    (hConversation : next.conversation = self.conversation)
    (hArrived : next.arrived = self.arrived)
    (hFits : next.Fits protos msgId ttl) :
    Sound protos msgId ttl next := by
  constructor
  · rw [hTask]
    exact hSound.taskSendReply
  · rw [hTask]
    exact hSound.taskMsgId
  · rw [hTask]
    exact hSound.taskTtl
  · rw [hTask]
    exact hEntrypoints
  · rw [hConversation, hArrived]
    exact hSound.heard
  · exact hFits

/- The conversation starts. -/
theorem Sound.createConv
    {protos : SearchProtos}
    {msgId : Int32}
    {ttl : UInt16}
    {self next : SearchQueryRun}
    (hSound : Sound protos msgId ttl self)
    (hArrived : self.arrived = [])
    (hReplies : self.replies = [])
    {conversation : OutboundSearchConversation}
    (hHeard : Heard protos [] conversation)
    (hNext :
      next =
        { self with
          conversation := some conversation
          place := .started }) :
    Sound protos msgId ttl next := by
  rw [hNext]
  constructor
  · exact hSound.taskSendReply
  · exact hSound.taskMsgId
  · exact hSound.taskTtl
  · exact hSound.entrypoints
  · intro other hOther
    dsimp only at hOther ⊢
    rw [hArrived, ← Option.some.inj hOther]
    exact hHeard
  · exact ⟨rfl, hReplies⟩

/- The machine after `createConv` has returned. -/
theorem setState_one
    {machine : StateMachineTask SearchConversationEntry}
    (hEntrypoints :
      machine.entrypoints = SearchQueryTask.entryPoints)
    (second : ExitState) :
    machine.setState { first := 1, second := second } =
      { entrypoints := SearchQueryTask.entryPoints
        state := some .handleResponse } := by
  unfold StateMachineTask.setState
  rw [hEntrypoints]
  rfl

/- What the builder does to the notification does not move the
   task, and sets the callback before any frame has come. -/
theorem advance_of_asked
    (protos : SearchProtos)
    {self : SearchQueryRun}
    {waiting : Bool}
    (hPlace : self.place = .asked waiting) :
    ∃ notification,
      (self.notification = .create → notification = armed) ∧
      self.advance protos =
        { self with notification := notification }.settle
          { first := 1
            second := if waiting then .defer else .complete } := by
  unfold advance
  rw [hPlace]
  dsimp only
  split
  · refine ⟨_, ?_, rfl⟩
    intro hCreate
    rw [hCreate]
    rfl
  · rename_i hNot
    rw [dispatchCallbacks_of_awake]
    · refine ⟨_, ?_, rfl⟩
      intro hCreate
      rw [hCreate] at hNot
      exact absurd rfl hNot
    · dsimp only
      exact QueryPlace.noConfusion

/- The entry that is called makes the conversation, or answers
   by what has arrived. -/
theorem Sound.advance_calling
    {protos : SearchProtos}
    {msgId : Int32}
    {ttl : UInt16}
    {self : SearchQueryRun}
    (hSound : Sound protos msgId ttl self)
    (hWell : HandledWell protos self .advance)
    (hPlace : self.place = .calling) :
    Sound protos msgId ttl (self.advance protos) := by
  have hFits := hSound.fits
  unfold Fits at hFits
  rw [hPlace] at hFits
  rcases hFits with ⟨hEntry, hReplies⟩
  rcases hEntry with
    ⟨hState, hNone, hArrived⟩ | ⟨hState, hSome⟩
  · apply hSound.createConv hArrived hReplies
      (heard_construct protos self.ident
        self.task.targetPath
        (protos.searchQuery self.task.makeRequestProto))
    unfold SearchQueryRun.advance
    simp only [hPlace, hState]
  · rcases Option.isSome_iff_exists.mp hSome with
      ⟨conversation, hConversation⟩
    rcases hWell.2 hPlace hState with ⟨last, hLast, hAnswers⟩
    rcases handleResponse_of_answers hSound
      (hSound.heard conversation hConversation) hLast
      hAnswers with ⟨reply, hHandle, hAnswer, hFit⟩
    unfold SearchQueryRun.advance
    simp only [hPlace, hState, hConversation, hHandle, settle]
    apply hSound.move
      (self.task.machine.setState
        { first := 0, second := .complete })
    · exact hSound.entrypoints
    · rfl
    · exact hConversation.symm
    · rfl
    · refine ⟨reply, ?_, hAnswer, hFit⟩
      rw [hReplies]
      rfl

/- The entry that asked hands over to the other one. -/
theorem Sound.advance_asked
    {protos : SearchProtos}
    {msgId : Int32}
    {ttl : UInt16}
    {self : SearchQueryRun}
    (hSound : Sound protos msgId ttl self)
    {waiting : Bool}
    (hPlace : self.place = .asked waiting) :
    Sound protos msgId ttl (self.advance protos) := by
  have hFits := hSound.fits
  unfold Fits at hFits
  rw [hPlace] at hFits
  rcases hFits with ⟨hSome, hReplies, hFresh⟩
  rcases advance_of_asked protos hPlace with
    ⟨notification, hArmed, hAdvance⟩
  rw [hAdvance]
  unfold settle
  simp only [setState_one hSound.entrypoints]
  apply hSound.move
    { entrypoints := SearchQueryTask.entryPoints
      state := some .handleResponse }
  · rfl
  · rfl
  · rfl
  · rfl
  · cases waiting with
    | true =>
        refine ⟨rfl, hSome, hReplies, ?_⟩
        intro hEmpty
        rcases hFresh hEmpty with ⟨hWaiting, hCreate, _⟩
        exact ⟨hWaiting, hArmed hCreate⟩
    | false => exact ⟨Or.inr ⟨rfl, hSome⟩, hReplies⟩

theorem Sound.advance
    {protos : SearchProtos}
    {msgId : Int32}
    {ttl : UInt16}
    {self : SearchQueryRun}
    (hSound : Sound protos msgId ttl self)
    (hWell : HandledWell protos self .advance) :
    Sound protos msgId ttl (self.advance protos) := by
  have hFits := hSound.fits
  unfold Fits at hFits
  cases hPlace : self.place with
  | pending =>
      rw [hPlace] at hFits
      unfold SearchQueryRun.advance
      rw [hPlace]
      exact hSound.move self.task.machine hSound.entrypoints
        rfl rfl rfl hFits
  | calling =>
      exact hSound.advance_calling hWell hPlace
  | started =>
      rw [hPlace] at hFits
      unfold SearchQueryRun.advance
      rw [hPlace]
      dsimp only
      refine hSound.move self.task.machine hSound.entrypoints
        rfl rfl rfl ?_
      exact ⟨hFits.1, hFits.2, fun _ => ⟨rfl, rfl⟩⟩
  | registered =>
      rw [hPlace] at hFits
      rcases hFits with ⟨hSome, hReplies, hFresh⟩
      unfold SearchQueryRun.advance
      rw [hPlace]
      dsimp only
      refine hSound.move self.task.machine hSound.entrypoints
        rfl rfl rfl ?_
      refine ⟨hSome, hReplies, ?_⟩
      intro hEmpty
      rcases hFresh hEmpty with ⟨hWaiting, hCreate⟩
      refine ⟨hWaiting, hCreate, ?_⟩
      rw [hCreate]
      rfl
  | asked waiting =>
      exact hSound.advance_asked hPlace
  | deferred =>
      rw [hPlace] at hFits
      rcases hFits with ⟨hState, hSome, hReplies, hFresh⟩
      have hEmpty := hWell.1 hPlace
      unfold SearchQueryRun.advance
      rw [hPlace]
      dsimp only
      refine hSound.move self.task.machine hSound.entrypoints
        rfl rfl rfl ?_
      exact ⟨hState, hSome, hReplies, hEmpty, hFresh hEmpty⟩
  | suspended =>
      unfold SearchQueryRun.advance
      rw [hPlace]
      exact hSound
  | done status =>
      unfold SearchQueryRun.advance
      rw [hPlace]
      exact hSound

/- Where a step is not handled well, the promise is broken. -/
theorem Sound.handledWell
    {protos : SearchProtos}
    {msgId : Int32}
    {ttl : UInt16}
    {self : SearchQueryRun}
    (hSound : Sound protos msgId ttl self)
    {event : SearchQueryEvent}
    (hAnswered :
      Answered protos msgId ttl (self.step protos event)) :
    HandledWell protos self event := by
  have hFits := hSound.fits
  unfold Fits at hFits
  cases event with
  | frame frame =>
      intro hSuspended hFor
      rw [hSuspended] at hFits
      have hArrives := arrives protos self hSound.heard frame
      unfold step at hAnswered
      dsimp only at hAnswered
      generalize self.arrive protos frame = next
        at hArrives hAnswered
      have hNonempty : self.arrived ++ [frame] ≠ [] :=
        List.concat_ne_nil frame self.arrived
      cases hArrives with
      | ignored hNot =>
          rcases hNot with hNone | hNotFor
          · have hSome := hFits.2.1
            rw [hNone] at hSome
            exact absurd hSome (by decide)
          · exact absurd hFor hNotFor
      | refused =>
          exact absurd hSuspended (hAnswered.woken hNonempty)
      | failed =>
          exact absurd hSuspended (hAnswered.woken hNonempty)
      | woken _ _ hAccepted hSucceeds =>
          exact ⟨hAccepted, hSucceeds⟩
  | advance =>
      constructor
      · intro hDeferred
        by_contra hSome
        apply hAnswered.woken
        · unfold step SearchQueryRun.advance
          simp only [hDeferred]
          exact hSome
        · unfold step SearchQueryRun.advance
          simp only [hDeferred]
      · intro hCalling hState
        rw [hCalling] at hFits
        by_contra hNot
        rcases hFits with ⟨⟨hOther, _⟩ | ⟨_, hSome⟩, hReplies⟩
        · rw [hState] at hOther
          exact absurd hOther (by decide)
        · rcases Option.isSome_iff_exists.mp hSome with
            ⟨conversation, hConversation⟩
          have hHandle :=
            handleResponse_of_not self.task
              (hSound.heard conversation hConversation) hNot
          have hStep :
              (self.step protos .advance).place =
                  .done .errored ∧
                (self.step protos .advance).replies = [] := by
            unfold step SearchQueryRun.advance
            simp only [hCalling, hState, hConversation,
              hHandle, settle, Option.toList,
              List.append_nil]
            exact ⟨rfl, hReplies⟩
          rcases hAnswered.answered .errored hStep.1 with
            ⟨reply, hReply, _⟩
          rw [hStep.2] at hReply
          exact nomatch hReply

------------------------------------------------------------
-- Every Query Is Answered
------------------------------------------------------------

/- Every header is read as an error for conversation 1. -/
def errorProtos : SearchProtos where
  header := fun _ =>
    some
      { uri := ""
        id := 1
        status :=
          { success := false
            errorCode := 7
            narrative := ["gone"] } }
  responses := fun _ _ => true
  searchResponse := fun _ => { result := [] }
  searchQuery := fun _ => []

def errorRun : List SearchQueryEvent :=
  List.replicate 6 .advance ++
    [.frame { leader := [], payload := [] }]

end SearchQueryRun

end OefCore
