import OefCore.Conversations.SearchConversationTask

/-
  What becomes of a conversation task, whatever frames come
  and whenever: it handles its response once, after a frame
  with a successful status has woken it, and by what it has
  heard until then.

  Main declarations:
    * `SearchConversationRun.Heard`
    * `SearchConversationRun.Settled`
    * `SearchConversationRun.settled_run`
    * `ServiceTask.told_run`, `SearchQueryRun.replied_run`
-/

namespace OefCore

namespace SearchConversationRun

variable {R : Type}

------------------------------------------------------------
-- Frames
------------------------------------------------------------

section Frames

variable (header : Wire → Option TransportHeader)
variable (responses : ResponseProtos)
variable (kind : ResponseKind)

/- A frame whose status is successful. -/
def Succeeds (frame : SearchFrame) : Prop :=
  (header frame.leader).map
      (fun leader => leader.status.success) =
    some true

/- Its payload is parsed as well. -/
def Answers (frame : SearchFrame) : Prop :=
  Succeeds header frame ∧
    responses kind frame.payload = true

instance (frame : SearchFrame) :
    Decidable (Succeeds header frame) := by
  unfold Succeeds
  infer_instance

instance (frame : SearchFrame) :
    Decidable (Answers header responses kind frame) := by
  unfold Answers
  infer_instance

/- The payloads that a conversation has kept of the frames
   that came for it. -/
def kept (arrived : List SearchFrame) : List Wire :=
  ((SearchQueryRun.heard arrived).filter
    (Answers header responses kind)).map SearchFrame.payload

/- A frame with a successful status was not refused. -/
def Woken (arrived : List SearchFrame) : Prop :=
  ∃ frame ∈ SearchQueryRun.heard arrived,
    Succeeds header frame

/- The last frame that was not refused answers. -/
def LastAnswers (arrived : List SearchFrame) : Prop :=
  ∃ frame,
    (SearchQueryRun.heard arrived).getLast? = some frame ∧
      Answers header responses kind frame

/- The replies of a conversation are the payloads that it has
   kept; its status is that of the last frame. -/
structure Heard
    (arrived : List SearchFrame)
    (conversation : OutboundSearchConversation) : Prop where
  kind_eq : conversation.kind = kind
  responses_eq :
    conversation.responses = kept header responses kind arrived
  status_iff :
    conversation.statusCode = some 0 ↔
      LastAnswers header responses kind arrived

end Frames

section Hearing

variable {header : Wire → Option TransportHeader}
variable {responses : ResponseProtos}
variable {kind : ResponseKind}

theorem Woken.mono
    {arrived later : List SearchFrame}
    (hWoken : Woken header arrived) :
    Woken header (arrived ++ later) := by
  obtain ⟨frame, hMem, hSucceeds⟩ := hWoken
  refine ⟨frame, ?_, hSucceeds⟩
  unfold SearchQueryRun.heard
  rw [List.filter_append]
  exact List.mem_append_left _ hMem

theorem woken_snoc
    (arrived : List SearchFrame)
    {frame : SearchFrame}
    (hAccepted : frame.Accepted)
    (hSucceeds : Succeeds header frame) :
    Woken header (arrived ++ [frame]) := by
  refine ⟨frame, ?_, hSucceeds⟩
  rw [SearchQueryRun.heard_snoc arrived hAccepted]
  exact List.mem_append_right _ List.mem_cons_self

theorem heard_construct
    (type : SearchConversationType)
    (ident : UInt64)
    (uri : Uri)
    (initiator : Wire) :
    Heard header responses kind []
      (.construct type kind ident uri initiator) where
  kind_eq := rfl
  responses_eq := rfl
  status_iff := by
    simp [OutboundSearchConversation.construct, LastAnswers,
      SearchQueryRun.heard]

theorem Heard.refused
    {arrived : List SearchFrame}
    {conversation : OutboundSearchConversation}
    (hHeard :
      Heard header responses kind arrived conversation)
    {frame : SearchFrame}
    (hRefused : ¬ frame.Accepted) :
    Heard header responses kind (arrived ++ [frame])
      conversation := by
  have hSame :=
    SearchQueryRun.heard_snoc_refused arrived hRefused
  constructor
  · exact hHeard.kind_eq
  · rw [hHeard.responses_eq, kept, kept, hSame]
  · rw [LastAnswers, hSame]
    exact hHeard.status_iff

/- A frame that is heard gives its status, and its payload if it
   answers. -/
theorem Heard.snoc
    {arrived : List SearchFrame}
    {conversation after : OutboundSearchConversation}
    (hHeard :
      Heard header responses kind arrived conversation)
    {frame : SearchFrame}
    (hAccepted : frame.Accepted)
    (hKind : after.kind = conversation.kind)
    (hResponses :
      after.responses =
        conversation.responses ++
          if Answers header responses kind frame then
            [frame.payload]
          else [])
    (hStatus :
      after.statusCode = some 0 ↔
        Answers header responses kind frame) :
    Heard header responses kind (arrived ++ [frame])
      after := by
  have hMore := SearchQueryRun.heard_snoc arrived hAccepted
  constructor
  · rw [hKind]
    exact hHeard.kind_eq
  · rw [hResponses, hHeard.responses_eq, kept, kept, hMore,
      List.filter_append, List.map_append]
    by_cases hAnswers : Answers header responses kind frame
    · simp [hAnswers]
    · simp [hAnswers]
  · rw [LastAnswers, hMore, hStatus]
    simp

/- The payload of the last frame is kept if it answers. -/
theorem kept_of_lastAnswers
    {arrived : List SearchFrame}
    (hLast : LastAnswers header responses kind arrived) :
    ∃ response others,
      kept header responses kind arrived =
        response :: others := by
  obtain ⟨frame, hFrame, hAnswers⟩ := hLast
  have hMem :
      frame.payload ∈ kept header responses kind arrived := by
    refine List.mem_map_of_mem (List.mem_filter.mpr ?_)
    exact ⟨List.mem_of_getLast? hFrame,
      decide_eq_true hAnswers⟩
  exact List.exists_cons_of_ne_nil (List.ne_nil_of_mem hMem)

/- What the handler of a frame does to the conversation; it
   wakes its task for a successful status. -/
theorem Heard.handled
    {arrived : List SearchFrame}
    {conversation : OutboundSearchConversation}
    (hHeard :
      Heard header responses kind arrived conversation)
    {frame : SearchFrame}
    (hAccepted : frame.Accepted)
    {leader : TransportHeader}
    (hLeader : header frame.leader = some leader) :
    Heard header responses kind (arrived ++ [frame])
        (SearchQueryRun.handled responses conversation
          (SearchFrame.callFor leader frame.payload)) ∧
      (conversation.wakes <
          (SearchQueryRun.handled responses conversation
            (SearchFrame.callFor leader frame.payload)).wakes ↔
        Succeeds header frame) := by
  have hSucceeds :
      Succeeds header frame ↔ leader.status.success = true := by
    simp [Succeeds, hLeader]
  cases hSuccess : leader.status.success with
  | false =>
      have hFails : ¬ Succeeds header frame := by
        simp [hSucceeds, hSuccess]
      have hNot : ¬ Answers header responses kind frame :=
        fun hAnswers => hFails hAnswers.1
      have hAfter :
          SearchQueryRun.handled responses conversation
              (SearchFrame.callFor leader frame.payload) =
            conversation.handleError
              (OutboundSearch.errorCodeOf leader.status)
              (String.join leader.status.narrative) := by
        simp only [SearchFrame.callFor, hSuccess]
        rfl
      rw [hAfter]
      constructor
      · apply hHeard.snoc hAccepted
        · rfl
        · rw [if_neg hNot, List.append_nil]
          rfl
        · refine iff_of_false (fun hZero => ?_) hNot
          exact SearchQueryRun.errorCodeOf_ne_zero
            leader.status (Option.some.inj hZero)
      · exact iff_of_false (Nat.lt_irrefl _) hFails
  | true =>
      have hYes : Succeeds header frame :=
        hSucceeds.mpr hSuccess
      have hAfter :
          SearchQueryRun.handled responses conversation
              (SearchFrame.callFor leader frame.payload) =
            conversation.handleMessage responses
              frame.payload := by
        simp only [SearchFrame.callFor, hSuccess]
        rfl
      rw [hAfter]
      unfold OutboundSearchConversation.handleMessage
      rw [hHeard.kind_eq]
      by_cases hParses : responses kind frame.payload = true
      · have hAnswers : Answers header responses kind frame :=
          ⟨hYes, hParses⟩
        rw [if_pos hParses]
        constructor
        · apply hHeard.snoc hAccepted
          · exact hHeard.kind_eq.symm
          · rw [if_pos hAnswers]
          · exact iff_of_true rfl hAnswers
        · exact iff_of_true (Nat.lt_succ_self _) hYes
      · have hNot : ¬ Answers header responses kind frame :=
          fun hAnswers => hParses hAnswers.2
        rw [if_neg hParses]
        constructor
        · apply hHeard.snoc hAccepted
          · exact hHeard.kind_eq.symm
          · rw [if_neg hNot, List.append_nil]
          · exact iff_of_false (by simp) hNot
        · exact iff_of_true (Nat.lt_succ_self _) hYes

end Hearing

------------------------------------------------------------
-- Waking
------------------------------------------------------------

/- The callbacks do nothing but make a task runnable that is
   suspended. -/
theorem foldl_makeRunnable
    (callbacks : List Unit)
    (self : SearchConversationRun R) :
    callbacks.foldl (fun run _ => run.makeRunnable) self =
        self ∨
      self.place = .suspended ∧
        callbacks.foldl (fun run _ => run.makeRunnable) self =
          { self with place := .pending } := by
  induction callbacks generalizing self with
  | nil => exact .inl rfl
  | cons callback callbacks ih =>
      rw [List.foldl_cons, makeRunnable]
      split
      · next hSuspended =>
          refine .inr ⟨hSuspended, ?_⟩
          rcases ih { self with place := .pending } with
            hSame | ⟨hOther, -⟩
          · exact hSame
          · exact nomatch hOther
      · exact ih self

/- What a wake leaves: the place and the notification alone, or
   a notification that was made, and perhaps a task that goes
   on. -/
theorem wake_cases (self : SearchConversationRun R) :
    ∃ waiting notification place,
      self.wake =
          { self with
            waiting := waiting
            notification := notification
            place := place } ∧
        (place = self.place ∨
          self.place = .suspended ∧ place = .pending) := by
  unfold wake
  split
  · dsimp only
    split
    · unfold dispatchCallbacks
      dsimp only
      rcases foldl_makeRunnable
          (NotificationImplementation.handlers
            (self.notification.updateState .success).2)
          { self with
            waiting := false
            notification :=
              (self.notification.updateState .success).2 } with
        hSame | ⟨hSuspended, hMoved⟩
      · rw [hSame]
        exact ⟨_, _, _, rfl, .inl rfl⟩
      · rw [hMoved]
        exact ⟨_, _, _, rfl, .inr ⟨hSuspended, rfl⟩⟩
    · exact ⟨_, _, _, rfl, .inl rfl⟩
  · exact ⟨_, _, _, rfl, .inl rfl⟩

/- What the builder does leaves the place alone. -/
theorem dispatchCallbacks_of_awake
    {self : SearchConversationRun R}
    (hAwake : self.place ≠ .suspended) :
    self.dispatchCallbacks =
      { self with
        notification := self.notification.invalidate } := by
  unfold dispatchCallbacks
  rcases foldl_makeRunnable self.notification.handlers self with
    hSame | ⟨hSuspended, -⟩
  · rw [hSame]
  · exact absurd hSuspended hAwake

------------------------------------------------------------
-- The Invariant
------------------------------------------------------------

section Invariant

variable (header : Wire → Option TransportHeader)
variable (responses : ResponseProtos)
variable (kind : ResponseKind)
variable (task : SearchConversationTask R)

/- The response was handled, by what was heard until then. -/
def Handled
    (self : SearchConversationRun R)
    (status : ExitState) : Prop :=
  ∃ seen conversation,
    seen <+: self.arrived ∧ Woken header seen ∧
      Heard header responses kind seen conversation ∧
        (task.handleResponse conversation).1.second = status ∧
          self.replies =
            (task.handleResponse conversation).2.toList

/- How the parts of a run fit its place. -/
def Fits (self : SearchConversationRun R) : Prop :=
  match self.place with
  | .pending | .calling =>
      self.replies = [] ∧
        (self.machine.state = some .createConv ∧
            self.conversation = none ∨
          self.machine.state = some .handleResponse ∧
            self.conversation.isSome = true ∧
              Woken header self.arrived)
  | .started =>
      self.replies = [] ∧ self.conversation.isSome = true
  | .registered =>
      self.replies = [] ∧ self.conversation.isSome = true ∧
        (self.notification.isWaiting = true ∨
          Woken header self.arrived)
  | .asked waiting =>
      self.replies = [] ∧ self.conversation.isSome = true ∧
        (waiting = true ∨ Woken header self.arrived)
  | .deferred | .suspended =>
      self.replies = [] ∧ self.conversation.isSome = true ∧
        self.machine.state = some .handleResponse
  | .done status =>
      self.Handled header responses kind task status

structure Sound (r : SearchConversationRun R) : Prop where
  entrypoints :
    r.machine.entrypoints = SearchQueryTask.entryPoints
  heard :
    ∀ conversation, r.conversation = some conversation →
      Heard header responses kind r.arrived conversation
  unheard : r.conversation = none → r.arrived = []
  fits : r.Fits header responses kind task

end Invariant

section Preservation

variable {header : Wire → Option TransportHeader}
variable {responses : ResponseProtos}
variable {kind : ResponseKind}
variable {task : SearchConversationTask R}

------------------------------------------------------------
-- Frames Keep the Invariant
------------------------------------------------------------

/- A frame is not for the conversation; or it is heard, and
   wakes the task only if its status is successful. -/
theorem arrive_cases
    {self : SearchConversationRun R}
    (hHeard :
      ∀ conversation, self.conversation = some conversation →
        Heard header responses kind self.arrived conversation)
    (frame : SearchFrame) :
    self.arrive header responses frame = self ∨
      ∃ after waiting notification place,
        self.conversation.isSome = true ∧
        self.arrive header responses frame =
          { self with
            arrived := self.arrived ++ [frame]
            conversation := some after
            waiting := waiting
            notification := notification
            place := place } ∧
        Heard header responses kind (self.arrived ++ [frame])
          after ∧
        (notification = self.notification ∧
            place = self.place ∨
          Woken header (self.arrived ++ [frame]) ∧
            (place = self.place ∨
              self.place = .suspended ∧ place = .pending)) := by
  unfold arrive
  cases hConversation : self.conversation with
  | none => exact .inl rfl
  | some conversation =>
      dsimp only
      have hBefore := hHeard conversation hConversation
      by_cases hFor :
          frameIdent header frame = some self.ident
      · rw [if_pos hFor]
        obtain ⟨leader, hLeader, -⟩ :=
          Option.map_eq_some_iff.mp hFor
        right
        by_cases hAccepted : frame.Accepted
        · have hTake :
              frame.take header =
                .ok (SearchFrame.callFor leader
                  frame.payload) := by
            unfold SearchFrame.take
            rw [if_neg (Nat.not_lt.mpr hAccepted), hLeader]
          rw [hTake]
          dsimp only
          obtain ⟨hAfter, hWakes⟩ :=
            hBefore.handled hAccepted hLeader
          split
          · next hWoken =>
              have hMore :=
                woken_snoc self.arrived hAccepted
                  (hWakes.mp hWoken)
              obtain ⟨waiting, notification, place, hWake,
                hPlace⟩ := wake_cases
                  { self with
                    arrived := self.arrived ++ [frame]
                    conversation :=
                      some (SearchQueryRun.handled responses
                        conversation
                        (SearchFrame.callFor leader
                          frame.payload)) }
              exact ⟨_, waiting, notification, place, rfl,
                hWake, hAfter, .inr ⟨hMore, hPlace⟩⟩
          · exact ⟨_, _, _, _, rfl, rfl, hAfter,
              .inl ⟨rfl, rfl⟩⟩
        · have hTake :
              frame.take header =
                .error
                  (.invalidArgument
                    (ProtoMessageEndpoint.refuses
                      frame.bodySize)) := by
            unfold SearchFrame.take
            rw [if_pos (Nat.lt_of_not_le hAccepted)]
          rw [hTake]
          exact ⟨conversation, self.waiting, _, _, rfl, rfl,
            hBefore.refused hAccepted, .inl ⟨rfl, rfl⟩⟩
      · rw [if_neg hFor]
        exact .inl rfl

theorem Handled.mono
    {self next : SearchConversationRun R}
    {status : ExitState}
    (hHandled :
      self.Handled header responses kind task status)
    (hArrived : self.arrived <+: next.arrived)
    (hReplies : next.replies = self.replies) :
    next.Handled header responses kind task status := by
  obtain ⟨seen, conversation, hSeen, hRest⟩ := hHandled
  refine ⟨seen, conversation, hSeen.trans hArrived, ?_⟩
  rw [hReplies]
  exact hRest

/- A frame that is heard leaves what fits the place. -/
theorem Fits.hears
    {self next : SearchConversationRun R}
    (hFits : self.Fits header responses kind task)
    (hSome : self.conversation.isSome = true)
    {frame : SearchFrame}
    (hMachine : next.machine = self.machine)
    (hReplies : next.replies = self.replies)
    (hArrived : next.arrived = self.arrived ++ [frame])
    (hConversation : next.conversation.isSome = true)
    (hNotified :
      next.notification = self.notification ∨
        Woken header next.arrived)
    (hPlace : next.place = self.place) :
    next.Fits header responses kind task := by
  have hMono : Woken header self.arrived →
      Woken header next.arrived := by
    rw [hArrived]
    exact Woken.mono
  unfold Fits at hFits ⊢
  rw [hPlace, hMachine]
  cases hAt : self.place with
  | pending | calling =>
      rw [hAt] at hFits
      refine ⟨hReplies.trans hFits.1, ?_⟩
      rcases hFits.2 with ⟨-, hNone⟩ | ⟨hState, -, hWoken⟩
      · rw [hNone] at hSome
        exact nomatch hSome
      · exact .inr ⟨hState, hConversation, hMono hWoken⟩
  | started =>
      rw [hAt] at hFits
      exact ⟨hReplies.trans hFits.1, hConversation⟩
  | registered =>
      rw [hAt] at hFits
      refine ⟨hReplies.trans hFits.1, hConversation, ?_⟩
      rcases hNotified with hSame | hWoken
      · rw [hSame]
        exact hFits.2.2.imp_right hMono
      · exact .inr hWoken
  | asked waiting =>
      rw [hAt] at hFits
      exact ⟨hReplies.trans hFits.1, hConversation,
        hFits.2.2.imp_right hMono⟩
  | deferred | suspended =>
      rw [hAt] at hFits
      exact ⟨hReplies.trans hFits.1, hConversation,
        hFits.2.2⟩
  | done status =>
      rw [hAt] at hFits
      refine hFits.mono ?_ hReplies
      rw [hArrived]
      exact List.prefix_append _ _

theorem Sound.arrive
    {self : SearchConversationRun R}
    (hSound : self.Sound header responses kind task)
    (frame : SearchFrame) :
    (self.arrive header responses frame).Sound header
      responses kind task := by
  rcases arrive_cases hSound.heard frame with
    hSame | ⟨after, waiting, notification, place, hSome,
      hNext, hHeard, hWakes⟩
  · rw [hSame]
    exact hSound
  · rw [hNext]
    constructor
    · exact hSound.entrypoints
    · intro conversation hConversation
      rw [← Option.some.inj hConversation]
      exact hHeard
    · intro hNone
      exact nomatch hNone
    · have hFits := hSound.fits
      rcases hWakes with ⟨hSame, hPlace⟩ |
        ⟨hWoken, hPlace | ⟨hSuspended, hPending⟩⟩
      · exact hFits.hears hSome rfl rfl rfl rfl (.inl hSame)
          hPlace
      · exact hFits.hears hSome rfl rfl rfl rfl (.inr hWoken)
          hPlace
      · unfold Fits at hFits ⊢
        rw [hSuspended] at hFits
        dsimp only
        rw [hPending]
        exact ⟨hFits.1, .inr ⟨hFits.2.2, rfl, hWoken⟩⟩

------------------------------------------------------------
-- The Task Keeps the Invariant
------------------------------------------------------------

/- An implementation ends its run, and does not wait again. -/
def Ends (task : SearchConversationTask R) : Prop :=
  ∀ conversation,
    (task.handleResponse conversation).1.first = 0 ∧
      (task.handleResponse conversation).1.second ≠ .defer

/- The kind of response that its path is answered with. -/
def Asks
    (task : SearchConversationTask R)
    (kind : ResponseKind) : Prop :=
  ∃ type,
    OutboundSearch.conversationFor (targetPath task.path).path =
      some (type, kind)

/- A step that leaves alone what was heard. -/
theorem Sound.move
    {self next : SearchConversationRun R}
    (hSound : self.Sound header responses kind task)
    (hEntrypoints :
      next.machine.entrypoints = self.machine.entrypoints)
    (hConversation : next.conversation = self.conversation)
    (hArrived : next.arrived = self.arrived)
    (hFits : next.Fits header responses kind task) :
    next.Sound header responses kind task where
  entrypoints := hEntrypoints.trans hSound.entrypoints
  heard := by
    rw [hConversation, hArrived]
    exact hSound.heard
  unheard := by
    rw [hConversation, hArrived]
    exact hSound.unheard
  fits := hFits

theorem Sound.createConv
    {self : SearchConversationRun R}
    (hSound : self.Sound header responses kind task)
    (hAsks : Asks task kind)
    (hReplies : self.replies = [])
    (hArrived : self.arrived = []) :
    (self.createConv task).Sound header responses kind
      task := by
  obtain ⟨type, hType⟩ := hAsks
  unfold SearchConversationRun.createConv
  simp only [hType]
  constructor
  · exact hSound.entrypoints
  · intro conversation hConversation
    rw [← Option.some.inj hConversation]
    dsimp only
    rw [hArrived]
    exact heard_construct type self.ident _ _
  · intro hNone
    exact nomatch hNone
  · exact ⟨hReplies, rfl⟩

/- The response is handled, and the run ends. -/
theorem settle_handled
    (hEnds : Ends task)
    (self : SearchConversationRun R)
    (conversation : OutboundSearchConversation) :
    (self.settle
        (task.handleResponse conversation).1).place =
      .done (task.handleResponse conversation).1.second := by
  obtain ⟨hFirst, hSecond⟩ := hEnds conversation
  unfold settle StateMachineTask.verdict
    StateMachineTask.setState
  simp only [hFirst, ne_eq, not_true_eq_false, if_false,
    Option.isNone_none, if_true]
  cases hStatus : (task.handleResponse conversation).1.second with
  | defer => exact absurd hStatus hSecond
  | complete => rfl
  | cancelled => rfl
  | errored => rfl

/- Where `createConv` returns to. -/
theorem settle_created
    {self : SearchConversationRun R}
    (hEntrypoints :
      self.machine.entrypoints = SearchQueryTask.entryPoints)
    (waiting : Bool) :
    let settled :=
      self.settle
        { first := 1
          second := if waiting then .defer else .complete }
    settled.machine.state = some .handleResponse ∧
      settled.place =
        if waiting then .deferred else .calling := by
  unfold settle StateMachineTask.setState
  simp only [hEntrypoints]
  cases waiting with
  | true => exact ⟨rfl, rfl⟩
  | false => exact ⟨rfl, rfl⟩

theorem Sound.advance_calling
    {self : SearchConversationRun R}
    (hSound : self.Sound header responses kind task)
    (hEnds : Ends task)
    (hAsks : Asks task kind)
    (hPlace : self.place = .calling) :
    (self.advance task).Sound header responses kind task := by
  have hFits := hSound.fits
  unfold Fits at hFits
  rw [hPlace] at hFits
  obtain ⟨hReplies, hEntry⟩ := hFits
  unfold SearchConversationRun.advance
  rcases hEntry with
    ⟨hState, hNone⟩ | ⟨hState, hSome, hWoken⟩
  · simp only [hPlace, hState]
    exact hSound.createConv hAsks hReplies
      (hSound.unheard hNone)
  · obtain ⟨conversation, hConversation⟩ :=
      Option.isSome_iff_exists.mp hSome
    simp only [hPlace, hState, hConversation]
    refine hSound.move rfl hConversation.symm rfl ?_
    unfold Fits
    rw [settle_handled hEnds]
    refine ⟨self.arrived, conversation, List.prefix_rfl,
      hWoken, hSound.heard conversation hConversation, rfl, ?_⟩
    change self.replies ++ _ = _
    rw [hReplies, List.nil_append]

theorem Sound.advance_asked
    {self : SearchConversationRun R}
    (hSound : self.Sound header responses kind task)
    {waiting : Bool}
    (hPlace : self.place = .asked waiting) :
    (self.advance task).Sound header responses kind task := by
  have hFits := hSound.fits
  unfold Fits at hFits
  rw [hPlace] at hFits
  obtain ⟨hReplies, hSome, hWaits⟩ := hFits
  -- the builder only changes the notification
  have hBuilt : ∃ notification,
      self.advance task =
        { self with notification := notification }.settle
          { first := 1
            second := if waiting then .defer else .complete } := by
    unfold SearchConversationRun.advance
    rw [hPlace]
    dsimp only
    split
    · exact ⟨_, rfl⟩
    · rw [dispatchCallbacks_of_awake]
      · exact ⟨_, rfl⟩
      · dsimp only
        exact QueryPlace.noConfusion
  obtain ⟨notification, hAdvance⟩ := hBuilt
  rw [hAdvance]
  have hEntrypoints :
      { self with
        notification := notification }.machine.entrypoints =
        SearchQueryTask.entryPoints := hSound.entrypoints
  obtain ⟨hState, hSettled⟩ :=
    settle_created hEntrypoints waiting
  refine hSound.move rfl rfl rfl ?_
  unfold Fits
  rw [hSettled]
  cases waiting with
  | true => exact ⟨hReplies, hSome, hState⟩
  | false =>
      have hWoken : Woken header self.arrived :=
        hWaits.resolve_left (by decide)
      exact ⟨hReplies, .inr ⟨hState, hSome, hWoken⟩⟩

theorem Sound.advance
    {self : SearchConversationRun R}
    (hSound : self.Sound header responses kind task)
    (hEnds : Ends task)
    (hAsks : Asks task kind) :
    (self.advance task).Sound header responses kind task := by
  have hFits := hSound.fits
  unfold Fits at hFits
  cases hPlace : self.place with
  | pending =>
      rw [hPlace] at hFits
      unfold SearchConversationRun.advance
      rw [hPlace]
      exact hSound.move rfl rfl rfl hFits
  | calling => exact hSound.advance_calling hEnds hAsks hPlace
  | started =>
      rw [hPlace] at hFits
      unfold SearchConversationRun.advance
      rw [hPlace]
      exact hSound.move rfl rfl rfl
        ⟨hFits.1, hFits.2, .inl rfl⟩
  | registered =>
      rw [hPlace] at hFits
      unfold SearchConversationRun.advance
      rw [hPlace]
      exact hSound.move rfl rfl rfl hFits
  | asked waiting => exact hSound.advance_asked hPlace
  | deferred =>
      rw [hPlace] at hFits
      unfold SearchConversationRun.advance
      rw [hPlace]
      exact hSound.move rfl rfl rfl hFits
  | suspended =>
      unfold SearchConversationRun.advance
      rw [hPlace]
      exact hSound
  | done status =>
      unfold SearchConversationRun.advance
      rw [hPlace]
      exact hSound

theorem sound_run
    (header : Wire → Option TransportHeader)
    (responses : ResponseProtos)
    {kind : ResponseKind}
    {task : SearchConversationTask R}
    (hEnds : Ends task)
    (hAsks : Asks task kind)
    (ident : UInt64)
    (events : List SearchQueryEvent) :
    ((start ident).run header responses task events).Sound
      header responses kind task := by
  induction events using List.reverseRecOn with
  | nil =>
      constructor
      · rfl
      · intro conversation hNone
        exact nomatch hNone
      · exact fun _ => rfl
      · exact ⟨rfl, .inl ⟨rfl, rfl⟩⟩
  | append_singleton events event ih =>
      rw [run_snoc]
      cases event with
      | advance => exact ih.advance hEnds hAsks
      | frame frame => exact ih.arrive frame

/-
  Nothing is passed to `sendReply` before the task is done;
  and once it is, the response was handled once, by what the
  conversation had heard when a frame had woken it.
-/
structure Settled
    (header : Wire → Option TransportHeader)
    (responses : ResponseProtos)
    (kind : ResponseKind)
    (task : SearchConversationTask R)
    (r : SearchConversationRun R) : Prop where
  silent :
    (∀ status, r.place ≠ .done status) → r.replies = []
  handled :
    ∀ status, r.place = .done status →
      r.Handled header responses kind task status

theorem Sound.settled
    {self : SearchConversationRun R}
    (hSound : self.Sound header responses kind task) :
    self.Settled header responses kind task := by
  have hFits := hSound.fits
  unfold Fits at hFits
  constructor
  · intro hNot
    cases hPlace : self.place with
    | pending | calling | started | registered | deferred
    | suspended =>
        rw [hPlace] at hFits
        exact hFits.1
    | asked waiting =>
        rw [hPlace] at hFits
        exact hFits.1
    | done status => exact absurd hPlace (hNot status)
  · intro status hDone
    rw [hDone] at hFits
    exact hFits

theorem settled_run
    (header : Wire → Option TransportHeader)
    (responses : ResponseProtos)
    {kind : ResponseKind}
    {task : SearchConversationTask R}
    (hEnds : Ends task)
    (hAsks : Asks task kind)
    (ident : UInt64)
    (events : List SearchQueryEvent) :
    ((start ident).run header responses task events).Settled
      header responses kind task :=
  (sound_run header responses hEnds hAsks ident
    events).settled

end Preservation

end SearchConversationRun

------------------------------------------------------------
-- Registrations
------------------------------------------------------------

/- A task that changes what is registered. -/
inductive ServiceTask where
  | update (task : SearchUpdateTask)
  | remove (task : SearchRemoveTask)

namespace ServiceTask

open SearchConversationRun

def task
    (protos : ServiceProtos) :
    ServiceTask → SearchConversationTask ServerAgentMessage
  | .update task => task.task protos
  | .remove task => task.task protos

def kind : ServiceTask → ResponseKind
  | .update _ => .updateResponse
  | .remove _ => .removeResponse

def statusOf (protos : ServiceProtos) : ServiceTask → Wire → Int
  | .update _ => protos.updateStatus
  | .remove _ => protos.removeStatus

/- The answer to an agent, if it is to be told of a failure. -/
def failure : ServiceTask → Option ServerAgentMessage
  | .update task =>
      if task.sendReply then
        some (errorAnswer .registerService task.msgId)
      else
        none
  | .remove task =>
      if task.sendReply then
        some (errorAnswer .unregisterService task.msgId)
      else
        none

theorem handleResponse_eq
    (protos : ServiceProtos)
    (self : ServiceTask)
    (conversation : OutboundSearchConversation) :
    (self.task protos).handleResponse conversation =
      match conversation.responses with
      | [] => ({ first := 0, second := .errored }, none)
      | response :: _ =>
          ({ first := 0, second := .complete },
            if self.statusOf protos response ≠ 0 then
              self.failure
            else
              none) := by
  cases self with
  | update task =>
      simp only [ServiceTask.task, SearchUpdateTask.task,
        SearchUpdateTask.handleResponse, statusResponse,
        statusOf, failure, ite_and]
      cases conversation.responses with
      | nil => rfl
      | cons response others => rfl
  | remove task =>
      simp only [ServiceTask.task, SearchRemoveTask.task,
        SearchRemoveTask.handleResponse, statusResponse,
        statusOf, failure, ite_and]
      cases conversation.responses with
      | nil => rfl
      | cons response others => rfl

theorem ends
    (protos : ServiceProtos)
    (self : ServiceTask) :
    Ends (self.task protos) := by
  intro conversation
  rw [handleResponse_eq]
  cases conversation.responses with
  | nil => exact ⟨rfl, by simp⟩
  | cons response others => exact ⟨rfl, by simp⟩

theorem asks
    (protos : ServiceProtos)
    (self : ServiceTask) :
    Asks (self.task protos) self.kind := by
  cases self with
  | update task => exact ⟨.update, rfl⟩
  | remove task => exact ⟨.remove, rfl⟩

/-
  An agent is told nothing before its task is done. The task
  is done by what its conversation had kept when a successful
  frame had woken it: without a response it fails silently;
  with one, the first decides, and the agent is told once if
  it is to be told and the status is not a success.
-/
structure Told
    (protos : ServiceProtos)
    (self : ServiceTask)
    (r : SearchConversationRun ServerAgentMessage) :
    Prop where
  silent :
    (∀ status, r.place ≠ .done status) → r.replies = []
  told : ∀ status, r.place = .done status →
    ∃ seen, seen <+: r.arrived ∧ Woken protos.header seen ∧
      match kept protos.header protos.responses self.kind seen with
      | [] => status = .errored ∧ r.replies = []
      | response :: _ =>
          status = .complete ∧
            r.replies =
              if self.statusOf protos response ≠ 0 then
                self.failure.toList
              else
                []

/- Whatever frames come for a registration, and whenever. -/
theorem told_run
    (protos : ServiceProtos)
    (self : ServiceTask)
    (ident : UInt64)
    (events : List SearchQueryEvent) :
    self.Told protos
      ((start ident).run protos.header protos.responses
        (self.task protos) events) := by
  have hSettled := settled_run protos.header protos.responses
    (self.ends protos) (self.asks protos) ident events
  refine ⟨hSettled.silent, fun status hDone => ?_⟩
  obtain ⟨seen, conversation, hSeen, hWoken, hHeard, hStatus,
    hReplies⟩ := hSettled.handled status hDone
  refine ⟨seen, hSeen, hWoken, ?_⟩
  rw [handleResponse_eq] at hStatus hReplies
  rw [hHeard.responses_eq] at hStatus hReplies
  cases hKept :
      kept protos.header protos.responses self.kind seen with
  | nil =>
      rw [hKept] at hStatus hReplies
      exact ⟨hStatus.symm, hReplies⟩
  | cons response others =>
      rw [hKept] at hStatus hReplies
      refine ⟨hStatus.symm, hReplies.trans ?_⟩
      dsimp only
      split
      · rfl
      · rfl

end ServiceTask

------------------------------------------------------------
-- Queries
------------------------------------------------------------

namespace SearchQueryRun

open SearchConversationRun

variable {protos : SearchProtos}
variable {base : SearchQueryTask}

/- The task is the one that was submitted, but for its
   machine. -/
def Runs
    (base : SearchQueryTask)
    (self : SearchQueryRun) : Prop :=
  self.task = { base with machine := self.task.machine }

theorem conversationRun_makeRunnable (self : SearchQueryRun) :
    self.makeRunnable.conversationRun =
      self.conversationRun.makeRunnable := by
  unfold makeRunnable SearchConversationRun.makeRunnable
  rw [apply_ite conversationRun]
  rfl

theorem conversationRun_foldl
    (callbacks : List Unit)
    (self : SearchQueryRun) :
    (callbacks.foldl (fun run _ => run.makeRunnable)
        self).conversationRun =
      callbacks.foldl (fun run _ => run.makeRunnable)
        self.conversationRun := by
  induction callbacks generalizing self with
  | nil => rfl
  | cons callback callbacks ih =>
      rw [List.foldl_cons, List.foldl_cons, ih,
        conversationRun_makeRunnable]

theorem conversationRun_dispatchCallbacks
    (self : SearchQueryRun) :
    self.dispatchCallbacks.conversationRun =
      self.conversationRun.dispatchCallbacks := by
  have hFold :=
    conversationRun_foldl self.notification.handlers self
  exact congrArg
    (fun run : SearchConversationRun ServerAgentMessage =>
      { run with notification := run.notification.invalidate })
    hFold

theorem conversationRun_wake (self : SearchQueryRun) :
    self.wake.conversationRun = self.conversationRun.wake := by
  unfold wake SearchConversationRun.wake
  rw [apply_ite conversationRun]
  dsimp only
  rw [apply_ite conversationRun,
    conversationRun_dispatchCallbacks]
  rfl

theorem conversationRun_arrive
    (self : SearchQueryRun)
    (frame : SearchFrame) :
    (self.arrive protos frame).conversationRun =
      self.conversationRun.arrive protos.header
        protos.responses frame := by
  unfold arrive SearchConversationRun.arrive
  cases hConversation : self.conversation with
  | none =>
      have hSame :
          self.conversationRun.conversation = none :=
        hConversation
      rw [hSame]
  | some conversation =>
      have hSame :
          self.conversationRun.conversation =
            some conversation := hConversation
      rw [hSame]
      dsimp only
      by_cases hFor : IsFor protos self.ident frame
      · have hIdent :
            frameIdent protos.header frame =
              some self.conversationRun.ident := hFor
        rw [if_pos hFor, if_pos hIdent]
        cases frame.take protos.header with
        | error what => rfl
        | ok call =>
            dsimp only
            rw [apply_ite conversationRun,
              conversationRun_wake]
            rfl
      · have hIdent :
            ¬ frameIdent protos.header frame =
              some self.conversationRun.ident := hFor
        rw [if_neg hFor, if_neg hIdent]

/- The next thing that the task of a query does is what its
   implementation makes of it. -/
theorem conversationRun_advance
    (hPath : base.path = "search")
    {self : SearchQueryRun}
    (hRuns : Runs base self) :
    (self.advance protos).conversationRun =
      self.conversationRun.advance (base.task protos) := by
  have hHandle : ∀ conversation,
      self.task.handleResponse protos conversation =
        base.handleResponse protos conversation := by
    intro conversation
    rw [hRuns]
    rfl
  have hRequest :
      self.task.makeRequestProto = base.makeRequestProto := by
    rw [hRuns]
    rfl
  have hTarget :
      self.task.targetPath = targetPath base.path := by
    rw [hRuns]
    rfl
  have hSame : self.conversationRun.place = self.place := rfl
  unfold advance SearchConversationRun.advance
  rw [hSame]
  cases hPlace : self.place with
  | pending => rfl
  | calling =>
      have hState :
          self.conversationRun.machine.state =
            self.task.machine.state := rfl
      have hConversation :
          self.conversationRun.conversation =
            self.conversation := rfl
      dsimp only
      rw [hState, hConversation]
      cases self.task.machine.state with
      | none => rfl
      | some entry =>
          cases entry with
          | createConv =>
              have hFor :
                  OutboundSearch.conversationFor
                      (targetPath base.path).path =
                    some (.update, .searchResponse) := by
                rw [hPath]
                rfl
              have hTaskPath : (base.task protos).path = base.path :=
                rfl
              unfold SearchConversationRun.createConv
              rw [hRequest, hTarget, hTaskPath]
              simp only [hFor]
              rfl
          | handleResponse =>
              cases self.conversation with
              | none => rfl
              | some conversation =>
                  dsimp only
                  rw [hHandle]
                  rfl
  | started => rfl
  | registered => rfl
  | asked waiting =>
      have hSettle : ∀ (run : SearchQueryRun) result,
          (run.settle result).conversationRun =
            run.conversationRun.settle result :=
        fun _ _ => rfl
      dsimp only
      rw [hSettle, apply_ite conversationRun,
        conversationRun_dispatchCallbacks]
      rfl
  | deferred => rfl
  | suspended => rfl
  | done status => rfl

/- Nothing but the machine of a task ever changes. -/
theorem task_foldl
    (callbacks : List Unit)
    (self : SearchQueryRun) :
    (callbacks.foldl (fun run _ => run.makeRunnable)
        self).task = self.task := by
  induction callbacks generalizing self with
  | nil => rfl
  | cons callback callbacks ih =>
      rw [List.foldl_cons, ih, makeRunnable,
        apply_ite SearchQueryRun.task, ite_self]

theorem task_dispatchCallbacks (self : SearchQueryRun) :
    self.dispatchCallbacks.task = self.task :=
  task_foldl self.notification.handlers self

theorem task_wake (self : SearchQueryRun) :
    self.wake.task = self.task := by
  unfold wake
  rw [apply_ite SearchQueryRun.task]
  dsimp only
  rw [apply_ite SearchQueryRun.task, task_dispatchCallbacks,
    ite_self, ite_self]

theorem task_arrive
    (self : SearchQueryRun)
    (frame : SearchFrame) :
    (self.arrive protos frame).task = self.task := by
  unfold arrive
  split
  · rfl
  · rw [apply_ite SearchQueryRun.task]
    dsimp only
    cases frame.take protos.header with
    | error what => exact ite_self _
    | ok call =>
        dsimp only
        rw [apply_ite SearchQueryRun.task, task_wake, ite_self,
          ite_self]

theorem Runs.advance
    {self : SearchQueryRun}
    (hRuns : Runs base self) :
    Runs base (self.advance protos) := by
  have hSettle : ∀ (run : SearchQueryRun) result,
      Runs base run → Runs base (run.settle result) := by
    intro run result hRun
    unfold Runs settle
    dsimp only
    rw [hRun]
  unfold SearchQueryRun.advance
  cases self.place with
  | pending | started | registered | deferred | suspended
  | done => exact hRuns
  | calling =>
      dsimp only
      split
      · exact hRuns
      · exact hSettle _ _ hRuns
      · exact hRuns
  | asked waiting =>
      refine hSettle _ _ ?_
      unfold Runs
      rw [apply_ite SearchQueryRun.task, task_dispatchCallbacks,
        ite_self]
      exact hRuns

/- A query is a conversation task: whatever happens, its run is
   that of its implementation. -/
theorem conversationRun_run
    (hPath : base.path = "search")
    {self : SearchQueryRun}
    (hRuns : Runs base self)
    (events : List SearchQueryEvent) :
    (self.run protos events).conversationRun =
      self.conversationRun.run protos.header protos.responses
        (base.task protos) events := by
  induction events generalizing self with
  | nil => rfl
  | cons event events ih =>
      cases event with
      | advance =>
          refine (ih hRuns.advance).trans ?_
          rw [conversationRun_advance hPath hRuns]
          rfl
      | frame frame =>
          have hNext : Runs base (self.arrive protos frame) := by
            unfold Runs
            rw [task_arrive]
            exact hRuns
          refine (ih hNext).trans ?_
          rw [conversationRun_arrive]
          rfl

theorem ends
    (protos : SearchProtos)
    (base : SearchQueryTask) :
    Ends (base.task protos) := by
  intro conversation
  unfold SearchQueryTask.task SearchQueryTask.handleResponse
  dsimp only
  split
  · exact ⟨rfl, by simp⟩
  · split
    · exact ⟨rfl, by simp⟩
    · exact ⟨rfl, by simp⟩

/-
  A query is not answered before its task is done. If by the
  time that a successful frame had woken it the last frame
  answered, it is answered once, with the first response that
  was kept; and otherwise it fails silently.
-/
structure Replied
    (protos : SearchProtos)
    (base : SearchQueryTask)
    (query : SearchQueryRun) : Prop where
  silent :
    (∀ status, query.place ≠ .done status) → query.replies = []
  replied : ∀ status, query.place = .done status →
    ∃ seen, seen <+: query.arrived ∧
      Woken protos.header seen ∧
        (LastAnswers protos.header protos.responses
            .searchResponse seen →
          status = .complete ∧
            ∃ response,
              (kept protos.header protos.responses
                .searchResponse seen).head? = some response ∧
              query.replies =
                [base.answer (protos.searchResponse response)]) ∧
        (¬ LastAnswers protos.header protos.responses
            .searchResponse seen →
          status = .errored ∧ query.replies = [])

theorem replied_run
    (protos : SearchProtos)
    (initiator : AgentSearch)
    (msgId : Int32)
    (coreKey agentUri : String)
    (ttl : UInt16)
    (ident : UInt64)
    (events : List SearchQueryEvent) :
    let base :=
      SearchQueryTask.ofQuery initiator msgId coreKey agentUri
        ttl
    Replied protos base ((start base ident).run protos events) := by
  intro base
  have hRuns : Runs base (start base ident) := rfl
  have hAsks : Asks (base.task protos) .searchResponse :=
    ⟨.update, rfl⟩
  have hSettled := settled_run protos.header protos.responses
    (ends protos base) hAsks ident events
  have hRun :
      ((start base ident).run protos events).conversationRun =
        (SearchConversationRun.start ident).run protos.header
          protos.responses (base.task protos) events :=
    conversationRun_run rfl hRuns events
  rw [← hRun] at hSettled
  refine ⟨hSettled.silent, fun status hDone => ?_⟩
  obtain ⟨seen, conversation, hSeen, hWoken, hHeard, hStatus,
    hReplies⟩ := hSettled.handled status hDone
  refine ⟨seen, hSeen, hWoken, fun hLast => ?_, fun hNot => ?_⟩
  · obtain ⟨response, others, hKept⟩ :=
      kept_of_lastAnswers hLast
    have hHandle :
        (base.task protos).handleResponse conversation =
          ({ first := 0, second := .complete },
            some (base.answer
              (protos.searchResponse response))) := by
      change base.handleResponse protos conversation = _
      unfold SearchQueryTask.handleResponse
      rw [hHeard.responses_eq, hKept,
        hHeard.status_iff.mpr hLast]
      rfl
    rw [hHandle] at hStatus hReplies
    rw [hKept]
    exact ⟨hStatus.symm, response, rfl, hReplies⟩
  · have hCode : conversation.statusCode ≠ some 0 :=
      fun hZero => hNot (hHeard.status_iff.mp hZero)
    have hHandle :
        (base.task protos).handleResponse conversation =
          ({ first := 0, second := .errored }, none) := by
      change base.handleResponse protos conversation = _
      unfold SearchQueryTask.handleResponse
      split
      · rfl
      · rw [if_pos hCode]
    rw [hHandle] at hStatus hReplies
    exact ⟨hStatus.symm, hReplies⟩

end SearchQueryRun

end OefCore
