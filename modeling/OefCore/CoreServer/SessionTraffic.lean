import OefCore.CoreServer.LoginSafety

/-
  What the sessions of the core server pass on: a message of
  an agent reaches the session that its destination names, or
  its sender is told that there is none.

  Main declarations:
    * `CoreServer.keyOf`, `CoreServer.messagesOf`
    * `CoreServer.handledOf`, `CoreServer.OutcomeOf`
    * `CoreServer.Delivered`, `CoreServer.delivered_run`
-/

namespace OefCore

namespace CoreServer

variable {C : Type} [DecidableEq C]

------------------------------------------------------------
-- Keys
------------------------------------------------------------

/- The key that a connection was let in with. -/
def keyOf
    (s : CoreServer C)
    (c : C) : Option String :=
  (s.phase c).bind LoginPhase.admitted

omit [DecidableEq C] in
theorem LoginTurn.admitted
    {directory directory' : AgentDirectory C}
    {c : C}
    {before : Option LoginPhase}
    {next : LoginPhase}
    {outputs : List ServerOutput}
    (hTurn :
      LoginTurn directory c before next directory' outputs)
    {publicKey : String}
    (hKey : before.bind LoginPhase.admitted = some publicKey) :
    next.admitted = some publicKey := by
  cases hTurn <;> simp_all [LoginPhase.admitted]

/- Whoever was let in keeps the key. -/
theorem keyOf_step
    (protos : CoreServerProtos)
    {s : CoreServer C}
    (event : CoreServerEvent C)
    {c : C}
    {publicKey : String}
    (hKey : s.keyOf c = some publicKey) :
    (s.step protos event).keyOf c = some publicKey := by
  rcases step_login protos s event with hKept | ⟨turned, hMoves⟩
  · unfold keyOf
    rw [hKept.phase]
    exact hKey
  · obtain ⟨next, outputs, hTurn, hPhase, -⟩ := hMoves.turn
    unfold keyOf at hKey ⊢
    rw [hPhase]
    by_cases hTurned : c = turned
    · subst hTurned
      simpa using hTurn.admitted hKey
    · simpa [hTurned] using hKey

omit [DecidableEq C] in
theorem keyOf_of_held
    {s : CoreServer C}
    {c : C}
    {publicKey : String}
    (hHeld : s.heldKey c = some publicKey) :
    s.keyOf c = some publicKey := by
  unfold heldKey at hHeld
  unfold keyOf
  cases hPhase : s.phase c with
  | none => simp [hPhase] at hHeld
  | some phase =>
      rw [hPhase] at hHeld
      cases phase <;>
        simp_all [LoginPhase.held, LoginPhase.admitted]

omit [DecidableEq C] in
theorem keyOf_of_session
    {s : CoreServer C}
    {c : C}
    {session : AgentSession C}
    {greeted : Bool}
    (hSession :
      s.connections c = some (.started session greeted)) :
    s.keyOf c = some session.publicKey := by
  obtain ⟨publicKey, description, stage⟩ := session
  cases stage <;>
    simp [keyOf, phase, hSession, AgentConnection.phase,
      LoginPhase.admitted]

------------------------------------------------------------
-- Messages and What Became of Them
------------------------------------------------------------

/- The message in an envelope, if it is one. -/
def messageIn (envelope : Envelope) :
    Option (Int × AgentMessage) :=
  match envelope.payload with
  | .sendMessage msg => some (envelope.msgId, msg)
  | _ => none

/- The envelopes that the session of a connection has read. -/
def envelopesOf
    (s : CoreServer C)
    (c : C) : List Envelope :=
  (s.received.filter fun received => received.1 = c).map
    Prod.snd

def messagesOf
    (s : CoreServer C)
    (c : C) : List (Int × AgentMessage) :=
  (s.envelopesOf c).filterMap messageIn

/- What is sent for a message of an agent; the search node has
   no part in it. -/
def isOutcome (message : ServerAgentMessage) : Bool :=
  match message.payload with
  | .content _ _ _ => true
  | .dialogueError _ _ => true
  | _ => false

/- What one send of a connection did about a message. -/
def outcomeIn
    (c : C)
    (sent : ServerSend C) : Option (C × ServerAgentMessage) :=
  match sent.output with
  | .message message =>
      if sent.source = c ∧ isOutcome message then
        some (sent.target, message)
      else
        none
  | _ => none

/- What the session of a connection is about to send. -/
def pendingOf
    (s : CoreServer C)
    (c : C) : List (C × ServerAgentMessage) :=
  match s.connections c with
  | some (.started ⟨_, _, .sending other message⟩ _) =>
      [(other, message)]
  | _ => []

/- What was sent for the messages of a connection, and what is
   about to be. -/
def handledOf
    (s : CoreServer C)
    (c : C) : List (C × ServerAgentMessage) :=
  s.sends.filterMap (outcomeIn c) ++ s.pendingOf c

/-
  The message goes to a session that was let in with the key
  that its destination names, under the key of its sender; or
  it is reported to its sender.
-/
def OutcomeOf
    (s : CoreServer C)
    (c : C)
    (message : Int × AgentMessage)
    (outcome : C × ServerAgentMessage) : Prop :=
  (∃ publicKey, s.keyOf c = some publicKey ∧
    outcome.2 = messageContent message.1 publicKey message.2 ∧
    s.keyOf outcome.1 =
      some (({} : URI).parseAgent
        message.2.destination).agentKey) ∨
  outcome =
    (c, dialogError message.1 message.2.dialogueId
      message.2.destination)

/- One outcome for each message, in order. -/
def Delivered (s : CoreServer C) : Prop :=
  ∀ c, List.Forall₂ (s.OutcomeOf c) (s.messagesOf c)
    (s.handledOf c)

------------------------------------------------------------
-- The Parts of a Step
------------------------------------------------------------

/- Nothing is read or done about a message. -/
structure TrafficKept (s s' : CoreServer C) : Prop where
  messages : s'.messagesOf = s.messagesOf
  handled : s'.handledOf = s.handledOf

/- One message of a connection is read, and has an outcome. -/
structure TrafficGrows
    (s s' : CoreServer C)
    (c : C)
    (message : Int × AgentMessage)
    (outcome : C × ServerAgentMessage) : Prop where
  messages :
    s'.messagesOf =
      Function.update s.messagesOf c
        (s.messagesOf c ++ [message])
  handled :
    s'.handledOf =
      Function.update s.handledOf c
        (s.handledOf c ++ [outcome])
  fits : s.OutcomeOf c message outcome

theorem TrafficKept.refl (s : CoreServer C) :
    TrafficKept s s :=
  ⟨rfl, rfl⟩

theorem TrafficKept.trans
    {s s' s'' : CoreServer C}
    (hFirst : TrafficKept s s')
    (hSecond : TrafficKept s' s'') :
    TrafficKept s s'' where
  messages := hSecond.messages.trans hFirst.messages
  handled := hSecond.handled.trans hFirst.handled

/- What a connection is about to send. -/
def pendingIn : AgentConnection C → List (C × ServerAgentMessage)
  | .started ⟨_, _, .sending other message⟩ _ =>
      [(other, message)]
  | _ => []

omit [DecidableEq C] in
theorem pendingOf_of_connection
    {s : CoreServer C}
    {c : C}
    {connection : AgentConnection C}
    (hConnection : s.connections c = some connection) :
    s.pendingOf c = pendingIn connection := by
  unfold pendingOf pendingIn
  rw [hConnection]
  split <;> simp_all

omit [DecidableEq C] in
/- A session that reads is not about to send. -/
theorem pendingOf_of_reading
    {s : CoreServer C}
    {c : C}
    {session : AgentSession C}
    {greeted : Bool}
    (hSession : s.connections c = some (.started session greeted))
    (hReading : session.stage = .reading) :
    s.pendingOf c = [] := by
  rw [pendingOf_of_connection hSession]
  obtain ⟨publicKey, description, stage⟩ := session
  simp only at hReading
  subst hReading
  rfl

theorem pendingOf_setConnection
    (s : CoreServer C)
    (c : C)
    (connection : AgentConnection C) :
    (s.setConnection c connection).pendingOf =
      Function.update s.pendingOf c (pendingIn connection) := by
  funext other
  by_cases hOther : other = c
  · subst hOther
    rw [Function.update_self]
    apply pendingOf_of_connection
    simp [setConnection]
  · simp [pendingOf, setConnection, hOther]

/- Setting a connection that is about to send the same. -/
theorem TrafficKept.setConnection
    {s : CoreServer C}
    {c : C}
    {connection : AgentConnection C}
    (hSame : s.pendingOf c = pendingIn connection) :
    TrafficKept s (s.setConnection c connection) where
  messages := rfl
  handled := by
    funext other
    unfold handledOf
    rw [pendingOf_setConnection, ← hSame, Function.update_eq_self]
    rfl

/- What is sent without being an outcome. -/
theorem TrafficKept.send
    {source target : C}
    {output : ServerOutput}
    (s : CoreServer C)
    (hNot : ∀ message, output = .message message →
      isOutcome message = false) :
    TrafficKept s (s.send source target output) where
  messages := rfl
  handled := by
    funext c
    have hNone :
        outcomeIn c ⟨source, target, output⟩ = none := by
      unfold outcomeIn
      cases hOutput : output with
      | message message => simp [hNot message hOutput]
      | phrase phrase => rfl
      | failure => rfl
      | connected status => rfl
    simp [handledOf, CoreServer.send, pendingOf, hNone]

omit [DecidableEq C] in
theorem isOutcome_replyTo
    {call : ContinuationCall (AgentRequest C)}
    {reply : ServerAgentMessage}
    (hReply : replyTo call = some reply) :
    isOutcome reply = false := by
  unfold replyTo at hReply
  cases hEc : call.ec with
  | some ec =>
      simp only [hEc, Option.some.injEq] at hReply
      subst hReply
      rfl
  | none =>
      cases hKind : call.continuation.kind <;>
        simp only [hEc, hKind, Option.some.injEq,
          reduceCtorEq] at hReply <;>
        subst hReply <;> rfl

omit [DecidableEq C] in
@[simp]
theorem pendingIn_undescribed
    (connection : AgentConnection C) :
    pendingIn connection.undescribed = pendingIn connection := by
  cases connection with
  | started session greeted =>
      obtain ⟨publicKey, description, stage⟩ := session
      cases stage <;> rfl
  | _ => rfl

omit [DecidableEq C] in
theorem pendingOf_eq
    (s : CoreServer C)
    (c : C) :
    s.pendingOf c =
      ((s.connections c).map pendingIn).getD [] := by
  cases hConnection : s.connections c with
  | none => simp [pendingOf, hConnection]
  | some connection =>
      rw [pendingOf_of_connection hConnection]
      rfl

/- What continuations reply is no outcome. -/
theorem ClientGoesOn.trafficKept
    {s s' : CoreServer C}
    {calls : List (ContinuationCall (AgentRequest C))}
    (hGoesOn : ClientGoesOn s s' calls) :
    TrafficKept s s' where
  messages := by
    funext c
    unfold messagesOf envelopesOf
    rw [hGoesOn.received]
  handled := by
    funext c
    have hPending : s'.pendingOf c = s.pendingOf c := by
      have hSame := congrArg (Option.map pendingIn)
        (hGoesOn.connections c)
      rw [pendingOf_eq, pendingOf_eq]
      congr 1
      simpa [Function.comp_def] using hSame
    have hNone :
        (calls.filterMap answerSend).filterMap (outcomeIn c) =
          [] := by
      rw [List.filterMap_eq_nil_iff]
      intro sent hSent
      obtain ⟨call, -, hAnswer⟩ := List.mem_filterMap.mp hSent
      obtain ⟨reply, hReply, hSend⟩ :=
        Option.map_eq_some_iff.mp hAnswer
      rw [← hSend]
      simp [outcomeIn, isOutcome_replyTo hReply]
    unfold handledOf
    rw [hGoesOn.sends, hPending, List.filterMap_append, hNone,
      List.append_nil]

------------------------------------------------------------
-- Steps of a Session
------------------------------------------------------------

/- What is done about a message is done about one that was
   read. -/
theorem Delivered.exists_message
    {s : CoreServer C}
    (hDelivered : Delivered s)
    {c : C}
    {outcome : C × ServerAgentMessage}
    (hHandled : outcome ∈ s.handledOf c) :
    ∃ message ∈ s.messagesOf c,
      s.OutcomeOf c message outcome := by
  have hAll := hDelivered c
  generalize s.messagesOf c = messages at hAll
  generalize s.handledOf c = handled at hAll hHandled
  induction hAll with
  | nil => cases hHandled
  | cons hFits hRest ih =>
      rcases List.mem_cons.mp hHandled with hHead | hTail
      · exact ⟨_, List.mem_cons_self, hHead ▸ hFits⟩
      · obtain ⟨message, hMem, hLater⟩ := ih hTail
        exact ⟨message, List.mem_cons_of_mem _ hMem, hLater⟩

/- A message that is about to be sent is an outcome. -/
theorem Delivered.isOutcome_pending
    {s : CoreServer C}
    (hDelivered : Delivered s)
    {c other : C}
    {message : ServerAgentMessage}
    (hPending : (other, message) ∈ s.pendingOf c) :
    isOutcome message = true := by
  obtain ⟨sent, -, hFits⟩ :=
    hDelivered.exists_message
      (List.mem_append_right _ hPending)
  rcases hFits with ⟨publicKey, -, hContent, -⟩ | hError
  · have hMessage :
        message = messageContent sent.1 publicKey sent.2 :=
      hContent
    rw [hMessage]
    rfl
  · rw [(Prod.mk.inj hError).2]
    rfl

theorem forward_traffic
    {s : CoreServer C}
    (hDelivered : Delivered s)
    (c : C) :
    TrafficKept s (s.forward c) := by
  unfold CoreServer.forward
  split
  · next publicKey description other message greeted hSession =>
      have hPending : s.pendingOf c = [(other, message)] :=
        pendingOf_of_connection hSession
      have hOutcome : isOutcome message = true :=
        hDelivered.isOutcome_pending (c := c)
          (by rw [hPending]; exact List.mem_singleton_self _)
      simp only [setStage, send, hSession]
      constructor
      · rfl
      · funext another
        unfold handledOf
        rw [pendingOf_setConnection]
        by_cases hAnother : another = c
        · subst hAnother
          simp [setConnection, outcomeIn, hOutcome, hPending,
            pendingIn]
        · have hNot : ¬ c = another := fun hEq =>
            hAnother hEq.symm
          simp [setConnection, outcomeIn, hAnother, hNot,
            pendingOf]
  · exact TrafficKept.refl s

/- An envelope is read. -/
def hear
    (s : CoreServer C)
    (c : C)
    (envelope : Envelope) : CoreServer C :=
  { s with received := s.received ++ [(c, envelope)] }

theorem messagesOf_hear
    (s : CoreServer C)
    (c : C)
    (envelope : Envelope) :
    (s.hear c envelope).messagesOf =
      Function.update s.messagesOf c
        (s.messagesOf c ++ (messageIn envelope).toList) := by
  funext other
  by_cases hOther : other = c
  · subst hOther
    cases hMessage : messageIn envelope with
    | none => simp [messagesOf, envelopesOf, hear, hMessage]
    | some message =>
        simp [messagesOf, envelopesOf, hear, hMessage]
  · have hNot : ¬ c = other := fun hEq => hOther hEq.symm
    simp [messagesOf, envelopesOf, hear, hOther, hNot]

theorem TrafficKept.hear
    {s : CoreServer C}
    {envelope : Envelope}
    (c : C)
    (hNone : messageIn envelope = none) :
    TrafficKept s (s.hear c envelope) where
  messages := by
    rw [messagesOf_hear, hNone, Option.toList_none,
      List.append_nil, Function.update_eq_self]
  handled := rfl

theorem TrafficKept.request
    (s : CoreServer C)
    (c : C)
    (kind : AgentRequestKind)
    (agent : String)
    (msgId : Int) :
    TrafficKept s (s.request c kind agent msgId) :=
  ⟨rfl, rfl⟩

theorem TrafficKept.setDescription
    (s : CoreServer C)
    (c : C)
    (description : Option Wire) :
    TrafficKept s (s.setDescription c description) := by
  obtain ⟨connections, hEq, hSame⟩ :=
    setDescription_eq s c description
  rw [hEq]
  have hGoesOn : ClientGoesOn s { s with connections } [] :=
    ⟨rfl, rfl, rfl, rfl, hSame, by simp⟩
  exact hGoesOn.trafficKept

/- A message of an agent that is looked up. -/
theorem processMessage_traffic
    {s : CoreServer C}
    {c : C}
    {session : AgentSession C}
    {greeted : Bool}
    (hSound : LoginSound s)
    (hSession : s.connections c = some (.started session greeted))
    (hReading : session.stage = .reading)
    {envelope : Envelope}
    {msg : AgentMessage}
    (hPayload : envelope.payload = .sendMessage msg) :
    ∃ outcome, TrafficGrows s
      (s.process c session envelope) c (envelope.msgId, msg)
      outcome := by
  have hMessage :
      messageIn envelope = some (envelope.msgId, msg) := by
    simp [messageIn, hPayload]
  have hMessages := messagesOf_hear s c envelope
  rw [hMessage] at hMessages
  have hIdle := pendingOf_of_reading hSession hReading
  have hKey := keyOf_of_session hSession
  have hProcess :
      s.process c session envelope =
        (s.hear c envelope).processMessage c session.publicKey
          envelope.msgId msg := by
    simp [process, hPayload, hear]
  rw [hProcess]
  simp only [processMessage]
  cases hFound :
      (s.hear c envelope).directory.session
        (({} : URI).parseAgent msg.destination).agentKey with
  | some other =>
      have hHeld := (hSound.agrees other _).mp hFound
      refine ⟨(other, messageContent envelope.msgId
        session.publicKey msg), ?_, ?_, Or.inl ?_⟩
      · simp only [setStage, hear, hSession]
        exact hMessages
      · simp only [setStage, hear, hSession]
        funext another
        unfold handledOf
        rw [pendingOf_setConnection]
        by_cases hAnother : another = c
        · subst hAnother
          simp [setConnection, hIdle, pendingIn]
        · simp [setConnection, hAnother, pendingOf]
      · exact ⟨session.publicKey, hKey, rfl,
          keyOf_of_held hHeld⟩
  | none =>
      refine ⟨(c, dialogError envelope.msgId msg.dialogueId
        msg.destination), hMessages, ?_, Or.inr rfl⟩
      funext another
      unfold handledOf
      by_cases hAnother : another = c
      · subst hAnother
        have hStill :
            ((s.hear another envelope).send another another
              (.message (dialogError envelope.msgId
                msg.dialogueId msg.destination))).pendingOf
                  another = [] := hIdle
        rw [Function.update_self, hStill, hIdle]
        simp [send, outcomeIn, hear, isOutcome, dialogError]
      · have hNot : ¬ c = another := fun hEq =>
          hAnother hEq.symm
        simp [send, outcomeIn, hear, hAnother, hNot, pendingOf]

/- What a session does about an envelope of another kind. -/
theorem process_traffic
    {s : CoreServer C}
    {session : AgentSession C}
    {envelope : Envelope}
    (c : C)
    (hNone : messageIn envelope = none) :
    TrafficKept s (s.process c session envelope) := by
  have hHear := TrafficKept.hear (s := s) c hNone
  unfold process
  cases hPayload : envelope.payload with
  | sendMessage msg => simp [messageIn, hPayload] at hNone
  | registerDescription text =>
      exact (hHear.trans (TrafficKept.setDescription _ c _)).trans
        (TrafficKept.request _ c _ _ _)
  | unregisterDescription =>
      cases session.description with
      | none => exact hHear
      | some text =>
          exact hHear.trans (TrafficKept.request _ c _ _ _)
  | pong => exact hHear
  | notSet => exact hHear
  | _ => exact hHear.trans (TrafficKept.request _ c _ _ _)

------------------------------------------------------------
-- One Step
------------------------------------------------------------

theorem newSession_traffic
    (protos : CoreServerProtos)
    {s : CoreServer C}
    {c : C}
    (hAwaits : s.connections c = some .awaitsId)
    (buffer : Option Wire) :
    TrafficKept s (s.newSession protos c buffer) := by
  have hSet : ∀ connection : AgentConnection C,
      pendingIn connection = [] →
        TrafficKept s (s.setConnection c connection) := by
    intro connection hIdle
    apply TrafficKept.setConnection
    rw [pendingOf_of_connection hAwaits, hIdle]
    rfl
  cases buffer with
  | none => exact hSet .closed rfl
  | some buffer =>
      simp only [newSession]
      split
      · exact (hSet .closed rfl).trans
          (TrafficKept.send _ (by simp))
      · exact (hSet _ rfl).trans (TrafficKept.send _ (by simp))

theorem secretHandshake_traffic
    {s : CoreServer C}
    {c : C}
    {publicKey : String}
    (hAwaits : s.connections c = some (.awaitsAnswer publicKey))
    (buffer : Option Wire) :
    TrafficKept s (s.secretHandshake c publicKey buffer) := by
  have hIdle : s.pendingOf c = [] :=
    pendingOf_of_connection hAwaits
  cases buffer with
  | none =>
      apply TrafficKept.setConnection
      exact hIdle
  | some buffer =>
      have hAdded : TrafficKept s
          { s with
            directory := (s.directory.add publicKey c).2 } :=
        ⟨rfl, rfl⟩
      apply hAdded.trans
      apply TrafficKept.setConnection
      split
      · exact hIdle
      · exact hIdle

theorem logIn_traffic
    (s : CoreServer C)
    (c : C) :
    TrafficKept s (s.logIn c) := by
  unfold logIn
  split
  · next publicKey hStarting =>
      apply TrafficKept.setConnection
      rw [pendingOf_of_connection hStarting]
      rfl
  · next session hStarted =>
      have hSame : TrafficKept s
          (s.setConnection c (.started session true)) := by
        apply TrafficKept.setConnection
        rw [pendingOf_of_connection hStarted]
        obtain ⟨publicKey, description, stage⟩ := session
        cases stage <;> rfl
      exact hSame.trans (TrafficKept.send _ (by simp))
  · next publicKey hRefusing =>
      have hSame : TrafficKept s (s.setConnection c .closed) := by
        apply TrafficKept.setConnection
        rw [pendingOf_of_connection hRefusing]
        rfl
      exact hSame.trans (TrafficKept.send _ (by simp))
  · exact TrafficKept.refl s

theorem receive_traffic
    (protos : CoreServerProtos)
    {s : CoreServer C}
    (hSound : LoginSound s)
    (c : C)
    (buffer : Option Wire) :
    TrafficKept s (s.receive protos c buffer) ∨
      ∃ message outcome,
        TrafficGrows s (s.receive protos c buffer) c message
          outcome := by
  unfold receive
  split
  · next hAwaits =>
      exact Or.inl (newSession_traffic protos hAwaits buffer)
  · next publicKey hAwaits =>
      exact Or.inl (secretHandshake_traffic hAwaits buffer)
  · next session greeted hSession =>
      split
      · next hReading =>
          cases buffer with
          | none =>
              left
              have hRemoved : TrafficKept s
                  { s with
                    directory :=
                      (s.directory.remove
                        session.publicKey).2 } :=
                ⟨rfl, rfl⟩
              simp only [read, setStage, hSession]
              apply hRemoved.trans
              apply TrafficKept.setConnection
              exact pendingOf_of_reading hSession hReading
          | some buffer =>
              cases hMessage :
                  messageIn (protos.envelope buffer) with
              | none => exact Or.inl (process_traffic c hMessage)
              | some message =>
                  right
                  cases hPayload :
                      (protos.envelope buffer).payload with
                  | sendMessage msg =>
                      exact ⟨_, processMessage_traffic hSound
                        hSession hReading hPayload⟩
                  | _ => simp [messageIn, hPayload] at hMessage
      · exact Or.inl (TrafficKept.refl s)
  · exact Or.inl (TrafficKept.refl s)

theorem accept_traffic
    (s : CoreServer C)
    (c : C) :
    TrafficKept s (s.accept c) := by
  unfold accept
  split
  · exact TrafficKept.refl s
  · next hNone =>
      have hAccepted : TrafficKept s
          { s with accepted := s.accepted ++ [c] } :=
        ⟨rfl, rfl⟩
      apply hAccepted.trans
      apply TrafficKept.setConnection
      simp [pendingOf, hNone, pendingIn]

/- A step reads one message of one connection, or none. -/
theorem step_traffic
    (protos : CoreServerProtos)
    {s : CoreServer C}
    (hSound : LoginSound s)
    (hDelivered : Delivered s)
    (event : CoreServerEvent C) :
    TrafficKept s (s.step protos event) ∨
      ∃ c message outcome,
        TrafficGrows s (s.step protos event) c message
          outcome := by
  cases event with
  | accepts c => exact Or.inl (accept_traffic s c)
  | receives c buffer =>
      rcases receive_traffic protos hSound c buffer with
        hKept | hGrows
      · exact Or.inl hKept
      · exact Or.inr ⟨c, hGrows⟩
  | logsIn c => exact Or.inl (logIn_traffic s c)
  | forwards c => exact Or.inl (forward_traffic hDelivered c)
  | written r ec =>
      left
      by_cases hWriting : r ∈ s.writing
      · exact ClientGoesOn.trafficKept
          (completeWrite_goesOn protos hWriting ec).1
      · simp only [CoreServer.step, completeWrite, hWriting,
          if_false]
        exact TrafficKept.refl s
  | responds header payload =>
      exact Or.inl (ClientGoesOn.trafficKept
        (respond_goesOn protos s header payload).1)

/- An outcome fits its message whatever happens later. -/
theorem OutcomeOf.step
    (protos : CoreServerProtos)
    {s : CoreServer C}
    (event : CoreServerEvent C)
    {c : C}
    {message : Int × AgentMessage}
    {outcome : C × ServerAgentMessage}
    (hFits : s.OutcomeOf c message outcome) :
    (s.step protos event).OutcomeOf c message outcome := by
  rcases hFits with ⟨publicKey, hKey, hContent, hTarget⟩ | hError
  · exact Or.inl ⟨publicKey, keyOf_step protos event hKey,
      hContent, keyOf_step protos event hTarget⟩
  · exact Or.inr hError

theorem Delivered.step
    (protos : CoreServerProtos)
    {s : CoreServer C}
    (hSound : LoginSound s)
    (hDelivered : Delivered s)
    (event : CoreServerEvent C) :
    Delivered (s.step protos event) := by
  have hLater : ∀ c, List.Forall₂
      ((s.step protos event).OutcomeOf c) (s.messagesOf c)
      (s.handledOf c) := by
    intro c
    exact (hDelivered c).imp fun _ _ hFits =>
      OutcomeOf.step protos event hFits
  intro c
  rcases step_traffic protos hSound hDelivered event with
    hKept | ⟨other, message, outcome, hGrows⟩
  · rw [hKept.messages, hKept.handled]
    exact hLater c
  · rw [hGrows.messages, hGrows.handled]
    by_cases hOther : c = other
    · subst hOther
      simp only [Function.update_self]
      exact List.rel_append (hLater c)
        (.cons (OutcomeOf.step protos event hGrows.fits) .nil)
    · simp only [Function.update_of_ne hOther]
      exact hLater c

structure Routed (s : CoreServer C) : Prop where
  sound : LoginSound s
  delivered : Delivered s

theorem routed_run
    (protos : CoreServerProtos)
    (events : List (CoreServerEvent C)) :
    Routed (run protos events) := by
  apply run_induction
  · exact ⟨loginSound_construct, fun c => .nil⟩
  · intro s event hRouted
    exact ⟨hRouted.sound.step protos s event,
      hRouted.delivered.step protos hRouted.sound event⟩

/-
  Each message that a session has read has one outcome, in
  the order of the messages: it was sent, or is about to be,
  to a session of the key that its destination names, or its
  sender was told that there is none.
-/
theorem delivered_run
    (protos : CoreServerProtos)
    (events : List (CoreServerEvent C)) :
    Delivered (run protos events) :=
  (routed_run protos events).delivered

end CoreServer

end OefCore
