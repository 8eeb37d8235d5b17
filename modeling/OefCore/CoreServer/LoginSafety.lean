import OefCore.CoreServer.CoreServer
import OefCore.Library.Directory

/-
  Agents that log in at the same time: at most one session of
  a key is live, and the directory finds it.

  The login of a connection is a phase; a step of the server
  is a turn of one login, or leaves all of them as they are.

  Main declarations:
    * `LoginPhase`, `CoreServer.LoginTurn`
    * `CoreServer.step_login`
    * `CoreServer.LoginSafe`, `CoreServer.loginSafe_run`
    * `CoreServer.transcript_run`
-/

namespace OefCore

------------------------------------------------------------
-- Phases
------------------------------------------------------------

/- A connection as its login sees it; a session has `left` when
   a read on it has failed. -/
inductive LoginPhase where
  | awaitsId
  | awaitsAnswer (publicKey : String)
  | starting (publicKey : String)
  | refusing (publicKey : String)
  | live (publicKey : String) (greeted : Bool)
  | left (publicKey : String) (greeted : Bool)
  | closed
  deriving DecidableEq, Repr

namespace LoginPhase

/- The key that the directory holds for a connection. -/
def held : LoginPhase → Option String
  | .starting publicKey => some publicKey
  | .live publicKey _ => some publicKey
  | _ => none

/- The key that a session was entered for. -/
def admitted : LoginPhase → Option String
  | .starting publicKey => some publicKey
  | .live publicKey _ => some publicKey
  | .left publicKey _ => some publicKey
  | _ => none

end LoginPhase

namespace AgentConnection

variable {C : Type}

def phase : AgentConnection C → LoginPhase
  | .awaitsId => .awaitsId
  | .awaitsAnswer publicKey => .awaitsAnswer publicKey
  | .starting publicKey => .starting publicKey
  | .refusing publicKey => .refusing publicKey
  | .started ⟨publicKey, _, .ended⟩ greeted =>
      .left publicKey greeted
  | .started ⟨publicKey, _, .reading⟩ greeted =>
      .live publicKey greeted
  | .started ⟨publicKey, _, .sending _ _⟩ greeted =>
      .live publicKey greeted
  | .closed => .closed

/- Without the description, which has no part in a login. -/
def undescribed : AgentConnection C → AgentConnection C
  | .started session greeted =>
      .started { session with description := none } greeted
  | connection => connection

@[simp]
theorem phase_undescribed (connection : AgentConnection C) :
    connection.undescribed.phase = connection.phase := by
  cases connection with
  | started session greeted =>
      obtain ⟨publicKey, description, stage⟩ := session
      cases stage <;> rfl
  | _ => rfl

end AgentConnection

/- What is not a message of a session is part of a login. -/
def ServerOutput.isLogin : ServerOutput → Bool
  | .message _ => false
  | _ => true

namespace CoreServer

variable {C : Type} [DecidableEq C]

omit [DecidableEq C] in
def phase
    (s : CoreServer C)
    (c : C) : Option LoginPhase :=
  (s.connections c).map AgentConnection.phase

/- What a connection was sent by its login. -/
def loginOutputs
    (s : CoreServer C)
    (c : C) : List ServerOutput :=
  ((s.sends.filter fun sent => sent.target = c).map
    ServerSend.output).filter ServerOutput.isLogin

omit [DecidableEq C] in
def heldKey
    (s : CoreServer C)
    (c : C) : Option String :=
  (s.phase c).bind LoginPhase.held

------------------------------------------------------------
-- Turns
------------------------------------------------------------

/-
  What a turn of the login of a connection takes it to, what
  the directory then is, and what the connection is sent.
-/
inductive LoginTurn
    (directory : AgentDirectory C)
    (c : C) :
    Option LoginPhase → LoginPhase → AgentDirectory C →
      List ServerOutput → Prop where
  | accepts : LoginTurn directory c none .awaitsId directory []
  | fails :
      LoginTurn directory c (some .awaitsId) .closed directory []
  | failsLater (publicKey : String) :
      LoginTurn directory c (some (.awaitsAnswer publicKey))
        .closed directory []
  | turnsAway :
      LoginTurn directory c (some .awaitsId) .closed directory
        [.failure]
  | challenges
      (publicKey : String) :
      LoginTurn directory c (some .awaitsId)
        (.awaitsAnswer publicKey) directory
        [.phrase "RandomlyGeneratedString"]
  | enters
      (publicKey : String)
      (hFree : directory.session publicKey = none) :
      LoginTurn directory c (some (.awaitsAnswer publicKey))
        (.starting publicKey)
        ⟨directory.sessions.insert publicKey c⟩ []
  | refuses (publicKey : String) :
      LoginTurn directory c (some (.awaitsAnswer publicKey))
        (.refusing publicKey) directory []
  | starts (publicKey : String) :
      LoginTurn directory c (some (.starting publicKey))
        (.live publicKey false) directory []
  | greets (publicKey : String) :
      LoginTurn directory c (some (.live publicKey false))
        (.live publicKey true) directory [.connected true]
  | greetsLate (publicKey : String) :
      LoginTurn directory c (some (.left publicKey false))
        (.left publicKey true) directory [.connected true]
  | tells (publicKey : String) :
      LoginTurn directory c (some (.refusing publicKey))
        .closed directory [.connected false]
  | leaves (publicKey : String) (greeted : Bool) :
      LoginTurn directory c (some (.live publicKey greeted))
        (.left publicKey greeted)
        ⟨directory.sessions.erase publicKey⟩ []

/- No login takes a turn. -/
structure LoginKept (s s' : CoreServer C) : Prop where
  directory : s'.directory = s.directory
  accepted : s'.accepted = s.accepted
  phase : s'.phase = s.phase
  outputs : s'.loginOutputs = s.loginOutputs

/- The login of one connection takes a turn. -/
structure LoginMoves
    (s s' : CoreServer C)
    (c : C) : Prop where
  turn : ∃ next outputs,
    LoginTurn s.directory c (s.phase c) next s'.directory
      outputs ∧
    s'.phase = Function.update s.phase c (some next) ∧
    s'.loginOutputs =
      Function.update s.loginOutputs c
        (s.loginOutputs c ++ outputs)
  accepted :
    s'.accepted =
      if s.phase c = none then s.accepted ++ [c]
      else s.accepted

theorem LoginKept.refl (s : CoreServer C) : LoginKept s s :=
  ⟨rfl, rfl, rfl, rfl⟩

theorem LoginKept.trans
    {s s' s'' : CoreServer C}
    (hFirst : LoginKept s s')
    (hSecond : LoginKept s' s'') :
    LoginKept s s'' where
  directory := hSecond.directory.trans hFirst.directory
  accepted := hSecond.accepted.trans hFirst.accepted
  phase := hSecond.phase.trans hFirst.phase
  outputs := hSecond.outputs.trans hFirst.outputs

------------------------------------------------------------
-- Steps of the Client
------------------------------------------------------------

/- What a continuation gives to `send`. -/
def answerSend
    (call : ContinuationCall (AgentRequest C)) :
    Option (ServerSend C) :=
  (replyTo call).map fun reply =>
    ⟨call.continuation.connection, call.continuation.connection,
      .message reply⟩

/-
  Continuations are called: what they reply is sent, and of a
  session they change the description only.
-/
structure ClientGoesOn
    (s s' : CoreServer C)
    (calls : List (ContinuationCall (AgentRequest C))) :
    Prop where
  directory : s'.directory = s.directory
  accepted : s'.accepted = s.accepted
  requests : s'.requests = s.requests
  received : s'.received = s.received
  connections : ∀ c,
    (s'.connections c).map AgentConnection.undescribed =
      (s.connections c).map AgentConnection.undescribed
  sends : s'.sends = s.sends ++ calls.filterMap answerSend

/- Only a description changes. -/
theorem setDescription_eq
    (s : CoreServer C)
    (c : C)
    (description : Option Wire) :
    ∃ connections,
      s.setDescription c description =
        { s with connections := connections } ∧
      ∀ other,
        (connections other).map AgentConnection.undescribed =
          (s.connections other).map
            AgentConnection.undescribed := by
  unfold setDescription
  split
  · next session greeted hConnection =>
      refine ⟨_, rfl, fun other => ?_⟩
      by_cases hOther : other = c
      · subst hOther
        simp [hConnection, AgentConnection.undescribed]
      · simp [hOther]
  · exact ⟨s.connections, rfl, fun other => rfl⟩

theorem resume_goesOn
    (s : CoreServer C)
    (call : ContinuationCall (AgentRequest C)) :
    ClientGoesOn s (s.resume call) [call] ∧
      (s.resume call).client = s.client ∧
      (s.resume call).writing = s.writing := by
  have hCleared : ∃ connections,
      (if call.continuation.kind = .unregisterDescription ∧
          call.ec = none then
        s.setDescription call.continuation.connection none
      else s) = { s with connections := connections } ∧
      ∀ other,
        (connections other).map AgentConnection.undescribed =
          (s.connections other).map
            AgentConnection.undescribed := by
    split
    · exact setDescription_eq s _ none
    · exact ⟨s.connections, rfl, fun other => rfl⟩
  obtain ⟨connections, hEq, hSame⟩ := hCleared
  simp only [resume]
  rw [hEq]
  cases hReply : replyTo call with
  | none =>
      refine ⟨⟨rfl, rfl, rfl, rfl, hSame, ?_⟩, rfl, rfl⟩
      simp [answerSend, hReply]
  | some reply =>
      refine ⟨⟨rfl, rfl, rfl, rfl, hSame, ?_⟩, rfl, rfl⟩
      simp [answerSend, hReply, send]

omit [DecidableEq C] in
theorem ClientGoesOn.trans
    {s s' s'' : CoreServer C}
    {calls later : List (ContinuationCall (AgentRequest C))}
    (hFirst : ClientGoesOn s s' calls)
    (hSecond : ClientGoesOn s' s'' later) :
    ClientGoesOn s s'' (calls ++ later) where
  directory := hSecond.directory.trans hFirst.directory
  accepted := hSecond.accepted.trans hFirst.accepted
  requests := hSecond.requests.trans hFirst.requests
  received := hSecond.received.trans hFirst.received
  connections := fun c =>
    (hSecond.connections c).trans (hFirst.connections c)
  sends := by
    rw [hSecond.sends, hFirst.sends]
    simp

theorem foldl_resume_goesOn
    (s : CoreServer C)
    (calls : List (ContinuationCall (AgentRequest C))) :
    ClientGoesOn s (calls.foldl resume s) calls ∧
      (calls.foldl resume s).client = s.client ∧
      (calls.foldl resume s).writing = s.writing := by
  induction calls generalizing s with
  | nil =>
      exact ⟨⟨rfl, rfl, rfl, rfl, fun _ => rfl, by simp⟩,
        rfl, rfl⟩
  | cons call calls ih =>
      obtain ⟨hFirst, hClient, hWriting⟩ := resume_goesOn s call
      obtain ⟨hLater, hClients, hWritings⟩ := ih (s.resume call)
      exact ⟨hFirst.trans hLater, hClients.trans hClient,
        hWritings.trans hWriting⟩

/- The continuations called are those of the calls that the
   client has added. -/
theorem withClient_goesOn
    (s : CoreServer C)
    {client : OefSearchClient (AgentRequest C)}
    {calls : List (ContinuationCall (AgentRequest C))}
    (hCalls : client.calls = s.client.calls ++ calls) :
    ClientGoesOn s (s.withClient client) calls ∧
      (s.withClient client).client = client ∧
      (s.withClient client).writing = s.writing := by
  unfold withClient
  rw [hCalls, List.drop_left]
  obtain ⟨hGoesOn, hClient, hWriting⟩ :=
    foldl_resume_goesOn { s with client := client } calls
  exact ⟨⟨hGoesOn.directory, hGoesOn.accepted, hGoesOn.requests,
    hGoesOn.received, hGoesOn.connections, hGoesOn.sends⟩,
    hClient, hWriting⟩

omit [DecidableEq C] in
theorem calls_sendCompleted
    (client : OefSearchClient (AgentRequest C))
    (hash : String → UInt64)
    (r : AgentRequest C)
    (ec : Option SearchErrorCode) :
    (client.sendCompleted hash r r.clientRequest ec).calls =
      client.calls ++
        ec.toList.map fun ec => ⟨r, some ec, .nothing, none⟩ := by
  unfold OefSearchClient.sendCompleted
  cases ec with
  | some ec => simp
  | none =>
      simp only [OefSearchClient.msgHandleSave]
      split <;> simp

/- What the client gets to know of a write that completes: the
   call of the continuation, if it has failed. -/
theorem completeWrite_goesOn
    (protos : CoreServerProtos)
    {s : CoreServer C}
    {r : AgentRequest C}
    (hWriting : r ∈ s.writing)
    (ec : Option SearchErrorCode) :
    ClientGoesOn s (s.completeWrite protos r ec)
        (ec.toList.map fun ec => ⟨r, some ec, .nothing, none⟩) ∧
      (s.completeWrite protos r ec).client =
        s.client.sendCompleted protos.hash r r.clientRequest
          ec ∧
      (s.completeWrite protos r ec).writing =
        s.writing.erase r := by
  unfold completeWrite
  rw [if_pos hWriting]
  obtain ⟨hGoesOn, hClient, hLeft⟩ :=
    withClient_goesOn { s with writing := s.writing.erase r }
      (calls_sendCompleted s.client protos.hash r ec)
  exact ⟨⟨hGoesOn.directory, hGoesOn.accepted, hGoesOn.requests,
    hGoesOn.received, hGoesOn.connections, hGoesOn.sends⟩,
    hClient, hLeft⟩

/- The call that a response leads to, if there is a handle. -/
def responseCall
    (protos : CoreServerProtos)
    (s : CoreServer C)
    (header : TransportHeader)
    (payload : Option Wire) :
    Option (ContinuationCall (AgentRequest C)) :=
  let handle := s.client.msgHandleGet header.id.toUInt32
  handle.continuation.map fun r =>
    { continuation := r
      ec :=
        OefSearchClient.errorOf handle.operation header payload
      outcome :=
        OefSearchClient.outcomeOf protos.searchResponse
          handle.operation payload
      answering := some r }

theorem respond_goesOn
    (protos : CoreServerProtos)
    (s : CoreServer C)
    (header : TransportHeader)
    (payload : Option Wire) :
    let calls := (s.responseCall protos header payload).toList
    ClientGoesOn s (s.respond protos header payload) calls ∧
      (s.respond protos header payload).client =
        { handles :=
            Function.update s.client.handles
              header.id.toUInt32 none
          calls := s.client.calls ++ calls } ∧
      (s.respond protos header payload).writing =
        s.writing := by
  intro calls
  unfold respond
  cases hHandle :
      (s.client.msgHandleGet header.id.toUInt32).continuation with
  | none =>
      have hCalls : calls = [] := by
        simp [calls, responseCall, hHandle]
      rw [hCalls]
      refine ⟨⟨rfl, rfl, rfl, rfl, fun _ => rfl, by simp⟩, ?_, rfl⟩
      simp [OefSearchClient.msgHandleErase]
  | some r =>
      have hProcessed :
          s.client.processMessage protos.searchResponse header
              payload r =
            { handles :=
                Function.update s.client.handles
                  header.id.toUInt32 none
              calls := s.client.calls ++ calls } := by
        simp [OefSearchClient.processMessage, hHandle, calls,
          responseCall, OefSearchClient.msgHandleErase]
      have hCalls :
          (s.client.processMessage protos.searchResponse header
              payload r).calls =
            s.client.calls ++ calls := by
        rw [hProcessed]
      obtain ⟨hGoesOn, hClient, hWriting⟩ :=
        withClient_goesOn s hCalls
      exact ⟨hGoesOn, hClient.trans hProcessed, hWriting⟩

------------------------------------------------------------
-- The Parts of a Step
------------------------------------------------------------

@[simp]
theorem phase_setConnection
    (s : CoreServer C)
    (c : C)
    (connection : AgentConnection C) :
    (s.setConnection c connection).phase =
      Function.update s.phase c (some connection.phase) := by
  funext other
  by_cases hOther : other = c
  · subst hOther
    simp [phase, setConnection]
  · simp [phase, setConnection, hOther]

omit [DecidableEq C] in
@[simp]
theorem phase_send
    (s : CoreServer C)
    (source target : C)
    (output : ServerOutput) :
    (s.send source target output).phase = s.phase := rfl

@[simp]
theorem loginOutputs_setConnection
    (s : CoreServer C)
    (c : C)
    (connection : AgentConnection C) :
    (s.setConnection c connection).loginOutputs =
      s.loginOutputs := rfl

omit [DecidableEq C] in
@[simp]
theorem phase_setDirectory
    (s : CoreServer C)
    (directory : AgentDirectory C) :
    { s with directory := directory }.phase = s.phase := rfl

@[simp]
theorem loginOutputs_setDirectory
    (s : CoreServer C)
    (directory : AgentDirectory C) :
    { s with directory := directory }.loginOutputs =
      s.loginOutputs := rfl

theorem loginOutputs_send
    (s : CoreServer C)
    (source target : C)
    (output : ServerOutput) :
    (s.send source target output).loginOutputs =
      Function.update s.loginOutputs target
        (s.loginOutputs target ++
          if output.isLogin then [output] else []) := by
  funext other
  by_cases hOther : other = target
  · subst hOther
    simp [loginOutputs, send, List.filter_append,
      List.filter_cons]
  · have hNot : ¬ target = other := fun hEq => hOther hEq.symm
    simp [loginOutputs, send, List.filter_append, hOther, hNot]

/- Setting what a connection has anyway. -/
theorem LoginKept.setConnection
    {s : CoreServer C}
    {c : C}
    {connection : AgentConnection C}
    (hSame : s.phase c = some connection.phase) :
    LoginKept s (s.setConnection c connection) where
  directory := rfl
  accepted := rfl
  phase := by
    rw [phase_setConnection, ← hSame, Function.update_eq_self]
  outputs := rfl

theorem LoginKept.sendMessage
    (s : CoreServer C)
    (source target : C)
    (message : ServerAgentMessage) :
    LoginKept s (s.send source target (.message message)) where
  directory := rfl
  accepted := rfl
  phase := rfl
  outputs := by
    simp [loginOutputs_send, ServerOutput.isLogin]

theorem LoginKept.setDescription
    (s : CoreServer C)
    (c : C)
    (description : Option Wire) :
    LoginKept s (s.setDescription c description) := by
  unfold CoreServer.setDescription
  split
  · next session greeted hConnection =>
      apply LoginKept.setConnection
      obtain ⟨publicKey, _, stage⟩ := session
      simp only [CoreServer.phase, hConnection, Option.map_some]
      cases stage <;> rfl
  · exact LoginKept.refl s

/- Continuations send messages, which no login does. -/
theorem LoginKept.clientGoesOn
    {s s' : CoreServer C}
    {calls : List (ContinuationCall (AgentRequest C))}
    (hGoesOn : ClientGoesOn s s' calls) :
    LoginKept s s' where
  directory := hGoesOn.directory
  accepted := hGoesOn.accepted
  phase := by
    funext c
    have hSame := congrArg (Option.map AgentConnection.phase)
      (hGoesOn.connections c)
    simpa [CoreServer.phase, Function.comp_def] using hSame
  outputs := by
    funext c
    have hNone : ∀ sent ∈ calls.filterMap answerSend,
        sent.output.isLogin = false := by
      intro sent hSent
      obtain ⟨call, -, hAnswer⟩ := List.mem_filterMap.mp hSent
      obtain ⟨reply, -, hReply⟩ := Option.map_eq_some_iff.mp hAnswer
      rw [← hReply]
      rfl
    have hFiltered :
        (((calls.filterMap answerSend).filter fun sent =>
          sent.target = c).map ServerSend.output).filter
            ServerOutput.isLogin = [] := by
      rw [List.filter_eq_nil_iff]
      intro output hOutput
      obtain ⟨sent, hSent, rfl⟩ := List.mem_map.mp hOutput
      simp [hNone sent (List.mem_filter.mp hSent).1]
    unfold loginOutputs
    rw [hGoesOn.sends, List.filter_append, List.map_append,
      List.filter_append, hFiltered, List.append_nil]

theorem LoginKept.forward
    (s : CoreServer C)
    (c : C) :
    LoginKept s (s.forward c) := by
  unfold CoreServer.forward
  split
  · next publicKey description other message greeted hSession =>
      apply (LoginKept.sendMessage s c other message).trans
      simp only [CoreServer.setStage, CoreServer.send, hSession]
      apply LoginKept.setConnection
      simp [CoreServer.phase, hSession, AgentConnection.phase]
  · exact LoginKept.refl s

/- A session that reads is live whatever it does next. -/
theorem LoginKept.process
    {s : CoreServer C}
    {c : C}
    {session : AgentSession C}
    {greeted : Bool}
    (hSession : s.connections c = some (.started session greeted))
    (hReading : session.stage = .reading)
    (envelope : Envelope) :
    LoginKept s (s.process c session envelope) := by
  obtain ⟨publicKey, description, stage⟩ := session
  simp only at hReading
  subst hReading
  have hHeard : LoginKept s
      { s with received := s.received ++ [(c, envelope)] } :=
    ⟨rfl, rfl, rfl, rfl⟩
  unfold CoreServer.process
  cases hPayload : envelope.payload with
  | sendMessage msg =>
      simp only [CoreServer.processMessage]
      split
      · simp only [CoreServer.setStage, hSession]
        apply hHeard.trans
        apply LoginKept.setConnection
        simp [CoreServer.phase, hSession, AgentConnection.phase]
      · exact hHeard.trans (LoginKept.sendMessage _ _ _ _)
  | registerDescription text =>
      have hDescribed :=
        hHeard.trans
          (LoginKept.setDescription _ c (some text))
      exact hDescribed.trans ⟨rfl, rfl, rfl, rfl⟩
  | unregisterDescription =>
      cases description with
      | none => exact ⟨rfl, rfl, rfl, rfl⟩
      | some text => exact ⟨rfl, rfl, rfl, rfl⟩
  | registerService text => exact ⟨rfl, rfl, rfl, rfl⟩
  | unregisterService text => exact ⟨rfl, rfl, rfl, rfl⟩
  | searchServices search => exact ⟨rfl, rfl, rfl, rfl⟩
  | searchServicesWide search => exact ⟨rfl, rfl, rfl, rfl⟩
  | searchAgents search => exact ⟨rfl, rfl, rfl, rfl⟩
  | pong => exact ⟨rfl, rfl, rfl, rfl⟩
  | notSet => exact ⟨rfl, rfl, rfl, rfl⟩

------------------------------------------------------------
-- One Step
------------------------------------------------------------

/- A turn that sends what it sends to its own connection. -/
theorem LoginMoves.of_turn
    {s s' : CoreServer C}
    {c : C}
    {before : LoginPhase}
    {next : LoginPhase}
    {outputs : List ServerOutput}
    {directory : AgentDirectory C}
    (hBefore : s.phase c = some before)
    (hTurn :
      LoginTurn s.directory c (some before) next directory
        outputs)
    (hDirectory : s'.directory = directory)
    (hPhase :
      s'.phase = Function.update s.phase c (some next))
    (hOutputs :
      s'.loginOutputs =
        Function.update s.loginOutputs c
          (s.loginOutputs c ++ outputs))
    (hAccepted : s'.accepted = s.accepted) :
    LoginMoves s s' c where
  turn := by
    rw [hBefore, hDirectory]
    exact ⟨next, outputs, hTurn, hPhase, hOutputs⟩
  accepted := by
    rw [hAccepted, hBefore]
    simp

theorem newSession_login
    (protos : CoreServerProtos)
    {s : CoreServer C}
    {c : C}
    (hAwaits : s.connections c = some .awaitsId)
    (buffer : Option Wire) :
    LoginMoves s (s.newSession protos c buffer) c := by
  have hBefore : s.phase c = some .awaitsId := by
    simp [phase, hAwaits, AgentConnection.phase]
  cases buffer with
  | none =>
      apply LoginMoves.of_turn hBefore .fails
      · rfl
      · simp [newSession, AgentConnection.phase]
      · simp [newSession]
      · rfl
  | some buffer =>
      simp only [newSession]
      split
      · apply LoginMoves.of_turn hBefore .turnsAway
        · rfl
        · simp [AgentConnection.phase]
        · simp [loginOutputs_send, ServerOutput.isLogin]
        · rfl
      · apply LoginMoves.of_turn hBefore
          (.challenges (protos.agentServerID buffer).publicKey)
        · rfl
        · simp [AgentConnection.phase]
        · simp [loginOutputs_send, ServerOutput.isLogin]
        · rfl

theorem secretHandshake_login
    {s : CoreServer C}
    {c : C}
    {publicKey : String}
    (hAwaits : s.connections c = some (.awaitsAnswer publicKey))
    (buffer : Option Wire) :
    LoginMoves s (s.secretHandshake c publicKey buffer) c := by
  have hBefore : s.phase c = some (.awaitsAnswer publicKey) := by
    simp [phase, hAwaits, AgentConnection.phase]
  cases buffer with
  | none =>
      apply LoginMoves.of_turn hBefore (.failsLater publicKey)
      · rfl
      · simp [secretHandshake, AgentConnection.phase]
      · simp [secretHandshake]
      · rfl
  | some buffer =>
      simp only [secretHandshake, AgentDirectory.add]
      by_cases hExist : s.directory.exist publicKey
      · simp only [hExist, if_true]
        apply LoginMoves.of_turn hBefore (.refuses publicKey)
        · rfl
        · simp [AgentConnection.phase]
        · simp
        · rfl
      · have hFree : s.directory.session publicKey = none := by
          simpa [AgentDirectory.exist,
            AgentDirectory.session] using hExist
        simp only [hExist]
        apply LoginMoves.of_turn hBefore
          (.enters publicKey hFree)
        · rfl
        · simp [AgentConnection.phase]
        · simp
        · rfl

theorem logIn_login
    (s : CoreServer C)
    (c : C) :
    LoginKept s (s.logIn c) ∨ LoginMoves s (s.logIn c) c := by
  unfold logIn
  split
  · next publicKey hStarting =>
      have hBefore : s.phase c = some (.starting publicKey) := by
        simp [phase, hStarting, AgentConnection.phase]
      right
      apply LoginMoves.of_turn hBefore (.starts publicKey)
      · rfl
      · simp [AgentConnection.phase]
      · simp
      · rfl
  · next session hStarted =>
      right
      obtain ⟨publicKey, description, stage⟩ := session
      cases stage with
      | reading =>
          have hBefore : s.phase c = some (.live publicKey false) := by
            simp [phase, hStarted, AgentConnection.phase]
          apply LoginMoves.of_turn hBefore (.greets publicKey)
          · rfl
          · simp [AgentConnection.phase]
          · simp [loginOutputs_send, ServerOutput.isLogin]
          · rfl
      | sending other message =>
          have hBefore : s.phase c = some (.live publicKey false) := by
            simp [phase, hStarted, AgentConnection.phase]
          apply LoginMoves.of_turn hBefore (.greets publicKey)
          · rfl
          · simp [AgentConnection.phase]
          · simp [loginOutputs_send, ServerOutput.isLogin]
          · rfl
      | ended =>
          have hBefore : s.phase c = some (.left publicKey false) := by
            simp [phase, hStarted, AgentConnection.phase]
          apply LoginMoves.of_turn hBefore (.greetsLate publicKey)
          · rfl
          · simp [AgentConnection.phase]
          · simp [loginOutputs_send, ServerOutput.isLogin]
          · rfl
  · next publicKey hRefusing =>
      have hBefore : s.phase c = some (.refusing publicKey) := by
        simp [phase, hRefusing, AgentConnection.phase]
      right
      apply LoginMoves.of_turn hBefore (.tells publicKey)
      · rfl
      · simp [AgentConnection.phase]
      · simp [loginOutputs_send, ServerOutput.isLogin]
      · rfl
  · exact Or.inl (LoginKept.refl s)

/- A session reads a message, or a read on it fails. -/
theorem read_login
    (protos : CoreServerProtos)
    {s : CoreServer C}
    {c : C}
    {session : AgentSession C}
    {greeted : Bool}
    (hSession : s.connections c = some (.started session greeted))
    (hReading : session.stage = .reading)
    (buffer : Option Wire) :
    LoginKept s (s.read protos c session buffer) ∨
      LoginMoves s (s.read protos c session buffer) c := by
  cases buffer with
  | some buffer =>
      exact Or.inl (LoginKept.process hSession hReading _)
  | none =>
      obtain ⟨publicKey, description, stage⟩ := session
      simp only at hReading
      subst hReading
      have hBefore : s.phase c = some (.live publicKey greeted) := by
        simp [phase, hSession, AgentConnection.phase]
      right
      simp only [read, setStage, hSession]
      apply LoginMoves.of_turn hBefore (.leaves publicKey greeted)
      · rfl
      · simp [AgentConnection.phase]
      · simp
      · rfl

theorem accept_login
    (s : CoreServer C)
    (c : C) :
    LoginKept s (s.accept c) ∨ LoginMoves s (s.accept c) c := by
  unfold accept
  split
  · exact Or.inl (LoginKept.refl s)
  · next hNone =>
      have hBefore : s.phase c = none := by
        simp [phase, hNone]
      right
      constructor
      · rw [hBefore]
        refine ⟨.awaitsId, [], .accepts, ?_, ?_⟩
        · exact phase_setConnection _ c .awaitsId
        · rw [List.append_nil, Function.update_eq_self]
          rfl
      · simp [hBefore, setConnection]

theorem receive_login
    (protos : CoreServerProtos)
    (s : CoreServer C)
    (c : C)
    (buffer : Option Wire) :
    LoginKept s (s.receive protos c buffer) ∨
      LoginMoves s (s.receive protos c buffer) c := by
  unfold receive
  split
  · next hAwaits =>
      exact Or.inr (newSession_login protos hAwaits buffer)
  · next publicKey hAwaits =>
      exact Or.inr (secretHandshake_login hAwaits buffer)
  · next session greeted hSession =>
      split
      · next hReading =>
          exact read_login protos hSession hReading buffer
      · exact Or.inl (LoginKept.refl s)
  · exact Or.inl (LoginKept.refl s)

/- Every step is a turn of one login, or keeps all of them. -/
theorem step_login
    (protos : CoreServerProtos)
    (s : CoreServer C)
    (event : CoreServerEvent C) :
    LoginKept s (s.step protos event) ∨
      ∃ c, LoginMoves s (s.step protos event) c := by
  cases event with
  | accepts c =>
      rcases accept_login s c with hKept | hMoves
      · exact Or.inl hKept
      · exact Or.inr ⟨c, hMoves⟩
  | receives c buffer =>
      rcases receive_login protos s c buffer with hKept | hMoves
      · exact Or.inl hKept
      · exact Or.inr ⟨c, hMoves⟩
  | logsIn c =>
      rcases logIn_login s c with hKept | hMoves
      · exact Or.inl hKept
      · exact Or.inr ⟨c, hMoves⟩
  | forwards c => exact Or.inl (LoginKept.forward s c)
  | written r ec =>
      by_cases hWriting : r ∈ s.writing
      · exact Or.inl
          (LoginKept.clientGoesOn
            (completeWrite_goesOn protos hWriting ec).1)
      · left
        simp only [CoreServer.step, completeWrite, hWriting,
          if_false]
        exact LoginKept.refl s
  | responds header payload =>
      exact Or.inl
        (LoginKept.clientGoesOn
          (respond_goesOn protos s header payload).1)

------------------------------------------------------------
-- At Most One Live Session
------------------------------------------------------------

/-
  The directory finds the connection that holds a key, so no
  two hold one; and as many agents are counted as connections
  hold a key.
-/
structure LoginSafe (s : CoreServer C) : Prop where
  found : ∀ publicKey c,
    s.directory.session publicKey = some c ↔
      s.heldKey c = some publicKey
  unique : ∀ publicKey c other,
    s.heldKey c = some publicKey →
      s.heldKey other = some publicKey → other = c
  counted :
    s.nbAgents =
      (s.accepted.filter fun c => (s.heldKey c).isSome).length

/- The sessions that are found, and the keys that are held. -/
def keyDirectory (s : CoreServer C) : Directory String C where
  entry := s.directory.session
  held := s.heldKey

structure LoginSound (s : CoreServer C) : Prop where
  agrees : s.keyDirectory.Agrees
  accepted : ∀ c, c ∈ s.accepted ↔ s.phase c ≠ none
  nodup : s.accepted.Nodup

omit [DecidableEq C] in
theorem session_insert
    (directory : AgentDirectory C)
    (publicKey : String)
    (c : C) :
    AgentDirectory.session
        ⟨directory.sessions.insert publicKey c⟩ =
      Function.update directory.session publicKey (some c) := by
  funext key
  by_cases hKey : key = publicKey
  · subst hKey
    simp [AgentDirectory.session]
  · simp [AgentDirectory.session, hKey]

omit [DecidableEq C] in
theorem session_erase
    (directory : AgentDirectory C)
    (publicKey : String) :
    AgentDirectory.session ⟨directory.sessions.erase publicKey⟩ =
      Function.update directory.session publicKey none := by
  funext key
  by_cases hKey : key = publicKey
  · subst hKey
    simp [AgentDirectory.session]
  · simp [AgentDirectory.session, hKey]

/- What a turn does to the keys that are held. -/
theorem heldKey_of_phase
    {s s' : CoreServer C}
    {c : C}
    {next : LoginPhase}
    (hPhase : s'.phase = Function.update s.phase c (some next)) :
    s'.heldKey = Function.update s.heldKey c next.held := by
  funext other
  unfold heldKey
  rw [hPhase]
  by_cases hOther : other = c
  · subst hOther
    simp
  · simp [hOther]

/- A turn that leaves the directory and the key of its own
   connection. -/
theorem keyDirectory_of_held
    {s s' : CoreServer C}
    {c : C}
    {next : LoginPhase}
    (hDirectory : s'.directory = s.directory)
    (hPhase : s'.phase = Function.update s.phase c (some next))
    (hHeld : next.held = s.heldKey c) :
    s'.keyDirectory = s.keyDirectory := by
  unfold keyDirectory
  rw [hDirectory, heldKey_of_phase hPhase, hHeld,
    Function.update_eq_self]

theorem LoginSound.agreesAfter
    {s s' : CoreServer C}
    (hSound : LoginSound s)
    {c : C}
    {next : LoginPhase}
    {outputs : List ServerOutput}
    (hTurn :
      LoginTurn s.directory c (s.phase c) next s'.directory
        outputs)
    (hPhase :
      s'.phase = Function.update s.phase c (some next)) :
    s'.keyDirectory.Agrees := by
  have hKept :
      s'.directory = s.directory →
        next.held = (s.phase c).bind LoginPhase.held →
          s'.keyDirectory.Agrees := by
    intro hDirectory hHeld
    rw [keyDirectory_of_held hDirectory hPhase hHeld]
    exact hSound.agrees
  generalize hBefore : s.phase c = before at hTurn hKept
  generalize hDirectory : s'.directory = directory at hTurn hKept
  cases hTurn with
  | accepts => exact hKept rfl rfl
  | fails => exact hKept rfl rfl
  | failsLater publicKey => exact hKept rfl rfl
  | turnsAway => exact hKept rfl rfl
  | challenges publicKey => exact hKept rfl rfl
  | refuses publicKey => exact hKept rfl rfl
  | starts publicKey => exact hKept rfl rfl
  | greets publicKey => exact hKept rfl rfl
  | greetsLate publicKey => exact hKept rfl rfl
  | tells publicKey => exact hKept rfl rfl
  | enters publicKey hFree =>
      -- a key that is not found is held by nobody
      have hEntered :
          s'.keyDirectory = s.keyDirectory.enter c publicKey := by
        simp only [keyDirectory, Directory.enter, hDirectory,
          session_insert, heldKey_of_phase hPhase]
        rfl
      have hNew : s.keyDirectory.held c = none := by
        simp [keyDirectory, heldKey, hBefore, LoginPhase.held]
      rw [hEntered,
        Directory.agrees_enter_iff hSound.agrees hNew]
      intro other hOther
      have hFound := (hSound.agrees other publicKey).mpr hOther
      simp [keyDirectory, hFree] at hFound
  | leaves publicKey greeted =>
      have hLeft :
          s'.keyDirectory = s.keyDirectory.leave c publicKey := by
        simp only [keyDirectory, Directory.leave, hDirectory,
          session_erase, heldKey_of_phase hPhase]
        rfl
      have hHeld : s.keyDirectory.held c = some publicKey := by
        simp [keyDirectory, heldKey, hBefore, LoginPhase.held]
      rw [hLeft]
      exact Directory.agrees_leave hSound.agrees hHeld

theorem LoginSound.step
    (protos : CoreServerProtos)
    (s : CoreServer C)
    (event : CoreServerEvent C)
    (hSound : LoginSound s) :
    LoginSound (s.step protos event) := by
  rcases step_login protos s event with hKept | ⟨c, hMoves⟩
  · constructor
    · unfold keyDirectory heldKey
      rw [hKept.directory, hKept.phase]
      exact hSound.agrees
    · rw [hKept.accepted, hKept.phase]
      exact hSound.accepted
    · rw [hKept.accepted]
      exact hSound.nodup
  · obtain ⟨next, outputs, hTurn, hPhase, -⟩ := hMoves.turn
    constructor
    · exact hSound.agreesAfter hTurn hPhase
    · intro other
      rw [hMoves.accepted, hPhase]
      by_cases hOther : other = c
      · subst hOther
        by_cases hNone : s.phase other = none
        · simp [hNone]
        · simp [hNone, (hSound.accepted other).mpr hNone]
      · by_cases hNone : s.phase c = none
        · simp [hNone, hOther, hSound.accepted other]
        · simp [hNone, hOther, hSound.accepted other]
    · rw [hMoves.accepted]
      by_cases hNone : s.phase c = none
      · have hNew : c ∉ s.accepted := by
          rw [hSound.accepted c]
          simp [hNone]
        rw [if_pos hNone]
        exact List.nodup_append'.mpr
          ⟨hSound.nodup, List.nodup_singleton c,
            by simpa using hNew⟩
      · rw [if_neg hNone]
        exact hSound.nodup

omit [DecidableEq C] in
theorem loginSound_construct :
    LoginSound (construct : CoreServer C) where
  agrees := by
    intro c publicKey
    simp [keyDirectory, construct, AgentDirectory.construct,
      AgentDirectory.session, heldKey, phase]
  accepted := by
    intro c
    simp [construct, phase]
  nodup := List.nodup_nil

theorem loginSound_run
    (protos : CoreServerProtos)
    (events : List (CoreServerEvent C)) :
    LoginSound (run protos events) :=
  run_induction loginSound_construct
    (fun s event hSound => hSound.step protos s event) events

omit [DecidableEq C] in
theorem LoginSound.unique
    {s : CoreServer C}
    (hSound : LoginSound s)
    {publicKey : String}
    {c other : C}
    (hHeld : s.heldKey c = some publicKey)
    (hOther : s.heldKey other = some publicKey) :
    other = c := by
  have hFirst := (hSound.agrees c publicKey).mpr hHeld
  have hSecond := (hSound.agrees other publicKey).mpr hOther
  rw [hFirst] at hSecond
  exact (Option.some.inj hSecond).symm

/- A key for each connection that holds one. -/
omit [DecidableEq C] in
theorem LoginSound.counted
    {s : CoreServer C}
    (hSound : LoginSound s) :
    s.nbAgents =
      (s.accepted.filter fun c =>
        (s.heldKey c).isSome).length := by
  have hPerm :
      (s.accepted.filterMap s.heldKey).Perm
        s.directory.sessions.keys := by
    apply (List.perm_ext_iff_of_nodup ?_
      s.directory.sessions.keys_nodup).mpr
    · intro publicKey
      rw [← AList.mem_keys, ← AList.lookup_isSome,
        Option.isSome_iff_exists, List.mem_filterMap]
      constructor
      · rintro ⟨c, -, hHeld⟩
        exact ⟨c, (hSound.agrees c publicKey).mpr hHeld⟩
      · rintro ⟨c, hFound⟩
        have hHeld := (hSound.agrees c publicKey).mp hFound
        refine ⟨c, (hSound.accepted c).mpr ?_, hHeld⟩
        intro hNone
        simp [keyDirectory, heldKey, hNone] at hHeld
    · apply hSound.nodup.filterMap
      intro c other publicKey hHeld hOther
      exact hSound.unique hOther hHeld
  calc s.nbAgents
      = s.directory.sessions.keys.length := rfl
    _ = (s.accepted.filterMap s.heldKey).length :=
        hPerm.length_eq.symm
    _ = (s.accepted.filter fun c =>
          (s.heldKey c).isSome).length := by
        simp [List.length_filterMap_eq_countP,
          List.countP_eq_length_filter]

/-
  However the logins, the messages and the failures of any
  number of connections follow one another, the directory
  finds exactly the connections that hold a key.
-/
theorem loginSafe_run
    (protos : CoreServerProtos)
    (events : List (CoreServerEvent C)) :
    LoginSafe (run protos events) := by
  have hSound := loginSound_run protos events
  constructor
  · intro publicKey c
    exact hSound.agrees c publicKey
  · intro publicKey c other hHeld hOther
    exact hSound.unique hHeld hOther
  · exact hSound.counted

------------------------------------------------------------
-- What a Login Says
------------------------------------------------------------

/- What a connection in a phase can have been sent so far. -/
def transcripts : LoginPhase → List (List ServerOutput)
  | .awaitsId => [[]]
  | .awaitsAnswer _ | .starting _ | .refusing _ =>
      [[.phrase "RandomlyGeneratedString"]]
  | .live _ greeted | .left _ greeted =>
      if greeted then
        [[.phrase "RandomlyGeneratedString", .connected true]]
      else
        [[.phrase "RandomlyGeneratedString"]]
  | .closed =>
      [[], [.failure], [.phrase "RandomlyGeneratedString"],
        [.phrase "RandomlyGeneratedString", .connected false]]

/- Nothing was sent before a connection is accepted. -/
def Transcribed (s : CoreServer C) : Prop :=
  ∀ c, s.loginOutputs c ∈
    ((s.phase c).map transcripts).getD [[]]

omit [DecidableEq C] in
theorem LoginTurn.transcribed
    {directory directory' : AgentDirectory C}
    {c : C}
    {before : Option LoginPhase}
    {next : LoginPhase}
    {outputs said : List ServerOutput}
    (hTurn :
      LoginTurn directory c before next directory' outputs)
    (hSaid : said ∈ (before.map transcripts).getD [[]]) :
    said ++ outputs ∈ transcripts next := by
  cases hTurn with
  | leaves publicKey greeted =>
      simpa [transcripts] using hSaid
  | _ => simp_all [transcripts]

/- A connection is told what its login has come to, once. -/
theorem transcribed_run
    (protos : CoreServerProtos)
    (events : List (CoreServerEvent C)) :
    Transcribed (run protos events) := by
  apply run_induction
  · intro c
    simp [construct, loginOutputs, phase]
  · intro s event hSaid c
    rcases step_login protos s event with hKept | ⟨turned, hMoves⟩
    · rw [hKept.outputs, hKept.phase]
      exact hSaid c
    · obtain ⟨next, outputs, hTurn, hPhase, hOutputs⟩ :=
        hMoves.turn
      rw [hPhase, hOutputs]
      by_cases hTurned : c = turned
      · subst hTurned
        simpa using hTurn.transcribed (hSaid c)
      · simpa [hTurned] using hSaid c

/- Two connections with one key, whose logins overlap. -/
example :
    let protos : CoreServerProtos :=
      { agentServerID := fun _ => ⟨"alice"⟩
        envelope := fun _ => ⟨0, "", .notSet⟩
        searchResponse := fun _ => ⟨[]⟩
        hash := fun _ => 0 }
    let s : CoreServer Bool := run protos
      [.accepts false, .accepts true,
        .receives false (some []), .receives true (some []),
        .receives true (some []), .receives false (some []),
        .logsIn false, .logsIn true, .logsIn true]
    s.loginOutputs false =
        [.phrase "RandomlyGeneratedString", .connected false] ∧
      s.loginOutputs true =
        [.phrase "RandomlyGeneratedString", .connected true] := by
  exact ⟨rfl, rfl⟩

end CoreServer

end OefCore
