import OefCore.CoreServer.SessionTraffic

/-
  The answers of the search node: an agent gets those to its
  own requests, and at most one to each, whatever the search
  node sends; and a connection that was not let in gets
  nothing but the words of its login.

  Main declarations:
    * `CoreServer.answersTo`, `CoreServer.AnsweredOnce`
    * `CoreServer.answeredOnce_run`
    * `CoreServer.LoginKnown`, `CoreServer.loginKnown_run`
-/

namespace OefCore

namespace CoreServer

variable {C : Type} [DecidableEq C]

------------------------------------------------------------
-- Answers
------------------------------------------------------------

/- The message of a send to a connection that is an answer. -/
def answerIn
    (c : C)
    (sent : ServerSend C) : Option ServerAgentMessage :=
  match sent.output with
  | .message message =>
      if sent.target = c ∧ isOutcome message = false then
        some message
      else
        none
  | _ => none

def answersTo
    (s : CoreServer C)
    (c : C) : List ServerAgentMessage :=
  s.sends.filterMap (answerIn c)

/- The continuations that were called for a connection. -/
def callsOf
    (s : CoreServer C)
    (c : C) : List (ContinuationCall (AgentRequest C)) :=
  s.client.calls.filter fun call =>
    call.continuation.connection = c

def requestsOf
    (s : CoreServer C)
    (c : C) : List (AgentRequest C) :=
  s.requests.filter fun r => r.connection = c

/- What an envelope asks the search node for. -/
def asking (envelope : Envelope) :
    Option (AgentRequestKind × UInt32) :=
  let msgId := UInt32.ofInt envelope.msgId
  match envelope.payload with
  | .registerService _ => some (.registerService, msgId)
  | .unregisterService _ => some (.unregisterService, msgId)
  | .registerDescription _ => some (.registerDescription, msgId)
  | .unregisterDescription =>
      some (.unregisterDescription, msgId)
  | .searchAgents _ => some (.searchAgents, msgId)
  | .searchServices _ => some (.searchService, msgId)
  | .searchServicesWide _ => some (.searchServiceWide, msgId)
  | .sendMessage _ | .pong | .notSet => none

def AgentRequest.asked
    (r : AgentRequest C) : AgentRequestKind × UInt32 :=
  (r.kind, r.msgId)

/-
  The answers to a connection are what the continuations of
  its requests reply; no continuation is called twice; each is
  that of a request; and the requests of a connection are
  those of its envelopes, each at most once.
-/
structure AnsweredOnce (s : CoreServer C) : Prop where
  answers : ∀ c,
    s.answersTo c = (s.callsOf c).filterMap replyTo
  once : (s.client.calls.map fun call =>
    call.continuation).Nodup
  asked : ∀ call ∈ s.client.calls,
    call.continuation ∈ s.requests
  requested : ∀ c,
    ((s.requestsOf c).map AgentRequest.asked).Sublist
      ((s.envelopesOf c).filterMap asking)

/- A request is being written, or has a handle under its
   number, or its continuation was called; at most one of
   these. -/
structure RequestsSound
    (protos : CoreServerProtos)
    (s : CoreServer C) : Prop extends AnsweredOnce s where
  numbered :
    s.requests.map AgentRequest.number =
      List.range s.requests.length
  writing : ∀ r ∈ s.writing, r ∈ s.requests
  writingOnce : s.writing.Nodup
  unwritten : ∀ call ∈ s.client.calls,
    call.continuation ∉ s.writing
  handles : ∀ k handle, s.client.handles k = some handle →
    ∃ r ∈ s.requests, handle.continuation = some r ∧
      r.clientRequest.smsgId protos.hash = k ∧
      r ∉ s.writing ∧
      r ∉ s.client.calls.map fun call => call.continuation

------------------------------------------------------------
-- Steps That Ask Nothing
------------------------------------------------------------

structure RequestsKept (s s' : CoreServer C) : Prop where
  client : s'.client = s.client
  requests : s'.requests = s.requests
  writing : s'.writing = s.writing
  envelopes : ∀ c,
    (s.envelopesOf c).Sublist (s'.envelopesOf c)
  answers : s'.answersTo = s.answersTo

theorem RequestsKept.refl (s : CoreServer C) :
    RequestsKept s s :=
  ⟨rfl, rfl, rfl, fun _ => .refl _, rfl⟩

theorem RequestsKept.trans
    {s s' s'' : CoreServer C}
    (hFirst : RequestsKept s s')
    (hSecond : RequestsKept s' s'') :
    RequestsKept s s'' where
  client := hSecond.client.trans hFirst.client
  requests := hSecond.requests.trans hFirst.requests
  writing := hSecond.writing.trans hFirst.writing
  envelopes := fun c =>
    (hFirst.envelopes c).trans (hSecond.envelopes c)
  answers := hSecond.answers.trans hFirst.answers

theorem RequestsKept.setConnection
    (s : CoreServer C)
    (c : C)
    (connection : AgentConnection C) :
    RequestsKept s (s.setConnection c connection) :=
  ⟨rfl, rfl, rfl, fun _ => .refl _, rfl⟩

theorem RequestsKept.setDirectory
    (s : CoreServer C)
    (directory : AgentDirectory C) :
    RequestsKept s { s with directory := directory } :=
  ⟨rfl, rfl, rfl, fun _ => .refl _, rfl⟩

theorem RequestsKept.setStage
    (s : CoreServer C)
    (c : C)
    (stage : ReadStage C) :
    RequestsKept s (s.setStage c stage) := by
  unfold CoreServer.setStage
  split
  · exact RequestsKept.setConnection s c _
  · exact RequestsKept.refl s

theorem RequestsKept.setDescription
    (s : CoreServer C)
    (c : C)
    (description : Option Wire) :
    RequestsKept s (s.setDescription c description) := by
  unfold CoreServer.setDescription
  split
  · exact RequestsKept.setConnection s c _
  · exact RequestsKept.refl s

/- What is sent without being an answer. -/
theorem RequestsKept.send
    {source target : C}
    {output : ServerOutput}
    (s : CoreServer C)
    (hNot : ∀ message, output = .message message →
      isOutcome message = true) :
    RequestsKept s (s.send source target output) where
  client := rfl
  requests := rfl
  writing := rfl
  envelopes := fun _ => .refl _
  answers := by
    funext c
    have hNone :
        answerIn c ⟨source, target, output⟩ = none := by
      unfold answerIn
      cases hOutput : output with
      | message message => simp [hNot message hOutput]
      | phrase phrase => rfl
      | failure => rfl
      | connected status => rfl
    simp [answersTo, CoreServer.send, hNone]

theorem RequestsKept.hear
    (s : CoreServer C)
    (c : C)
    (envelope : Envelope) :
    RequestsKept s (s.hear c envelope) where
  client := rfl
  requests := rfl
  writing := rfl
  envelopes := by
    intro other
    apply List.Sublist.map
    apply List.Sublist.filter
    exact List.sublist_append_left _ _
  answers := rfl

theorem RequestsKept.forward
    {s : CoreServer C}
    (hDelivered : Delivered s)
    (c : C) :
    RequestsKept s (s.forward c) := by
  unfold CoreServer.forward
  split
  · next publicKey description other message greeted hSession =>
      have hOutcome : isOutcome message = true := by
        apply hDelivered.isOutcome_pending (c := c)
        rw [pendingOf_of_connection hSession]
        exact List.mem_singleton_self _
      have hSent : RequestsKept s
          (s.send c other (.message message)) := by
        apply RequestsKept.send
        intro another hAnother
        cases hAnother
        exact hOutcome
      exact hSent.trans (RequestsKept.setStage _ c _)
  · exact RequestsKept.refl s

theorem RequestsKept.newSession
    (protos : CoreServerProtos)
    (s : CoreServer C)
    (c : C)
    (buffer : Option Wire) :
    RequestsKept s (s.newSession protos c buffer) := by
  cases buffer with
  | none => exact RequestsKept.setConnection s c _
  | some buffer =>
      simp only [CoreServer.newSession]
      split
      · exact (RequestsKept.setConnection s c _).trans
          (RequestsKept.send _ (by simp))
      · exact (RequestsKept.setConnection s c _).trans
          (RequestsKept.send _ (by simp))

theorem RequestsKept.secretHandshake
    (s : CoreServer C)
    (c : C)
    (publicKey : String)
    (buffer : Option Wire) :
    RequestsKept s (s.secretHandshake c publicKey buffer) := by
  cases buffer with
  | none => exact RequestsKept.setConnection s c _
  | some buffer =>
      exact (RequestsKept.setDirectory s _).trans
        (RequestsKept.setConnection _ c _)

theorem RequestsKept.logIn
    (s : CoreServer C)
    (c : C) :
    RequestsKept s (s.logIn c) := by
  unfold CoreServer.logIn
  split
  · exact RequestsKept.setConnection s c _
  · exact (RequestsKept.setConnection s c _).trans
      (RequestsKept.send _ (by simp))
  · exact (RequestsKept.setConnection s c _).trans
      (RequestsKept.send _ (by simp))
  · exact RequestsKept.refl s

theorem RequestsKept.accept
    (s : CoreServer C)
    (c : C) :
    RequestsKept s (s.accept c) := by
  unfold CoreServer.accept
  split
  · exact RequestsKept.refl s
  · exact ⟨rfl, rfl, rfl, fun _ => .refl _, rfl⟩

/- Nothing is asked, so nothing of a request changes. -/
theorem RequestsSound.kept
    {protos : CoreServerProtos}
    {s s' : CoreServer C}
    (hSound : RequestsSound protos s)
    (hKept : RequestsKept s s') :
    RequestsSound protos s' where
  answers := by
    intro c
    unfold callsOf
    rw [hKept.answers, hKept.client]
    exact hSound.answers c
  once := by
    rw [hKept.client]
    exact hSound.once
  asked := by
    rw [hKept.client, hKept.requests]
    exact hSound.asked
  requested := by
    intro c
    unfold requestsOf
    rw [hKept.requests]
    exact (hSound.requested c).trans
      ((hKept.envelopes c).filterMap asking)
  numbered := by
    rw [hKept.requests]
    exact hSound.numbered
  writing := by
    rw [hKept.writing, hKept.requests]
    exact hSound.writing
  writingOnce := by
    rw [hKept.writing]
    exact hSound.writingOnce
  unwritten := by
    rw [hKept.client, hKept.writing]
    exact hSound.unwritten
  handles := by
    rw [hKept.client, hKept.requests, hKept.writing]
    exact hSound.handles

------------------------------------------------------------
-- A Request
------------------------------------------------------------

/- Numbers tell requests apart, so a new one was not asked. -/
theorem RequestsSound.notMem_of_number
    {protos : CoreServerProtos}
    {s : CoreServer C}
    (hSound : RequestsSound protos s)
    {r : AgentRequest C}
    (hNumber : r.number = s.requests.length) :
    r ∉ s.requests := by
  intro hMem
  have hRange : r.number ∈ List.range s.requests.length := by
    rw [← hSound.numbered]
    exact List.mem_map_of_mem hMem
  rw [List.mem_range, hNumber] at hRange
  exact Nat.lt_irrefl _ hRange

/- An envelope is read that asks for something. -/
theorem RequestsSound.asks
    {protos : CoreServerProtos}
    {s : CoreServer C}
    (hSound : RequestsSound protos s)
    {c : C}
    {envelope : Envelope}
    {kind : AgentRequestKind}
    (hAsking :
      asking envelope =
        some (kind, UInt32.ofInt envelope.msgId))
    (agent : String) :
    RequestsSound protos
      ((s.hear c envelope).request c kind agent
        envelope.msgId) := by
  have hEnvelopes : ∀ other,
      (((s.hear c envelope).request c kind agent
          envelope.msgId).envelopesOf other) =
        s.envelopesOf other ++
          if c = other then [envelope] else [] := by
    intro other
    by_cases hOther : c = other
    · simp [envelopesOf, request, hear, hOther]
    · simp [envelopesOf, request, hear, hOther]
  generalize hNew :
    (⟨c, s.requests.length, kind, agent,
      UInt32.ofInt envelope.msgId⟩ : AgentRequest C) = r
  have hNotAsked : r ∉ s.requests :=
    hSound.notMem_of_number (by rw [← hNew])
  have hRequests :
      ((s.hear c envelope).request c kind agent
        envelope.msgId).requests = s.requests ++ [r] := by
    rw [← hNew]
    rfl
  have hWriting :
      ((s.hear c envelope).request c kind agent
        envelope.msgId).writing = s.writing ++ [r] := by
    rw [← hNew]
    rfl
  constructor
  · constructor
    · exact hSound.answers
    · exact hSound.once
    · intro call hCall
      rw [hRequests]
      exact List.mem_append_left _ (hSound.asked call hCall)
    · intro other
      unfold requestsOf
      rw [hRequests, hEnvelopes, List.filter_append,
        List.map_append, List.filterMap_append]
      apply (hSound.requested other).append
      by_cases hOther : c = other
      · simp [← hNew, hOther, hAsking, AgentRequest.asked]
      · simp [← hNew, hOther]
  · rw [hRequests, List.map_append, hSound.numbered,
      List.length_append, List.length_singleton,
      List.range_succ, ← hNew]
    rfl
  · intro other hOther
    rw [hRequests]
    rw [hWriting] at hOther
    rcases List.mem_append.mp hOther with hOld | hLast
    · exact List.mem_append_left _ (hSound.writing other hOld)
    · exact List.mem_append_right _ hLast
  · rw [hWriting]
    refine List.nodup_append'.mpr
      ⟨hSound.writingOnce, List.nodup_singleton r, ?_⟩
    rw [List.disjoint_singleton]
    exact fun hOld => hNotAsked (hSound.writing r hOld)
  · intro call hCall
    rw [hWriting]
    intro hMem
    rcases List.mem_append.mp hMem with hOld | hLast
    · exact hSound.unwritten call hCall hOld
    · rw [List.mem_singleton] at hLast
      exact hNotAsked (hLast ▸ hSound.asked call hCall)
  · intro k handle hHandle
    obtain ⟨waiting, hAsked, hContinuation, hNumber, hWrites,
      hCalls⟩ := hSound.handles k handle hHandle
    rw [hRequests, hWriting]
    refine ⟨waiting, List.mem_append_left _ hAsked,
      hContinuation, hNumber, ?_, hCalls⟩
    intro hMem
    rcases List.mem_append.mp hMem with hOld | hLast
    · exact hWrites hOld
    · rw [List.mem_singleton] at hLast
      exact hNotAsked (hLast ▸ hAsked)

theorem RequestsSound.process
    {protos : CoreServerProtos}
    {s : CoreServer C}
    (hSound : RequestsSound protos s)
    (c : C)
    (session : AgentSession C)
    (envelope : Envelope) :
    RequestsSound protos (s.process c session envelope) := by
  have hHear := hSound.kept (RequestsKept.hear s c envelope)
  unfold CoreServer.process
  cases hPayload : envelope.payload with
  | sendMessage msg =>
      simp only [processMessage]
      split
      · exact hHear.kept (RequestsKept.setStage _ c _)
      · apply hHear.kept
        apply RequestsKept.send
        intro message hMessage
        cases hMessage
        rfl
  | registerDescription text =>
      have hDescribed := hSound.kept
        (RequestsKept.setDescription s c (some text))
      have hSame :
          (s.hear c envelope).setDescription c (some text) =
            (s.setDescription c (some text)).hear c
              envelope := by
        simp only [setDescription, hear]
        split <;> rfl
      have hAsks :
          RequestsSound protos
            (((s.hear c envelope).setDescription c
              (some text)).request c .registerDescription
                session.publicKey envelope.msgId) := by
        rw [hSame]
        exact hDescribed.asks (by simp [asking, hPayload]) _
      exact hAsks
  | unregisterDescription =>
      cases session.description with
      | none => exact hHear
      | some text =>
          exact hSound.asks (by simp [asking, hPayload]) _
  | pong => exact hHear
  | notSet => exact hHear
  | _ => exact hSound.asks (by simp [asking, hPayload]) _

------------------------------------------------------------
-- The Client Goes On
------------------------------------------------------------

theorem answersTo_goesOn
    {s s' : CoreServer C}
    {calls : List (ContinuationCall (AgentRequest C))}
    (hGoesOn : ClientGoesOn s s' calls)
    (c : C) :
    s'.answersTo c =
      s.answersTo c ++
        (calls.filter fun call =>
          call.continuation.connection = c).filterMap
            replyTo := by
  have hCalls :
      (calls.filterMap answerSend).filterMap (answerIn c) =
        (calls.filter fun call =>
          call.continuation.connection = c).filterMap
            replyTo := by
    rw [List.filterMap_filterMap, List.filterMap_filter]
    apply List.filterMap_congr
    intro call _
    cases hReply : replyTo call with
    | none => simp [answerSend, hReply]
    | some reply =>
        simp [answerSend, hReply, answerIn,
          isOutcome_replyTo hReply]
  unfold answersTo
  rw [hGoesOn.sends, List.filterMap_append, hCalls]

/- What is promised, once more continuations were called. -/
theorem AnsweredOnce.goesOn
    {s s' : CoreServer C}
    (hOnce : AnsweredOnce s)
    {calls : List (ContinuationCall (AgentRequest C))}
    (hGoesOn : ClientGoesOn s s' calls)
    (hCalls : s'.client.calls = s.client.calls ++ calls)
    (hAsked : ∀ call ∈ calls,
      call.continuation ∈ s.requests)
    (hNew : (calls.map fun call => call.continuation).Nodup)
    (hApart : ∀ call ∈ calls, call.continuation ∉
      s.client.calls.map fun call => call.continuation) :
    AnsweredOnce s' where
  answers := by
    intro c
    unfold callsOf
    rw [answersTo_goesOn hGoesOn, hOnce.answers, hCalls,
      List.filter_append, List.filterMap_append]
    rfl
  once := by
    rw [hCalls, List.map_append]
    refine List.nodup_append'.mpr ⟨hOnce.once, hNew, ?_⟩
    intro r hOld hLater
    obtain ⟨call, hCall, rfl⟩ := List.mem_map.mp hLater
    exact hApart call hCall hOld
  asked := by
    rw [hCalls, hGoesOn.requests]
    intro call hCall
    rcases List.mem_append.mp hCall with hOld | hLater
    · exact hOnce.asked call hOld
    · exact hAsked call hLater
  requested := by
    intro c
    unfold requestsOf envelopesOf
    rw [hGoesOn.requests, hGoesOn.received]
    exact hOnce.requested c

/- A write that fails calls the continuation. -/
theorem RequestsSound.writeFails
    {protos : CoreServerProtos}
    {s : CoreServer C}
    (hSound : RequestsSound protos s)
    {r : AgentRequest C}
    (hWriting : r ∈ s.writing)
    (ec : SearchErrorCode) :
    RequestsSound protos
      (s.completeWrite protos r (some ec)) := by
  obtain ⟨hGoesOn, hClient, hLeft⟩ :=
    completeWrite_goesOn protos hWriting (some ec)
  have hHandles :
      (s.completeWrite protos r (some ec)).client.handles =
        s.client.handles := by
    rw [hClient]
    rfl
  have hCalls :
      (s.completeWrite protos r (some ec)).client.calls =
        s.client.calls ++ [⟨r, some ec, .nothing, none⟩] := by
    rw [hClient]
    rfl
  have hUncalled :
      r ∉ s.client.calls.map fun call =>
        call.continuation := by
    intro hMem
    obtain ⟨call, hCall, hEq⟩ := List.mem_map.mp hMem
    exact hSound.unwritten call hCall (hEq ▸ hWriting)
  constructor
  · apply hSound.toAnsweredOnce.goesOn hGoesOn hCalls
    · simpa using hSound.writing r hWriting
    · simp
    · simpa using hUncalled
  · rw [hGoesOn.requests]
    exact hSound.numbered
  · rw [hLeft, hGoesOn.requests]
    intro other hOther
    exact hSound.writing other (List.mem_of_mem_erase hOther)
  · rw [hLeft]
    exact hSound.writingOnce.erase r
  · rw [hCalls, hLeft]
    intro call hCall
    rcases List.mem_append.mp hCall with hOld | hLast
    · exact fun hMem => hSound.unwritten call hOld
        (List.mem_of_mem_erase hMem)
    · rw [List.mem_singleton.mp hLast]
      exact hSound.writingOnce.not_mem_erase
  · rw [hHandles, hLeft, hCalls, hGoesOn.requests]
    intro k handle hHandle
    obtain ⟨waiting, hAsked, hContinuation, hNumber, hWrites,
      hUnanswered⟩ := hSound.handles k handle hHandle
    refine ⟨waiting, hAsked, hContinuation, hNumber,
      fun hMem => hWrites (List.mem_of_mem_erase hMem), ?_⟩
    rw [List.map_append, List.mem_append, not_or]
    refine ⟨hUnanswered, ?_⟩
    -- the request that waits is not the one being written
    intro hMem
    have hSame : waiting = r := by simpa using hMem
    exact hWrites (hSame ▸ hWriting)

/- A write that succeeds leaves a handle, unless its number is
   taken. -/
theorem RequestsSound.writeSucceeds
    {protos : CoreServerProtos}
    {s : CoreServer C}
    (hSound : RequestsSound protos s)
    {r : AgentRequest C}
    (hWriting : r ∈ s.writing) :
    RequestsSound protos (s.completeWrite protos r none) := by
  obtain ⟨hGoesOn, hClient, hLeft⟩ :=
    completeWrite_goesOn protos hWriting none
  have hCalls :
      (s.completeWrite protos r none).client.calls =
        s.client.calls ++ [] := by
    rw [hClient, calls_sendCompleted]
    rfl
  have hUncalled :
      r ∉ s.client.calls.map fun call =>
        call.continuation := by
    intro hMem
    obtain ⟨call, hCall, hEq⟩ := List.mem_map.mp hMem
    exact hSound.unwritten call hCall (hEq ▸ hWriting)
  constructor
  · exact hSound.toAnsweredOnce.goesOn hGoesOn hCalls (by simp)
      (by simp) (by simp)
  · rw [hGoesOn.requests]
    exact hSound.numbered
  · rw [hLeft, hGoesOn.requests]
    intro other hOther
    exact hSound.writing other (List.mem_of_mem_erase hOther)
  · rw [hLeft]
    exact hSound.writingOnce.erase r
  · rw [hCalls, hLeft, List.append_nil]
    intro call hCall hMem
    exact hSound.unwritten call hCall
      (List.mem_of_mem_erase hMem)
  · rw [hLeft, hCalls, hGoesOn.requests, List.append_nil, hClient]
    intro k handle hHandle
    have hOld : s.client.handles k = some handle →
        ∃ waiting ∈ s.requests,
          handle.continuation = some waiting ∧
          waiting.clientRequest.smsgId protos.hash = k ∧
          waiting ∉ s.writing.erase r ∧
          waiting ∉ s.client.calls.map fun call =>
            call.continuation := by
      intro hBefore
      obtain ⟨waiting, hAsked, hContinuation, hNumber, hWrites,
        hUnanswered⟩ := hSound.handles k handle hBefore
      exact ⟨waiting, hAsked, hContinuation, hNumber,
        fun hMem => hWrites (List.mem_of_mem_erase hMem),
        hUnanswered⟩
    simp only [OefSearchClient.sendCompleted,
      OefSearchClient.msgHandleSave] at hHandle
    split at hHandle
    · exact hOld hHandle
    · by_cases hNumber :
          k = r.clientRequest.smsgId protos.hash
      · subst hNumber
        simp only [Function.update_self,
          Option.some.injEq] at hHandle
        subst hHandle
        exact ⟨r, hSound.writing r hWriting, rfl, rfl,
          hSound.writingOnce.not_mem_erase, hUncalled⟩
      · simp only [Function.update_of_ne hNumber] at hHandle
        exact hOld hHandle

/- A response calls the continuation of the handle under its
   number, which is then gone. -/
theorem RequestsSound.responds
    {protos : CoreServerProtos}
    {s : CoreServer C}
    (hSound : RequestsSound protos s)
    (header : TransportHeader)
    (payload : Option Wire) :
    RequestsSound protos (s.respond protos header payload) := by
  obtain ⟨hGoesOn, hClient, hLeft⟩ :=
    respond_goesOn protos s header payload
  -- whose continuation is called, if any is
  have hCall : ∀ call ∈ s.responseCall protos header payload,
      ∃ handle, s.client.handles header.id.toUInt32 =
        some handle ∧
        handle.continuation = some call.continuation := by
    intro call hMem
    unfold responseCall OefSearchClient.msgHandleGet at hMem
    cases hHandle : s.client.handles header.id.toUInt32 with
    | none => simp [hHandle] at hMem
    | some handle =>
        simp only [hHandle, Option.mem_def,
          Option.map_eq_some_iff] at hMem
        obtain ⟨r, hContinuation, rfl⟩ := hMem
        exact ⟨handle, rfl, hContinuation⟩
  have hWaits : ∀ call ∈ s.responseCall protos header payload,
      call.continuation ∈ s.requests ∧
        call.continuation.clientRequest.smsgId protos.hash =
          header.id.toUInt32 ∧
        call.continuation ∉ s.writing ∧
        call.continuation ∉ s.client.calls.map fun call =>
          call.continuation := by
    intro call hMem
    obtain ⟨handle, hHandle, hContinuation⟩ := hCall call hMem
    obtain ⟨waiting, hAsked, hWaiting, hNumber, hWrites,
      hUnanswered⟩ := hSound.handles _ handle hHandle
    rw [hContinuation, Option.some.injEq] at hWaiting
    rw [hWaiting]
    exact ⟨hAsked, hNumber, hWrites, hUnanswered⟩
  have hCalls :
      (s.respond protos header payload).client.calls =
        s.client.calls ++
          (s.responseCall protos header payload).toList := by
    rw [hClient]
  constructor
  · apply hSound.toAnsweredOnce.goesOn hGoesOn hCalls
    · intro call hMem
      exact (hWaits call (Option.mem_toList.mp hMem)).1
    · cases s.responseCall protos header payload <;> simp
    · intro call hMem
      exact (hWaits call (Option.mem_toList.mp hMem)).2.2.2
  · rw [hGoesOn.requests]
    exact hSound.numbered
  · rw [hLeft, hGoesOn.requests]
    exact hSound.writing
  · rw [hLeft]
    exact hSound.writingOnce
  · rw [hCalls, hLeft]
    intro call hMem
    rcases List.mem_append.mp hMem with hOld | hLast
    · exact hSound.unwritten call hOld
    · exact (hWaits call (Option.mem_toList.mp hLast)).2.2.1
  · rw [hLeft, hCalls, hGoesOn.requests, hClient]
    intro k handle hHandle
    by_cases hNumber : k = header.id.toUInt32
    · simp [hNumber] at hHandle
    · simp only [Function.update_of_ne hNumber] at hHandle
      obtain ⟨waiting, hAsked, hContinuation, hSame, hWrites,
        hUnanswered⟩ := hSound.handles k handle hHandle
      refine ⟨waiting, hAsked, hContinuation, hSame, hWrites, ?_⟩
      rw [List.map_append, List.mem_append, not_or]
      refine ⟨hUnanswered, ?_⟩
      -- handles of two numbers are of two requests
      intro hMem
      obtain ⟨call, hLast, hEq⟩ := List.mem_map.mp hMem
      have hOther :=
        (hWaits call (Option.mem_toList.mp hLast)).2.1
      rw [hEq, hSame] at hOther
      exact hNumber hOther

------------------------------------------------------------
-- One Answer
------------------------------------------------------------

theorem RequestsSound.receive
    {protos : CoreServerProtos}
    {s : CoreServer C}
    (hSound : RequestsSound protos s)
    (c : C)
    (buffer : Option Wire) :
    RequestsSound protos (s.receive protos c buffer) := by
  unfold CoreServer.receive
  split
  · exact hSound.kept (RequestsKept.newSession protos s c buffer)
  · exact hSound.kept
      (RequestsKept.secretHandshake s c _ buffer)
  · split
    · cases buffer with
      | none =>
          exact hSound.kept
            ((RequestsKept.setDirectory s _).trans
              (RequestsKept.setStage _ c _))
      | some buffer => exact hSound.process c _ _
    · exact hSound
  · exact hSound

theorem RequestsSound.step
    {protos : CoreServerProtos}
    {s : CoreServer C}
    (hSound : RequestsSound protos s)
    (hDelivered : Delivered s)
    (event : CoreServerEvent C) :
    RequestsSound protos (s.step protos event) := by
  cases event with
  | accepts c => exact hSound.kept (RequestsKept.accept s c)
  | receives c buffer => exact hSound.receive c buffer
  | logsIn c => exact hSound.kept (RequestsKept.logIn s c)
  | forwards c =>
      exact hSound.kept (RequestsKept.forward hDelivered c)
  | written r ec =>
      by_cases hWriting : r ∈ s.writing
      · cases ec with
        | none => exact hSound.writeSucceeds hWriting
        | some ec => exact hSound.writeFails hWriting ec
      · simp only [CoreServer.step, completeWrite, hWriting,
          if_false]
        exact hSound
  | responds header payload =>
      exact hSound.responds header payload

theorem requestsSound_construct
    (protos : CoreServerProtos) :
    RequestsSound protos (construct : CoreServer C) where
  answers := fun _ => rfl
  once := List.nodup_nil
  asked := by simp [construct, OefSearchClient.init]
  requested := fun _ => .refl _
  numbered := rfl
  writing := by simp [construct]
  writingOnce := List.nodup_nil
  unwritten := by simp [construct, OefSearchClient.init]
  handles := by simp [construct, OefSearchClient.init]

theorem requestsSound_run
    (protos : CoreServerProtos)
    (events : List (CoreServerEvent C)) :
    RequestsSound protos (run protos events) := by
  induction events using List.reverseRecOn with
  | nil => exact requestsSound_construct protos
  | append_singleton events event ih =>
      rw [run_snoc]
      exact ih.step (routed_run protos events).delivered event

/-
  Whatever the search node sends, an agent is sent one answer
  at most to each of its requests, and none to those of
  others.
-/
theorem answeredOnce_run
    (protos : CoreServerProtos)
    (events : List (CoreServerEvent C)) :
    AnsweredOnce (run protos events) :=
  (requestsSound_run protos events).toAnsweredOnce

------------------------------------------------------------
-- Whoever Was Not Let In
------------------------------------------------------------

/-
  What a connection was told fits its login; and one that was
  not let in was not heard, and was sent no message.
-/
structure LoginKnown
    (s : CoreServer C)
    (c : C) : Prop where
  told : s.loginOutputs c ∈
    ((s.phase c).map transcripts).getD [[]]
  unheard : s.keyOf c = none → s.envelopesOf c = []
  unsent : s.keyOf c = none →
    ∀ sent ∈ s.sends, sent.target = c →
      sent.output.isLogin = true

theorem received_process
    (s : CoreServer C)
    (c : C)
    (session : AgentSession C)
    (envelope : Envelope) :
    (s.process c session envelope).received =
      s.received ++ [(c, envelope)] := by
  unfold process
  cases hPayload : envelope.payload with
  | sendMessage msg =>
      simp only [processMessage, setStage, send, setConnection]
      split
      · split <;> rfl
      · rfl
  | registerDescription text =>
      simp only [request, setDescription, setConnection]
      split <;> rfl
  | unregisterDescription =>
      cases session.description <;> rfl
  | _ => rfl

theorem received_receive
    (protos : CoreServerProtos)
    (s : CoreServer C)
    (c : C)
    (buffer : Option Wire) :
    (s.receive protos c buffer).received = s.received ∨
      ∃ session greeted envelope,
        s.connections c = some (.started session greeted) ∧
        (s.receive protos c buffer).received =
          s.received ++ [(c, envelope)] := by
  unfold receive
  split
  · left
    cases buffer with
    | none => rfl
    | some buffer =>
        simp only [newSession]
        split <;> rfl
  · left
    cases buffer <;> rfl
  · next session greeted hSession =>
      split
      · cases buffer with
        | none =>
            left
            simp only [read, setStage, hSession]
            rfl
        | some buffer =>
            exact Or.inr ⟨session, greeted, _, hSession,
              received_process s c session _⟩
      · exact Or.inl rfl
  · exact Or.inl rfl

/- Only a session reads envelopes. -/
theorem received_step
    (protos : CoreServerProtos)
    (s : CoreServer C)
    (event : CoreServerEvent C) :
    (s.step protos event).received = s.received ∨
      ∃ c session greeted envelope,
        s.connections c = some (.started session greeted) ∧
        (s.step protos event).received =
          s.received ++ [(c, envelope)] := by
  cases event with
  | accepts c =>
      left
      simp only [CoreServer.step, accept]
      split <;> rfl
  | receives c buffer =>
      exact (received_receive protos s c buffer).imp_right
        fun hReads => ⟨c, hReads⟩
  | logsIn c =>
      left
      simp only [CoreServer.step, logIn]
      split <;> rfl
  | forwards c =>
      left
      simp only [CoreServer.step, forward]
      split
      · next hSession =>
          simp only [setStage, send, hSession]
          rfl
      · rfl
  | written r ec =>
      left
      by_cases hWriting : r ∈ s.writing
      · exact (completeWrite_goesOn protos hWriting ec).1.received
      · simp [CoreServer.step, completeWrite, hWriting]
  | responds header payload =>
      exact Or.inl
        (respond_goesOn protos s header payload).1.received

/- Whoever was heard has a key. -/
theorem exists_keyOf_of_received
    (protos : CoreServerProtos)
    (events : List (CoreServerEvent C)) :
    ∀ received ∈ (run protos events).received,
      ∃ publicKey,
        (run protos events).keyOf received.1 =
          some publicKey := by
  induction events using List.reverseRecOn with
  | nil => simp [run, construct]
  | append_singleton events event ih =>
      rw [run_snoc]
      have hOld : ∀ received ∈ (run protos events).received,
          ∃ publicKey,
            ((run protos events).step protos event).keyOf
              received.1 = some publicKey := by
        intro received hMem
        obtain ⟨publicKey, hKey⟩ := ih received hMem
        exact ⟨publicKey, keyOf_step protos event hKey⟩
      rcases received_step protos (run protos events) event with
        hSame | ⟨c, session, greeted, envelope, hSession, hMore⟩
      · rw [hSame]
        exact hOld
      · rw [hMore]
        intro received hMem
        rcases List.mem_append.mp hMem with hBefore | hLast
        · exact hOld received hBefore
        · rw [List.mem_singleton.mp hLast]
          exact ⟨session.publicKey,
            keyOf_step protos event (keyOf_of_session hSession)⟩

theorem envelopesOf_of_unknown
    (protos : CoreServerProtos)
    (events : List (CoreServerEvent C))
    {c : C}
    (hUnknown : (run protos events).keyOf c = none) :
    (run protos events).envelopesOf c = [] := by
  rw [envelopesOf, List.map_eq_nil_iff, List.filter_eq_nil_iff]
  intro received hMem hSame
  obtain ⟨publicKey, hKey⟩ :=
    exists_keyOf_of_received protos events received hMem
  rw [of_decide_eq_true hSame, hUnknown] at hKey
  cases hKey

/- A message to a connection is an answer to one of its own
   requests, or an outcome for it. -/
theorem message_of_unknown
    (protos : CoreServerProtos)
    (events : List (CoreServerEvent C))
    {c : C}
    (hUnknown : (run protos events).keyOf c = none)
    {source : C}
    {message : ServerAgentMessage} :
    (⟨source, c, .message message⟩ : ServerSend C) ∉
      (run protos events).sends := by
  have hUnheard := envelopesOf_of_unknown protos events hUnknown
  intro hMem
  cases hOutcome : isOutcome message with
  | true =>
      have hHandled :
          (c, message) ∈ (run protos events).handledOf source := by
        apply List.mem_append_left
        rw [List.mem_filterMap]
        exact ⟨_, hMem, by simp [outcomeIn, hOutcome]⟩
      obtain ⟨sent, hSent, hFits⟩ :=
        (routed_run protos events).delivered.exists_message
          hHandled
      rcases hFits with ⟨-, -, -, hTarget⟩ | hError
      · rw [hUnknown] at hTarget
        cases hTarget
      · -- reported to whoever sent it, who was then heard
        rw [← (Prod.mk.inj hError).1, messagesOf,
          hUnheard] at hSent
        cases hSent
  | false =>
      have hOnce := (requestsSound_run protos events).toAnsweredOnce
      have hAnswer :
          message ∈ (run protos events).answersTo c := by
        rw [answersTo, List.mem_filterMap]
        exact ⟨_, hMem, by simp [answerIn, hOutcome]⟩
      rw [hOnce.answers c] at hAnswer
      obtain ⟨call, hCall, -⟩ := List.mem_filterMap.mp hAnswer
      obtain ⟨hCall, hOwn⟩ := List.mem_filter.mp hCall
      have hAsked :
          call.continuation ∈ (run protos events).requestsOf c :=
        List.mem_filter.mpr ⟨hOnce.asked call hCall, hOwn⟩
      have hNone := hOnce.requested c
      rw [hUnheard, List.filterMap_nil, List.sublist_nil,
        List.map_eq_nil_iff] at hNone
      rw [hNone] at hAsked
      cases hAsked

/-
  A connection is told what its login has come to, once; and
  as long as it is not let in, none of its messages is read
  and no message is sent to it.
-/
theorem loginKnown_run
    (protos : CoreServerProtos)
    (events : List (CoreServerEvent C))
    (c : C) :
    LoginKnown (run protos events) c where
  told := transcribed_run protos events c
  unheard := envelopesOf_of_unknown protos events
  unsent := by
    intro hUnknown sent hSent hTarget
    obtain ⟨source, target, output⟩ := sent
    cases output with
    | message message =>
        simp only at hTarget
        subst hTarget
        exact absurd hSent
          (message_of_unknown protos events hUnknown)
    | _ => rfl

end CoreServer

end OefCore
