import Mathlib.Logic.Function.Basic
import OefCore.Library.Runs
import OefCore.Protos.Search
import OefCore.Protos.Transport

/-
  The client of the search node: requests are sent, and their
  continuations are kept under a number until the response
  with this number comes.

  Main declarations:
    * `ClientRequest`, `MsgHandle`, `generateSmsgId`
    * `OefSearchClient.msgHandleSave`,
      `OefSearchClient.processMessage`
    * `SearchClientRun.step`
    * `SearchClientRun.answered_iff_awaited`
-/

namespace OefCore

------------------------------------------------------------
-- Requests
------------------------------------------------------------

/- `register_service`, `unregister_service`, `search_service`
   and `search_service_wide`, by the operation of their
   handles. -/
inductive SearchOperation where
  | update
  | remove
  | searchLocal
  | searchWide
  deriving DecidableEq, Repr

structure ClientRequest where
  operation : SearchOperation
  agent : String
  msgId : UInt32
  deriving DecidableEq, Repr

inductive SearchErrorCode where
  | noMessageAvailable
  | other (value : Int)
  deriving DecidableEq, Repr

/- `OefSearchResponse` -/
inductive SearchOutcome where
  | nothing
  | agents (agents : List String)
  | agentsWide (result : List SearchItem)
  deriving DecidableEq, Repr

/- A continuation is known by the request that it is of; the
   handle that is made up for a number without one has
   none, and prints. -/
structure MsgHandle (R : Type) where
  operation : Option SearchOperation
  continuation : Option R
  amsgId : UInt32
  agentId : String

/- The hash of strings that is used. -/
def generateSmsgId
    (hash : String → UInt64)
    (agent : String)
    (msgId : UInt32) : UInt64 :=
  hash agent ^^^ (msgId <<< 1).toUInt64

def generateHeader (uri : String) (msgId : UInt32) :
    TransportHeader where
  uri := uri
  id := msgId.toUInt64
  status := { success := true }

namespace ClientRequest

def uri (request : ClientRequest) : String :=
  match request.operation with
  | .update => "update"
  | .remove => "remove"
  | .searchLocal => "search"
  | .searchWide => "search"

/- The number of a request, as the header and the handle take
   it: 32 bits of it. -/
def smsgId
    (hash : String → UInt64)
    (request : ClientRequest) : UInt32 :=
  (generateSmsgId hash request.agent request.msgId).toUInt32

def header
    (hash : String → UInt64)
    (request : ClientRequest) : TransportHeader :=
  generateHeader request.uri (request.smsgId hash)

end ClientRequest

------------------------------------------------------------
-- Handles
------------------------------------------------------------

/- A call of a continuation; `answering` is the request whose
   response was processed, if it was called for one. -/
structure ContinuationCall (R : Type) where
  continuation : R
  ec : Option SearchErrorCode
  outcome : SearchOutcome
  answering : Option R
  deriving DecidableEq

structure OefSearchClient (R : Type) where
  handles : UInt32 → Option (MsgHandle R)
  calls : List (ContinuationCall R)

namespace OefSearchClient

variable {R : Type}

def init : OefSearchClient R where
  handles := fun _ => none
  calls := []

def msgHandleSave
    (client : OefSearchClient R)
    (smsgId : UInt32)
    (handle : MsgHandle R) : Bool × OefSearchClient R :=
  match client.handles smsgId with
  | some _ => (false, client)
  | none => (true, { client with
      handles := Function.update client.handles smsgId
        (some handle) })

def msgHandleErase
    (client : OefSearchClient R)
    (smsgId : UInt32) : OefSearchClient R :=
  { client with
    handles := Function.update client.handles smsgId none }

def msgHandleGet
    (client : OefSearchClient R)
    (smsgId : UInt32) : MsgHandle R :=
  match client.handles smsgId with
  | some handle => handle
  | none => {
      operation := none
      continuation := none
      amsgId := 0
      agentId := "NoOne" }

/- The callback of a send. -/
def sendCompleted
    (client : OefSearchClient R)
    (hash : String → UInt64)
    (r : R)
    (request : ClientRequest)
    (ec : Option SearchErrorCode) : OefSearchClient R :=
  match ec with
  | some ec => { client with
      calls := client.calls ++ [⟨r, some ec, .nothing, none⟩] }
  | none =>
      -- a save that is refused is only logged
      (client.msgHandleSave (request.smsgId hash) {
        operation := some request.operation
        continuation := some r
        amsgId := request.msgId
        agentId := request.agent }).2

/- What the continuation gets of a response. -/
def outcomeOf
    (deserialize : List UInt8 → SearchResponse)
    (operation : Option SearchOperation)
    (payload : Option (List UInt8)) : SearchOutcome :=
  match payload with
  | none => .nothing
  | some payload =>
      match operation with
      | some .update => .nothing
      | some .remove => .nothing
      | some .searchLocal =>
          .agents ((deserialize payload).result.flatMap
            fun item => item.agents.map AgentInfo.key)
      | some .searchWide =>
          .agentsWide ((deserialize payload).result.map
            fun item => {
              key := item.key
              ip := item.ip
              port := item.port
              info := item.info
              distance := item.distance
              agents := item.agents.map fun a =>
                ⟨a.key, a.score⟩ })
      | none => .nothing

def errorOf
    (operation : Option SearchOperation)
    (header : TransportHeader)
    (payload : Option (List UInt8)) : Option SearchErrorCode :=
  if !header.status.success then some .noMessageAvailable
  else if payload.isSome && operation.isNone then
    some .noMessageAvailable
  else none

/- The response is one to the request `r`. -/
def processMessage
    (client : OefSearchClient R)
    (deserialize : List UInt8 → SearchResponse)
    (header : TransportHeader)
    (payload : Option (List UInt8))
    (r : R) : OefSearchClient R :=
  let smsgId := header.id.toUInt32
  let handle := client.msgHandleGet smsgId
  let client := client.msgHandleErase smsgId
  match handle.continuation with
  | none => client
  | some continuation => { client with
      calls := client.calls ++ [{
        continuation := continuation
        ec := errorOf handle.operation header payload
        outcome := outcomeOf deserialize handle.operation payload
        answering := some r }] }

end OefSearchClient

------------------------------------------------------------
-- Runs
------------------------------------------------------------

/- What the search node sends back, apart from the number. -/
structure SearchAnswer where
  uri : String
  status : TransportStatus
  payload : Option (List UInt8)

/- The requests `R` of a run, with the hash of strings and the
   reading of messages that are used. -/
structure SearchTraffic (R : Type) where
  hash : String → UInt64
  deserialize : List UInt8 → SearchResponse
  request : R → ClientRequest

namespace SearchTraffic

variable {R : Type} (t : SearchTraffic R)

def smsgId (r : R) : UInt32 :=
  (t.request r).smsgId t.hash

def handle (r : R) : MsgHandle R where
  operation := some (t.request r).operation
  continuation := some r
  amsgId := (t.request r).msgId
  agentId := (t.request r).agent

/- The number of the request is echoed. -/
def answerHeader (r : R) (answer : SearchAnswer) :
    TransportHeader where
  uri := answer.uri
  id := ((t.request r).header t.hash).id
  status := answer.status

/- The call that the continuation of a request is to get. -/
def answerCall (r : R) (answer : SearchAnswer) :
    ContinuationCall R where
  continuation := r
  ec := OefSearchClient.errorOf (some (t.request r).operation)
    (t.answerHeader r answer) answer.payload
  outcome := OefSearchClient.outcomeOf t.deserialize
    (some (t.request r).operation) answer.payload
  answering := some r

@[simp]
theorem toUInt32_answerHeader_id (r : R) (answer : SearchAnswer) :
    (t.answerHeader r answer).id.toUInt32 = t.smsgId r := by
  simp [answerHeader, ClientRequest.header, generateHeader,
    smsgId]

end SearchTraffic

inductive SearchClientEvent (R : Type) where
  | issue (r : R)
  | sendCompletes (r : R) (ec : Option SearchErrorCode)
  | response (r : R) (answer : SearchAnswer)

/- The client, with what has become of the requests. -/
structure SearchClientRun (R : Type) where
  client : OefSearchClient R
  issued : List R
  sends : R → Option (Option SearchErrorCode)
  answers : R → Option SearchAnswer

namespace SearchClientRun

variable {R : Type} [DecidableEq R]

def start : SearchClientRun R where
  client := OefSearchClient.init
  issued := []
  sends := fun _ => none
  answers := fun _ => none

def step
    (t : SearchTraffic R)
    (s : SearchClientRun R) :
    SearchClientEvent R → SearchClientRun R
  | .issue r => { s with issued := s.issued ++ [r] }
  | .sendCompletes r ec => { s with
      client := s.client.sendCompleted t.hash r (t.request r) ec
      sends := Function.update s.sends r (some ec) }
  | .response r answer => { s with
      client := s.client.processMessage t.deserialize
        (t.answerHeader r answer) answer.payload r
      answers := Function.update s.answers r (some answer) }

def run
    (t : SearchTraffic R)
    (events : List (SearchClientEvent R)) : SearchClientRun R :=
  events.foldl (step t) start

@[simp]
theorem run_snoc
    (t : SearchTraffic R)
    (events : List (SearchClientEvent R))
    (event : SearchClientEvent R) :
    run t (events ++ [event]) = step t (run t events) event := by
  simp [run]

/- A request is issued, and completes, and is answered, at most
   once; it is answered after it was sent. -/
def Allowed (s : SearchClientRun R) : SearchClientEvent R → Prop
  | .issue r => r ∉ s.issued
  | .sendCompletes r ec =>
      r ∈ s.issued ∧ s.sends r = none ∧
        (ec = none ∨ s.answers r = none)
  | .response r _ =>
      r ∈ s.issued ∧ s.answers r = none ∧
        ∀ ec, s.sends r ≠ some (some ec)

/- The calls of the continuation of one request. -/
def callsOf (s : SearchClientRun R) (r : R) :
    List (ContinuationCall R) :=
  s.client.calls.filter fun call => call.continuation = r

structure Answered
    (t : SearchTraffic R)
    (s : SearchClientRun R) : Prop where
  once : ∀ r answer, s.sends r = some none →
    s.answers r = some answer →
      s.callsOf r = [t.answerCall r answer]
  own : ∀ call ∈ s.client.calls, ∀ r,
    call.answering = some r → call.continuation = r

/-
  A send completes before the response comes; a response finds
  the handle of its own request, or none while the send has
  not completed.
-/
def Awaited
    (t : SearchTraffic R)
    (s : SearchClientRun R) : SearchClientEvent R → Prop
  | .issue _ => True
  | .sendCompletes r none => s.answers r = none
  | .sendCompletes _ (some _) => True
  | .response r _ =>
      match s.client.handles (t.smsgId r) with
      | some handle => handle.continuation = some r
      | none => s.sends r ≠ some none

/- Handles are those of requests that wait for a response, and
   whoever waits was not called. -/
structure Tracked
    (t : SearchTraffic R)
    (s : SearchClientRun R) : Prop extends Answered t s where
  handles : ∀ k handle, s.client.handles k = some handle →
    ∃ r, handle = t.handle r ∧ t.smsgId r = k ∧
      s.sends r = some none ∧ s.answers r = none
  waiting : ∀ r, s.sends r = none ∨
      (s.sends r = some none ∧ s.answers r = none) →
    s.callsOf r = []

theorem tracked_start (t : SearchTraffic R) :
    Tracked t (start : SearchClientRun R) where
  once := fun r answer hSend => by cases hSend
  own := fun call hMem => by cases hMem
  handles := fun k handle hHandle => by cases hHandle
  waiting := fun _ _ => rfl

section Steps

variable {t : SearchTraffic R} {s : SearchClientRun R}

theorem Tracked.issue
    (hTracked : Tracked t s)
    (r : R) :
    Tracked t (step t s (.issue r)) where
  once := hTracked.once
  own := hTracked.own
  handles := hTracked.handles
  waiting := hTracked.waiting

/- The completion of a send that has no handle yet leaves the
   others what they are. -/
theorem Tracked.handles_sent
    (hTracked : Tracked t s)
    {r : R}
    (hNew : s.sends r = none)
    (given : Option SearchErrorCode)
    {k : UInt32}
    {handle : MsgHandle R}
    (hHandle : s.client.handles k = some handle) :
    ∃ other, handle = t.handle other ∧ t.smsgId other = k ∧
      (step t s (.sendCompletes r given)).sends other =
        some none ∧
      s.answers other = none := by
  obtain ⟨other, hSame, hKey, hSend, hAnswer⟩ :=
    hTracked.handles k handle hHandle
  have hOther : other ≠ r := by
    rintro rfl
    rw [hNew] at hSend
    cases hSend
  exact ⟨other, hSame, hKey, by simpa [step, hOther] using hSend,
    hAnswer⟩

theorem Tracked.sendFails
    (hTracked : Tracked t s)
    {r : R}
    {ec : SearchErrorCode}
    (hAllowed : Allowed s (.sendCompletes r (some ec))) :
    Tracked t (step t s (.sendCompletes r (some ec))) := by
  obtain ⟨-, hNew, -⟩ := hAllowed
  have hCalls : ∀ other, other ≠ r →
      (step t s (.sendCompletes r (some ec))).callsOf other =
        s.callsOf other := by
    intro other hOther
    have hNe : r ≠ other := fun hEq => hOther hEq.symm
    simp [callsOf, step, OefSearchClient.sendCompleted, hNe]
  refine ⟨⟨fun other answer hSend hAnswer => ?_, ?_⟩, ?_, ?_⟩
  · by_cases hOther : other = r
    · subst hOther
      simp [step] at hSend
    · rw [hCalls other hOther]
      refine hTracked.once other answer ?_ hAnswer
      simpa [step, hOther] using hSend
  · intro call hMem other hAnswering
    simp only [step, OefSearchClient.sendCompleted,
      List.mem_append, List.mem_singleton] at hMem
    rcases hMem with hBefore | rfl
    · exact hTracked.own call hBefore other hAnswering
    · cases hAnswering
  · intro k handle hHandle
    exact hTracked.handles_sent hNew (some ec) hHandle
  · intro other hWaiting
    have hOther : other ≠ r := by
      rintro rfl
      simp [step] at hWaiting
    rw [hCalls other hOther]
    exact hTracked.waiting other (by
      simpa [step, hOther] using hWaiting)

/- A handle that is there stays, and a new one comes where
   there was none. -/
theorem handles_sendCompletes
    {r : R}
    {k : UInt32}
    {handle : MsgHandle R}
    (hHandle : (step t s (.sendCompletes r none)).client.handles
      k = some handle) :
    s.client.handles k = some handle ∨
      (k = t.smsgId r ∧ handle = t.handle r) := by
  simp only [step, OefSearchClient.sendCompleted,
    OefSearchClient.msgHandleSave] at hHandle
  split at hHandle
  · exact .inl hHandle
  · by_cases hKey : k = (t.request r).smsgId t.hash
    · subst hKey
      simp only [Function.update_self, Option.some.injEq]
        at hHandle
      exact .inr ⟨rfl, hHandle.symm⟩
    · simp only [Function.update_of_ne hKey] at hHandle
      exact .inl hHandle

theorem calls_sendCompletes (r : R) :
    (step t s (.sendCompletes r none)).client.calls =
      s.client.calls := by
  simp only [step, OefSearchClient.sendCompleted,
    OefSearchClient.msgHandleSave]
  split <;> rfl

theorem Tracked.sendSucceeds
    (hTracked : Tracked t s)
    {r : R}
    (hAllowed : Allowed s (.sendCompletes r none))
    (hAwaited : Awaited t s (.sendCompletes r none)) :
    Tracked t (step t s (.sendCompletes r none)) := by
  obtain ⟨-, hNew, -⟩ := hAllowed
  have hNone : s.answers r = none := hAwaited
  have hCalls : ∀ other,
      (step t s (.sendCompletes r none)).callsOf other =
        s.callsOf other := by
    intro other
    rw [callsOf, calls_sendCompletes, callsOf]
  refine ⟨⟨fun other answer hSend hAnswer => ?_, ?_⟩, ?_, ?_⟩
  · have hOther : other ≠ r := by
      rintro rfl
      have hSome : s.answers other = some answer := hAnswer
      rw [hNone] at hSome
      cases hSome
    rw [hCalls]
    refine hTracked.once other answer ?_ hAnswer
    simpa [step, hOther] using hSend
  · rw [calls_sendCompletes]
    exact hTracked.own
  · intro k handle hHandle
    rcases handles_sendCompletes hHandle with hOld | ⟨rfl, rfl⟩
    · exact hTracked.handles_sent hNew none hOld
    · exact ⟨r, rfl, rfl, by simp [step], hNone⟩
  · intro other hWaiting
    rw [hCalls]
    by_cases hOther : other = r
    · subst hOther
      exact hTracked.waiting other (.inl hNew)
    · exact hTracked.waiting other (by
        simpa [step, hOther] using hWaiting)

/- A response that finds no handle is dropped. -/
theorem step_response_none
    {r : R}
    (answer : SearchAnswer)
    (hNone : s.client.handles (t.smsgId r) = none) :
    (step t s (.response r answer)).client.calls =
      s.client.calls := by
  simp [step, OefSearchClient.processMessage,
    OefSearchClient.msgHandleGet, hNone,
    OefSearchClient.msgHandleErase]

/- One that finds a handle goes to the continuation in it. -/
theorem step_response_some
    {r other : R}
    {answer : SearchAnswer}
    (hHandle : s.client.handles (t.smsgId r) =
      some (t.handle other)) :
    (step t s (.response r answer)).client.calls =
      s.client.calls ++ [{
        continuation := other
        ec := OefSearchClient.errorOf
          (some (t.request other).operation)
          (t.answerHeader r answer) answer.payload
        outcome := OefSearchClient.outcomeOf t.deserialize
          (some (t.request other).operation) answer.payload
        answering := some r }] := by
  simp [step, OefSearchClient.processMessage,
    OefSearchClient.msgHandleGet, hHandle,
    OefSearchClient.msgHandleErase, SearchTraffic.handle]

theorem handles_response
    {r : R}
    {answer : SearchAnswer} :
    (step t s (.response r answer)).client.handles =
      Function.update s.client.handles (t.smsgId r) none := by
  simp only [step, OefSearchClient.processMessage,
    SearchTraffic.toUInt32_answerHeader_id]
  split <;> rfl

/- Whoever waits after a response waited before. -/
theorem Tracked.handles_after
    (hTracked : Tracked t s)
    {r : R}
    {answer : SearchAnswer}
    {k : UInt32}
    {handle : MsgHandle R}
    (hHandle : (step t s (.response r answer)).client.handles k =
      some handle) :
    ∃ other, handle = t.handle other ∧ t.smsgId other = k ∧
      s.sends other = some none ∧
      (step t s (.response r answer)).answers other = none := by
  rw [handles_response] at hHandle
  have hKey : k ≠ t.smsgId r := by
    rintro rfl
    simp at hHandle
  rw [Function.update_of_ne hKey] at hHandle
  obtain ⟨other, hSame, hSmsg, hSend, hAnswer⟩ :=
    hTracked.handles k handle hHandle
  have hOther : other ≠ r := by
    rintro rfl
    exact hKey hSmsg.symm
  exact ⟨other, hSame, hSmsg, hSend,
    by simpa [step, hOther] using hAnswer⟩

/- A response without a handle changes nothing for those whose
   send has completed. -/
theorem Tracked.responseDropped
    (hTracked : Tracked t s)
    {r : R}
    (answer : SearchAnswer)
    (hNew : s.answers r = none)
    (hFound : s.client.handles (t.smsgId r) = none)
    (hAwaited : s.sends r ≠ some none) :
    Tracked t (step t s (.response r answer)) := by
  have hCalls := step_response_none answer hFound
  refine ⟨⟨fun other given hSend hAnswer => ?_, ?_⟩,
    fun k handle hHandle => hTracked.handles_after hHandle, ?_⟩
  · have hOther : other ≠ r := by
      rintro rfl
      exact hAwaited hSend
    rw [callsOf, hCalls]
    refine hTracked.once other given hSend ?_
    simpa [step, hOther] using hAnswer
  · rw [hCalls]
    exact hTracked.own
  · intro other hWaiting
    rw [callsOf, hCalls]
    refine hTracked.waiting other (hWaiting.imp_right ?_)
    rintro ⟨hSend, hAnswer⟩
    refine ⟨hSend, ?_⟩
    by_cases hOther : other = r
    · exact hOther ▸ hNew
    · simpa [step, hOther] using hAnswer

/- A response that finds its own handle is what the request
   waited for. -/
theorem Tracked.responseHandled
    (hTracked : Tracked t s)
    {owner : R}
    (answer : SearchAnswer)
    (hNew : s.answers owner = none)
    (hFound : s.client.handles (t.smsgId owner) =
      some (t.handle owner))
    (hSend : s.sends owner = some none) :
    Tracked t (step t s (.response owner answer)) := by
  have hCalls : (step t s (.response owner answer)).client.calls =
      s.client.calls ++ [t.answerCall owner answer] :=
    step_response_some hFound
  have hBefore := hTracked.waiting owner (.inr ⟨hSend, hNew⟩)
  have hOwn : (step t s (.response owner answer)).callsOf owner =
      [t.answerCall owner answer] := by
    rw [callsOf, hCalls, List.filter_append]
    rw [callsOf] at hBefore
    rw [hBefore]
    simp [SearchTraffic.answerCall]
  have hOthers : ∀ other, other ≠ owner →
      (step t s (.response owner answer)).callsOf other =
        s.callsOf other := by
    intro other hOther
    have hNe : owner ≠ other := fun hEq => hOther hEq.symm
    rw [callsOf, hCalls, List.filter_append, callsOf]
    simp [SearchTraffic.answerCall, hNe]
  refine ⟨⟨fun other given hDone hAnswer => ?_, ?_⟩,
    fun k handle hHandle => hTracked.handles_after hHandle, ?_⟩
  · by_cases hOther : other = owner
    · subst hOther
      rw [hOwn]
      have hGiven : some answer = some given := by
        simpa [step] using hAnswer
      cases hGiven
      rfl
    · rw [hOthers other hOther]
      refine hTracked.once other given hDone ?_
      simpa [step, hOther] using hAnswer
  · rw [hCalls]
    intro call hMem other hAnswering
    rcases List.mem_append.mp hMem with hOld | hLast
    · exact hTracked.own call hOld other hAnswering
    · rw [List.mem_singleton] at hLast
      subst hLast
      exact Option.some.inj hAnswering
  · intro other hWaiting
    by_cases hOther : other = owner
    · subst hOther
      simp [step, hSend] at hWaiting
    · rw [hOthers other hOther]
      refine hTracked.waiting other (hWaiting.imp_right ?_)
      rintro ⟨hDone, hAnswer⟩
      exact ⟨hDone, by simpa [step, hOther] using hAnswer⟩

theorem Tracked.response
    (hTracked : Tracked t s)
    {r : R}
    {answer : SearchAnswer}
    (hAllowed : Allowed s (.response r answer))
    (hAwaited : Awaited t s (.response r answer)) :
    Tracked t (step t s (.response r answer)) := by
  obtain ⟨-, hNew, -⟩ := hAllowed
  unfold Awaited at hAwaited
  cases hFound : s.client.handles (t.smsgId r) with
  | none =>
    simp only [hFound] at hAwaited
    exact hTracked.responseDropped answer hNew hFound hAwaited
  | some handle =>
    simp only [hFound] at hAwaited
    obtain ⟨owner, rfl, -, hSend, -⟩ :=
      hTracked.handles _ _ hFound
    obtain rfl : owner = r := Option.some.inj hAwaited
    exact hTracked.responseHandled answer hNew hFound hSend

theorem Tracked.step
    (hTracked : Tracked t s)
    {event : SearchClientEvent R}
    (hAllowed : Allowed s event)
    (hAwaited : Awaited t s event) :
    Tracked t (step t s event) := by
  match event with
  | .issue r => exact hTracked.issue r
  | .sendCompletes r none =>
    exact hTracked.sendSucceeds hAllowed hAwaited
  | .sendCompletes r (some ec) => exact hTracked.sendFails hAllowed
  | .response r answer =>
    exact hTracked.response hAllowed hAwaited

/- A step that is not awaited breaks the promise at once. -/
theorem Tracked.awaited_of_answered
    (hTracked : Tracked t s)
    {event : SearchClientEvent R}
    (hAllowed : Allowed s event)
    (hAnswered : Answered t (SearchClientRun.step t s event)) :
    Awaited t s event := by
  match event with
  | .issue r => exact trivial
  | .sendCompletes r (some ec) => exact trivial
  | .sendCompletes r none =>
    obtain ⟨-, hNew, -⟩ := hAllowed
    change s.answers r = none
    cases hGiven : s.answers r with
    | none => rfl
    | some answer =>
      have hOnce := hAnswered.once r answer
        (by simp [SearchClientRun.step]) hGiven
      rw [callsOf, calls_sendCompletes] at hOnce
      have hBefore := hTracked.waiting r (.inl hNew)
      rw [callsOf, hOnce] at hBefore
      cases hBefore
  | .response r answer =>
    obtain ⟨-, hNew, -⟩ := hAllowed
    cases hFound : s.client.handles (t.smsgId r) with
    | none =>
      simp only [Awaited, hFound]
      intro hSend
      have hOnce := hAnswered.once r answer hSend
        (by simp [SearchClientRun.step])
      rw [callsOf, step_response_none answer hFound] at hOnce
      have hBefore := hTracked.waiting r (.inr ⟨hSend, hNew⟩)
      rw [callsOf, hOnce] at hBefore
      cases hBefore
    | some handle =>
      obtain ⟨owner, rfl, -, -, -⟩ := hTracked.handles _ _ hFound
      have hOwn := hAnswered.own _ (by
        rw [step_response_some hFound]
        exact List.mem_append_right _ List.mem_cons_self) r rfl
      simp only [Awaited, hFound]
      exact congrArg some hOwn

end Steps

/-
  In a run of requests that complete and are answered once,
  answers after their requests: continuations get their own
  responses, and exactly once, all along exactly if every send
  completes before its response and every response finds the
  handle of its request, or comes before its send completes
  and finds none.
-/
theorem answered_iff_awaited
    (t : SearchTraffic R)
    (events : List (SearchClientEvent R))
    (hAllowed : ∀ front event back,
      events = front ++ event :: back →
        Allowed (run t front) event) :
    (∀ front, front <+: events → Answered t (run t front)) ↔
      ∀ front event back,
        events = front ++ event :: back →
          Awaited t (run t front) event := by
  apply Runs.forall_prefix_iff (fun front => Tracked t (run t front))
  · exact tracked_start t
  · intro front hTracked
    exact hTracked.toAnswered
  · intro front event back hSplit hTracked hAwaited
    rw [run_snoc]
    exact hTracked.step (hAllowed front event back hSplit) hAwaited
  · intro front event back hSplit hTracked hAnswered
    rw [run_snoc] at hAnswered
    exact hTracked.awaited_of_answered
      (hAllowed front event back hSplit) hAnswered

namespace OneSearch

/- One search, of an agent whose name hashes to nothing. -/
def traffic : SearchTraffic Unit where
  hash := fun _ => 0
  deserialize := fun _ => ⟨[]⟩
  request := fun _ => ⟨.searchLocal, "agent", 1⟩

def answer : SearchAnswer where
  uri := "search"
  status := { success := true }
  payload := none

/- The response comes before the callback of the send. -/
def events : List (SearchClientEvent Unit) :=
  [.issue (), .response () answer, .sendCompletes () none]

theorem allowed
    (front : List (SearchClientEvent Unit))
    (event : SearchClientEvent Unit)
    (back : List (SearchClientEvent Unit))
    (hSplit : events = front ++ event :: back) :
    Allowed (run traffic front) event := by
  match front, hSplit with
  | [], hSplit =>
    cases hSplit
    exact List.not_mem_nil
  | [_], hSplit =>
    cases hSplit
    exact ⟨List.mem_cons_self, rfl, fun ec hSend => by cases hSend⟩
  | [_, _], hSplit =>
    cases hSplit
    exact ⟨List.mem_cons_self, rfl, .inl rfl⟩
  | _ :: _ :: _ :: rest, hSplit =>
    have hLength := congrArg List.length hSplit
    simp [events] at hLength

end OneSearch

theorem answered_iff_awaited_one :
    (∀ front, front <+: OneSearch.events →
      Answered OneSearch.traffic (run OneSearch.traffic front)) ↔
      ∀ front event back,
        OneSearch.events = front ++ event :: back →
          Awaited OneSearch.traffic
            (run OneSearch.traffic front) event :=
  answered_iff_awaited OneSearch.traffic OneSearch.events
    OneSearch.allowed

/- Nobody is called for the response that came first. -/
theorem not_answered_one :
    (∀ front event back,
      OneSearch.events = front ++ event :: back →
        Allowed (run OneSearch.traffic front) event) ∧
    ¬ Answered OneSearch.traffic
      (run OneSearch.traffic OneSearch.events) := by
  refine ⟨OneSearch.allowed, fun hAnswered => ?_⟩
  have hOnce := hAnswered.once () OneSearch.answer rfl rfl
  cases hOnce

end SearchClientRun

end OefCore
