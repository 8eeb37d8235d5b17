import Mathlib.Logic.Function.Basic
import Mathlib.Tactic.Common
import OefCore.BasicComms.EndpointBase
import OefCore.CppUtils.Uri
import OefCore.Karma.IKarmaPolicy
import OefCore.Protos.Agent
import OefCore.Protos.Transport

/-
  Conversations with the search node: how they are started,
  sent, and found again when the node replies.

  Main declarations:
    * `OutboundSearchConversation`
    * `OutboundSearch.start`, `OutboundSearch.process`
    * `OutboundSearch.transmit`, `OutboundSearch.reply`
-/

namespace OefCore

------------------------------------------------------------
-- Conversations
------------------------------------------------------------

/- The kinds of response that a conversation can parse. -/
inductive ResponseKind where
  | updateResponse
  | removeResponse
  | searchResponse
  deriving DecidableEq, Repr

inductive SearchConversationType where
  | update
  | remove
  deriving DecidableEq, Repr

/- Which texts protobuf parses as a response of a kind. -/
abbrev ResponseProtos :=
  ResponseKind → Wire → Bool

/-
  `status_code` is not set before the first reply.  Responses
  and initiators are kept in wire form.
-/
structure OutboundSearchConversation where
  type : SearchConversationType
  kind : ResponseKind
  ident : UInt64
  uri : Uri
  initiator : Wire
  responses : List Wire
  statusCode : Option Int
  errorMessage : String
  wakes : Nat
  deriving DecidableEq, Repr

namespace OutboundSearchConversation

def construct
    (type : SearchConversationType)
    (kind : ResponseKind)
    (ident : UInt64)
    (uri : Uri)
    (initiator : Wire) : OutboundSearchConversation where
  type := type
  kind := kind
  ident := ident
  uri := uri
  initiator := initiator
  responses := []
  statusCode := none
  errorMessage := ""
  wakes := 0

def handleMessage
    (self : OutboundSearchConversation)
    (protos : ResponseProtos)
    (buffer : Wire) : OutboundSearchConversation :=
  if protos self.kind buffer then
    { self with
      statusCode := some 0
      responses := self.responses ++ [buffer]
      wakes := self.wakes + 1 }
  else
    { self with
      statusCode := some 91
      errorMessage := ""
      wakes := self.wakes + 1 }

/- Nobody is woken. -/
def handleError
    (self : OutboundSearchConversation)
    (statusCode : Int)
    (message : String) : OutboundSearchConversation :=
  { self with
    statusCode := some statusCode
    errorMessage := message }

end OutboundSearchConversation

------------------------------------------------------------
-- The Search Node's Protocol
------------------------------------------------------------

/- An entry of the search endpoint's transmit queue; `origin`
   is the conversation it was made for. -/
structure Initiating where
  uri : Uri
  initiator : Wire
  origin : Nat
  deriving DecidableEq, Repr

/- What the search node has received. -/
structure SearchRequest where
  leader : TransportHeader
  payload : Wire
  origin : Nat
  deriving DecidableEq, Repr

/- A reply that arrived: the conversation whose request it
   answers, and the one that it was handed to. -/
structure Handing where
  origin : Nat
  recipient : Option Nat
  deriving DecidableEq, Repr

------------------------------------------------------------
-- The Creator and Its Worker
------------------------------------------------------------

/-
  The conversation creator, its worker and the two ends of
  the search connection.  Conversations are known by their
  position in `conversations`, in the order they started.
-/
structure OutboundSearch where
  ident : UInt64
  conversations : List OutboundSearchConversation
  ident2conversation : UInt64 → Option Nat
  posted : List Nat
  txq : List Initiating
  requests : List SearchRequest
  handed : List Handing

namespace OutboundSearch

def construct : OutboundSearch where
  ident := 1
  conversations := []
  ident2conversation := fun _ => none
  posted := []
  txq := []
  requests := []
  handed := []

/- The conversation for a target path; a search is typed as
   an update. -/
def conversationFor
    (path : String) :
    Option (SearchConversationType × ResponseKind) :=
  if path = "/update" then
    some (.update, .updateResponse)
  else if path = "/remove" then
    some (.remove, .removeResponse)
  else if path = "/search" then
    some (.update, .searchResponse)
  else
    none

/-
  `OutboundSearchConversationCreator::start`: an identity is
  used up for a path that is refused as well.
-/
def start
    (self : OutboundSearch)
    (targetPath : Uri)
    (initiator : Wire) :
    Except Exception Nat × OutboundSearch :=
  let thisId := self.ident
  let self := { self with ident := self.ident + 1 }
  match conversationFor targetPath.path with
  | none =>
      (.error (.invalidArgument
        (targetPath.path ++
          " is not a valid target, to start a " ++
          "OutboundSearchConversationCreator!")), self)
  | some (type, kind) =>
      let conv := self.conversations.length
      (.ok conv,
        { self with
          conversations :=
            self.conversations ++
              [.construct type kind thisId targetPath initiator]
          ident2conversation :=
            Function.update self.ident2conversation thisId
              (some conv)
          posted := self.posted ++ [conv] })

/-
  `OutboundSearchConversationWorkerTask::process` over a
  working connection: the identity goes into the port, and a
  full queue takes nothing.
-/
def process
    (self : OutboundSearch)
    (workload : Nat) : OutboundSearch :=
  match self.conversations[workload]? with
  | none => self
  | some conv =>
      let uri := { conv.uri with port := conv.ident.toUInt16 }
      if self.txq.length < EndpointBase.bufferSizeLimit then
        { self with
          txq :=
            self.txq ++
              [{ uri := uri
                 initiator := conv.initiator
                 origin := workload }] }
      else
        self

/- The worker goes on to one of the posted conversations. -/
def processPosted
    (self : OutboundSearch)
    (position : Nat) : OutboundSearch :=
  match self.posted[position]? with
  | none => self
  | some workload =>
      { self with
        posted := self.posted.eraseIdx position }.process
          workload

/- The leader that `ProtoPathMessageSender` writes. -/
def leaderOf (message : Initiating) : TransportHeader where
  uri := String.ofList (message.uri.path.toList.drop 1)
  id := message.uri.port.toUInt64
  status := { success := true }

/- `ProtoPathMessageSender` takes the front of the queue. -/
def transmit (self : OutboundSearch) : OutboundSearch :=
  match self.txq with
  | [] => self
  | message :: txq =>
      { self with
        txq := txq
        requests :=
          self.requests ++
            [{ leader := leaderOf message
               payload := message.initiator
               origin := message.origin }] }

/- The error code that `ProtoPathMessageReader` reports. -/
def errorCodeOf (status : TransportStatus) : Int :=
  if status.errorCode = 0 then 132 else status.errorCode

/- The handlers of the search connection: what they do to
   the conversation that they find. -/
def handle
    (protos : ResponseProtos)
    (leader : TransportHeader)
    (payload : Wire)
    (conv : OutboundSearchConversation) :
    OutboundSearchConversation :=
  if leader.status.success then
    conv.handleMessage protos payload
  else
    conv.handleError (errorCodeOf leader.status)
      (String.join leader.status.narrative)

/- A reply is handed to the conversation that is found under
   its id. -/
def arrive
    (self : OutboundSearch)
    (protos : ResponseProtos)
    (origin : Nat)
    (leader : TransportHeader)
    (payload : Wire) : OutboundSearch :=
  let recipient := self.ident2conversation leader.id
  { self with
    conversations :=
      match recipient with
      | none => self.conversations
      | some conv =>
          self.conversations.modify conv
            (handle protos leader payload)
    handed :=
      self.handed ++
        [{ origin := origin, recipient := recipient }] }

/- The search node answers one of its requests, echoing the
   id. -/
def reply
    (self : OutboundSearch)
    (protos : ResponseProtos)
    (request : Nat)
    (status : TransportStatus)
    (payload : Wire) : OutboundSearch :=
  match self.requests[request]? with
  | none => self
  | some received =>
      self.arrive protos received.origin
        { uri := received.leader.uri
          id := received.leader.id
          status := status }
        payload

------------------------------------------------------------
-- Runs
------------------------------------------------------------

inductive Event where
  | start (targetPath : Uri) (initiator : Wire)
  | process (position : Nat)
  | transmit
  | reply
      (request : Nat)
      (status : TransportStatus)
      (payload : Wire)

def step
    (protos : ResponseProtos)
    (self : OutboundSearch) : Event → OutboundSearch
  | .start targetPath initiator =>
      (self.start targetPath initiator).2
  | .process position => self.processPosted position
  | .transmit => self.transmit
  | .reply request status payload =>
      self.reply protos request status payload

def run
    (protos : ResponseProtos)
    (self : OutboundSearch)
    (events : List Event) : OutboundSearch :=
  events.foldl (step protos) self

theorem run_snoc
    (protos : ResponseProtos)
    (self : OutboundSearch)
    (events : List Event)
    (event : Event) :
    self.run protos (events ++ [event]) =
      (self.run protos events).step protos event := by
  simp [run]

end OutboundSearch

end OefCore
