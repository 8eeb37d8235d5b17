import OefCore.Conversations.QueryAnswers

/-
  `SearchConversationTask`, and what its implementations for
  registrations add to it: a request to the search node, and
  what is made of the response.

  A run is that of one task, as for `SearchQueryTask`; what
  an implementation does with its conversation is a
  parameter.

  Main declarations:
    * `SearchUpdateTask`, `SearchRemoveTask`
    * `SearchAddressUpdateTask`
    * `SearchConversationTask`, `SearchConversationRun`
    * `SearchConversationRun.advance`, `arrive`, `step`, `run`
-/

namespace OefCore

------------------------------------------------------------
-- Messages
------------------------------------------------------------

/- `AgentDescription`, by the instance that it holds. -/
structure AgentDescription where
  model : Wire
  values : List Wire
  deriving DecidableEq, Repr

/- `Update.DataModelInstance`. -/
structure DataModelInstance where
  key : String
  model : Wire
  values : List Wire
  deriving DecidableEq, Repr

/- `Update.Address`. -/
structure UpdateAddress where
  ip : String
  port : UInt32
  key : String
  signature : String
  deriving DecidableEq, Repr

/- `Update.Attribute`, with a value of the type of an
   address. -/
structure UpdateAttribute where
  name : Nat
  type : Int
  a : UpdateAddress
  deriving DecidableEq, Repr

structure Update where
  key : String
  attributes : List UpdateAttribute
  dataModels : List DataModelInstance
  deriving DecidableEq, Repr

structure Remove where
  key : String
  all : Bool
  agentKey : String
  dataModels : List DataModelInstance
  deriving DecidableEq, Repr

/- What protobuf generates; a status is a number of the
   enumeration of its response, of which 0 is `SUCCESS`. -/
structure ServiceProtos where
  header : Wire → Option TransportHeader
  responses : ResponseProtos
  updateStatus : Wire → Int
  removeStatus : Wire → Int
  update : Update → Wire
  remove : Remove → Wire

------------------------------------------------------------
-- Implementations
------------------------------------------------------------

/-
  What the template is given: the path of the target, the
  request, and what `handleResponse` returns and passes to
  `sendReply`.
-/
structure SearchConversationTask (R : Type) where
  path : String
  request : Wire
  handleResponse :
    OutboundSearchConversation → StateResult × Option R

/- The error that an agent is told for a response without
   success; a success is not reported. -/
def errorAnswer
    (operation : Operation)
    (msgId : UInt32) : ServerAgentMessage where
  answerId := msgId.toInt32.toInt
  payload := .oefError operation "" ""

/- `handleResponse` of the tasks that look at the status of
   the first response. -/
def statusResponse
    (statusOf : Wire → Int)
    (operation : Operation)
    (msgId : UInt32)
    (sendReply : Bool)
    (conversation : OutboundSearchConversation) :
    StateResult × Option ServerAgentMessage :=
  match conversation.responses with
  | [] => ({ first := 0, second := .errored }, none)
  | response :: _ =>
      ({ first := 0, second := .complete },
        if statusOf response ≠ 0 ∧ sendReply = true then
          some (errorAnswer operation msgId)
        else
          none)

/- `sendReply` tells whether the function was set. -/
structure SearchUpdateTask where
  initiator : AgentDescription
  msgId : UInt32
  coreKey : String
  agentUri : String
  sendReply : Bool
  deriving DecidableEq, Repr

namespace SearchUpdateTask

def makeRequestProto (self : SearchUpdateTask) : Update where
  key := self.coreKey
  attributes := []
  dataModels :=
    [{ key := self.agentUri
       model := self.initiator.model
       values := self.initiator.values }]

/- The reply that is there is never null. -/
def handleResponse
    (self : SearchUpdateTask)
    (protos : ServiceProtos) :
    OutboundSearchConversation →
      StateResult × Option ServerAgentMessage :=
  statusResponse protos.updateStatus .registerService
    self.msgId self.sendReply

def task
    (self : SearchUpdateTask)
    (protos : ServiceProtos) :
    SearchConversationTask ServerAgentMessage where
  path := "update"
  request := protos.update self.makeRequestProto
  handleResponse := self.handleResponse protos

end SearchUpdateTask

/- There is no initiator when the row of an agent that is gone
   is removed. -/
structure SearchRemoveTask where
  initiator : Option AgentDescription
  msgId : UInt32
  coreKey : String
  agentUri : String
  removeRow : Bool
  sendReply : Bool
  deriving DecidableEq, Repr

namespace SearchRemoveTask

/- What `endpointClosed` submits, under a number from a random
   device. -/
def ofClosed
    (msgId : UInt32)
    (coreKey publicKey : String) : SearchRemoveTask where
  initiator := none
  msgId := msgId
  coreKey := coreKey
  agentUri := publicKey
  removeRow := true
  sendReply := false

def makeRequestProto (self : SearchRemoveTask) : Remove where
  key := self.coreKey
  all := self.removeRow
  agentKey := if self.removeRow then self.agentUri else ""
  dataModels :=
    self.initiator.toList.map fun initiator =>
      { key := self.agentUri
        model := initiator.model
        values := initiator.values }

def handleResponse
    (self : SearchRemoveTask)
    (protos : ServiceProtos) :
    OutboundSearchConversation →
      StateResult × Option ServerAgentMessage :=
  statusResponse protos.removeStatus .unregisterService
    self.msgId self.sendReply

def task
    (self : SearchRemoveTask)
    (protos : ServiceProtos) :
    SearchConversationTask ServerAgentMessage where
  path := "remove"
  request := protos.remove self.makeRequestProto
  handleResponse := self.handleResponse protos

end SearchRemoveTask

structure SearchAddressUpdateTask where
  initiator : UpdateAddress
  sendReply : Bool
  deriving DecidableEq, Repr

namespace SearchAddressUpdateTask

/- What `register_address` submits. -/
def ofAddress
    (coreUri : Uri)
    (coreKey : String) : SearchAddressUpdateTask where
  initiator :=
    { ip := coreUri.host
      port := UInt32.ofNat coreUri.port.toNat
      key := coreKey
      signature := "Sign" }
  sendReply := false

/- The attribute is `NETWORK_ADDRESS`. -/
def makeRequestProto
    (self : SearchAddressUpdateTask) : Update where
  key := self.initiator.key
  attributes :=
    [{ name := 4
       type := 10
       a := self.initiator }]
  dataModels := []

/- The response may be null, which is passed on all the
   same. -/
def handleResponse
    (self : SearchAddressUpdateTask)
    (conversation : OutboundSearchConversation) :
    StateResult × Option (Option Wire) :=
  ({ first := 0, second := .complete },
    if self.sendReply then
      some conversation.responses.head?
    else
      none)

def task
    (self : SearchAddressUpdateTask)
    (protos : ServiceProtos) :
    SearchConversationTask (Option Wire) where
  path := "update"
  request := protos.update self.makeRequestProto
  handleResponse := self.handleResponse

end SearchAddressUpdateTask

/- A query as an implementation; what it is parsed with is
   fixed. -/
def SearchQueryTask.task
    (self : SearchQueryTask)
    (protos : SearchProtos) :
    SearchConversationTask ServerAgentMessage where
  path := self.path
  request := protos.searchQuery self.makeRequestProto
  handleResponse := self.handleResponse protos

------------------------------------------------------------
-- Runs
------------------------------------------------------------

/- As in `SearchQueryRun`; the implementation is no part of
   the state. -/
structure SearchConversationRun (R : Type) where
  machine : StateMachineTask SearchConversationEntry
  ident : UInt64
  conversation : Option OutboundSearchConversation
  waiting : Bool
  notification : NotificationImplementation Unit
  place : QueryPlace
  arrived : List SearchFrame
  replies : List R

namespace SearchConversationRun

variable {R : Type}

def start (ident : UInt64) : SearchConversationRun R where
  machine := .construct SearchQueryTask.entryPoints
  ident := ident
  conversation := none
  waiting := false
  notification := .create
  place := .pending
  arrived := []
  replies := []

def makeRunnable
    (self : SearchConversationRun R) :
    SearchConversationRun R :=
  if self.place = .suspended then
    { self with place := .pending }
  else
    self

def dispatchCallbacks
    (self : SearchConversationRun R) :
    SearchConversationRun R :=
  let called :=
    self.notification.handlers.foldl
      (fun run _ => run.makeRunnable) self
  { called with
    notification := called.notification.invalidate }

def settle
    (self : SearchConversationRun R)
    (result : StateResult) : SearchConversationRun R :=
  let machine := self.machine.setState result
  { self with
    machine := machine
    place :=
      match machine.verdict result with
      | none => .calling
      | some .defer => .deferred
      | some status => .done status }

/- The target `outbound://search/` with the path, as it is
   parsed. -/
def targetPath (path : String) : Uri where
  proto := "outbound:"
  host := "search"
  path := "/" ++ path
  port := 0
  valid := true

/- The conversation that `createConv` starts; the paths of all
   implementations are known. -/
def createConv
    (task : SearchConversationTask R)
    (self : SearchConversationRun R) :
    SearchConversationRun R :=
  let target := targetPath task.path
  match OutboundSearch.conversationFor target.path with
  | some (type, kind) =>
      { self with
        conversation :=
          some
            (.construct type kind self.ident target
              task.request)
        place := .started }
  | none => self

def advance
    (task : SearchConversationTask R)
    (self : SearchConversationRun R) :
    SearchConversationRun R :=
  match self.place with
  | .pending => { self with place := .calling }
  | .calling =>
      match self.machine.state, self.conversation with
      | some .createConv, _ => self.createConv task
      | some .handleResponse, some conversation =>
          let handled := task.handleResponse conversation
          { self with
            replies :=
              self.replies ++ handled.2.toList }.settle
                handled.1
      | _, _ => self
  | .started =>
      { self with
        notification := .create
        waiting := true
        place := .registered }
  | .registered =>
      { self with
        place := .asked self.notification.isWaiting }
  | .asked waiting =>
      let attached :=
        { self with
          notification :=
            self.notification.setCallbacks (some ()) none
              none }
      let built :=
        if attached.notification.isWaiting then
          attached
        else
          attached.dispatchCallbacks
      built.settle
        { first := 1
          second := if waiting then .defer else .complete }
  | .deferred => { self with place := .suspended }
  | .suspended => self
  | .done _ => self

def wake
    (self : SearchConversationRun R) :
    SearchConversationRun R :=
  if self.waiting then
    let updated := self.notification.updateState .success
    let notified :=
      { self with
        waiting := false
        notification := updated.2 }
    if updated.1 then
      notified.dispatchCallbacks
    else
      notified
  else
    self

/- The number of the conversation that a frame is for. -/
def frameIdent
    (header : Wire → Option TransportHeader)
    (frame : SearchFrame) : Option UInt64 :=
  (header frame.leader).map TransportHeader.id

def arrive
    (header : Wire → Option TransportHeader)
    (responses : ResponseProtos)
    (self : SearchConversationRun R)
    (frame : SearchFrame) : SearchConversationRun R :=
  match self.conversation with
  | none => self
  | some conversation =>
      if frameIdent header frame = some self.ident then
        let self :=
          { self with arrived := self.arrived ++ [frame] }
        match frame.take header with
        | .error _ => self
        | .ok call =>
            let after :=
              SearchQueryRun.handled responses conversation
                call
            let self := { self with conversation := some after }
            if conversation.wakes < after.wakes then
              self.wake
            else
              self
      else
        self

def step
    (header : Wire → Option TransportHeader)
    (responses : ResponseProtos)
    (task : SearchConversationTask R)
    (self : SearchConversationRun R) :
    SearchQueryEvent → SearchConversationRun R
  | .advance => self.advance task
  | .frame frame => self.arrive header responses frame

def run
    (header : Wire → Option TransportHeader)
    (responses : ResponseProtos)
    (task : SearchConversationTask R)
    (self : SearchConversationRun R)
    (events : List SearchQueryEvent) :
    SearchConversationRun R :=
  events.foldl (step header responses task) self

theorem run_snoc
    (header : Wire → Option TransportHeader)
    (responses : ResponseProtos)
    (task : SearchConversationTask R)
    (self : SearchConversationRun R)
    (events : List SearchQueryEvent)
    (event : SearchQueryEvent) :
    self.run header responses task (events ++ [event]) =
      (self.run header responses task events).step header
        responses task event := by
  simp [run]

end SearchConversationRun

------------------------------------------------------------
-- Queries
------------------------------------------------------------

namespace SearchQueryRun

/- A query without its implementation. -/
def conversationRun
    (self : SearchQueryRun) :
    SearchConversationRun ServerAgentMessage where
  machine := self.task.machine
  ident := self.ident
  conversation := self.conversation
  waiting := self.waiting
  notification := self.notification
  place := self.place
  arrived := self.arrived
  replies := self.replies

end SearchQueryRun

end OefCore
