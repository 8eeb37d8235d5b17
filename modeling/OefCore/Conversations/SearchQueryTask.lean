import OefCore.Conversations.ProtoPathMessageReader
import OefCore.Tasks.OefUri
import OefCore.Tasks.StateMachineTask
import OefCore.Threading.Notification

/-
  `SearchQueryTask`: a query is passed on to the search node,
  and what comes back is turned into an answer.

  A run is that of one task. The places are those between two
  accesses to the conversation, its waitable or the pool; a
  frame is handled in one step.

  Main declarations:
    * `SearchProtos`, `SearchQueryTask`
    * `SearchQueryTask.makeRequestProto`, `handleResponse`
    * `SearchQueryRun`, `SearchQueryEvent`
    * `SearchQueryRun.advance`, `arrive`, `step`, `run`
-/

namespace OefCore

------------------------------------------------------------
-- The Task
------------------------------------------------------------

/-
  What protobuf generates: `responses` tells which texts are
  parsed, `searchResponse` what a text then holds.
-/
structure SearchProtos where
  header : Wire → Option TransportHeader
  responses : ResponseProtos
  searchResponse : Wire → SearchResponse
  searchQuery : SearchQuery → Wire

/- The state functions of `SearchConversationTask`. -/
inductive SearchConversationEntry where
  | createConv
  | handleResponse
  deriving DecidableEq, Repr

/- `sendReply` tells whether the function was set. -/
structure SearchQueryTask where
  machine : StateMachineTask SearchConversationEntry
  initiator : AgentSearch
  msgId : UInt32
  coreKey : String
  agentUri : String
  path : String
  ttl : UInt16
  sendReply : Bool
  deriving DecidableEq, Repr

namespace SearchQueryTask

/- `searchQueryTaskEntryPoints`. -/
def entryPoints : List SearchConversationEntry :=
  [.createConv, .handleResponse]

def construct
    (initiator : AgentSearch)
    (msgId : UInt32)
    (coreKey agentUri : String)
    (ttl : UInt16) : SearchQueryTask where
  machine := .construct entryPoints
  initiator := initiator
  msgId := msgId
  coreKey := coreKey
  agentUri := agentUri
  path := "search"
  ttl := ttl
  sendReply := false

def setDefaultSendReplyFunc
    (self : SearchQueryTask) : SearchQueryTask :=
  { self with sendReply := true }

/- What `OefFunctionsTaskFactory` makes of a query: the number
   of the message goes through `uint32_t`. -/
def ofQuery
    (initiator : AgentSearch)
    (msgId : Int32)
    (coreKey agentUri : String)
    (ttl : UInt16) : SearchQueryTask :=
  (construct initiator msgId.toUInt32 coreKey agentUri
    ttl).setDefaultSendReplyFunc

def makeRequestProto
    (self : SearchQueryTask) : SearchQuery where
  sourceKey := self.coreKey
  model :=
    if self.initiator.queryV2.isSome then
      none
    else
      some self.initiator.query
  queryV2 := self.initiator.queryV2
  ttl := self.ttl.toUInt32

/- The target that `createConv` starts a conversation with, as
   it is parsed. -/
def targetPath (self : SearchQueryTask) : Uri where
  proto := "outbound:"
  host := "search"
  path := "/" ++ self.path
  port := 0
  valid := true

/- The agents of a response, by the parts of their keys that
   name an agent. -/
def agentParts (response : SearchResponse) : List String :=
  response.result.flatMap fun item =>
    item.agents.map fun agent =>
      (({} : URI).parseAgent agent.key).agentPartAsString

/- The list of results for the agent that asked; more than one
   hop asks for the wide form. -/
def results
    (ttl : UInt16)
    (response : SearchResponse) : ServerPayload :=
  if ttl = 1 then
    .agents (agentParts response)
  else
    .agentsWide response.result

def answer
    (self : SearchQueryTask)
    (response : SearchResponse) : ServerAgentMessage where
  answerId := self.msgId.toInt32.toInt
  payload := results self.ttl response

/-
  What is passed to `sendReply`, if anything is. The second
  test of the reply count is never met.
-/
def handleResponse
    (self : SearchQueryTask)
    (protos : SearchProtos)
    (conversation : OutboundSearchConversation) :
    StateResult × Option ServerAgentMessage :=
  match conversation.responses with
  | [] => ({ first := 0, second := .errored }, none)
  | reply :: _ =>
      if conversation.statusCode ≠ some 0 then
        ({ first := 0, second := .errored }, none)
      else
        ({ first := 0, second := .complete },
          if self.sendReply then
            some (self.answer (protos.searchResponse reply))
          else
            none)

end SearchQueryTask

------------------------------------------------------------
-- Runs
------------------------------------------------------------

/-
  Where the task is: in the pool, at the places of its run
  (`asked` is behind the call of `Waiting`), about to be
  suspended, suspended, or gone.
-/
inductive QueryPlace where
  | pending
  | calling
  | started
  | registered
  | asked (waiting : Bool)
  | deferred
  | suspended
  | done (status : ExitState)
  deriving DecidableEq, Repr

/-
  `waiting` tells whether the conversation's waitable holds
  the notification, whose callback makes the task runnable;
  `arrived` are the frames that came for the conversation,
  and `replies` what was passed to `sendReply`.
-/
structure SearchQueryRun where
  task : SearchQueryTask
  ident : UInt64
  conversation : Option OutboundSearchConversation
  waiting : Bool
  notification : NotificationImplementation Unit
  place : QueryPlace
  arrived : List SearchFrame
  replies : List ServerAgentMessage

inductive SearchQueryEvent where
  | advance
  | frame (frame : SearchFrame)
  deriving DecidableEq, Repr

namespace SearchQueryRun

/- A task that was submitted; `ident` is the number that its
   conversation will get. -/
def start
    (task : SearchQueryTask)
    (ident : UInt64) : SearchQueryRun where
  task := task
  ident := ident
  conversation := none
  waiting := false
  notification := .create
  place := .pending
  arrived := []
  replies := []

/- A task that is not suspended has no pool, or is not found
   in it. -/
def makeRunnable (self : SearchQueryRun) : SearchQueryRun :=
  if self.place = .suspended then
    { self with place := .pending }
  else
    self

/- `DispatchCallbacks`; each callback makes the task
   runnable. -/
def dispatchCallbacks
    (self : SearchQueryRun) : SearchQueryRun :=
  let called :=
    self.notification.handlers.foldl
      (fun run _ => run.makeRunnable) self
  { called with
    notification := called.notification.invalidate }

/- The rest of the loop body of `run`, once a state function has
   returned. -/
def settle
    (self : SearchQueryRun)
    (result : StateResult) : SearchQueryRun :=
  let machine := self.task.machine.setState result
  { self with
    task := { self.task with machine := machine }
    place :=
      match machine.verdict result with
      | none => .calling
      | some .defer => .deferred
      | some status => .done status }

/-
  The next thing the task does. A builder sets the callbacks
  and calls them itself if the notification came before.
-/
def advance
    (protos : SearchProtos)
    (self : SearchQueryRun) : SearchQueryRun :=
  match self.place with
  | .pending => { self with place := .calling }
  | .calling =>
      match self.task.machine.state, self.conversation with
      | some .createConv, _ =>
          { self with
            conversation :=
              some
                (.construct .update .searchResponse self.ident
                  self.task.targetPath
                  (protos.searchQuery
                    self.task.makeRequestProto))
            place := .started }
      | some .handleResponse, some conversation =>
          let handled :=
            self.task.handleResponse protos conversation
          { self with
            replies :=
              self.replies ++ handled.2.toList }.settle
                handled.1
      | _, _ => self
  | .started =>
      { self with
        notification := .create
        waiting := true
        place := .registered }
  | .registered =>
      { self with
        place := .asked self.notification.isWaiting }
  | .asked waiting =>
      let attached :=
        { self with
          notification :=
            self.notification.setCallbacks (some ()) none
              none }
      let built :=
        if attached.notification.isWaiting then
          attached
        else
          attached.dispatchCallbacks
      built.settle
        { first := 1
          second := if waiting then .defer else .complete }
  | .deferred => { self with place := .suspended }
  | .suspended => self
  | .done _ => self

/- `Waitable::wake` of the conversation. -/
def wake (self : SearchQueryRun) : SearchQueryRun :=
  if self.waiting then
    let updated := self.notification.updateState .success
    let notified :=
      { self with
        waiting := false
        notification := updated.2 }
    if updated.1 then
      notified.dispatchCallbacks
    else
      notified
  else
    self

/- The handlers of the search connection. -/
def handled
    (protos : ResponseProtos)
    (conversation : OutboundSearchConversation) :
    ProtoPathCall → OutboundSearchConversation
  | .onComplete _ _ buffer =>
      conversation.handleMessage protos buffer
  | .onError _ statusCode message =>
      conversation.handleError statusCode message

/- A frame is for the conversation if its header has the
   number of it. -/
def IsFor
    (protos : SearchProtos)
    (ident : UInt64)
    (frame : SearchFrame) : Prop :=
  (protos.header frame.leader).map TransportHeader.id =
    some ident

instance
    (protos : SearchProtos)
    (ident : UInt64)
    (frame : SearchFrame) :
    Decidable (IsFor protos ident frame) := by
  unfold IsFor
  infer_instance

/- A frame comes in; what the reader refuses is not handled. -/
def arrive
    (protos : SearchProtos)
    (self : SearchQueryRun)
    (frame : SearchFrame) : SearchQueryRun :=
  match self.conversation with
  | none => self
  | some conversation =>
      if IsFor protos self.ident frame then
        let self :=
          { self with arrived := self.arrived ++ [frame] }
        match frame.take protos.header with
        | .error _ => self
        | .ok call =>
            let after :=
              handled protos.responses conversation call
            let self := { self with conversation := some after }
            if conversation.wakes < after.wakes then
              self.wake
            else
              self
      else
        self

def step
    (protos : SearchProtos)
    (self : SearchQueryRun) :
    SearchQueryEvent → SearchQueryRun
  | .advance => self.advance protos
  | .frame frame => self.arrive protos frame

def run
    (protos : SearchProtos)
    (self : SearchQueryRun)
    (events : List SearchQueryEvent) : SearchQueryRun :=
  events.foldl (step protos) self

theorem run_snoc
    (protos : SearchProtos)
    (self : SearchQueryRun)
    (events : List SearchQueryEvent)
    (event : SearchQueryEvent) :
    self.run protos (events ++ [event]) =
      (self.run protos events).step protos event := by
  simp [run]

end SearchQueryRun

end OefCore
