import Mathlib.Tactic.Common
import OefCore.Tasks.AgentToAgentMessageTask

/-
  What a logged-in agent can ask for, and what happens when
  its connection closes.

  Main declarations:
    * `OefFunctionsTaskFactory.processMessage`
    * `OefFunctionsTaskFactory.endpointClosed`
-/

namespace OefCore

namespace OefFunctionsTaskFactory

variable {E : Type}

------------------------------------------------------------
-- Messages
------------------------------------------------------------

/- The operation an error is reported for. -/
def operationCode : EnvelopePayload → Operation
  | .sendMessage _ => .sendMessage
  | .registerService _ => .registerService
  | .unregisterService _ => .unregisterService
  | .registerDescription _ => .registerDescription
  | .unregisterDescription => .unregisterDescription
  | .searchAgents _ => .searchAgents
  | .searchServices _ => .searchServices
  | .searchServicesWide _ => .searchServicesWide
  | .pong | .notSet => .other

def heartbeatRecvd
    [DecidableEq E]
    (myself : E) : CoreM E Unit :=
  CoreM.modifyEndpoint myself fun endpoint =>
    { endpoint with
      outstandingHeartbeats :=
        endpoint.outstandingHeartbeats - 1 }

/- The body of the `switch` over the payload. -/
def dispatch
    [DecidableEq E]
    (self : OefFunctionsTaskFactory)
    (myself : E)
    (uri : URI)
    (envelope : Envelope) : CoreM E Unit := do
  match envelope.payload with
  | .pong => heartbeatRecvd myself
  | .sendMessage message =>
      let _ ← CoreM.karmaPerform myself "oef.kSendMessage"
      let agents := (← get).agents
      let senderTask ← AgentToAgentMessageTask.construct
        (agents.find self.agentPublicKey) envelope.msgId
        message agents
      CoreM.submit (.agentToAgent senderTask)
  | .registerService description =>
      let _ ← CoreM.karmaPerform myself "oef.kRegisterService"
      CoreM.submit
        (.searchUpdate description myself envelope.msgId
          self.coreKey uri.agentPartAsString)
  | .unregisterService description =>
      let _ ←
        CoreM.karmaPerform myself "oef.kUnregisterService"
      CoreM.submit
        (.searchRemove (some description) myself
          envelope.msgId self.coreKey uri.agentPartAsString
          false)
  | .registerDescription description =>
      let _ ←
        CoreM.karmaPerform myself "oef.kRegisterDescription"
      CoreM.submit
        (.searchUpdate description myself envelope.msgId
          self.coreKey uri.agentPartAsString)
  | .unregisterDescription =>
      let _ ←
        CoreM.karmaPerform myself "oef.kUnregisterDescription"
      -- an empty description goes with the request
      CoreM.submit
        (.searchRemove (some []) myself envelope.msgId
          self.coreKey uri.agentPartAsString false)
  | .searchAgents search =>
      let _ ← CoreM.karmaPerform myself "oef.kSearchAgents"
      CoreM.submit
        (.searchQuery search myself envelope.msgId
          self.coreKey uri.toString 1)
  | .searchServices search =>
      let _ ← CoreM.karmaPerform myself "oef.kSearchServices"
      CoreM.submit
        (.searchQuery search myself envelope.msgId
          self.coreKey uri.toString 1)
  | .searchServicesWide search =>
      let _ ←
        CoreM.karmaPerform myself "oef.kSearchServicesWide"
      CoreM.submit
        (.searchQuery search myself envelope.msgId
          self.coreKey uri.toString 4)
  | .notSet =>
      let _ ← CoreM.karmaPerform myself "oef.bad.nopayload"
      throw (.error "payload not set")

/- The answer that reports an error. -/
def errorResponse
    (envelope : Envelope)
    (cause : String)
    (thrown : Exception) : ServerAgentMessage where
  answerId := envelope.msgId
  payload :=
    .oefError (operationCode envelope.payload) cause
      thrown.what

def processMessage
    [DecidableEq E]
    (self : OefFunctionsTaskFactory)
    (protos : AgentProtos)
    (myself : E)
    (data : Wire) : CoreM E Unit := do
  let envelope ← CoreM.read protos.envelope data
  let uri :=
    { ({} : URI).parse envelope.agentUri with
      agentKey := self.agentPublicKey }
  tryCatch (self.dispatch myself uri envelope) fun thrown =>
    match thrown with
    | .error _ =>
        CoreM.submit
          (.sendMessage
            (errorResponse envelope "ERROR" thrown) myself)
    | .karma _ =>
        CoreM.submit
          (.sendMessage
            (errorResponse envelope "KARMA" thrown) myself)
    | _ => throw thrown

------------------------------------------------------------
-- Closing
------------------------------------------------------------

/-
  The agent leaves the registry, and search is asked to
  forget it, in a task group of no connection.
-/
def endpointClosed
    (self : OefFunctionsTaskFactory)
    (myself : E) : CoreM E Unit := do
  modify fun core =>
    { core with
      agents := core.agents.remove self.agentPublicKey }
  let core ← get
  CoreM.submitInGroup
    (.searchRemove none myself core.drawn self.coreKey
      self.agentPublicKey true)
    0

end OefFunctionsTaskFactory

end OefCore
