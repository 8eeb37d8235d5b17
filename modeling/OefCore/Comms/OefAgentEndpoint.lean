import Mathlib.Tactic.Common
import OefCore.BasicComms.EndpointBase
import OefCore.OefFunctions.InitialHandshakeTaskFactory
import OefCore.OefFunctions.OefFunctionsTaskFactory

/-
  The handlers that `OefAgentEndpoint::setup` hangs on the
  endpoint of a connection.

  Main declarations:
    * `OefAgentEndpoint.onCompleteHandler`
    * `OefAgentEndpoint.closeHandler`
    * `OefAgentEndpoint.setup`
-/

namespace OefCore

variable {E : Type} [DecidableEq E]

------------------------------------------------------------
-- Factories
------------------------------------------------------------

namespace IOefAgentTaskFactory

def processMessage
    (self : IOefAgentTaskFactory)
    (protos : AgentProtos)
    (myself : E)
    (data : Wire) : CoreM E Unit :=
  match self with
  | .initialHandshake factory =>
      factory.processMessage protos myself data
  | .oefFunctions factory =>
      factory.processMessage protos myself data

/- A handshake has nothing to close. -/
def endpointClosed
    (self : IOefAgentTaskFactory)
    (myself : E) : CoreM E Unit :=
  match self with
  | .initialHandshake _ => return ()
  | .oefFunctions factory => factory.endpointClosed myself

end IOefAgentTaskFactory

------------------------------------------------------------
-- Handlers
------------------------------------------------------------

namespace OefAgentEndpoint

/- A handler does nothing where its weak pointer to the
   connection does not lock. -/
def withLock
    (myself : E)
    (body : OefAgentEndpoint → CoreM E Unit) :
    CoreM E Unit := do
  match (← get).endpoints myself with
  | some endpoint => body endpoint
  | none => return ()

def onStartHandler (myself : E) : CoreM E Unit :=
  withLock myself fun endpoint => do
    let core ← get
    let found := core.karmaPolicy.getAccount endpoint.remoteId ""
    set { core with karmaPolicy := found.2 }
    CoreM.modifyEndpoint myself fun endpoint =>
      { endpoint with karma := found.1 }
    let _ ← CoreM.karmaPerform myself "login"

def onCompleteHandler
    (protos : AgentProtos)
    (myself : E)
    (data : Wire) : CoreM E Unit :=
  withLock myself fun endpoint => do
    let _ ← CoreM.karmaPerform myself "message"
    modify fun core =>
      { core with threadGroupId := endpoint.ident }
    match endpoint.factory with
    | some factory => factory.processMessage protos myself data
    | none => CoreM.crash

/- The three handlers for closing differ in the event that
   karma is charged for. -/
def closeHandler
    (event : String)
    (myself : E) : CoreM E Unit :=
  withLock myself fun endpoint => do
    let _ ← CoreM.karmaPerform myself event
    match endpoint.factory with
    | some factory => factory.endpointClosed myself
    | none => CoreM.crash
    CoreM.modifyEndpoint myself fun endpoint =>
      { endpoint with factory := none }
    CoreM.cancelTaskGroup endpoint.ident

def onErrorHandler (myself : E) (_ec : ErrorCode) :
    CoreM E Unit :=
  closeHandler "error.comms" myself

def onEofHandler (myself : E) : CoreM E Unit :=
  closeHandler "eof" myself

def onProtoErrorHandler (myself : E) (_message : String) :
    CoreM E Unit :=
  closeHandler "error.proto" myself

/- A handler as the endpoint stores it. -/
def toCallback
    {β : Type}
    (handler : β → CoreM E Unit) : Callback (MtCore E) β :=
  fun argument core =>
    match (handler argument).exec core with
    | (.ok _, core) => (.ok (), core)
    | (.error thrown, core) => (.error thrown.what, core)

/- The handler for messages goes to the reader instead. -/
def setup
    {P TX : Type}
    (endpoint : EndpointBase P TX (MtCore E))
    (myself : E) : EndpointBase P TX (MtCore E) :=
  { endpoint with
    onStart := some (toCallback fun _ => onStartHandler myself)
    onError := some (toCallback (onErrorHandler myself))
    onEof := some (toCallback fun _ => onEofHandler myself)
    onProtoError :=
      some (toCallback (onProtoErrorHandler myself)) }

omit [DecidableEq E] in
@[simp]
theorem toCallback_snd
    {β : Type}
    (handler : β → CoreM E Unit)
    (argument : β)
    (core : MtCore E) :
    (toCallback handler argument core).2 =
      ((handler argument).exec core).2 := by
  unfold toCallback
  rcases (handler argument).exec core with ⟨outcome, after⟩
  cases outcome <;> rfl

omit [DecidableEq E] in
theorem exec_withLock
    {myself : E}
    {core : MtCore E}
    {endpoint : OefAgentEndpoint}
    (hEndpoint : core.endpoints myself = some endpoint)
    (body : OefAgentEndpoint → CoreM E Unit) :
    (withLock myself body).exec core =
      (body endpoint).exec core := by
  unfold withLock
  rw [Fallible.exec_bind_ok (Fallible.exec_get core),
    hEndpoint]

/- Where karma goes along, the connection is cleaned up. -/
theorem exec_closeHandler_ok
    {myself : E}
    {core : MtCore E}
    {endpoint : OefAgentEndpoint}
    (hEndpoint : core.endpoints myself = some endpoint)
    {factory : OefFunctionsTaskFactory}
    (hFactory : endpoint.factory = some (.oefFunctions factory))
    {event : String}
    {granted : Bool}
    {policy : KarmaPolicy}
    (hKarma :
      endpoint.karma.perform core.karmaPolicy event =
        (.ok granted, policy)) :
    (closeHandler event myself).exec core =
      (.ok (),
        { core with
          karmaPolicy := policy
          agents := core.agents.remove factory.agentPublicKey
          endpoints :=
            Function.update core.endpoints myself
              (some { endpoint with factory := none })
          poolCalls :=
            core.poolCalls ++
              [.submit
                (.searchRemove none myself core.drawn
                  factory.coreKey factory.agentPublicKey true)
                0,
                .cancelTaskGroup endpoint.ident] }) := by
  have hPerform := CoreM.exec_karmaPerform hEndpoint event
  rw [hKarma] at hPerform
  unfold closeHandler
  rw [exec_withLock hEndpoint, Fallible.exec_bind_ok hPerform]
  simp only [hFactory, IOefAgentTaskFactory.endpointClosed,
    OefFunctionsTaskFactory.endpointClosed,
    Fallible.exec_bind, Fallible.exec_modify,
    Fallible.exec_get, CoreM.exec_submitInGroup,
    CoreM.exec_modifyEndpoint, CoreM.exec_cancelTaskGroup,
    hEndpoint, Option.map_some, List.append_assoc,
    List.cons_append, List.nil_append]

/- Where karma throws, nothing else happens. -/
theorem exec_closeHandler_error
    {myself : E}
    {core : MtCore E}
    {endpoint : OefAgentEndpoint}
    (hEndpoint : core.endpoints myself = some endpoint)
    {event : String}
    {thrown : Exception}
    {policy : KarmaPolicy}
    (hKarma :
      endpoint.karma.perform core.karmaPolicy event =
        (.error thrown, policy)) :
    (closeHandler event myself).exec core =
      (.error thrown, { core with karmaPolicy := policy }) := by
  have hPerform := CoreM.exec_karmaPerform hEndpoint event
  rw [hKarma] at hPerform
  unfold closeHandler
  rw [exec_withLock hEndpoint,
    Fallible.exec_bind_error hPerform]

end OefAgentEndpoint

end OefCore
