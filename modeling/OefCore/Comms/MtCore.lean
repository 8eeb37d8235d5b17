import Mathlib.Logic.Function.Basic
import Mathlib.Tactic.Common
import OefCore.Agents.Agents
import OefCore.Karma.KarmaPolicy
import OefCore.Library.Fallible
import OefCore.Protos.Agent

/-
  The state that the handlers of all agent connections act
  on: the connections, the registry, the karma policy, and
  what was asked of the task pool.

  Main declarations:
    * `OefAgentEndpoint`
    * `MtCore`, `CoreM`
-/

namespace OefCore

------------------------------------------------------------
-- Factories
------------------------------------------------------------

inductive HandshakeState where
  | waitingForAgentServerID
  | waitingForAgentServerAnswer
  deriving DecidableEq, Repr

structure InitialHandshakeTaskFactory where
  state : HandshakeState
  publicKey : String
  coreKey : String
  deriving DecidableEq, Repr

structure OefFunctionsTaskFactory where
  agentPublicKey : String
  coreKey : String
  deriving DecidableEq, Repr

/- The task factories that a connection goes through. -/
inductive IOefAgentTaskFactory where
  | initialHandshake (factory : InitialHandshakeTaskFactory)
  | oefFunctions (factory : OefFunctionsTaskFactory)
  deriving DecidableEq, Repr

------------------------------------------------------------
-- Connections
------------------------------------------------------------

/-
  A connection; its identity number is a count of those
  alive, itself included.
-/
structure OefAgentEndpoint where
  ident : Nat
  remoteId : String
  karma : KarmaAccount
  willHeartbeat : Bool
  loggedin : Bool
  outstandingHeartbeats : UInt32
  factory : Option IOefAgentTaskFactory
  deriving DecidableEq, Repr

namespace OefAgentEndpoint

/- A connection as the listener sets it up. -/
def construct
    (ident : Nat)
    (remoteId coreKey : String) : OefAgentEndpoint where
  ident := ident
  remoteId := remoteId
  karma := .void
  willHeartbeat := false
  loggedin := false
  outstandingHeartbeats := 0
  factory :=
    some (.initialHandshake
      { state := .waitingForAgentServerID
        publicKey := ""
        coreKey := coreKey })

end OefAgentEndpoint

------------------------------------------------------------
-- Tasks
------------------------------------------------------------

/- A message on its way to an agent. -/
structure AgentToAgentMessageTask (E : Type) where
  agent : Agent E
  message : ServerAgentMessage
  sourceKey : String

/- The tasks that handlers submit, by what they are for. -/
inductive Task (E : Type) where
  | sendPhrase (phrase : String) (endpoint : E)
  | sendConnected (status : Bool) (endpoint : E)
  | sendMessage (message : ServerAgentMessage) (endpoint : E)
  | heartbeat (endpoint : E)
  | agentToAgent (task : AgentToAgentMessageTask E)
  | searchUpdate
      (initiator : Wire)
      (endpoint : E)
      (msgId : Int)
      (coreKey agentUri : String)
  | searchRemove
      (initiator : Option Wire)
      (endpoint : E)
      (msgId : Int)
      (coreKey agentUri : String)
      (removeRow : Bool)
  | searchQuery
      (initiator : Wire)
      (endpoint : E)
      (msgId : Int)
      (coreKey uri : String)
      (ttl : Nat)

/- What is asked of the default task pool, in order. -/
inductive PoolCall (E : Type) where
  | submit (task : Task E) (group : Nat)
  | cancelTaskGroup (group : Nat)

------------------------------------------------------------
-- The Core
------------------------------------------------------------

/-
  `threadGroupId` is the task group of the running thread,
  `crashed` says that a null pointer was followed, and
  `drawn` is what the random engine yields next.
-/
structure MtCore (E : Type) where
  karmaPolicy : KarmaPolicy
  agents : Agents E
  endpoints : E → Option OefAgentEndpoint
  poolCalls : List (PoolCall E)
  threadGroupId : Nat
  drawn : Nat
  crashed : Bool

/- What code under a handler does: it may throw, and what it
   did before stays done. -/
abbrev CoreM (E : Type) :=
  Fallible Exception (MtCore E)

namespace CoreM

variable {E : Type}

/- A null pointer is followed. -/
def crash {α : Type} : CoreM E α := do
  modify fun core => { core with crashed := true }
  throw .nullPointer

def submit (task : Task E) : CoreM E Unit :=
  modify fun core =>
    { core with
      poolCalls :=
        core.poolCalls ++ [.submit task core.threadGroupId] }

/- `submit`, then `setGroupId`. -/
def submitInGroup
    (task : Task E)
    (group : Nat) : CoreM E Unit :=
  modify fun core =>
    { core with
      poolCalls := core.poolCalls ++ [.submit task group] }

def cancelTaskGroup (group : Nat) : CoreM E Unit :=
  modify fun core =>
    { core with
      poolCalls := core.poolCalls ++ [.cancelTaskGroup group] }

/- Follow the pointer to a connection. -/
def getEndpoint (myself : E) : CoreM E OefAgentEndpoint := do
  match (← get).endpoints myself with
  | some endpoint => return endpoint
  | none => crash

def modifyEndpoint
    [DecidableEq E]
    (myself : E)
    (f : OefAgentEndpoint → OefAgentEndpoint) :
    CoreM E Unit :=
  modify fun core =>
    { core with
      endpoints :=
        Function.update core.endpoints myself
          ((core.endpoints myself).map f) }

/- `karma.perform` on a connection's account. -/
def karmaPerform
    (myself : E)
    (action : String) : CoreM E Bool := do
  let endpoint ← getEndpoint myself
  let core ← get
  let performed := endpoint.karma.perform core.karmaPolicy action
  set { core with karmaPolicy := performed.2 }
  match performed.1 with
  | .ok granted => return granted
  | .error thrown => throw thrown

/- `karma.upgrade`; a void account has no policy to ask. -/
def karmaUpgrade
    [DecidableEq E]
    (myself : E)
    (pubkey ip : String) : CoreM E Unit := do
  let endpoint ← getEndpoint myself
  if endpoint.karma.hasPolicy then
    let core ← get
    let upgraded :=
      core.karmaPolicy.upgrade endpoint.karma pubkey ip
    set { core with karmaPolicy := upgraded.2 }
    modifyEndpoint myself fun endpoint =>
      { endpoint with karma := upgraded.1 }
  else
    crash

/- `IOefAgentTaskFactory::read`: a parse takes all the data
   there is. -/
def read
    {PROTO : Type}
    (parse : Wire → Option PROTO)
    (data : Wire) : CoreM E PROTO :=
  match parse data with
  | some proto => return proto
  | none =>
      throw (.invalidArgument "Failed proto deserialisation.")

------------------------------------------------------------
-- Executions
------------------------------------------------------------

@[simp]
theorem exec_crash
    {α : Type}
    (core : MtCore E) :
    (crash : CoreM E α).exec core =
      (.error .nullPointer, { core with crashed := true }) :=
  rfl

@[simp]
theorem exec_submit
    (task : Task E)
    (core : MtCore E) :
    (submit task).exec core =
      (.ok (),
        { core with
          poolCalls :=
            core.poolCalls ++
              [.submit task core.threadGroupId] }) :=
  rfl

@[simp]
theorem exec_submitInGroup
    (task : Task E)
    (group : Nat)
    (core : MtCore E) :
    (submitInGroup task group).exec core =
      (.ok (),
        { core with
          poolCalls :=
            core.poolCalls ++ [.submit task group] }) :=
  rfl

@[simp]
theorem exec_cancelTaskGroup
    (group : Nat)
    (core : MtCore E) :
    (cancelTaskGroup group).exec core =
      (.ok (),
        { core with
          poolCalls :=
            core.poolCalls ++ [.cancelTaskGroup group] }) :=
  rfl

@[simp]
theorem exec_modifyEndpoint
    [DecidableEq E]
    (myself : E)
    (f : OefAgentEndpoint → OefAgentEndpoint)
    (core : MtCore E) :
    (modifyEndpoint myself f).exec core =
      (.ok (),
        { core with
          endpoints :=
            Function.update core.endpoints myself
              ((core.endpoints myself).map f) }) :=
  rfl

theorem exec_getEndpoint
    {myself : E}
    {core : MtCore E}
    {endpoint : OefAgentEndpoint}
    (hEndpoint : core.endpoints myself = some endpoint) :
    (getEndpoint myself).exec core = (.ok endpoint, core) := by
  unfold getEndpoint
  rw [Fallible.exec_bind_ok (Fallible.exec_get core),
    hEndpoint]
  rfl

/- Karma is asked for the account of the connection. -/
theorem exec_karmaPerform
    {myself : E}
    {core : MtCore E}
    {endpoint : OefAgentEndpoint}
    (hEndpoint : core.endpoints myself = some endpoint)
    (action : String) :
    (karmaPerform myself action).exec core =
      ((endpoint.karma.perform core.karmaPolicy action).1,
        { core with
          karmaPolicy :=
            (endpoint.karma.perform core.karmaPolicy
              action).2 }) := by
  unfold karmaPerform
  rw [Fallible.exec_bind_ok (exec_getEndpoint hEndpoint),
    Fallible.exec_bind_ok (Fallible.exec_get core),
    Fallible.exec_bind_ok (Fallible.exec_set _ _)]
  cases (endpoint.karma.perform core.karmaPolicy action).1
  <;> rfl

/- An account that a policy gave out is upgraded by it. -/
theorem exec_karmaUpgrade
    [DecidableEq E]
    {myself : E}
    {core : MtCore E}
    {endpoint : OefAgentEndpoint}
    (hEndpoint : core.endpoints myself = some endpoint)
    (hPolicy : endpoint.karma.hasPolicy = true)
    (pubkey ip : String) :
    (karmaUpgrade myself pubkey ip).exec core =
      (.ok (),
        { core with
          karmaPolicy :=
            (core.karmaPolicy.upgrade endpoint.karma pubkey
              ip).2
          endpoints :=
            Function.update core.endpoints myself
              (some
                { endpoint with
                  karma :=
                    (core.karmaPolicy.upgrade endpoint.karma
                      pubkey ip).1 }) }) := by
  unfold karmaUpgrade
  rw [Fallible.exec_bind_ok (exec_getEndpoint hEndpoint),
    if_pos hPolicy]
  simp only [Fallible.exec_bind, Fallible.exec_get,
    Fallible.exec_set, exec_modifyEndpoint, hEndpoint,
    Option.map_some]

theorem exec_read_some
    {PROTO : Type}
    {parse : Wire → Option PROTO}
    {data : Wire}
    {proto : PROTO}
    (hParse : parse data = some proto)
    (core : MtCore E) :
    (read parse data).exec core = (.ok proto, core) := by
  unfold read
  rw [hParse]
  rfl

theorem exec_read_none
    {PROTO : Type}
    {parse : Wire → Option PROTO}
    {data : Wire}
    (hParse : parse data = none)
    (core : MtCore E) :
    (read parse data).exec core =
      (.error
        (.invalidArgument "Failed proto deserialisation."),
        core) := by
  unfold read
  rw [hParse]
  rfl

end CoreM

end OefCore
