import Mathlib.Tactic.Common
import OefCore.Comms.MtCore

/-
  The handshake of an agent that names its key: an id, a
  phrase, an answer.

  Main declarations:
    * `InitialHandshakeTaskFactory.processMessage`
    * `exec_processAgentServerAnswer_ok`,
      `exec_processAgentServerAnswer_error`
-/

namespace OefCore

namespace InitialHandshakeTaskFactory

variable {E : Type} [DecidableEq E]

/- `this` is a member of the connection it serves. -/
def update
    (self : InitialHandshakeTaskFactory)
    (myself : E) : CoreM E Unit :=
  CoreM.modifyEndpoint myself fun endpoint =>
    { endpoint with factory := some (.initialHandshake self) }

/- `IOefAgentTaskFactory::successor`. -/
def successor
    (factory : IOefAgentTaskFactory)
    (myself : E) : CoreM E Unit :=
  CoreM.modifyEndpoint myself fun endpoint =>
    { endpoint with factory := some factory }

def processAgentServerID
    (self : InitialHandshakeTaskFactory)
    (protos : AgentProtos)
    (myself : E)
    (data : Wire) : CoreM E Unit := do
  let id ← CoreM.read protos.agentServerID data
  let self := { self with publicKey := id.publicKey }
  self.update myself
  CoreM.submit (.sendPhrase "RandomlyGeneratedString" myself)
  { self with state := .waitingForAgentServerAnswer }.update
    myself

/- An agent that answers pings is sent them from here on. -/
def startHeartbeat
    (answer : AgentServerAnswer)
    (myself : E) : CoreM E Unit :=
  if answer.willHeartbeat then
    CoreM.submit (.heartbeat myself)
  else
    return ()

def processAgentServerAnswer
    (self : InitialHandshakeTaskFactory)
    (protos : AgentProtos)
    (myself : E)
    (data : Wire) : CoreM E Unit := do
  let answer ← CoreM.read protos.agentServerAnswer data
  CoreM.modifyEndpoint myself fun endpoint =>
    { endpoint with willHeartbeat := answer.willHeartbeat }
  CoreM.submit (.sendConnected true myself)
  modify fun core =>
    { core with
      agents := core.agents.add self.publicKey myself }
  CoreM.karmaUpgrade myself "" self.publicKey
  let _ ← CoreM.karmaPerform myself "login"
  startHeartbeat answer myself
  CoreM.modifyEndpoint myself fun endpoint =>
    { endpoint with loggedin := true }
  successor
    (.oefFunctions
      { agentPublicKey := self.publicKey
        coreKey := self.coreKey })
    myself

/-
  What is caught as a `std::exception` is thrown on as a copy
  of just that.
-/
def processMessage
    (self : InitialHandshakeTaskFactory)
    (protos : AgentProtos)
    (myself : E)
    (data : Wire) : CoreM E Unit :=
  let process :=
    match self.state with
    | .waitingForAgentServerID =>
        self.processAgentServerID protos myself data
    | .waitingForAgentServerAnswer =>
        self.processAgentServerAnswer protos myself data
  tryCatch process fun thrown =>
    match thrown with
    | .nullPointer => throw .nullPointer
    | _ => throw .standard

------------------------------------------------------------
-- Executions
------------------------------------------------------------

theorem exec_processAgentServerID_ok
    {self : InitialHandshakeTaskFactory}
    {protos : AgentProtos}
    {myself : E}
    {data : Wire}
    {id : AgentServerID}
    (hParse : protos.agentServerID data = some id)
    {core : MtCore E}
    {endpoint : OefAgentEndpoint}
    (hEndpoint : core.endpoints myself = some endpoint) :
    (self.processAgentServerID protos myself data).exec core =
      (.ok (),
        { core with
          endpoints :=
            Function.update core.endpoints myself
              (some
                { endpoint with
                  factory :=
                    some (.initialHandshake
                      { self with
                        publicKey := id.publicKey
                        state :=
                          .waitingForAgentServerAnswer }) })
          poolCalls :=
            core.poolCalls ++
              [.submit
                (.sendPhrase "RandomlyGeneratedString" myself)
                core.threadGroupId] }) := by
  unfold processAgentServerID update
  rw [Fallible.exec_bind_ok
    (CoreM.exec_read_some hParse core)]
  simp [Fallible.exec_bind, hEndpoint]

/- The account that an answer upgrades its connection to. -/
def upgraded
    (self : InitialHandshakeTaskFactory)
    (core : MtCore E)
    (endpoint : OefAgentEndpoint) :
    KarmaAccount × KarmaPolicy :=
  core.karmaPolicy.upgrade endpoint.karma "" self.publicKey

/- The connection when karma is asked for the login. -/
def answered
    (self : InitialHandshakeTaskFactory)
    (core : MtCore E)
    (endpoint : OefAgentEndpoint)
    (answer : AgentServerAnswer) : OefAgentEndpoint :=
  { endpoint with
    karma := (self.upgraded core endpoint).1
    willHeartbeat := answer.willHeartbeat }

/- All that has been done by then. -/
def registered
    (self : InitialHandshakeTaskFactory)
    (myself : E)
    (core : MtCore E)
    (endpoint : OefAgentEndpoint)
    (answer : AgentServerAnswer) : MtCore E :=
  { core with
    karmaPolicy := (self.upgraded core endpoint).2
    agents := core.agents.add self.publicKey myself
    endpoints :=
      Function.update core.endpoints myself
        (some (self.answered core endpoint answer))
    poolCalls :=
      core.poolCalls ++
        [.submit (.sendConnected true myself)
          core.threadGroupId] }

/- What is left to do when karma goes along. -/
def finish
    (self : InitialHandshakeTaskFactory)
    (answer : AgentServerAnswer)
    (myself : E) : CoreM E Unit := do
  startHeartbeat answer myself
  CoreM.modifyEndpoint myself fun endpoint =>
    { endpoint with loggedin := true }
  successor
    (.oefFunctions
      { agentPublicKey := self.publicKey
        coreKey := self.coreKey })
    myself

/- The charge is the only thing that an answer can fail at
   which could be read. -/
theorem exec_processAgentServerAnswer_eq
    {self : InitialHandshakeTaskFactory}
    {protos : AgentProtos}
    {myself : E}
    {data : Wire}
    {answer : AgentServerAnswer}
    (hParse : protos.agentServerAnswer data = some answer)
    {core : MtCore E}
    {endpoint : OefAgentEndpoint}
    (hEndpoint : core.endpoints myself = some endpoint)
    (hPolicy : endpoint.karma.hasPolicy = true) :
    (self.processAgentServerAnswer protos myself data).exec
        core =
      (CoreM.karmaPerform myself "login" >>= fun _ =>
        self.finish answer myself).exec
          (self.registered myself core endpoint answer) := by
  have hUpgrade :=
    @CoreM.exec_karmaUpgrade E _ myself
      { core with
        agents := core.agents.add self.publicKey myself
        endpoints :=
          Function.update core.endpoints myself
            (some
              { endpoint with
                willHeartbeat := answer.willHeartbeat })
        poolCalls :=
          core.poolCalls ++
            [.submit (.sendConnected true myself)
              core.threadGroupId] }
      { endpoint with willHeartbeat := answer.willHeartbeat }
      (Function.update_self _ _ _) hPolicy "" self.publicKey
  simp only [Function.update_idem] at hUpgrade
  unfold processAgentServerAnswer
  rw [Fallible.exec_bind_ok (CoreM.exec_read_some hParse core),
    Fallible.exec_bind_ok (CoreM.exec_modifyEndpoint _ _ _),
    Fallible.exec_bind_ok (CoreM.exec_submit _ _),
    Fallible.exec_bind_ok (Fallible.exec_modify _ _),
    hEndpoint, Option.map_some,
    Fallible.exec_bind_ok hUpgrade]
  rfl

/- The charge is for the account after the upgrade. -/
theorem exec_login
    (self : InitialHandshakeTaskFactory)
    (myself : E)
    (core : MtCore E)
    (endpoint : OefAgentEndpoint)
    (answer : AgentServerAnswer) :
    let charged :=
      (self.upgraded core endpoint).1.perform
        (self.upgraded core endpoint).2 "login"
    (CoreM.karmaPerform myself "login").exec
        (self.registered myself core endpoint answer) =
      (charged.1,
        { self.registered myself core endpoint answer with
          karmaPolicy := charged.2 }) := by
  have hFound :
      (self.registered myself core endpoint answer).endpoints
          myself =
        some (self.answered core endpoint answer) :=
    Function.update_self _ _ _
  exact CoreM.exec_karmaPerform hFound "login"

/- The agent is logged in. -/
def loggedIn
    (self : InitialHandshakeTaskFactory)
    (myself : E)
    (core : MtCore E)
    (endpoint : OefAgentEndpoint)
    (answer : AgentServerAnswer)
    (policy : KarmaPolicy) : MtCore E :=
  let registered := self.registered myself core endpoint answer
  { registered with
    karmaPolicy := policy
    endpoints :=
      Function.update core.endpoints myself
        (some
          { self.answered core endpoint answer with
            loggedin := true
            factory :=
              some (.oefFunctions
                { agentPublicKey := self.publicKey
                  coreKey := self.coreKey }) })
    poolCalls :=
      registered.poolCalls ++
        if answer.willHeartbeat then
          [.submit (.heartbeat myself) core.threadGroupId]
        else
          [] }

section Answers

variable
  {self : InitialHandshakeTaskFactory}
  {protos : AgentProtos}
  {myself : E}
  {data : Wire}
  {answer : AgentServerAnswer}
  {core : MtCore E}
  {endpoint : OefAgentEndpoint}
  {policy : KarmaPolicy}

theorem exec_processAgentServerAnswer_error
    (hParse : protos.agentServerAnswer data = some answer)
    (hEndpoint : core.endpoints myself = some endpoint)
    (hPolicy : endpoint.karma.hasPolicy = true)
    {thrown : Exception}
    (hLogin :
      (self.upgraded core endpoint).1.perform
          (self.upgraded core endpoint).2 "login" =
        (.error thrown, policy)) :
    (self.processAgentServerAnswer protos myself data).exec
        core =
      (.error thrown,
        { self.registered myself core endpoint answer with
          karmaPolicy := policy }) := by
  have hPerform :=
    exec_login self myself core endpoint answer
  rw [hLogin] at hPerform
  rw [exec_processAgentServerAnswer_eq hParse hEndpoint
    hPolicy]
  exact Fallible.exec_bind_error hPerform _

theorem exec_processAgentServerAnswer_ok
    (hParse : protos.agentServerAnswer data = some answer)
    (hEndpoint : core.endpoints myself = some endpoint)
    (hPolicy : endpoint.karma.hasPolicy = true)
    {granted : Bool}
    (hLogin :
      (self.upgraded core endpoint).1.perform
          (self.upgraded core endpoint).2 "login" =
        (.ok granted, policy)) :
    (self.processAgentServerAnswer protos myself data).exec
        core =
      (.ok (),
        self.loggedIn myself core endpoint answer policy) := by
  have hPerform :=
    exec_login self myself core endpoint answer
  rw [hLogin] at hPerform
  rw [exec_processAgentServerAnswer_eq hParse hEndpoint
    hPolicy]
  refine (Fallible.exec_bind_ok hPerform _).trans ?_
  unfold finish startHeartbeat successor loggedIn
  cases hBeats : answer.willHeartbeat with
  | false =>
      simp [Fallible.exec_bind, registered, answered, hBeats]
  | true =>
      simp [Fallible.exec_bind, registered, answered, hBeats]

end Answers

/- What the handshake in its second state does with an answer
   that does not parse. -/
theorem exec_processMessage_noAnswer
    {self : InitialHandshakeTaskFactory}
    (hState : self.state = .waitingForAgentServerAnswer)
    {protos : AgentProtos}
    {data : Wire}
    (hParse : protos.agentServerAnswer data = none)
    (myself : E)
    (core : MtCore E) :
    (self.processMessage protos myself data).exec core =
      (.error .standard, core) := by
  unfold processMessage
  rw [Fallible.exec_tryCatch]
  simp only [hState]
  unfold processAgentServerAnswer
  rw [Fallible.exec_bind_error
    (CoreM.exec_read_none hParse core)]
  rfl

/- What it throws, it throws on as something else. -/
theorem exec_processMessage_error
    {self : InitialHandshakeTaskFactory}
    (hState : self.state = .waitingForAgentServerAnswer)
    {protos : AgentProtos}
    {myself : E}
    {data : Wire}
    {core after : MtCore E}
    {thrown : Exception}
    (hExec :
      (self.processAgentServerAnswer protos myself data).exec
          core =
        (.error thrown, after)) :
    ∃ rethrown,
      (self.processMessage protos myself data).exec core =
        (.error rethrown, after) := by
  unfold processMessage
  rw [Fallible.exec_tryCatch]
  simp only [hState, hExec]
  cases thrown <;> exact ⟨_, rfl⟩

theorem exec_processMessage_ok
    {self : InitialHandshakeTaskFactory}
    (hState : self.state = .waitingForAgentServerAnswer)
    {protos : AgentProtos}
    {myself : E}
    {data : Wire}
    {core after : MtCore E}
    (hExec :
      (self.processAgentServerAnswer protos myself data).exec
          core =
        (.ok (), after)) :
    (self.processMessage protos myself data).exec core =
      (.ok (), after) := by
  unfold processMessage
  rw [Fallible.exec_tryCatch]
  simp only [hState, hExec]

end InitialHandshakeTaskFactory

end OefCore
