import Mathlib.Tactic.Common
import OefCore.Comms.OefAgentEndpoint

/-
  What the handlers of a connection leave alone: the registry
  and the stage that each connection has reached.

  Main declarations:
    * `MtCore.session`, `MtCore.Undisturbed`
    * `OefFunctionsTaskFactory.processMessage_undisturbed`
    * `CoreM.karmaPerform_passes`
-/

namespace OefCore

------------------------------------------------------------
-- What Handlers Leave Alone
------------------------------------------------------------

namespace MtCore

variable {E : Type}

/- What the registry depends on of a connection: its factory,
   and whether its account has a policy. -/
def session
    (core : MtCore E)
    (myself : E) :
    Option (Option IOefAgentTaskFactory × Bool) :=
  (core.endpoints myself).map fun endpoint =>
    (endpoint.factory, endpoint.karma.hasPolicy)

theorem session_eq_some
    {core : MtCore E}
    {myself : E}
    {endpoint : OefAgentEndpoint}
    (hEndpoint : core.endpoints myself = some endpoint) :
    core.session myself =
      some (endpoint.factory, endpoint.karma.hasPolicy) := by
  simp [session, hEndpoint]

theorem exists_endpoint
    {core : MtCore E}
    {myself : E}
    {factory : Option IOefAgentTaskFactory}
    {hasPolicy : Bool}
    (hSession : core.session myself = some (factory, hasPolicy)) :
    ∃ endpoint, core.endpoints myself = some endpoint ∧
      endpoint.factory = factory ∧
        endpoint.karma.hasPolicy = hasPolicy := by
  simpa [session] using hSession

/- Nothing happens to the registry and to the sessions, and
   karma stays as it is. -/
structure Undisturbed (before after : MtCore E) : Prop where
  agents_eq : after.agents = before.agents
  session_eq : after.session = before.session
  never :
    before.karmaPolicy.NeverRejects →
      after.karmaPolicy.NeverRejects

instance : Std.Refl (Undisturbed (E := E)) where
  refl _ := ⟨rfl, rfl, id⟩

instance : IsTrans (MtCore E) Undisturbed where
  trans _ _ _ hFirst hThen :=
    { agents_eq := hThen.agents_eq.trans hFirst.agents_eq
      session_eq := hThen.session_eq.trans hFirst.session_eq
      never := fun hNever => hThen.never (hFirst.never hNever) }

/- A change to a connection that leaves its factory and its
   policy leaves its session. -/
theorem session_update
    [DecidableEq E]
    (core : MtCore E)
    (myself : E)
    {f : OefAgentEndpoint → OefAgentEndpoint}
    (hFactory : ∀ endpoint, (f endpoint).factory =
      endpoint.factory)
    (hPolicy : ∀ endpoint, (f endpoint).karma.hasPolicy =
      endpoint.karma.hasPolicy) :
    MtCore.session
        { core with
          endpoints :=
            Function.update core.endpoints myself
              ((core.endpoints myself).map f) } =
      core.session := by
  funext other
  by_cases hOther : other = myself
  · subst hOther
    simp [session, Function.comp_def, hFactory, hPolicy]
  · simp [session, hOther]

/- Another connection record makes another session. -/
theorem session_of_update
    [DecidableEq E]
    {before after : MtCore E}
    {myself : E}
    {endpoint : OefAgentEndpoint}
    (hEndpoints :
      after.endpoints =
        Function.update before.endpoints myself
          (some endpoint)) :
    after.session =
      Function.update before.session myself
        (some (endpoint.factory, endpoint.karma.hasPolicy)) := by
  funext other
  by_cases hOther : other = myself
  · subst hOther
    simp [session, hEndpoints]
  · simp [session, hEndpoints, hOther]

end MtCore

------------------------------------------------------------
-- Frames
------------------------------------------------------------

namespace CoreM

open Fallible (Keeps)
open MtCore (Undisturbed)

variable {E : Type}

theorem crash_undisturbed {α : Type} :
    Keeps Undisturbed (crash : CoreM E α) :=
  fun _ => ⟨rfl, rfl, id⟩

theorem submit_undisturbed (task : Task E) :
    Keeps Undisturbed (submit task) :=
  fun _ => ⟨rfl, rfl, id⟩

theorem modifyEndpoint_undisturbed
    [DecidableEq E]
    (myself : E)
    {f : OefAgentEndpoint → OefAgentEndpoint}
    (hFactory : ∀ endpoint, (f endpoint).factory =
      endpoint.factory)
    (hPolicy : ∀ endpoint, (f endpoint).karma.hasPolicy =
      endpoint.karma.hasPolicy) :
    Keeps Undisturbed (modifyEndpoint myself f) := by
  intro core
  rw [exec_modifyEndpoint]
  exact ⟨rfl, core.session_update myself hFactory hPolicy, id⟩

theorem read_undisturbed
    {PROTO : Type}
    (parse : Wire → Option PROTO)
    (data : Wire) :
    Keeps Undisturbed (read parse data : CoreM E PROTO) := by
  unfold read
  cases parse data with
  | none => exact Keeps.throw _
  | some proto => exact Keeps.pure _

theorem karmaPerform_undisturbed
    (myself : E)
    (action : String) :
    Keeps Undisturbed (karmaPerform myself action) := by
  intro core
  cases hEndpoint : core.endpoints myself with
  | none =>
      unfold karmaPerform getEndpoint
      simp only [Fallible.exec_bind, Fallible.exec_get,
        hEndpoint, exec_crash]
      exact ⟨rfl, rfl, id⟩
  | some endpoint =>
      rw [exec_karmaPerform hEndpoint]
      refine ⟨rfl, rfl, fun hNever => ?_⟩
      rcases hNever.perform endpoint.karma action with
        ⟨granted, policy, hPerform, hAfter⟩
      rw [hPerform]
      exact hAfter

end CoreM

------------------------------------------------------------
-- Messages of Agents That Are Logged In
------------------------------------------------------------

namespace AgentToAgentMessageTask

open Fallible (Keeps)
open MtCore (Undisturbed)

variable {E : Type}

theorem construct_undisturbed
    (sourceAgent : Option (Agent E))
    (messageId : Int)
    (pb : AgentMessage)
    (agents : Agents E) :
    Keeps Undisturbed
      (construct sourceAgent messageId pb agents) := by
  unfold construct
  simp only
  split
  · exact CoreM.crash_undisturbed
  · exact Keeps.pure _
  · exact Keeps.pure _

end AgentToAgentMessageTask

namespace OefFunctionsTaskFactory

open Fallible (Keeps)
open MtCore (Undisturbed)

variable {E : Type} [DecidableEq E]

/- A request that karma is charged for. -/
omit [DecidableEq E] in
theorem request_undisturbed
    {α : Type}
    (myself : E)
    (action : String)
    {body : CoreM E α}
    (hBody : Keeps Undisturbed body) :
    Keeps Undisturbed (do
      let _ ← CoreM.karmaPerform myself action
      body) :=
  Keeps.bind (CoreM.karmaPerform_undisturbed myself action)
    fun _ => hBody

theorem dispatch_undisturbed
    (self : OefFunctionsTaskFactory)
    (myself : E)
    (uri : URI)
    (envelope : Envelope) :
    Keeps Undisturbed
      (self.dispatch myself uri envelope) := by
  unfold dispatch
  cases envelope.payload with
  | pong =>
      exact CoreM.modifyEndpoint_undisturbed myself
        (fun _ => rfl) (fun _ => rfl)
  | sendMessage message =>
      refine request_undisturbed _ _
        (Keeps.bind Keeps.get fun core => ?_)
      exact Keeps.bind
        (AgentToAgentMessageTask.construct_undisturbed _ _ _ _)
        fun _ => CoreM.submit_undisturbed _
  | notSet =>
      exact request_undisturbed _ _ (Keeps.throw _)
  | registerService | unregisterService
  | registerDescription | unregisterDescription
  | searchServices | searchServicesWide | searchAgents =>
      exact request_undisturbed _ _
        (CoreM.submit_undisturbed _)

/- No message to the functions touches the registry. -/
theorem processMessage_undisturbed
    (self : OefFunctionsTaskFactory)
    (protos : AgentProtos)
    (myself : E)
    (data : Wire) :
    Keeps Undisturbed
      (self.processMessage protos myself data) := by
  unfold processMessage
  refine Keeps.bind (CoreM.read_undisturbed _ _)
    fun envelope => ?_
  refine Keeps.tryCatch (dispatch_undisturbed _ _ _ _)
    fun thrown => ?_
  cases thrown with
  | error reason => exact CoreM.submit_undisturbed _
  | karma action => exact CoreM.submit_undisturbed _
  | disconnect | invalidArgument | outOfRange | standard
  | nullPointer => exact Keeps.throw _

end OefFunctionsTaskFactory

------------------------------------------------------------
-- The Handshake
------------------------------------------------------------

namespace CoreM

variable {E : Type}

open MtCore (Undisturbed)

/- Karma that never rejects lets a charge pass. -/
theorem karmaPerform_passes
    {core : MtCore E}
    (hNever : core.karmaPolicy.NeverRejects)
    {myself : E}
    {stage : Option IOefAgentTaskFactory × Bool}
    (hSession : core.session myself = some stage)
    (action : String) :
    ∃ granted after,
      (karmaPerform myself action).exec core =
        (.ok granted, after) ∧
        Undisturbed core after := by
  rcases MtCore.exists_endpoint hSession with
    ⟨endpoint, hEndpoint, -⟩
  rcases hNever.perform endpoint.karma action with
    ⟨granted, policy, hPerform, -⟩
  refine ⟨granted,
    (karmaPerform_undisturbed myself action).exists_exec ?_⟩
  rw [exec_karmaPerform hEndpoint, hPerform]

/- The connection is given a factory. -/
theorem exec_setFactory
    [DecidableEq E]
    {core : MtCore E}
    {myself : E}
    {stage : Option IOefAgentTaskFactory × Bool}
    (hSession : core.session myself = some stage)
    (factory : Option IOefAgentTaskFactory) :
    ∃ after,
      (modifyEndpoint myself fun endpoint =>
        { endpoint with factory := factory }).exec core =
          (.ok (), after) ∧
        after.agents = core.agents ∧
        after.session =
          Function.update core.session myself
            (some (factory, stage.2)) ∧
        after.karmaPolicy = core.karmaPolicy := by
  rcases MtCore.exists_endpoint hSession with
    ⟨endpoint, hEndpoint, -, hPolicy⟩
  refine ⟨_, exec_modifyEndpoint myself _ core, rfl, ?_, rfl⟩
  rw [MtCore.session_of_update
    (by rw [hEndpoint, Option.map_some]), hPolicy]

end CoreM

namespace InitialHandshakeTaskFactory

variable {E : Type} [DecidableEq E]
variable {core : MtCore E} {myself : E}
variable {factory : Option IOefAgentTaskFactory}

/- An agent names its key. -/
theorem exec_processAgentServerID
    (self : InitialHandshakeTaskFactory)
    {protos : AgentProtos}
    {data : Wire}
    {id : AgentServerID}
    (hParse : protos.agentServerID data = some id)
    (hNever : core.karmaPolicy.NeverRejects)
    (hSession : core.session myself = some (factory, true)) :
    ∃ after,
      (self.processAgentServerID protos myself data).exec
          core = (.ok (), after) ∧
        after.agents = core.agents ∧
        after.session =
          Function.update core.session myself
            (some
              (some (.initialHandshake
                { self with
                  publicKey := id.publicKey
                  state := .waitingForAgentServerAnswer }),
                true)) ∧
        after.karmaPolicy.NeverRejects := by
  rcases MtCore.exists_endpoint hSession with
    ⟨endpoint, hEndpoint, -, hPolicy⟩
  refine ⟨_, exec_processAgentServerID_ok hParse hEndpoint,
    rfl, ?_, hNever⟩
  rw [MtCore.session_of_update rfl, hPolicy]

/-
  A login under karma that never rejects: the agent is
  registered, and its connection goes on to the functions.
-/
theorem exec_processAgentServerAnswer
    (self : InitialHandshakeTaskFactory)
    {protos : AgentProtos}
    {data : Wire}
    {answer : AgentServerAnswer}
    (hParse : protos.agentServerAnswer data = some answer)
    (hNever : core.karmaPolicy.NeverRejects)
    (hSession : core.session myself = some (factory, true)) :
    ∃ after,
      (self.processAgentServerAnswer protos myself data).exec
          core = (.ok (), after) ∧
        after.agents = core.agents.add self.publicKey myself ∧
        after.session =
          Function.update core.session myself
            (some
              (some (.oefFunctions
                { agentPublicKey := self.publicKey
                  coreKey := self.coreKey }), true)) ∧
        after.karmaPolicy.NeverRejects := by
  rcases MtCore.exists_endpoint hSession with
    ⟨endpoint, hEndpoint, -, hPolicy⟩
  have hUpgraded :
      (self.upgraded core endpoint).1.hasPolicy = true :=
    core.karmaPolicy.upgrade_hasPolicy hPolicy _ _
  have hUpgradedNever :
      (self.upgraded core endpoint).2.NeverRejects :=
    hNever.upgrade _ _ _
  rcases hUpgradedNever.perform
      (self.upgraded core endpoint).1 "login" with
    ⟨granted, policy, hLogin, hPolicyNever⟩
  refine ⟨_,
    exec_processAgentServerAnswer_ok hParse hEndpoint hPolicy
      hLogin,
    rfl, ?_, hPolicyNever⟩
  rw [MtCore.session_of_update rfl]
  unfold answered
  rw [hUpgraded]

/- The handshake in its first state. -/
theorem exec_processMessage_id
    {self : InitialHandshakeTaskFactory}
    (hState : self.state = .waitingForAgentServerID)
    (protos : AgentProtos)
    (data : Wire)
    (hNever : core.karmaPolicy.NeverRejects)
    (hSession : core.session myself = some (factory, true)) :
    (∃ outcome,
        (self.processMessage protos myself data).exec core =
          (outcome, core)) ∨
      ∃ after moved,
        (self.processMessage protos myself data).exec core =
            (.ok (), after) ∧
          after.agents = core.agents ∧
          after.session =
            Function.update core.session myself
              (some (some (.initialHandshake moved), true)) ∧
          after.karmaPolicy.NeverRejects := by
  unfold processMessage
  rw [Fallible.exec_tryCatch]
  simp only [hState]
  cases hParse : protos.agentServerID data with
  | none =>
      left
      unfold processAgentServerID
      rw [Fallible.exec_bind_error
        (CoreM.exec_read_none hParse core)]
      exact ⟨_, rfl⟩
  | some id =>
      right
      rcases exec_processAgentServerID self hParse hNever
          hSession with
        ⟨after, hExec, hAgents, hStage, hAfter⟩
      rw [hExec]
      exact ⟨after, _, rfl, hAgents, hStage, hAfter⟩

theorem exec_processMessage_answer
    {self : InitialHandshakeTaskFactory}
    (hState : self.state = .waitingForAgentServerAnswer)
    {protos : AgentProtos}
    {data : Wire}
    {answer : AgentServerAnswer}
    (hParse : protos.agentServerAnswer data = some answer)
    (hNever : core.karmaPolicy.NeverRejects)
    (hSession : core.session myself = some (factory, true)) :
    ∃ after,
      (self.processMessage protos myself data).exec core =
          (.ok (), after) ∧
        after.agents = core.agents.add self.publicKey myself ∧
        after.session =
          Function.update core.session myself
            (some
              (some (.oefFunctions
                { agentPublicKey := self.publicKey
                  coreKey := self.coreKey }), true)) ∧
        after.karmaPolicy.NeverRejects := by
  rcases exec_processAgentServerAnswer self hParse hNever
      hSession with
    ⟨after, hExec, hAfter⟩
  exact ⟨after, exec_processMessage_ok hState hExec, hAfter⟩

end InitialHandshakeTaskFactory

------------------------------------------------------------
-- Handlers Under Karma That Never Rejects
------------------------------------------------------------

/- The agents that stay registered when a connection that has
   come as far as a factory is closed. -/
def IOefAgentTaskFactory.remaining
    {E : Type}
    (agents : Agents E) : IOefAgentTaskFactory → Agents E
  | .initialHandshake _ => agents
  | .oefFunctions factory => agents.remove factory.agentPublicKey

namespace OefAgentEndpoint

open MtCore (Undisturbed)

variable {E : Type} [DecidableEq E]
variable {core : MtCore E} {myself : E}
variable {factory : IOefAgentTaskFactory}

omit [DecidableEq E] in
theorem exec_endpointClosed
    (factory : IOefAgentTaskFactory)
    (myself : E)
    (core : MtCore E) :
    ∃ after,
      (factory.endpointClosed myself).exec core =
        (.ok (), after) ∧
        after.agents = factory.remaining core.agents ∧
        after.session = core.session ∧
        after.karmaPolicy = core.karmaPolicy := by
  cases factory with
  | initialHandshake factory =>
      exact ⟨core, rfl, rfl, rfl, rfl⟩
  | oefFunctions factory =>
      exact ⟨_, rfl, rfl, rfl, rfl⟩

/- A close handler takes the factory off its connection. -/
theorem closeHandler_passes
    (hNever : core.karmaPolicy.NeverRejects)
    (hSession : core.session myself = some (some factory, true))
    (event : String) :
    ∃ after,
      (closeHandler event myself).exec core =
        (.ok (), after) ∧
        after.agents = factory.remaining core.agents ∧
        after.session =
          Function.update core.session myself
            (some (none, true)) ∧
        after.karmaPolicy.NeverRejects := by
  rcases MtCore.exists_endpoint hSession with
    ⟨endpoint, hEndpoint, hFactory, -⟩
  rcases CoreM.karmaPerform_passes hNever hSession event with
    ⟨granted, charged, hCharge, hSame⟩
  rcases exec_endpointClosed factory myself charged with
    ⟨left, hLeft, hAgents, hStage, hKarma⟩
  have hLeftSession :
      left.session myself = some (some factory, true) := by
    rw [hStage, hSame.session_eq, hSession]
  rcases CoreM.exec_setFactory hLeftSession none with
    ⟨after, hExec, hAgents', hStage', hKarma'⟩
  refine ⟨{ after with
      poolCalls :=
        after.poolCalls ++ [.cancelTaskGroup endpoint.ident] },
    ?_, ?_, ?_, ?_⟩
  · unfold closeHandler
    rw [exec_withLock hEndpoint, Fallible.exec_bind_ok hCharge]
    simp only [hFactory]
    rw [Fallible.exec_bind_ok hLeft,
      Fallible.exec_bind_ok hExec,
      CoreM.exec_cancelTaskGroup]
  · exact hAgents'.trans (by rw [hAgents, hSame.agents_eq])
  · exact hStage'.trans (by rw [hStage, hSame.session_eq])
  · change after.karmaPolicy.NeverRejects
    rw [hKarma', hKarma]
    exact hSame.never hNever

/- A message goes to the factory of its connection. -/
theorem onCompleteHandler_passes
    (hNever : core.karmaPolicy.NeverRejects)
    (hSession : core.session myself = some (some factory, true))
    (protos : AgentProtos)
    (data : Wire) :
    ∃ heard,
      (onCompleteHandler protos myself data).exec core =
          (factory.processMessage protos myself data).exec
            heard ∧
        Undisturbed core heard := by
  rcases MtCore.exists_endpoint hSession with
    ⟨endpoint, hEndpoint, hFactory, -⟩
  rcases CoreM.karmaPerform_passes hNever hSession "message"
    with ⟨granted, charged, hCharge, hSame⟩
  refine ⟨{ charged with threadGroupId := endpoint.ident },
    ?_, hSame.agents_eq, hSame.session_eq, hSame.never⟩
  unfold onCompleteHandler
  rw [exec_withLock hEndpoint, Fallible.exec_bind_ok hCharge,
    Fallible.exec_bind_ok (Fallible.exec_modify _ _)]
  simp only [hFactory]

/- Without a factory there is nothing to hand a message to. -/
theorem onCompleteHandler_of_closed
    {hasPolicy : Bool}
    (hSession : core.session myself = some (none, hasPolicy))
    (protos : AgentProtos)
    (data : Wire) :
    Undisturbed core
      ((onCompleteHandler protos myself data).exec core).2 := by
  rcases MtCore.exists_endpoint hSession with
    ⟨endpoint, hEndpoint, hFactory, -⟩
  unfold onCompleteHandler
  rw [exec_withLock hEndpoint]
  simp only [hFactory]
  refine Fallible.Keeps.bind
    (CoreM.karmaPerform_undisturbed myself "message")
    (fun _ => ?_) core
  exact Fallible.Keeps.bind
    (Fallible.Keeps.modify fun _ => ⟨rfl, rfl, id⟩)
    fun _ => CoreM.crash_undisturbed

/- A connection that was just made is given an account. -/
theorem onStartHandler_passes
    (hNever : core.karmaPolicy.NeverRejects)
    {endpoint : OefAgentEndpoint}
    (hEndpoint : core.endpoints myself = some endpoint) :
    ∃ after,
      (onStartHandler myself).exec core = (.ok (), after) ∧
        after.agents = core.agents ∧
        after.session =
          Function.update core.session myself
            (some (endpoint.factory, true)) ∧
        after.karmaPolicy.NeverRejects := by
  let known : MtCore E :=
    { core with
      karmaPolicy :=
        (core.karmaPolicy.getAccount endpoint.remoteId "").2
      endpoints :=
        Function.update core.endpoints myself
          (some
            { endpoint with
              karma :=
                (core.karmaPolicy.getAccount
                  endpoint.remoteId "").1 }) }
  have hKnown :
      known.session =
        Function.update core.session myself
          (some (endpoint.factory, true)) := by
    rw [MtCore.session_of_update rfl,
      KarmaPolicy.getAccount_hasPolicy]
  have hStage :
      known.session myself = some (endpoint.factory, true) := by
    rw [hKnown, Function.update_self]
  rcases CoreM.karmaPerform_passes
      (hNever.getAccount endpoint.remoteId "") hStage "login"
    with ⟨granted, after, hCharge, hSame⟩
  refine ⟨after, ?_, hSame.agents_eq,
    hSame.session_eq.trans hKnown,
    hSame.never (hNever.getAccount _ _)⟩
  unfold onStartHandler
  rw [exec_withLock hEndpoint,
    Fallible.exec_bind_ok (Fallible.exec_get core),
    Fallible.exec_bind_ok (Fallible.exec_set _ _),
    Fallible.exec_bind_ok (CoreM.exec_modifyEndpoint _ _ _)]
  simp only [hEndpoint, Option.map_some]
  rw [Fallible.exec_bind_ok hCharge]
  rfl

end OefAgentEndpoint

end OefCore
