import Mathlib.Data.List.Infix
import Mathlib.Tactic.Common
import OefCore.Agents.Sessions

/-
  Who stands behind what the core does: whatever karma refuses
  and however connections come and go, messages carry the key
  that their sender was let in with, and requests to search
  are made under that key.

  Main declarations:
    * `Provenance`, `Provenance.Vouched`, `Provenance.OfTask`
    * `Authentic`
    * `Sessions.Announces`, `Sessions.provenance`
    * `Sessions.authentic_run`
-/

namespace OefCore

open Fallible (Holds)

------------------------------------------------------------
-- Provenance
------------------------------------------------------------

/- The keys that connections have named in their handshakes,
   those that they were let in with, and the envelopes they
   have sent. -/
structure Provenance (E : Type) where
  named : E → String → Prop
  admitted : E → String → Prop
  asked : E → Envelope → Prop

namespace Provenance

variable {E : Type}

/-
  A message task rests on a message of a sender that was let
  in with the source key.  Its content goes to a connection
  that has named the key of the destination, and an error to
  one that has named the source key.
-/
structure Vouched
    (p : Provenance E)
    (task : AgentToAgentMessageTask E)
    (sender : E)
    (envelope : Envelope)
    (pb : AgentMessage) : Prop where
  asked : p.asked sender envelope
  payload : envelope.payload = .sendMessage pb
  admitted : p.admitted sender task.sourceKey
  named : p.named task.agent.endpoint task.agent.key
  told :
    let uri := ({} : URI).parseAgent pb.destination
    (task.agent.key = uri.agentKey ∧
        task.message =
          AgentToAgentMessageTask.createMessage envelope.msgId
            uri task.sourceKey pb) ∨
      (task.agent.key = task.sourceKey ∧
        task.message =
          AgentToAgentMessageTask.createDialogueError
            envelope.msgId pb)

/- A request of a connection that was let in, about an address
   of which the key is the one it was let in with. -/
def Requested
    (p : Provenance E)
    (endpoint : E)
    (msgId : Int)
    (address : URI) : Prop :=
  p.admitted endpoint address.agentKey ∧
    ∃ envelope, p.asked endpoint envelope ∧
      envelope.msgId = msgId

def OfTask (p : Provenance E) : Task E → Prop
  | .sendPhrase _ endpoint => ∃ key, p.named endpoint key
  | .sendConnected _ endpoint => ∃ key, p.named endpoint key
  | .heartbeat endpoint => ∃ key, p.admitted endpoint key
  | .sendMessage message endpoint =>
      ∃ address, p.Requested endpoint message.answerId address
  | .agentToAgent task =>
      ∃ sender envelope pb, p.Vouched task sender envelope pb
  | .searchUpdate _ endpoint msgId _ agentUri =>
      ∃ address, p.Requested endpoint msgId address ∧
        agentUri = address.agentPartAsString
  | .searchRemove _ endpoint msgId _ agentUri removeRow =>
      if removeRow then
        p.admitted endpoint agentUri
      else
        ∃ address, p.Requested endpoint msgId address ∧
          agentUri = address.agentPartAsString
  | .searchQuery _ endpoint msgId _ uri _ =>
      ∃ address, p.Requested endpoint msgId address ∧
        uri = address.toString

/- What a factory says of its connection. -/
def OfFactory
    (p : Provenance E)
    (myself : E) : Option IOefAgentTaskFactory → Prop
  | none => True
  | some (.initialHandshake factory) =>
      match factory.state with
      | .waitingForAgentServerID =>
          ∀ key, ¬ p.named myself key
      | .waitingForAgentServerAnswer =>
          p.named myself factory.publicKey
  | some (.oefFunctions factory) =>
      p.named myself factory.agentPublicKey ∧
        p.admitted myself factory.agentPublicKey

/- More is known, the longer a run is. -/
structure Grows (p q : Provenance E) : Prop where
  named :
    ∀ myself key, p.named myself key → q.named myself key
  admitted :
    ∀ myself key, p.admitted myself key →
      q.admitted myself key
  asked :
    ∀ myself envelope, p.asked myself envelope →
      q.asked myself envelope

section Grows

variable
  {p q : Provenance E}
  (hGrows : p.Grows q)

include hGrows

theorem Grows.vouched
    {task : AgentToAgentMessageTask E}
    {sender : E}
    {envelope : Envelope}
    {pb : AgentMessage}
    (hVouched : p.Vouched task sender envelope pb) :
    q.Vouched task sender envelope pb where
  asked := hGrows.asked _ _ hVouched.asked
  payload := hVouched.payload
  admitted := hGrows.admitted _ _ hVouched.admitted
  named := hGrows.named _ _ hVouched.named
  told := hVouched.told

theorem Grows.requested
    {endpoint : E}
    {msgId : Int}
    {address : URI}
    (hRequested : p.Requested endpoint msgId address) :
    q.Requested endpoint msgId address := by
  obtain ⟨hAdmitted, envelope, hAsked, hId⟩ := hRequested
  exact ⟨hGrows.admitted _ _ hAdmitted, envelope,
    hGrows.asked _ _ hAsked, hId⟩

theorem Grows.ofTask
    {task : Task E}
    (hTask : p.OfTask task) :
    q.OfTask task := by
  cases task with
  | sendPhrase phrase endpoint | sendConnected status endpoint =>
      obtain ⟨key, hNamed⟩ := hTask
      exact ⟨key, hGrows.named _ _ hNamed⟩
  | heartbeat endpoint =>
      obtain ⟨key, hAdmitted⟩ := hTask
      exact ⟨key, hGrows.admitted _ _ hAdmitted⟩
  | sendMessage message endpoint =>
      obtain ⟨address, hRequested⟩ := hTask
      exact ⟨address, hGrows.requested hRequested⟩
  | agentToAgent task =>
      obtain ⟨sender, envelope, pb, hVouched⟩ := hTask
      exact ⟨sender, envelope, pb, hGrows.vouched hVouched⟩
  | searchUpdate initiator endpoint msgId coreKey agentUri =>
      obtain ⟨address, hRequested, hUri⟩ := hTask
      exact ⟨address, hGrows.requested hRequested, hUri⟩
  | searchRemove initiator endpoint msgId coreKey agentUri
      removeRow =>
      cases removeRow with
      | true => exact hGrows.admitted _ _ hTask
      | false =>
          obtain ⟨address, hRequested, hUri⟩ := hTask
          exact ⟨address, hGrows.requested hRequested, hUri⟩
  | searchQuery search endpoint msgId coreKey uri ttl =>
      obtain ⟨address, hRequested, hUri⟩ := hTask
      exact ⟨address, hGrows.requested hRequested, hUri⟩

/- As long as the connection has not named another key. -/
theorem Grows.ofFactory
    {myself : E}
    (hSame : ∀ key, q.named myself key → p.named myself key)
    {factory : Option IOefAgentTaskFactory}
    (hFactory : p.OfFactory myself factory) :
    q.OfFactory myself factory := by
  match factory with
  | none => trivial
  | some (.initialHandshake factory) =>
      unfold OfFactory at hFactory ⊢
      cases hState : factory.state with
      | waitingForAgentServerID =>
          simp only [hState] at hFactory ⊢
          exact fun key hNamed => hFactory key (hSame key hNamed)
      | waitingForAgentServerAnswer =>
          simp only [hState] at hFactory ⊢
          exact hGrows.named _ _ hFactory
  | some (.oefFunctions factory) =>
      exact ⟨hGrows.named _ _ hFactory.1,
        hGrows.admitted _ _ hFactory.2⟩

end Grows

end Provenance

------------------------------------------------------------
-- Authentic Cores
------------------------------------------------------------

/-
  What a core holds, and what it has asked for: connections
  are at the stage of what is known of them, agents are
  entered under keys that their connections have named, and
  tasks are vouched for.
-/
structure Authentic
    {E : Type}
    (p : Provenance E)
    (core : MtCore E) : Prop where
  absent :
    ∀ myself, core.endpoints myself = none →
      ∀ key, ¬ p.named myself key
  policies :
    ∀ myself endpoint, core.endpoints myself = some endpoint →
      endpoint.karma.hasPolicy = true
  factories :
    ∀ myself endpoint, core.endpoints myself = some endpoint →
      p.OfFactory myself endpoint.factory
  entries :
    ∀ key agent, core.agents.find key = some agent →
      agent.key = key ∧ p.named agent.endpoint key
  tasks :
    ∀ task group, .submit task group ∈ core.poolCalls →
      p.OfTask task

namespace Authentic

variable {E : Type}
variable {p : Provenance E}

/- What nothing of this depends on may change. -/
theorem congr
    {core after : MtCore E}
    (hCore : Authentic p core)
    (hEndpoints : after.endpoints = core.endpoints)
    (hAgents : after.agents = core.agents)
    (hCalls : after.poolCalls = core.poolCalls) :
    Authentic p after where
  absent := by
    rw [hEndpoints]
    exact hCore.absent
  policies := by
    rw [hEndpoints]
    exact hCore.policies
  factories := by
    rw [hEndpoints]
    exact hCore.factories
  entries := by
    rw [hAgents]
    exact hCore.entries
  tasks := by
    rw [hCalls]
    exact hCore.tasks

/- One more call of the task pool. -/
theorem called
    {core : MtCore E}
    (hCore : Authentic p core)
    {call : PoolCall E}
    (hCall : ∀ task group, call = .submit task group →
      p.OfTask task) :
    Authentic p
      { core with poolCalls := core.poolCalls ++ [call] } where
  absent := hCore.absent
  policies := hCore.policies
  factories := hCore.factories
  entries := hCore.entries
  tasks := by
    intro task group hMem
    rcases List.mem_append.mp hMem with hOld | hNew
    · exact hCore.tasks task group hOld
    · exact hCall task group (List.mem_singleton.mp hNew).symm

/- Another connection record. -/
theorem updated
    [DecidableEq E]
    {core : MtCore E}
    (hCore : Authentic p core)
    (myself : E)
    {f : OefAgentEndpoint → OefAgentEndpoint}
    (hPolicy : ∀ endpoint, endpoint.karma.hasPolicy = true →
      (f endpoint).karma.hasPolicy = true)
    (hFactory : ∀ endpoint,
      p.OfFactory myself endpoint.factory →
        p.OfFactory myself (f endpoint).factory) :
    Authentic p
      { core with
        endpoints :=
          Function.update core.endpoints myself
            ((core.endpoints myself).map f) } := by
  have hUpdated :
      ∀ other endpoint,
        Function.update core.endpoints myself
              ((core.endpoints myself).map f) other =
            some endpoint →
          endpoint.karma.hasPolicy = true ∧
            p.OfFactory other endpoint.factory := by
    intro other endpoint hOther
    by_cases hSame : other = myself
    · subst hSame
      rw [Function.update_self, Option.map_eq_some_iff]
        at hOther
      obtain ⟨old, hOld, rfl⟩ := hOther
      exact ⟨hPolicy old (hCore.policies _ _ hOld),
        hFactory old (hCore.factories _ _ hOld)⟩
    · rw [Function.update_of_ne hSame] at hOther
      exact ⟨hCore.policies _ _ hOther,
        hCore.factories _ _ hOther⟩
  exact
    { absent := by
        intro other hOther
        refine hCore.absent other ?_
        by_cases hSame : other = myself
        · subst hSame
          simpa using hOther
        · simpa [hSame] using hOther
      policies := fun other endpoint hOther =>
        (hUpdated other endpoint hOther).1
      factories := fun other endpoint hOther =>
        (hUpdated other endpoint hOther).2
      entries := hCore.entries
      tasks := hCore.tasks }

/- An agent is entered under a key that it has named. -/
theorem entered
    {core : MtCore E}
    (hCore : Authentic p core)
    {myself : E}
    {key : String}
    (hNamed : p.named myself key) :
    Authentic p
      { core with agents := core.agents.add key myself } where
  absent := hCore.absent
  policies := hCore.policies
  factories := hCore.factories
  entries := by
    intro other agent hFind
    by_cases hKey : other = key
    · subst hKey
      rw [Agents.find_add_self] at hFind
      cases hFind
      exact ⟨rfl, hNamed⟩
    · rw [Agents.find_add_of_ne _ hKey] at hFind
      exact hCore.entries other agent hFind
  tasks := hCore.tasks

theorem removed
    {core : MtCore E}
    (hCore : Authentic p core)
    (key : String) :
    Authentic p
      { core with agents := core.agents.remove key } where
  absent := hCore.absent
  policies := hCore.policies
  factories := hCore.factories
  entries := by
    intro other agent hFind
    by_cases hKey : other = key
    · rw [hKey, Agents.find_remove_self] at hFind
      cases hFind
    · rw [Agents.find_remove_of_ne _ hKey] at hFind
      exact hCore.entries other agent hFind
  tasks := hCore.tasks

/- What is known may grow, but for the names of connections
   that are there. -/
theorem grow
    {q : Provenance E}
    {core : MtCore E}
    (hCore : Authentic p core)
    (hGrows : p.Grows q)
    (hSame : ∀ myself key, q.named myself key →
      p.named myself key) :
    Authentic q core where
  absent := fun myself hAbsent key hNamed =>
    hCore.absent myself hAbsent key (hSame _ _ hNamed)
  policies := hCore.policies
  factories := fun myself endpoint hEndpoint =>
    hGrows.ofFactory (hSame myself)
      (hCore.factories myself endpoint hEndpoint)
  entries := fun key agent hFind =>
    ⟨(hCore.entries key agent hFind).1,
      hGrows.named _ _ (hCore.entries key agent hFind).2⟩
  tasks := fun task group hMem =>
    hGrows.ofTask (hCore.tasks task group hMem)

end Authentic

------------------------------------------------------------
-- Handlers
------------------------------------------------------------

variable {E : Type}
variable {p : Provenance E}

namespace CoreM

theorem crash_holds
    {α : Type}
    {Q : α → Prop} :
    Holds (Authentic p) (crash : CoreM E α) Q := by
  refine Holds.bind (Holds.modify (fun core hCore => ?_) trivial)
    fun (_ : PUnit) (_ : True) => Holds.throw _
  exact hCore.congr rfl rfl rfl

theorem submit_holds
    {task : Task E}
    (hTask : p.OfTask task) :
    Holds (Authentic p) (submit task) fun _ => True := by
  refine Holds.modify (fun core hCore => ?_) trivial
  refine hCore.called fun other group hCall => ?_
  cases hCall
  exact hTask

theorem submitInGroup_holds
    {task : Task E}
    (hTask : p.OfTask task)
    (group : Nat) :
    Holds (Authentic p) (submitInGroup task group)
      fun _ => True := by
  refine Holds.modify (fun core hCore => ?_) trivial
  refine hCore.called fun other group hCall => ?_
  cases hCall
  exact hTask

theorem cancelTaskGroup_holds (group : Nat) :
    Holds (Authentic p) (cancelTaskGroup group : CoreM E Unit)
      fun _ => True := by
  refine Holds.modify (fun core hCore => ?_) trivial
  exact hCore.called fun other group hCall => by cases hCall

theorem modifyEndpoint_holds
    [DecidableEq E]
    (myself : E)
    {f : OefAgentEndpoint → OefAgentEndpoint}
    (hPolicy : ∀ endpoint, endpoint.karma.hasPolicy = true →
      (f endpoint).karma.hasPolicy = true)
    (hFactory : ∀ endpoint,
      p.OfFactory myself endpoint.factory →
        p.OfFactory myself (f endpoint).factory) :
    Holds (Authentic p) (modifyEndpoint myself f)
      fun _ => True := by
  refine Holds.modify (fun core hCore => ?_) trivial
  exact hCore.updated myself hPolicy hFactory

theorem read_holds
    {PROTO : Type}
    (parse : Wire → Option PROTO)
    (data : Wire) :
    Holds (Authentic p) (read parse data : CoreM E PROTO)
      fun proto => parse data = some proto := by
  unfold read
  cases hParse : parse data with
  | none => exact Holds.throw _
  | some proto => exact Holds.pure rfl

theorem karmaPerform_holds
    (myself : E)
    (action : String) :
    Holds (Authentic p) (karmaPerform myself action)
      fun _ => True := by
  intro core hCore
  cases hEndpoint : core.endpoints myself with
  | none =>
      unfold karmaPerform getEndpoint
      simp only [Fallible.exec_bind, Fallible.exec_get,
        hEndpoint, exec_crash]
      exact ⟨hCore.congr rfl rfl rfl, fun _ _ => trivial⟩
  | some endpoint =>
      rw [exec_karmaPerform hEndpoint]
      exact ⟨hCore.congr rfl rfl rfl, fun _ _ => trivial⟩

/- What karma is charged for. -/
theorem charged_holds
    {α : Type}
    {Q : α → Prop}
    (myself : E)
    (action : String)
    {body : CoreM E α}
    (hBody : Holds (Authentic p) body Q) :
    Holds (Authentic p)
      (do
        let _ ← karmaPerform myself action
        body) Q :=
  Holds.bind (karmaPerform_holds myself action)
    fun _ _ => hBody

end CoreM

/- A message is carried for an agent that is entered under a
   key with which the connection was let in. -/
theorem AgentToAgentMessageTask.construct_holds
    {core : MtCore E}
    (hCore : Authentic p core)
    {myself : E}
    {key : String}
    (hAdmitted : p.admitted myself key)
    {envelope : Envelope}
    (hAsked : p.asked myself envelope)
    {pb : AgentMessage}
    (hPayload : envelope.payload = .sendMessage pb) :
    Holds (Authentic p)
      (construct (core.agents.find key) envelope.msgId pb
        core.agents)
      fun task => p.Vouched task myself envelope pb := by
  unfold construct
  simp only
  split
  · exact CoreM.crash_holds
  · next hUnknown source hSource =>
      have hEntry := hCore.entries key _ hSource
      exact Holds.pure
        { asked := hAsked
          payload := hPayload
          admitted := by
            rw [hEntry.1]
            exact hAdmitted
          named := by
            rw [hEntry.1]
            exact hEntry.2
          told := .inr ⟨rfl, rfl⟩ }
  · next agent source hAgent hSource =>
      have hEntry := hCore.entries key _ hSource
      have hFound := hCore.entries _ _ hAgent
      exact Holds.pure
        { asked := hAsked
          payload := hPayload
          admitted := by
            rw [hEntry.1]
            exact hAdmitted
          named := by
            rw [hFound.1]
            exact hFound.2
          told := .inl ⟨hFound.1, rfl⟩ }

section Functions

variable [DecidableEq E]
variable {myself : E}

namespace OefFunctionsTaskFactory

theorem dispatch_holds
    {self : OefFunctionsTaskFactory}
    (hSelf : p.admitted myself self.agentPublicKey)
    {uri : URI}
    (hUri : uri.agentKey = self.agentPublicKey)
    {envelope : Envelope}
    (hAsked : p.asked myself envelope) :
    Holds (Authentic p) (self.dispatch myself uri envelope)
      fun _ => True := by
  have hRequested :
      p.Requested myself envelope.msgId uri :=
    ⟨hUri ▸ hSelf, envelope, hAsked, rfl⟩
  unfold dispatch
  cases hPayload : envelope.payload with
  | pong =>
      exact CoreM.modifyEndpoint_holds myself
        (fun _ hPolicy => hPolicy) (fun _ hFactory => hFactory)
  | sendMessage message =>
      refine CoreM.charged_holds _ _
        (Holds.bind Holds.get fun core hCore => ?_)
      refine Holds.bind
        (AgentToAgentMessageTask.construct_holds hCore hSelf
          hAsked hPayload) fun task hTask => ?_
      exact CoreM.submit_holds ⟨myself, envelope, message, hTask⟩
  | notSet => exact CoreM.charged_holds _ _ (Holds.throw _)
  | registerService | unregisterService | registerDescription
  | unregisterDescription | searchAgents | searchServices
  | searchServicesWide =>
      exact CoreM.charged_holds _ _
        (CoreM.submit_holds ⟨uri, hRequested, rfl⟩)

theorem processMessage_holds
    {self : OefFunctionsTaskFactory}
    (hSelf : p.admitted myself self.agentPublicKey)
    {protos : AgentProtos}
    {data : Wire}
    (hAsked : ∀ envelope, protos.envelope data = some envelope →
      p.asked myself envelope) :
    Holds (Authentic p) (self.processMessage protos myself data)
      fun _ => True := by
  unfold processMessage
  refine Holds.bind (CoreM.read_holds _ _)
    fun envelope hParse => ?_
  refine Holds.tryCatch
    (dispatch_holds hSelf rfl (hAsked envelope hParse))
    fun thrown => ?_
  have hAnswer (cause : String) (thrown : Exception) :
      p.OfTask
        (.sendMessage (errorResponse envelope cause thrown)
          myself) :=
    ⟨{ agentKey := self.agentPublicKey }, hSelf, envelope,
      hAsked envelope hParse, rfl⟩
  cases thrown with
  | error reason => exact CoreM.submit_holds (hAnswer _ _)
  | karma action => exact CoreM.submit_holds (hAnswer _ _)
  | disconnect | invalidArgument | outOfRange | standard
  | nullPointer => exact Holds.throw _

end OefFunctionsTaskFactory

omit [DecidableEq E] in
theorem IOefAgentTaskFactory.endpointClosed_holds
    {factory : IOefAgentTaskFactory}
    (hFactory : p.OfFactory myself (some factory)) :
    Holds (Authentic p) (factory.endpointClosed myself)
      fun _ => True := by
  cases factory with
  | initialHandshake factory => exact Holds.pure trivial
  | oefFunctions factory =>
      refine Holds.bind (Holds.modify
        (fun core hCore => hCore.removed _) trivial)
        fun (_ : PUnit) (_ : True) => ?_
      refine Holds.bind Holds.get fun core hCore => ?_
      refine CoreM.submitInGroup_holds ?_ 0
      simpa [Provenance.OfTask] using hFactory.2

omit [DecidableEq E] in
theorem OefAgentEndpoint.withLock_holds
    (myself : E)
    {body : OefAgentEndpoint → CoreM E Unit}
    (hBody : ∀ endpoint, endpoint.karma.hasPolicy = true →
      p.OfFactory myself endpoint.factory →
        Holds (Authentic p) (body endpoint) fun _ => True) :
    Holds (Authentic p) (withLock myself body)
      fun _ => True := by
  unfold withLock
  refine Holds.bind Holds.get fun core hCore => ?_
  cases hEndpoint : core.endpoints myself with
  | none => exact Holds.pure trivial
  | some endpoint =>
      exact hBody endpoint (hCore.policies _ _ hEndpoint)
        (hCore.factories _ _ hEndpoint)

theorem OefAgentEndpoint.closeHandler_holds
    (event : String)
    (myself : E) :
    Holds (Authentic p) (closeHandler event myself)
      fun _ => True := by
  refine withLock_holds myself fun endpoint hPolicy hFactory =>
    CoreM.charged_holds _ _ ?_
  have hReleased :
      Holds (Authentic p)
        (do
          CoreM.modifyEndpoint myself fun endpoint =>
            { endpoint with factory := none }
          CoreM.cancelTaskGroup endpoint.ident)
        fun _ => True :=
    Holds.bind (CoreM.modifyEndpoint_holds myself
      (fun _ hPolicy => hPolicy) fun _ _ => trivial)
      fun _ _ => CoreM.cancelTaskGroup_holds _
  cases hSome : endpoint.factory with
  | none =>
      simp only
      exact Holds.bind CoreM.crash_holds
        fun _ (_ : True) => hReleased
  | some factory =>
      rw [hSome] at hFactory
      simp only
      exact Holds.bind (factory.endpointClosed_holds hFactory)
        fun _ _ => hReleased

/- A message that goes to the functions, or nowhere. -/
theorem OefAgentEndpoint.onCompleteHandler_holds
    {protos : AgentProtos}
    {core : MtCore E}
    (hCore : Authentic p core)
    (hLoggedIn : ∀ endpoint, core.endpoints myself = some endpoint →
      ∀ factory, endpoint.factory ≠ some (.initialHandshake factory))
    {data : Wire}
    (hAsked : ∀ envelope, protos.envelope data = some envelope →
      p.asked myself envelope) :
    Authentic p
      ((onCompleteHandler protos myself data).exec core).2 := by
  cases hEndpoint : core.endpoints myself with
  | none =>
      unfold onCompleteHandler withLock
      rw [Fallible.exec_bind_ok (Fallible.exec_get core),
        hEndpoint]
      exact hCore
  | some endpoint =>
      have hFactory := hCore.factories _ _ hEndpoint
      unfold onCompleteHandler
      rw [exec_withLock hEndpoint]
      refine (CoreM.charged_holds (Q := fun _ => True) _ _
        (Holds.bind (Holds.modify
          (fun core hCore => hCore.congr rfl rfl rfl) trivial)
          fun (_ : PUnit) (_ : True) => ?_) core hCore).1
      cases hSome : endpoint.factory with
      | none => exact CoreM.crash_holds
      | some factory =>
          rw [hSome] at hFactory
          cases factory with
          | initialHandshake factory =>
              exact (hLoggedIn endpoint hEndpoint factory
                hSome).elim
          | oefFunctions factory =>
              exact factory.processMessage_holds hFactory.2
                hAsked

end Functions

------------------------------------------------------------
-- The Handshake
------------------------------------------------------------

section Handshake

variable [DecidableEq E]
variable {q : Provenance E}
variable {core : MtCore E}
variable {myself : E}

/-
  One connection record is another one; more may be known of
  its connection.
-/
theorem Authentic.moved
    (hCore : Authentic p core)
    (hGrows : p.Grows q)
    (hSame : ∀ other, other ≠ myself → ∀ key,
      q.named other key → p.named other key)
    {after : MtCore E}
    {endpoint : OefAgentEndpoint}
    (hEndpoints :
      after.endpoints =
        Function.update core.endpoints myself (some endpoint))
    (hPolicy : endpoint.karma.hasPolicy = true)
    (hFactory : q.OfFactory myself endpoint.factory)
    (hEntries : ∀ key agent,
      after.agents.find key = some agent →
        core.agents.find key = some agent ∨
          agent = ⟨key, myself⟩ ∧ q.named myself key)
    (hTasks : ∀ task group,
      .submit task group ∈ after.poolCalls →
        .submit task group ∈ core.poolCalls ∨ q.OfTask task) :
    Authentic q after := by
  have hUpdated :
      ∀ other record,
        after.endpoints other = some record →
          record.karma.hasPolicy = true ∧
            q.OfFactory other record.factory := by
    intro other record hOther
    rw [hEndpoints] at hOther
    by_cases hMyself : other = myself
    · subst hMyself
      rw [Function.update_self] at hOther
      cases hOther
      exact ⟨hPolicy, hFactory⟩
    · rw [Function.update_of_ne hMyself] at hOther
      exact ⟨hCore.policies _ _ hOther,
        hGrows.ofFactory (hSame other hMyself)
          (hCore.factories _ _ hOther)⟩
  exact
    { absent := by
        intro other hOther key hNamed
        rw [hEndpoints] at hOther
        by_cases hMyself : other = myself
        · subst hMyself
          simp at hOther
        · rw [Function.update_of_ne hMyself] at hOther
          exact hCore.absent other hOther key
            (hSame other hMyself key hNamed)
      policies := fun other record hOther =>
        (hUpdated other record hOther).1
      factories := fun other record hOther =>
        (hUpdated other record hOther).2
      entries := by
        intro key agent hFind
        rcases hEntries key agent hFind with hOld | ⟨rfl, hNamed⟩
        · have hEntry := hCore.entries key agent hOld
          exact ⟨hEntry.1, hGrows.named _ _ hEntry.2⟩
        · exact ⟨rfl, hNamed⟩
      tasks := by
        intro task group hMem
        rcases hTasks task group hMem with hOld | hNew
        · exact hGrows.ofTask (hCore.tasks task group hOld)
        · exact hNew }

namespace OefAgentEndpoint

/- A message that comes during the handshake. -/
theorem onCompleteHandler_handshake
    {endpoint : OefAgentEndpoint}
    (hEndpoint : core.endpoints myself = some endpoint)
    {self : InitialHandshakeTaskFactory}
    (hFactory : endpoint.factory = some (.initialHandshake self))
    (protos : AgentProtos)
    (data : Wire) :
    let performed :=
      endpoint.karma.perform core.karmaPolicy "message"
    let heard :=
      { core with
        karmaPolicy := performed.2
        threadGroupId := endpoint.ident }
    (onCompleteHandler protos myself data).exec core =
      match performed.1 with
      | .error thrown =>
          (.error thrown, { core with karmaPolicy := performed.2 })
      | .ok _ =>
          (self.processMessage protos myself data).exec heard := by
  intro performed heard
  have hPerform := CoreM.exec_karmaPerform hEndpoint "message"
  unfold onCompleteHandler
  rw [exec_withLock hEndpoint]
  cases hGranted : performed.1 with
  | error thrown =>
      rw [hGranted] at hPerform
      exact Fallible.exec_bind_error hPerform _
  | ok granted =>
      rw [hGranted] at hPerform
      rw [Fallible.exec_bind_ok hPerform,
        Fallible.exec_bind_ok (Fallible.exec_modify _ _)]
      simp only [hFactory]
      rfl

end OefAgentEndpoint

namespace InitialHandshakeTaskFactory

/- An id that does not parse. -/
theorem exec_processMessage_noId
    {self : InitialHandshakeTaskFactory}
    (hState : self.state = .waitingForAgentServerID)
    {protos : AgentProtos}
    {data : Wire}
    (hParse : protos.agentServerID data = none)
    (myself : E)
    (core : MtCore E) :
    (self.processMessage protos myself data).exec core =
      (.error .standard, core) := by
  unfold processMessage
  rw [Fallible.exec_tryCatch]
  simp only [hState]
  unfold processAgentServerID
  rw [Fallible.exec_bind_error
    (CoreM.exec_read_none hParse core)]
  rfl

/- A connection names its key. -/
theorem processMessage_names
    {self : InitialHandshakeTaskFactory}
    (hState : self.state = .waitingForAgentServerID)
    {protos : AgentProtos}
    {data : Wire}
    {id : AgentServerID}
    (hParse : protos.agentServerID data = some id)
    {endpoint : OefAgentEndpoint}
    (hEndpoint : core.endpoints myself = some endpoint)
    (hCore : Authentic p core)
    (hGrows : p.Grows q)
    (hSame : ∀ other, other ≠ myself → ∀ key,
      q.named other key → p.named other key)
    (hNamed : q.named myself id.publicKey) :
    Authentic q
      ((self.processMessage protos myself data).exec core).2 := by
  have hPolicy := hCore.policies _ _ hEndpoint
  have hExec :
      (self.processAgentServerID protos myself data).exec core =
        _ :=
    exec_processAgentServerID_ok hParse hEndpoint
  unfold processMessage
  rw [Fallible.exec_tryCatch]
  simp only [hState, hExec]
  refine hCore.moved hGrows hSame rfl hPolicy hNamed
    (fun key agent hFind => .inl hFind)
    fun task group hMem => ?_
  rcases List.mem_append.mp hMem with hOld | hNew
  · exact .inl hOld
  · cases List.mem_singleton.mp hNew
    exact .inr ⟨id.publicKey, hNamed⟩

/-
  A connection answers: it is let in or not, but it is
  entered under the key that it has named.
-/
theorem processMessage_answers
    {self : InitialHandshakeTaskFactory}
    (hState : self.state = .waitingForAgentServerAnswer)
    {protos : AgentProtos}
    {data : Wire}
    {endpoint : OefAgentEndpoint}
    (hEndpoint : core.endpoints myself = some endpoint)
    (hFactory : endpoint.factory = some (.initialHandshake self))
    (hCore : Authentic p core)
    (hAdmitted : ∀ after,
      (self.processMessage protos myself data).exec core =
          (.ok (), after) →
        (∃ endpoint, after.endpoints myself = some endpoint ∧
          endpoint.factory =
            some (.oefFunctions
              { agentPublicKey := self.publicKey
                coreKey := self.coreKey })) →
          p.admitted myself self.publicKey) :
    Authentic p
      ((self.processMessage protos myself data).exec core).2 := by
  have hPolicy := hCore.policies _ _ hEndpoint
  have hStage := hCore.factories _ _ hEndpoint
  have hNamed : p.named myself self.publicKey := by
    have hOf := hStage
    rw [hFactory] at hOf
    simpa only [Provenance.OfFactory, hState] using hOf
  cases hParse : protos.agentServerAnswer data with
  | none =>
      rw [exec_processMessage_noAnswer hState hParse]
      exact hCore
  | some answer =>
      have hEntries :
          ∀ key agent,
            (core.agents.add self.publicKey myself).find key =
                some agent →
              core.agents.find key = some agent ∨
                agent = ⟨key, myself⟩ ∧ p.named myself key := by
        intro key agent hFind
        by_cases hKey : key = self.publicKey
        · subst hKey
          rw [Agents.find_add_self] at hFind
          cases hFind
          exact .inr ⟨rfl, hNamed⟩
        · rw [Agents.find_add_of_ne _ hKey] at hFind
          exact .inl hFind
      have hUpgraded :
          (self.upgraded core endpoint).1.hasPolicy = true :=
        core.karmaPolicy.upgrade_hasPolicy hPolicy _ _
      have hGrows : p.Grows p := ⟨fun _ _ => id, fun _ _ => id,
        fun _ _ => id⟩
      cases hLogin :
          (self.upgraded core endpoint).1.perform
            (self.upgraded core endpoint).2 "login" with
      | mk outcome policy =>
          cases outcome with
          | error thrown =>
              have hExec := exec_processAgentServerAnswer_error
                hParse hEndpoint hPolicy hLogin
              obtain ⟨rethrown, hMessage⟩ :=
                exec_processMessage_error hState hExec
              rw [hMessage]
              refine hCore.moved hGrows (fun _ _ _ => id) rfl
                hUpgraded hStage hEntries
                fun task group hMem => ?_
              rcases List.mem_append.mp hMem with hOld | hNew
              · exact .inl hOld
              · cases List.mem_singleton.mp hNew
                exact .inr ⟨self.publicKey, hNamed⟩
          | ok granted =>
              have hExec := exec_processAgentServerAnswer_ok
                hParse hEndpoint hPolicy hLogin
              have hMessage := exec_processMessage_ok hState hExec
              have hLet := hAdmitted _ hMessage
                ⟨_, Function.update_self _ _ _, rfl⟩
              rw [hMessage]
              refine hCore.moved hGrows (fun _ _ _ => id) rfl
                hUpgraded ⟨hNamed, hLet⟩ hEntries
                fun task group hMem => ?_
              rcases List.mem_append.mp hMem with hBefore | hBeat
              · rcases List.mem_append.mp hBefore with
                  hOld | hNew
                · exact .inl hOld
                · cases List.mem_singleton.mp hNew
                  exact .inr ⟨self.publicKey, hNamed⟩
              · right
                split at hBeat
                · cases List.mem_singleton.mp hBeat
                  exact ⟨self.publicKey, hLet⟩
                · cases hBeat

end InitialHandshakeTaskFactory

end Handshake

------------------------------------------------------------
-- Runs
------------------------------------------------------------

namespace Sessions

variable [DecidableEq E]

/-
  The event is the id with which a connection names its key:
  its handshake waits for one, and karma lets the message
  through.
-/
def Announces
    (protos : AgentProtos)
    (s : Sessions E)
    (event : SessionEvent E)
    (myself : E)
    (key : String) : Prop :=
  ∃ data id endpoint factory granted,
    event = .message myself data ∧
      protos.agentServerID data = some id ∧
      id.publicKey = key ∧
      s.core.endpoints myself = some endpoint ∧
      endpoint.factory = some (.initialHandshake factory) ∧
      factory.state = .waitingForAgentServerID ∧
      (endpoint.karma.perform s.core.karmaPolicy
        "message").1 = .ok granted

/- What is known of connections after one more event. -/
def knownAfter
    (protos : AgentProtos)
    (p : Provenance E)
    (s : Sessions E)
    (event : SessionEvent E) : Provenance E where
  named myself key :=
    p.named myself key ∨ s.Announces protos event myself key
  admitted myself key :=
    p.admitted myself key ∨
      (s.step protos event).LoggedIn myself key
  asked myself envelope :=
    p.asked myself envelope ∨
      ∃ data, event = .message myself data ∧
        protos.envelope data = some envelope

/- What a run shows of its connections. -/
def provenance
    (protos : AgentProtos)
    (policy : KarmaPolicy)
    (drawn : Nat)
    (events : List (SessionEvent E)) : Provenance E where
  named myself key :=
    ∃ front event back, events = front ++ event :: back ∧
      ((start policy drawn).run protos front).Announces protos
        event myself key
  admitted myself key :=
    ∃ front event back, events = front ++ event :: back ∧
      (((start policy drawn).run protos front).step protos
        event).LoggedIn myself key
  asked myself envelope :=
    ∃ data, .message myself data ∈ events ∧
      protos.envelope data = some envelope

theorem provenance_snoc
    (protos : AgentProtos)
    (policy : KarmaPolicy)
    (drawn : Nat)
    (events : List (SessionEvent E))
    (event : SessionEvent E) :
    provenance protos policy drawn (events ++ [event]) =
      knownAfter protos (provenance protos policy drawn events)
        ((start policy drawn).run protos events) event := by
  unfold provenance knownAfter
  congr 1
  · funext myself key
    exact propext (Runs.exists_split_snoc
      (fun front event =>
        ((start policy drawn).run protos front).Announces
          protos event myself key) events event)
  · funext myself key
    exact propext (Runs.exists_split_snoc
      (fun front event =>
        (((start policy drawn).run protos front).step protos
          event).LoggedIn myself key) events event)
  · funext myself envelope
    simp only [List.mem_append, List.mem_singleton, or_and_right,
      exists_or, eq_comm]

section Step

variable {s : Sessions E}
variable {protos : AgentProtos}

theorem grows_knownAfter (event : SessionEvent E) :
    p.Grows (knownAfter protos p s event) where
  named _ _ := .inl
  admitted _ _ := .inl
  asked _ _ := .inl

theorem authentic_closeWith
    (hCore : Authentic p s.core)
    (myself : E)
    (notice : CloseNotice) :
    Authentic p (s.closeWith myself notice).core := by
  unfold closeWith
  split
  · exact hCore
  · exact (OefAgentEndpoint.closeHandler_holds
      notice.karmaEvent myself s.core hCore).1

/- The connection of a message is closed if its handler
   throws. -/
theorem authentic_message
    {myself : E}
    {data : Wire}
    (hCore : Authentic p
      ((OefAgentEndpoint.onCompleteHandler protos myself
        data).exec s.core).2) :
    Authentic p (s.step protos (.message myself data)).core := by
  unfold step
  simp only
  rcases hExec :
      (OefAgentEndpoint.onCompleteHandler protos myself
        data).exec s.core with ⟨outcome, core⟩
  rw [hExec] at hCore
  cases outcome with
  | ok done => exact hCore
  | error thrown => exact authentic_closeWith hCore myself _

/- Where no key is named, what was known still fits. -/
theorem authentic_unnamed
    (hCore : Authentic p s.core)
    {event : SessionEvent E}
    (hNone : ∀ myself key,
      ¬ s.Announces protos event myself key) :
    Authentic (knownAfter protos p s event) s.core :=
  hCore.grow (grows_knownAfter event) fun myself key hNamed =>
    hNamed.resolve_right (hNone myself key)

theorem authentic_connect
    (hCore : Authentic p s.core)
    (myself : E)
    (ident : Nat)
    (remoteId coreKey : String) :
    Authentic p
      (s.step protos
        (.connect myself ident remoteId coreKey)).core := by
  cases hEndpoint : s.core.endpoints myself with
  | some endpoint =>
      simp only [step, hEndpoint]
      exact hCore
  | none =>
      simp only [step, hEndpoint]
      unfold OefAgentEndpoint.onStartHandler
      rw [OefAgentEndpoint.exec_withLock
          (Function.update_self _ _ _),
        Fallible.exec_bind_ok (Fallible.exec_get _),
        Fallible.exec_bind_ok (Fallible.exec_set _ _),
        Fallible.exec_bind_ok (CoreM.exec_modifyEndpoint _ _ _)]
      have hFresh := hCore.absent myself hEndpoint
      refine (CoreM.charged_holds (Q := fun _ => True) myself
        "login" (Holds.pure trivial) _ ?_).1
      exact hCore.moved
        ⟨fun _ _ => id, fun _ _ => id, fun _ _ => id⟩
        (fun _ _ _ => id)
        (by
          simp only [Function.update_self, Option.map_some,
            Function.update_idem]
          rfl)
        (KarmaPolicy.getAccount_hasPolicy _ _ _)
        (by exact hFresh)
        (fun key agent hFind => .inl hFind)
        (fun task group hMem => .inl hMem)

omit [DecidableEq E] in
theorem Announces.inv
    {myself other : E}
    {data : Wire}
    {endpoint : OefAgentEndpoint}
    (hEndpoint : s.core.endpoints myself = some endpoint)
    {key : String}
    (hAnnounces :
      s.Announces protos (.message myself data) other key) :
    other = myself ∧
      ∃ id factory granted,
        protos.agentServerID data = some id ∧
          id.publicKey = key ∧
          endpoint.factory = some (.initialHandshake factory) ∧
          factory.state = .waitingForAgentServerID ∧
          (endpoint.karma.perform s.core.karmaPolicy
            "message").1 = .ok granted := by
  obtain ⟨data', id, endpoint', factory, granted, hEvent,
    hParse, hKey, hOther, hFactory, hState, hGranted⟩ :=
      hAnnounces
  cases hEvent
  rw [hEndpoint] at hOther
  cases hOther
  exact ⟨rfl, id, factory, granted, hParse, hKey, hFactory,
    hState, hGranted⟩

/- A message that comes while a connection waits for its id to
   be read. -/
theorem authentic_id
    (hCore : Authentic p s.core)
    {myself : E}
    {data : Wire}
    {endpoint : OefAgentEndpoint}
    (hEndpoint : s.core.endpoints myself = some endpoint)
    {factory : InitialHandshakeTaskFactory}
    (hFactory :
      endpoint.factory = some (.initialHandshake factory))
    (hState : factory.state = .waitingForAgentServerID) :
    Authentic (knownAfter protos p s (.message myself data))
      (s.step protos (.message myself data)).core := by
  apply authentic_message
  have hExec :=
    OefAgentEndpoint.onCompleteHandler_handshake hEndpoint
      hFactory protos data
  simp only at hExec
  rw [hExec]
  split
  · next thrown hThrown =>
      refine (authentic_unnamed hCore fun other key hNames => ?_)
        |>.congr rfl rfl rfl
      obtain ⟨-, id, found, granted, -, -, -, -, hGranted⟩ :=
        hNames.inv hEndpoint
      rw [hThrown] at hGranted
      cases hGranted
  · next granted hGranted =>
      cases hParse : protos.agentServerID data with
      | none =>
          rw [InitialHandshakeTaskFactory.exec_processMessage_noId
            hState hParse]
          refine (authentic_unnamed hCore
            fun other key hNames => ?_) |>.congr rfl rfl rfl
          obtain ⟨-, id, found, granted, hFound, -⟩ :=
            hNames.inv hEndpoint
          rw [hParse] at hFound
          cases hFound
      | some id =>
          have hNamed :
              (knownAfter protos p s
                (.message myself data)).named myself
                  id.publicKey :=
            .inr ⟨data, id, endpoint, factory, granted, rfl,
              hParse, rfl, hEndpoint, hFactory, hState, hGranted⟩
          exact
            InitialHandshakeTaskFactory.processMessage_names
              hState hParse hEndpoint (hCore.congr rfl rfl rfl)
              (grows_knownAfter (.message myself data))
              (fun other hOther key hName =>
                hName.resolve_right fun hNames =>
                  hOther (hNames.inv hEndpoint).1)
              hNamed

/- A message that comes while a connection waits for its
   answer to be read. -/
theorem authentic_answer
    (hCore : Authentic p s.core)
    {myself : E}
    {data : Wire}
    {endpoint : OefAgentEndpoint}
    (hEndpoint : s.core.endpoints myself = some endpoint)
    {factory : InitialHandshakeTaskFactory}
    (hFactory :
      endpoint.factory = some (.initialHandshake factory))
    (hState : factory.state = .waitingForAgentServerAnswer) :
    Authentic (knownAfter protos p s (.message myself data))
      (s.step protos (.message myself data)).core := by
  have hKnown :
      Authentic (knownAfter protos p s (.message myself data))
        s.core := by
    refine authentic_unnamed hCore fun other key hNames => ?_
    obtain ⟨-, id, found, granted, -, -, hFound, hWaits, -⟩ :=
      hNames.inv hEndpoint
    rw [hFactory] at hFound
    cases hFound
    rw [hState] at hWaits
    cases hWaits
  apply authentic_message
  have hExec :=
    OefAgentEndpoint.onCompleteHandler_handshake hEndpoint
      hFactory protos data
  simp only at hExec
  rw [hExec]
  split
  · exact hKnown.congr rfl rfl rfl
  · next granted hGranted =>
      refine
        InitialHandshakeTaskFactory.processMessage_answers
          hState hEndpoint hFactory (hKnown.congr rfl rfl rfl)
          fun after hAfter hStage => .inr ?_
      obtain ⟨record, hRecord, hFunctions⟩ := hStage
      have hStep :
          (s.step protos (.message myself data)).core = after := by
        simp only [hGranted, hAfter] at hExec
        simp only [step, hExec]
      refine ⟨record, _, ?_, hFunctions, rfl⟩
      rw [hStep]
      exact hRecord

theorem authentic_step
    (hCore : Authentic p s.core)
    (event : SessionEvent E) :
    Authentic (knownAfter protos p s event)
      (s.step protos event).core := by
  cases event with
  | connect myself ident remoteId coreKey =>
      refine authentic_connect (authentic_unnamed hCore ?_)
        myself ident remoteId coreKey
      rintro other key ⟨data, id, endpoint, factory, granted,
        hEvent, -⟩
      cases hEvent
  | close myself notice =>
      refine authentic_closeWith (authentic_unnamed hCore ?_)
        myself notice
      rintro other key ⟨data, id, endpoint, factory, granted,
        hEvent, -⟩
      cases hEvent
  | message myself data =>
      by_cases hHandshake :
          ∃ endpoint factory,
            s.core.endpoints myself = some endpoint ∧
              endpoint.factory =
                some (.initialHandshake factory)
      · obtain ⟨endpoint, factory, hEndpoint, hFactory⟩ :=
          hHandshake
        cases hState : factory.state with
        | waitingForAgentServerID =>
            exact authentic_id hCore hEndpoint hFactory hState
        | waitingForAgentServerAnswer =>
            exact authentic_answer hCore hEndpoint hFactory
              hState
      · refine authentic_message
          (OefAgentEndpoint.onCompleteHandler_holds
            (authentic_unnamed hCore ?_)
            (fun endpoint hEndpoint factory hFactory =>
              hHandshake ⟨endpoint, factory, hEndpoint,
                hFactory⟩)
            fun envelope hParse => .inr ⟨data, rfl, hParse⟩)
        rintro other key ⟨data', id, endpoint, factory, granted,
          hEvent, -, -, hEndpoint, hFactory, -⟩
        cases hEvent
        exact hHandshake ⟨endpoint, factory, hEndpoint, hFactory⟩

end Step

------------------------------------------------------------
-- Whole Runs
------------------------------------------------------------

/- A connection names one key, and it is let in with that one
   if with any. -/
structure Traced
    (p : Provenance E)
    (s : Sessions E) : Prop where
  core : Authentic p s.core
  unique :
    ∀ myself key other, p.named myself key →
      p.named myself other → key = other
  admitted :
    ∀ myself key, p.admitted myself key → p.named myself key

/- A connection that has named a key names no other. -/
omit [DecidableEq E] in
theorem not_announces
    {s : Sessions E}
    (hCore : Authentic p s.core)
    {myself : E}
    {key : String}
    (hNamed : p.named myself key)
    (protos : AgentProtos)
    (event : SessionEvent E)
    (other : String) :
    ¬ s.Announces protos event myself other := by
  rintro ⟨data, id, endpoint, factory, granted, -, -, -,
    hEndpoint, hFactory, hState, -⟩
  have hStage := hCore.factories _ _ hEndpoint
  rw [hFactory] at hStage
  simp only [Provenance.OfFactory, hState] at hStage
  exact hStage key hNamed

theorem Traced.step
    {s : Sessions E}
    (hTraced : Traced p s)
    (protos : AgentProtos)
    (event : SessionEvent E) :
    Traced (knownAfter protos p s event)
      (s.step protos event) := by
  have hCore :
      Authentic (knownAfter protos p s event)
        (s.step protos event).core :=
    authentic_step hTraced.core event
  refine
    { core := hCore
      unique := ?_
      admitted := ?_ }
  · rintro myself key other (hOld | hNew) (hOld' | hNew')
    · exact hTraced.unique myself key other hOld hOld'
    · exact (not_announces hTraced.core hOld protos event other
        hNew').elim
    · exact (not_announces hTraced.core hOld' protos event key
        hNew).elim
    · obtain ⟨data, id, endpoint, factory, granted, rfl, hParse,
        rfl, -⟩ := hNew
      obtain ⟨data', id', endpoint', factory', granted', hEvent,
        hParse', rfl, -⟩ := hNew'
      cases hEvent
      rw [hParse] at hParse'
      cases hParse'
      rfl
  · rintro myself key (hOld | ⟨endpoint, factory, hEndpoint,
      hFactory, rfl⟩)
    · exact .inl (hTraced.admitted myself key hOld)
    · have hStage := hCore.factories _ _ hEndpoint
      rw [hFactory] at hStage
      exact hStage.1

theorem traced_run
    (protos : AgentProtos)
    (policy : KarmaPolicy)
    (drawn : Nat)
    (events : List (SessionEvent E)) :
    Traced (provenance protos policy drawn events)
      ((start policy drawn).run protos events) := by
  induction events using List.reverseRecOn with
  | nil =>
      exact
        { core :=
            { absent := by simp [provenance]
              policies := by simp [run, start]
              factories := by simp [run, start]
              entries := by simp [run, start]
              tasks := by simp [run, start] }
          unique := by simp [provenance]
          admitted := by simp [provenance] }
  | append_singleton events event ih =>
      rw [provenance_snoc, run_snoc]
      exact ih.step protos event

end Sessions

end OefCore
