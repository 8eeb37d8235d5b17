import Mathlib.Data.List.Forall2
import Mathlib.Tactic.Common
import OefCore.Agents.Provenance

/-
  What becomes of the envelopes of agents that are let in:
  each has at most one outcome, in the order in which they
  came, and exactly one if its connection stays open.

  Main declarations:
    * `Task.AnswersTo`, `answersOf`
    * `Quiet`, `Settled`
    * `OefFunctionsTaskFactory.processMessage_settled`
    * `Sessions.answered_run`
-/

namespace OefCore

open Fallible (Keeps)

variable {E : Type}

------------------------------------------------------------
-- Outcomes
------------------------------------------------------------

namespace Task

/-
  The task is what an envelope asked for, or the report of
  what went wrong with it.
-/
def AnswersTo
    (myself : E)
    (envelope : Envelope) : Task E → Prop
  | .sendMessage message endpoint =>
      endpoint = myself ∧ ∃ cause thrown,
        message =
          OefFunctionsTaskFactory.errorResponse envelope cause
            thrown
  | .agentToAgent task =>
      task.message.answerId = envelope.msgId ∧
        ∃ pb, envelope.payload = .sendMessage pb
  | .searchUpdate description endpoint msgId _ _ =>
      endpoint = myself ∧ msgId = envelope.msgId ∧
        (envelope.payload = .registerService description ∨
          envelope.payload = .registerDescription description)
  | .searchRemove initiator endpoint msgId _ _ removeRow =>
      removeRow = false ∧ endpoint = myself ∧
        msgId = envelope.msgId ∧
        ((∃ description, initiator = some description ∧
            envelope.payload = .unregisterService description) ∨
          initiator = some [] ∧
            envelope.payload = .unregisterDescription)
  | .searchQuery search endpoint msgId _ _ ttl =>
      endpoint = myself ∧ msgId = envelope.msgId ∧
        (ttl = 1 ∧ envelope.payload = .searchAgents search ∨
          ttl = 1 ∧ envelope.payload = .searchServices search ∨
          ttl = 4 ∧
            envelope.payload = .searchServicesWide search)
  | _ => False

/- The tasks of logins, of heartbeats and of closing are for no
   envelope. -/
def isAnswer : Task E → Bool
  | .sendMessage _ _ | .agentToAgent _ | .searchUpdate .. |
    .searchQuery .. => true
  | .searchRemove _ _ _ _ _ removeRow => !removeRow
  | _ => false

theorem AnswersTo.isAnswer
    {myself : E}
    {envelope : Envelope}
    {task : Task E}
    (hAnswers : task.AnswersTo myself envelope) :
    task.isAnswer = true := by
  cases task with
  | sendMessage message endpoint | agentToAgent task => rfl
  | searchUpdate | searchQuery => rfl
  | searchRemove initiator endpoint msgId coreKey agentUri
      removeRow =>
      obtain ⟨rfl, -⟩ := hAnswers
      rfl
  | sendPhrase | sendConnected | heartbeat =>
      exact hAnswers.elim

end Task

def PoolCall.answer? : PoolCall E → Option (Task E)
  | .submit task _ => if task.isAnswer then some task else none
  | .cancelTaskGroup _ => none

/- The outcomes of envelopes, in order. -/
def answersOf (core : MtCore E) : List (Task E) :=
  core.poolCalls.filterMap PoolCall.answer?

/- No envelope comes to an outcome. -/
def Quiet (before after : MtCore E) : Prop :=
  answersOf after = answersOf before

instance : Std.Refl (Quiet (E := E)) where
  refl _ := rfl

instance : IsTrans (MtCore E) Quiet where
  trans _ _ _ hFirst hThen := hThen.trans hFirst

/- One call that is for no envelope. -/
theorem quiet_called
    (core : MtCore E)
    {call : PoolCall E}
    (hCall : call.answer? = none) :
    Quiet core
      { core with poolCalls := core.poolCalls ++ [call] } := by
  simp [Quiet, answersOf, hCall]

/-
  How the handling of an envelope ends: nothing is submitted
  and the connection is to be closed, or one task is
  submitted, or nothing for a pong.
-/
inductive Settled
    (myself : E)
    (envelope : Envelope)
    (core : MtCore E) :
    Except Exception Unit × MtCore E → Prop where
  | thrown
      (thrown : Exception)
      {after : MtCore E}
      (hPayload : envelope.payload ≠ .pong)
      (hQuiet : Quiet core after) :
      Settled myself envelope core (.error thrown, after)
  | pong
      {after : MtCore E}
      (hPayload : envelope.payload = .pong)
      (hQuiet : Quiet core after) :
      Settled myself envelope core (.ok (), after)
  | answered
      {after : MtCore E}
      (task : Task E)
      (hPayload : envelope.payload ≠ .pong)
      (hAnswers : answersOf after = answersOf core ++ [task])
      (hTask : task.AnswersTo myself envelope) :
      Settled myself envelope core (.ok (), after)

------------------------------------------------------------
-- Frames
------------------------------------------------------------

namespace CoreM

theorem crash_quiet {α : Type} :
    Keeps Quiet (crash : CoreM E α) :=
  fun _ => rfl

theorem submit_quiet
    {task : Task E}
    (hTask : task.isAnswer = false) :
    Keeps Quiet (submit task) :=
  fun core => quiet_called core (by simp [PoolCall.answer?, hTask])

theorem submitInGroup_quiet
    {task : Task E}
    (hTask : task.isAnswer = false)
    (group : Nat) :
    Keeps Quiet (submitInGroup task group) :=
  fun core => quiet_called core (by simp [PoolCall.answer?, hTask])

theorem cancelTaskGroup_quiet (group : Nat) :
    Keeps Quiet (cancelTaskGroup group : CoreM E Unit) :=
  fun core => quiet_called core rfl

theorem modifyEndpoint_quiet
    [DecidableEq E]
    (myself : E)
    (f : OefAgentEndpoint → OefAgentEndpoint) :
    Keeps Quiet (modifyEndpoint myself f) :=
  fun _ => rfl

theorem read_quiet
    {PROTO : Type}
    (parse : Wire → Option PROTO)
    (data : Wire) :
    Keeps Quiet (read parse data : CoreM E PROTO) := by
  unfold read
  cases parse data with
  | none => exact Keeps.throw _
  | some proto => exact Keeps.pure _

theorem setThreadGroup_quiet (group : Nat) :
    Keeps Quiet
      (modify fun core => { core with threadGroupId := group } :
        CoreM E Unit) :=
  fun _ => rfl

theorem karmaPerform_quiet
    (myself : E)
    (action : String) :
    Keeps Quiet (karmaPerform myself action) := by
  intro core
  cases hEndpoint : core.endpoints myself with
  | none =>
      unfold karmaPerform getEndpoint
      simp only [Fallible.exec_bind, Fallible.exec_get,
        hEndpoint, exec_crash]
      rfl
  | some endpoint =>
      rw [exec_karmaPerform hEndpoint]
      rfl

theorem karmaUpgrade_quiet
    [DecidableEq E]
    (myself : E)
    (pubkey ip : String) :
    Keeps Quiet (karmaUpgrade myself pubkey ip) := by
  intro core
  cases hEndpoint : core.endpoints myself with
  | none =>
      unfold karmaUpgrade getEndpoint
      simp only [Fallible.exec_bind, Fallible.exec_get,
        hEndpoint, exec_crash]
      rfl
  | some endpoint =>
      by_cases hPolicy : endpoint.karma.hasPolicy = true
      · rw [exec_karmaUpgrade hEndpoint hPolicy]
        rfl
      · unfold karmaUpgrade
        rw [Fallible.exec_bind_ok (exec_getEndpoint hEndpoint),
          if_neg hPolicy]
        rfl

end CoreM

section Handlers

variable [DecidableEq E]

namespace InitialHandshakeTaskFactory

theorem processMessage_quiet
    (self : InitialHandshakeTaskFactory)
    (protos : AgentProtos)
    (myself : E)
    (data : Wire) :
    Keeps Quiet (self.processMessage protos myself data) := by
  have hId :
      Keeps Quiet
        (self.processAgentServerID protos myself data) :=
    Keeps.bind (CoreM.read_quiet _ _) fun id =>
      Keeps.bind (CoreM.modifyEndpoint_quiet _ _) fun _ =>
        Keeps.bind (CoreM.submit_quiet rfl) fun _ =>
          CoreM.modifyEndpoint_quiet _ _
  have hAnswer :
      Keeps Quiet
        (self.processAgentServerAnswer protos myself data) := by
    refine Keeps.bind (CoreM.read_quiet _ _) fun answer =>
      Keeps.bind (CoreM.modifyEndpoint_quiet _ _) fun _ =>
        Keeps.bind (CoreM.submit_quiet rfl) fun _ =>
          Keeps.bind (Keeps.modify fun _ => rfl) fun _ =>
            Keeps.bind (CoreM.karmaUpgrade_quiet _ _ _)
              fun _ => Keeps.bind
                (CoreM.karmaPerform_quiet _ _) fun _ =>
                  Keeps.bind ?_ fun _ =>
                    Keeps.bind (CoreM.modifyEndpoint_quiet _ _)
                      fun _ => CoreM.modifyEndpoint_quiet _ _
    unfold startHeartbeat
    split
    · exact CoreM.submit_quiet rfl
    · exact Keeps.pure _
  unfold processMessage
  refine Keeps.tryCatch ?_ fun thrown => ?_
  · cases self.state with
    | waitingForAgentServerID => exact hId
    | waitingForAgentServerAnswer => exact hAnswer
  · split <;> exact Keeps.throw _

end InitialHandshakeTaskFactory

namespace OefAgentEndpoint

omit [DecidableEq E] in
theorem withLock_quiet
    (myself : E)
    {body : OefAgentEndpoint → CoreM E Unit}
    (hBody : ∀ endpoint, Keeps Quiet (body endpoint)) :
    Keeps Quiet (withLock myself body) := by
  refine Keeps.bind Keeps.get fun core => ?_
  cases core.endpoints myself with
  | none => exact Keeps.pure _
  | some endpoint => exact hBody endpoint

omit [DecidableEq E] in
theorem endpointClosed_quiet
    (factory : IOefAgentTaskFactory)
    (myself : E) :
    Keeps Quiet (factory.endpointClosed myself) := by
  cases factory with
  | initialHandshake factory => exact Keeps.pure _
  | oefFunctions factory =>
      exact Keeps.bind (Keeps.modify fun _ => rfl) fun _ =>
        Keeps.bind Keeps.get fun core =>
          CoreM.submitInGroup_quiet rfl 0

theorem closeHandler_quiet
    (event : String)
    (myself : E) :
    Keeps Quiet (closeHandler event myself) := by
  refine withLock_quiet myself fun endpoint =>
    Keeps.bind (CoreM.karmaPerform_quiet _ _) fun _ => ?_
  have hReleased :
      Keeps Quiet
        (do
          CoreM.modifyEndpoint myself fun endpoint =>
            { endpoint with factory := none }
          CoreM.cancelTaskGroup endpoint.ident) :=
    Keeps.bind (CoreM.modifyEndpoint_quiet _ _) fun _ =>
      CoreM.cancelTaskGroup_quiet _
  cases endpoint.factory with
  | none => exact Keeps.bind CoreM.crash_quiet fun _ => hReleased
  | some factory =>
      exact Keeps.bind (endpointClosed_quiet factory myself)
        fun _ => hReleased

end OefAgentEndpoint

------------------------------------------------------------
-- Envelopes
------------------------------------------------------------

namespace OefFunctionsTaskFactory

variable {myself : E}
variable {envelope : Envelope}

omit [DecidableEq E] in
theorem submit_settled
    {core before : MtCore E}
    (hBefore : Quiet core before)
    (hPayload : envelope.payload ≠ .pong)
    {task : Task E}
    (hTask : task.AnswersTo myself envelope) :
    Settled myself envelope core
      ((CoreM.submit task).exec before) := by
  rw [CoreM.exec_submit]
  refine .answered task hPayload ?_ hTask
  unfold Quiet at hBefore
  rw [← hBefore]
  simp [answersOf, PoolCall.answer?, hTask.isAnswer]

/- What karma is charged for is handled, or not begun. -/
omit [DecidableEq E] in
theorem charged_settled
    (hPayload : envelope.payload ≠ .pong)
    (action : String)
    {body : CoreM E Unit}
    (core : MtCore E)
    (hBody : ∀ charged, Quiet core charged →
      Settled myself envelope core (body.exec charged)) :
    Settled myself envelope core
      (Fallible.exec
        (do
          let _ ← CoreM.karmaPerform myself action
          body) core) := by
  have hCharge := CoreM.karmaPerform_quiet myself action core
  rcases hExec : (CoreM.karmaPerform myself action).exec core
    with ⟨outcome, charged⟩
  rw [hExec] at hCharge
  cases outcome with
  | error thrown =>
      rw [Fallible.exec_bind_error hExec]
      exact .thrown thrown hPayload hCharge
  | ok granted =>
      rw [Fallible.exec_bind_ok hExec]
      exact hBody charged hCharge

/- A message is carried, or its sender is not known. -/
omit [DecidableEq E] in
theorem construct_settled
    {message : AgentMessage}
    (hPayload : envelope.payload = .sendMessage message)
    (key : String)
    (core : MtCore E)
    {charged : MtCore E}
    (hCharged : Quiet core charged) :
    Settled myself envelope core
      (Fallible.exec
        (do
          let task ← AgentToAgentMessageTask.construct
            (charged.agents.find key) envelope.msgId message
            charged.agents
          CoreM.submit (.agentToAgent task)) charged) := by
  have hPong : envelope.payload ≠ .pong := by simp [hPayload]
  unfold AgentToAgentMessageTask.construct
  simp only
  split
  · rw [Fallible.exec_bind_error (CoreM.exec_crash _)]
    exact .thrown _ hPong hCharged
  · rw [Fallible.exec_bind_ok (Fallible.exec_pure _ _)]
    exact submit_settled hCharged hPong ⟨rfl, message, hPayload⟩
  · rw [Fallible.exec_bind_ok (Fallible.exec_pure _ _)]
    exact submit_settled hCharged hPong ⟨rfl, message, hPayload⟩

theorem dispatch_settled
    (self : OefFunctionsTaskFactory)
    (uri : URI)
    (envelope : Envelope)
    (core : MtCore E) :
    Settled myself envelope core
      ((self.dispatch myself uri envelope).exec core) := by
  unfold dispatch
  cases hPayload : envelope.payload with
  | pong => exact .pong hPayload rfl
  | notSet =>
      refine charged_settled (by simp [hPayload]) _ core
        fun charged hCharged => ?_
      exact .thrown _ (by simp [hPayload]) hCharged
  | sendMessage message =>
      refine charged_settled (by simp [hPayload]) _ core
        fun charged hCharged => ?_
      simp only
      rw [Fallible.exec_bind_ok (Fallible.exec_get charged)]
      exact construct_settled hPayload self.agentPublicKey core
        hCharged
  | registerService description
  | registerDescription description
  | unregisterService description
  | unregisterDescription
  | searchAgents search
  | searchServices search
  | searchServicesWide search =>
      refine charged_settled (by simp [hPayload]) _ core
        fun charged hCharged =>
          submit_settled hCharged (by simp [hPayload]) ?_
      simp [Task.AnswersTo, hPayload]

theorem processMessage_settled
    (self : OefFunctionsTaskFactory)
    (protos : AgentProtos)
    (data : Wire)
    (core : MtCore E) :
    match protos.envelope data with
    | none =>
        ∃ thrown,
          (self.processMessage protos myself data).exec core =
            (.error thrown, core)
    | some envelope =>
        Settled myself envelope core
          ((self.processMessage protos myself data).exec
            core) := by
  unfold processMessage
  cases hParse : protos.envelope data with
  | none =>
      simp only
      rw [Fallible.exec_bind_error
        (CoreM.exec_read_none hParse core)]
      exact ⟨_, rfl⟩
  | some envelope =>
      simp only
      rw [Fallible.exec_bind_ok
        (CoreM.exec_read_some hParse core), Fallible.exec_tryCatch]
      have hDispatch : ∀ uri, Settled myself envelope core
          ((self.dispatch myself uri envelope).exec core) :=
        fun uri => self.dispatch_settled uri envelope core
      specialize hDispatch
        { ({} : URI).parse envelope.agentUri with
          agentKey := self.agentPublicKey }
      rcases hExec :
          (self.dispatch myself
            { ({} : URI).parse envelope.agentUri with
              agentKey := self.agentPublicKey }
            envelope).exec core with ⟨outcome, after⟩
      rw [hExec] at hDispatch
      cases hDispatch with
      | pong hPayload hQuiet => exact .pong hPayload hQuiet
      | answered task hPayload hAnswers hTask =>
          exact .answered task hPayload hAnswers hTask
      | thrown thrown hPayload hQuiet =>
          cases thrown with
          | error reason =>
              exact submit_settled hQuiet hPayload
                ⟨rfl, _, _, rfl⟩
          | karma action =>
              exact submit_settled hQuiet hPayload
                ⟨rfl, _, _, rfl⟩
          | disconnect | invalidArgument | outOfRange
          | standard | nullPointer =>
              exact .thrown _ hPayload hQuiet

end OefFunctionsTaskFactory

/- What went before came to no outcome. -/
omit [DecidableEq E] in
theorem Settled.after
    {myself : E}
    {envelope : Envelope}
    {core heard : MtCore E}
    (hHeard : Quiet core heard)
    {result : Except Exception Unit × MtCore E}
    (hSettled : Settled myself envelope heard result) :
    Settled myself envelope core result := by
  unfold Quiet at hHeard
  cases hSettled with
  | thrown thrown hPayload hQuiet =>
      exact .thrown thrown hPayload (hQuiet.trans hHeard)
  | pong hPayload hQuiet =>
      exact .pong hPayload (hQuiet.trans hHeard)
  | answered task hPayload hAnswers hTask =>
      rw [hHeard] at hAnswers
      exact .answered task hPayload hAnswers hTask

namespace OefAgentEndpoint

variable {core : MtCore E} {myself : E}

/- An envelope of a connection that was let in. -/
theorem onCompleteHandler_settled
    {endpoint : OefAgentEndpoint}
    (hEndpoint : core.endpoints myself = some endpoint)
    {factory : OefFunctionsTaskFactory}
    (hFactory : endpoint.factory = some (.oefFunctions factory))
    (protos : AgentProtos)
    (data : Wire) :
    (∃ thrown after,
        (onCompleteHandler protos myself data).exec core =
            (.error thrown, after) ∧
          Quiet core after) ∨
      ∃ envelope, protos.envelope data = some envelope ∧
        Settled myself envelope core
          ((onCompleteHandler protos myself data).exec
            core) := by
  have hCharge := CoreM.karmaPerform_quiet myself "message" core
  unfold onCompleteHandler
  rw [exec_withLock hEndpoint]
  rcases hExec : (CoreM.karmaPerform myself "message").exec core
    with ⟨outcome, charged⟩
  rw [hExec] at hCharge
  cases outcome with
  | error thrown =>
      rw [Fallible.exec_bind_error hExec]
      exact .inl ⟨thrown, charged, rfl, hCharge⟩
  | ok granted =>
      rw [Fallible.exec_bind_ok hExec,
        Fallible.exec_bind_ok (Fallible.exec_modify _ _)]
      simp only [hFactory]
      let heard := { charged with threadGroupId := endpoint.ident }
      have hHeard : Quiet core heard := hCharge
      have hHandled :=
        @OefFunctionsTaskFactory.processMessage_settled E _ myself
          factory protos data heard
      cases hParse : protos.envelope data with
      | none =>
          simp only [hParse] at hHandled
          obtain ⟨thrown, hThrown⟩ := hHandled
          exact .inl ⟨thrown, _, hThrown, hCharge⟩
      | some envelope =>
          simp only [hParse] at hHandled
          exact .inr ⟨envelope, rfl, hHandled.after hHeard⟩

/- A message of any other connection. -/
theorem onCompleteHandler_quiet
    (hNot : ∀ endpoint, core.endpoints myself = some endpoint →
      ∀ factory, endpoint.factory ≠ some (.oefFunctions factory))
    (protos : AgentProtos)
    (data : Wire) :
    Quiet core
      ((onCompleteHandler protos myself data).exec core).2 := by
  cases hEndpoint : core.endpoints myself with
  | none =>
      unfold onCompleteHandler withLock
      rw [Fallible.exec_bind_ok (Fallible.exec_get core),
        hEndpoint]
      rfl
  | some endpoint =>
      unfold onCompleteHandler
      rw [exec_withLock hEndpoint]
      refine Keeps.bind (CoreM.karmaPerform_quiet _ _)
        (fun _ => Keeps.bind
          (CoreM.setThreadGroup_quiet endpoint.ident)
          fun _ => ?_) core
      cases hFactory : endpoint.factory with
      | none => exact CoreM.crash_quiet
      | some factory =>
          cases factory with
          | initialHandshake factory =>
              exact factory.processMessage_quiet protos myself
                data
          | oefFunctions factory =>
              exact (hNot endpoint hEndpoint factory
                hFactory).elim

/- A connection that was let in stays what it is. -/
theorem onCompleteHandler_undisturbed
    {endpoint : OefAgentEndpoint}
    (hEndpoint : core.endpoints myself = some endpoint)
    {factory : OefFunctionsTaskFactory}
    (hFactory : endpoint.factory = some (.oefFunctions factory))
    (protos : AgentProtos)
    (data : Wire) :
    MtCore.Undisturbed core
      ((onCompleteHandler protos myself data).exec core).2 := by
  unfold onCompleteHandler
  rw [exec_withLock hEndpoint]
  have hGroup :
      Keeps MtCore.Undisturbed
        (modify fun core =>
          { core with threadGroupId := endpoint.ident } :
          CoreM E Unit) :=
    fun _ => ⟨rfl, rfl, id⟩
  simp only [hFactory]
  exact Keeps.bind (CoreM.karmaPerform_undisturbed _ _)
    (fun _ => Keeps.bind hGroup fun _ =>
      factory.processMessage_undisturbed protos myself data) core

end OefAgentEndpoint

end Handlers

------------------------------------------------------------
-- Runs
------------------------------------------------------------

namespace Sessions

variable [DecidableEq E]

theorem closeWith_quiet
    (s : Sessions E)
    (myself : E)
    (notice : CloseNotice) :
    Quiet s.core (s.closeWith myself notice).core := by
  unfold closeWith
  split
  · rfl
  · exact OefAgentEndpoint.closeHandler_quiet _ myself s.core

section Step

variable {s : Sessions E}
variable {protos : AgentProtos}
variable {myself : E}
variable {data : Wire}

theorem step_message_ok
    {core : MtCore E}
    (hExec :
      (OefAgentEndpoint.onCompleteHandler protos myself
        data).exec s.core = (.ok (), core)) :
    s.step protos (.message myself data) =
      { s with core := core } := by
  simp only [step, hExec]

theorem step_message_error
    {core : MtCore E}
    {thrown : Exception}
    (hExec :
      (OefAgentEndpoint.onCompleteHandler protos myself
        data).exec s.core = (.error thrown, core)) :
    s.step protos (.message myself data) =
      Sessions.closeWith { s with core := core } myself
        (.protoError thrown.what) := by
  simp only [step, hExec]

/- What a step adds to the outcomes. -/
theorem step_answers
    (protos : AgentProtos)
    (s : Sessions E)
    (event : SessionEvent E) :
    Quiet s.core (s.step protos event).core ∨
      ∃ myself data envelope task,
        event = .message myself data ∧
          protos.envelope data = some envelope ∧
          answersOf (s.step protos event).core =
            answersOf s.core ++ [task] ∧
          task.AnswersTo myself envelope := by
  cases event with
  | connect myself ident remoteId coreKey =>
      left
      cases hEndpoint : s.core.endpoints myself with
      | some endpoint =>
          simp only [step, hEndpoint]
          rfl
      | none =>
          simp only [step, hEndpoint]
          unfold OefAgentEndpoint.onStartHandler
          rw [OefAgentEndpoint.exec_withLock
              (Function.update_self _ _ _),
            Fallible.exec_bind_ok (Fallible.exec_get _),
            Fallible.exec_bind_ok (Fallible.exec_set _ _),
            Fallible.exec_bind_ok
              (CoreM.exec_modifyEndpoint _ _ _)]
          exact Keeps.bind (CoreM.karmaPerform_quiet _ _)
            (fun _ => Keeps.pure _) _
  | close myself notice =>
      exact .inl (s.closeWith_quiet myself notice)
  | message myself data =>
      have hThrown {thrown : Exception} {core : MtCore E}
          (hExec :
            (OefAgentEndpoint.onCompleteHandler protos myself
              data).exec s.core = (.error thrown, core))
          (hQuiet : Quiet s.core core) :
          Quiet s.core
            (s.step protos (.message myself data)).core := by
        rw [step_message_error hExec]
        exact (closeWith_quiet _ myself _).trans hQuiet
      by_cases hFunctions :
          ∃ endpoint factory,
            s.core.endpoints myself = some endpoint ∧
              endpoint.factory = some (.oefFunctions factory)
      · obtain ⟨endpoint, factory, hEndpoint, hFactory⟩ :=
          hFunctions
        rcases OefAgentEndpoint.onCompleteHandler_settled
            hEndpoint hFactory protos data with
          ⟨thrown, core, hExec, hQuiet⟩ |
            ⟨envelope, hParse, hSettled⟩
        · exact .inl (hThrown hExec hQuiet)
        · rcases hExec :
              (OefAgentEndpoint.onCompleteHandler protos myself
                data).exec s.core with ⟨outcome, core⟩
          rw [hExec] at hSettled
          cases hSettled with
          | thrown thrown hPayload hQuiet =>
              exact .inl (hThrown hExec hQuiet)
          | pong hPayload hQuiet =>
              left
              rw [step_message_ok hExec]
              exact hQuiet
          | answered task hPayload hAnswers hTask =>
              right
              refine ⟨myself, data, envelope, task, rfl, hParse,
                ?_, hTask⟩
              rw [step_message_ok hExec]
              exact hAnswers
      · have hQuiet :=
          OefAgentEndpoint.onCompleteHandler_quiet
            (fun endpoint hEndpoint factory hFactory =>
              hFunctions ⟨endpoint, factory, hEndpoint,
                hFactory⟩) protos data
        rcases hExec :
            (OefAgentEndpoint.onCompleteHandler protos myself
              data).exec s.core with ⟨outcome, core⟩
        rw [hExec] at hQuiet
        cases outcome with
        | ok done =>
            left
            rw [step_message_ok hExec]
            exact hQuiet
        | error thrown => exact .inl (hThrown hExec hQuiet)

/- A connection over whose envelope a handler throws is
   closed. -/
theorem answered_of_open
    {key : String}
    (hLoggedIn : s.LoggedIn myself key)
    {envelope : Envelope}
    (hParse : protos.envelope data = some envelope)
    (hPayload : envelope.payload ≠ .pong)
    (hOpen :
      (s.step protos (.message myself data)).closed myself =
        false) :
    ∃ task,
      answersOf (s.step protos (.message myself data)).core =
          answersOf s.core ++ [task] ∧
        task.AnswersTo myself envelope := by
  obtain ⟨endpoint, factory, hEndpoint, hFactory, -⟩ := hLoggedIn
  have hSame :=
    OefAgentEndpoint.onCompleteHandler_undisturbed hEndpoint
      hFactory protos data
  rcases hExec :
      (OefAgentEndpoint.onCompleteHandler protos myself
        data).exec s.core with ⟨outcome, core⟩
  rw [hExec] at hSame
  have hThere : core.endpoints myself ≠ none := by
    intro hNone
    have hStage := congrFun hSame.session_eq myself
    simp [MtCore.session, hNone, hEndpoint] at hStage
  have hNotThrown (thrown : Exception) :
      outcome ≠ .error thrown := by
    rintro rfl
    rw [step_message_error hExec, closeWith] at hOpen
    simp only [Option.isNone_iff_eq_none, hThere,
      Bool.or_eq_true, or_false] at hOpen
    split at hOpen
    · next hClosed => exact Bool.false_ne_true (hOpen ▸ hClosed)
    · simp at hOpen
  rcases OefAgentEndpoint.onCompleteHandler_settled hEndpoint
      hFactory protos data with
    ⟨thrown, after, hThrown, -⟩ | ⟨found, hFound, hSettled⟩
  · rw [hExec, Prod.mk.injEq] at hThrown
    exact (hNotThrown thrown hThrown.1).elim
  · rw [hParse] at hFound
    cases hFound
    rw [hExec] at hSettled
    cases hSettled with
    | thrown thrown hPayload' hQuiet =>
        exact (hNotThrown thrown rfl).elim
    | pong hPong hQuiet => exact (hPayload hPong).elim
    | answered task hPayload' hAnswers hTask =>
        rw [step_message_ok hExec]
        exact ⟨task, hAnswers, hTask⟩

end Step

/- The envelope of an event, and the connection it is of. -/
def envelopeOf
    (protos : AgentProtos) :
    SessionEvent E → Option (E × Envelope)
  | .message myself data =>
      (protos.envelope data).map fun envelope =>
        (myself, envelope)
  | _ => none

/- The outcomes are those of some of the envelopes. -/
theorem answers_run
    (protos : AgentProtos)
    (policy : KarmaPolicy)
    (drawn : Nat)
    (events : List (SessionEvent E)) :
    ∃ asked,
      asked.Sublist (events.filterMap (envelopeOf protos)) ∧
        List.Forall₂
          (fun request task =>
            Task.AnswersTo request.1 request.2 task)
          asked
          (answersOf
            ((start policy drawn).run protos events).core) := by
  induction events using List.reverseRecOn with
  | nil => exact ⟨[], List.Sublist.refl _, .nil⟩
  | append_singleton events event ih =>
      obtain ⟨asked, hSub, hAnswers⟩ := ih
      rw [run_snoc, List.filterMap_append]
      rcases step_answers protos
          ((start policy drawn).run protos events) event with
        hQuiet | ⟨myself, data, envelope, task, rfl, hParse,
          hMore, hTask⟩
      · refine ⟨asked, hSub.trans (List.sublist_append_left _ _),
          ?_⟩
        unfold Quiet at hQuiet
        rw [hQuiet]
        exact hAnswers
      · refine ⟨asked ++ [(myself, envelope)], ?_, ?_⟩
        · refine hSub.append ?_
          simp [envelopeOf, hParse]
        · rw [hMore]
          exact List.rel_append hAnswers (.cons hTask .nil)

end Sessions

end OefCore
