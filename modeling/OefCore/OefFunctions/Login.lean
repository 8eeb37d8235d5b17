import OefCore.Comms.CleanUp
import OefCore.Library.Runs

/-
  What a login leaves behind that fails, and what one has done
  that does not.

  A run is that of one connection, from where it has its karma
  account; what goes on elsewhere may change the policy and
  the registry in any way.

  Main declarations:
    * `HandshakeRun`, `HandshakeEvent`
    * `AnswerCall.Undone`, `AnswerCall.Done`
    * `AnswerCall.atomic_make_iff`
    * `HandshakeRun.traceless_iff`
-/

namespace OefCore

variable {E : Type} [DecidableEq E]

------------------------------------------------------------
-- Calls with an Answer
------------------------------------------------------------

/- A call of `processMessage` with an answer, and the states
   before and after it. -/
structure AnswerCall (E : Type) where
  factory : InitialHandshakeTaskFactory
  data : Wire
  before : MtCore E
  outcome : Except Exception Unit
  after : MtCore E

def PoolCall.isHeartbeat
    (myself : E) : PoolCall E → Bool
  | .submit (.heartbeat endpoint) _ => endpoint = myself
  | _ => false

namespace AnswerCall

def make
    (protos : AgentProtos)
    (myself : E)
    (factory : InitialHandshakeTaskFactory)
    (data : Wire)
    (core : MtCore E) : AnswerCall E :=
  let result :=
    (factory.processMessage protos myself data).exec core
  { factory := factory
    data := data
    before := core
    outcome := result.1
    after := result.2 }

/- How many heartbeats the call has submitted. -/
def heartbeats
    (call : AnswerCall E)
    (myself : E) : Nat :=
  (newCalls call.before call.after).countP
    (PoolCall.isHeartbeat myself)

/- Nothing of the login is left. -/
structure Undone
    (call : AnswerCall E)
    (myself : E) : Prop where
  agents : call.after.agents = call.before.agents
  heartbeats : call.heartbeats myself = 0
  endpoint :
    ∃ endpoint, call.after.endpoints myself = some endpoint ∧
      endpoint.loggedin = false ∧
      endpoint.factory = some (.initialHandshake call.factory)

/- All that belongs to a login has been done; only an agent
   that answers pings is sent heartbeats. -/
structure Done
    (protos : AgentProtos)
    (call : AnswerCall E)
    (myself : E) : Prop where
  agents :
    call.after.agents =
      call.before.agents.add call.factory.publicKey myself
  heartbeats :
    ∃ answer, protos.agentServerAnswer call.data = some answer ∧
      call.heartbeats myself =
        if answer.willHeartbeat then 1 else 0
  endpoint :
    ∃ endpoint, call.after.endpoints myself = some endpoint ∧
      endpoint.loggedin = true ∧
      endpoint.factory =
        some (.oefFunctions
          { agentPublicKey := call.factory.publicKey
            coreKey := call.factory.coreKey })

/- What throws leaves no trace, and what returns has done it
   all. -/
def Atomic
    (protos : AgentProtos)
    (call : AnswerCall E)
    (myself : E) : Prop :=
  match call.outcome with
  | .error _ => call.Undone myself
  | .ok _ => call.Done protos myself

end AnswerCall

/- A connection that waits for the answer of its agent. -/
structure OefAgentEndpoint.AwaitsLogin
    (endpoint : OefAgentEndpoint)
    (factory : InitialHandshakeTaskFactory) : Prop where
  account : endpoint.karma.hasPolicy = true
  loggedin : endpoint.loggedin = false
  factory : endpoint.factory = some (.initialHandshake factory)

/-
  The account that a connection is upgraded to bears the
  login; or the agent is in the registry already, with this
  connection.
-/
def InitialHandshakeTaskFactory.LoginBorne
    (self : InitialHandshakeTaskFactory)
    (myself : E)
    (core : MtCore E)
    (endpoint : OefAgentEndpoint) : Prop :=
  (self.upgraded core endpoint).2.Tolerates
      (self.upgraded core endpoint).1 "login" ∨
    core.agents.find self.publicKey =
      some { key := self.publicKey, endpoint := myself }

omit [DecidableEq E] in
theorem Agents.add_eq_self_iff
    (agents : Agents E)
    (key : String)
    (endpoint : E) :
    agents.add key endpoint = agents ↔
      agents.find key =
        some { key := key, endpoint := endpoint } := by
  constructor
  · intro hSame
    have hFound := find_add_self agents key endpoint
    rwa [hSame] at hFound
  · intro hFound
    unfold find at hFound
    simp only [add, ← hFound, Function.update_eq_self]

namespace AnswerCall

section Calls

open InitialHandshakeTaskFactory

variable
  {protos : AgentProtos}
  {myself : E}
  {factory : InitialHandshakeTaskFactory}
  (hState : factory.state = .waitingForAgentServerAnswer)
  {data : Wire}
  {core : MtCore E}
  {endpoint : OefAgentEndpoint}
  (hEndpoint : core.endpoints myself = some endpoint)
  (hAwaits : endpoint.AwaitsLogin factory)

include hState hEndpoint hAwaits

/- An answer that does not parse is undone. -/
theorem atomic_of_unreadable
    (hParse : protos.agentServerAnswer data = none) :
    (make protos myself factory data core).Atomic protos
      myself := by
  have hExec := factory.exec_processMessage_noAnswer hState
    hParse myself core
  unfold Atomic make
  simp only [hExec]
  constructor
  · rfl
  · simp [heartbeats, newCalls]
  · exact ⟨endpoint, hEndpoint, hAwaits.loggedin,
      hAwaits.factory⟩

/- A login that karma grants is done. -/
theorem atomic_of_granted
    {answer : AgentServerAnswer}
    (hParse : protos.agentServerAnswer data = some answer)
    {granted : Bool}
    {policy : KarmaPolicy}
    (hLogin :
      (factory.upgraded core endpoint).1.perform
          (factory.upgraded core endpoint).2 "login" =
        (.ok granted, policy)) :
    (make protos myself factory data core).Atomic protos
      myself := by
  have hExec :=
    exec_processMessage_ok hState
      (exec_processAgentServerAnswer_ok hParse hEndpoint
        hAwaits.account hLogin)
  unfold Atomic make
  simp only [hExec]
  constructor
  · rfl
  · refine ⟨answer, hParse, ?_⟩
    cases hBeats : answer.willHeartbeat with
    | false =>
        simp [heartbeats, newCalls, PoolCall.isHeartbeat,
          loggedIn, registered, hBeats]
    | true =>
        simp [heartbeats, newCalls, PoolCall.isHeartbeat,
          loggedIn, registered, hBeats]
  · exact ⟨_, Function.update_self _ _ _, rfl, rfl⟩

/- One that karma refuses leaves the agent registered. -/
theorem atomic_iff_of_refused
    {answer : AgentServerAnswer}
    (hParse : protos.agentServerAnswer data = some answer)
    {thrown : Exception}
    {policy : KarmaPolicy}
    (hLogin :
      (factory.upgraded core endpoint).1.perform
          (factory.upgraded core endpoint).2 "login" =
        (.error thrown, policy)) :
    (make protos myself factory data core).Atomic protos
        myself ↔
      core.agents.find factory.publicKey =
        some
          { key := factory.publicKey, endpoint := myself } := by
  rcases exec_processMessage_error hState
      (exec_processAgentServerAnswer_error hParse hEndpoint
        hAwaits.account hLogin) with
    ⟨rethrown, hExec⟩
  rw [← Agents.add_eq_self_iff]
  unfold Atomic make
  simp only [hExec]
  constructor
  · intro hUndone
    exact hUndone.agents
  · intro hSame
    constructor
    · exact hSame
    · simp [heartbeats, newCalls, PoolCall.isHeartbeat,
        registered]
    · exact ⟨_, Function.update_self _ _ _, hAwaits.loggedin,
        hAwaits.factory⟩

/- A call with an answer leaves all or nothing exactly if
   karma bears the login. -/
theorem atomic_make_iff :
    (make protos myself factory data core).Atomic protos
        myself ↔
      ∀ answer, protos.agentServerAnswer data = some answer →
        factory.LoginBorne myself core endpoint := by
  cases hParse : protos.agentServerAnswer data with
  | none =>
      refine iff_of_true ?_ (fun _ hSome => nomatch hSome)
      exact atomic_of_unreadable hState hEndpoint hAwaits hParse
  | some answer =>
      have hThrows :=
        KarmaAccount.perform_throws_iff
          (factory.upgraded core endpoint).1
          (factory.upgraded core endpoint).2
          (show "login".toList ≠ [] by decide)
          (show ',' ∉ "login".toList by decide)
      rcases hLogin :
          (factory.upgraded core endpoint).1.perform
            (factory.upgraded core endpoint).2 "login" with
        ⟨outcome, policy⟩
      rw [hLogin] at hThrows
      cases outcome with
      | ok granted =>
          have hTolerates :
              (factory.upgraded core endpoint).2.Tolerates
                (factory.upgraded core endpoint).1 "login" := by
            by_contra hRefused
            rcases hThrows.mpr hRefused with ⟨thrown, hThrown⟩
            exact nomatch hThrown
          refine iff_of_true ?_ (fun _ _ => .inl hTolerates)
          exact atomic_of_granted hState hEndpoint hAwaits
            hParse hLogin
      | error thrown =>
          have hRefused := hThrows.mp ⟨thrown, rfl⟩
          rw [atomic_iff_of_refused hState hEndpoint hAwaits
            hParse hLogin]
          simp [LoginBorne, hRefused]

/- What returns has done it all. -/
theorem done_of_ok
    {outcome : Unit}
    (hOk :
      (make protos myself factory data core).outcome =
        .ok outcome) :
    (make protos myself factory data core).Done protos
      myself := by
  have hDone :
      (make protos myself factory data core).Atomic protos
          myself →
        (make protos myself factory data core).Done protos
          myself := by
    intro hAtomic
    unfold Atomic at hAtomic
    rwa [hOk] at hAtomic
  apply hDone
  rw [atomic_make_iff hState hEndpoint hAwaits]
  intro answer hParse
  rcases hLogin :
      (factory.upgraded core endpoint).1.perform
        (factory.upgraded core endpoint).2 "login" with
    ⟨charged, policy⟩
  cases charged with
  | ok granted =>
      have hAtomic := atomic_of_granted hState hEndpoint hAwaits
        hParse hLogin
      rw [atomic_make_iff hState hEndpoint hAwaits] at hAtomic
      exact hAtomic answer hParse
  | error thrown =>
      rcases exec_processMessage_error hState
          (exec_processAgentServerAnswer_error hParse hEndpoint
            hAwaits.account hLogin) with
        ⟨rethrown, hExec⟩
      unfold make at hOk
      rw [hExec] at hOk
      exact nomatch hOk

end Calls

end AnswerCall

------------------------------------------------------------
-- Runs
------------------------------------------------------------

/- `answers` are the calls so far, and a connection is not open
   any more once a message was thrown at. -/
structure HandshakeRun (E : Type) where
  core : MtCore E
  isOpen : Bool
  answers : List (AnswerCall E)

inductive HandshakeEvent (E : Type) where
  | message (data : Wire)
  | elsewhere (karmaPolicy : KarmaPolicy) (agents : Agents E)

namespace HandshakeRun

/- A connection that was set up and started, with the account
   that it was given. -/
def start
    (core : MtCore E)
    (myself : E)
    (ident : Nat)
    (remoteId coreKey : String)
    (number : Nat)
    (name : String) : HandshakeRun E where
  core :=
    { core with
      endpoints :=
        Function.update core.endpoints myself
          (some
            { OefAgentEndpoint.construct ident remoteId
                coreKey with
              karma := .mkAccount number name }) }
  isOpen := true
  answers := []

/- A message for a connection that is still in the handshake. -/
def receive
    (protos : AgentProtos)
    (myself : E)
    (self : HandshakeRun E)
    (factory : InitialHandshakeTaskFactory)
    (data : Wire) : HandshakeRun E :=
  match factory.state with
  | .waitingForAgentServerID =>
      let result :=
        (factory.processMessage protos myself data).exec
          self.core
      { core := result.2
        isOpen := result.1.isOk
        answers := self.answers }
  | .waitingForAgentServerAnswer =>
      let call :=
        AnswerCall.make protos myself factory data self.core
      { core := call.after
        isOpen := call.outcome.isOk
        answers := self.answers ++ [call] }

/- The factory of the handshake, as long as it goes on. -/
def handshake
    (self : HandshakeRun E)
    (myself : E) : Option InitialHandshakeTaskFactory :=
  if self.isOpen then
    match self.core.endpoints myself with
    | some { factory := some (.initialHandshake factory), .. } =>
        some factory
    | _ => none
  else
    none

def step
    (protos : AgentProtos)
    (myself : E)
    (self : HandshakeRun E) :
    HandshakeEvent E → HandshakeRun E
  | .message data =>
      match self.handshake myself with
      | some factory => self.receive protos myself factory data
      | none => self
  | .elsewhere karmaPolicy agents =>
      { self with
        core :=
          { self.core with
            karmaPolicy := karmaPolicy
            agents := agents } }

def run
    (protos : AgentProtos)
    (myself : E)
    (self : HandshakeRun E)
    (events : List (HandshakeEvent E)) : HandshakeRun E :=
  events.foldl (step protos myself) self

theorem run_snoc
    (protos : AgentProtos)
    (myself : E)
    (self : HandshakeRun E)
    (events : List (HandshakeEvent E))
    (event : HandshakeEvent E) :
    self.run protos myself (events ++ [event]) =
      (self.run protos myself events).step protos myself
        event := by
  simp [run]

/- Every answer so far has left all or nothing. -/
def Traceless
    (protos : AgentProtos)
    (myself : E)
    (self : HandshakeRun E) : Prop :=
  ∀ call ∈ self.answers, call.Atomic protos myself

/- Where the event is an answer that can be read, karma bears
   the login. -/
def LoginBorne
    (protos : AgentProtos)
    (myself : E)
    (self : HandshakeRun E)
    (event : HandshakeEvent E) : Prop :=
  ∀ data factory endpoint answer,
    event = .message data →
      self.handshake myself = some factory →
        factory.state = .waitingForAgentServerAnswer →
          self.core.endpoints myself = some endpoint →
            protos.agentServerAnswer data = some answer →
              factory.LoginBorne myself self.core endpoint

omit [DecidableEq E] in
theorem handshake_eq_some
    {self : HandshakeRun E}
    {myself : E}
    {factory : InitialHandshakeTaskFactory}
    (hHandshake : self.handshake myself = some factory) :
    self.isOpen = true ∧
      ∃ endpoint, self.core.endpoints myself = some endpoint ∧
        endpoint.factory =
          some (.initialHandshake factory) := by
  unfold handshake at hHandshake
  split at hHandshake
  · rename_i hOpen
    split at hHandshake
    · rename_i hEndpoint
      cases Option.some.inj hHandshake
      exact ⟨hOpen, _, hEndpoint, rfl⟩
    · exact nomatch hHandshake
  · exact nomatch hHandshake

/- While the handshake goes on, the connection awaits its
   login. -/
def Awaits
    (self : HandshakeRun E)
    (myself : E) : Prop :=
  ∀ factory, self.handshake myself = some factory →
    ∃ endpoint, self.core.endpoints myself = some endpoint ∧
      endpoint.AwaitsLogin factory

theorem awaits_start
    (core : MtCore E)
    (myself : E)
    (ident : Nat)
    (remoteId coreKey : String)
    (number : Nat)
    (name : String) :
    (start core myself ident remoteId coreKey number
      name).Awaits myself := by
  intro factory hHandshake
  rcases handshake_eq_some hHandshake with
    ⟨-, endpoint, hEndpoint, hFactory⟩
  refine ⟨endpoint, hEndpoint, ?_⟩
  simp only [start, Function.update_self,
    Option.some.injEq] at hEndpoint
  subst hEndpoint
  exact
    { account := rfl
      loggedin := rfl
      factory := hFactory }

/- Nobody is logged in by an id. -/
theorem Awaits.receive_id
    {protos : AgentProtos}
    {myself : E}
    {self : HandshakeRun E}
    {factory : InitialHandshakeTaskFactory}
    (hState : factory.state = .waitingForAgentServerID)
    {endpoint : OefAgentEndpoint}
    (hEndpoint : self.core.endpoints myself = some endpoint)
    (hAwaits : endpoint.AwaitsLogin factory)
    (data : Wire) :
    (self.receive protos myself factory data).Awaits
      myself := by
  intro next hHandshake
  rcases handshake_eq_some hHandshake with
    ⟨hOpen, after, hAfter, hNext⟩
  refine ⟨after, hAfter, ?_⟩
  simp only [receive, hState] at hOpen hAfter
  unfold InitialHandshakeTaskFactory.processMessage
    at hOpen hAfter
  simp only [hState, Fallible.exec_tryCatch] at hOpen hAfter
  cases hParse : protos.agentServerID data with
  | none =>
      have hExec :
          (factory.processAgentServerID protos myself
              data).exec self.core =
            (.error
              (.invalidArgument
                "Failed proto deserialisation."),
              self.core) :=
        Fallible.exec_bind_error
          (CoreM.exec_read_none hParse self.core) _
      simp only [hExec] at hOpen
      exact nomatch hOpen
  | some id =>
      have hExec :=
        @InitialHandshakeTaskFactory.exec_processAgentServerID_ok
          E _ factory protos myself data id hParse self.core
          endpoint hEndpoint
      simp only [hExec, Function.update_self,
        Option.some.injEq] at hAfter
      subst hAfter
      exact
        { account := hAwaits.account
          loggedin := hAwaits.loggedin
          factory := hNext }

theorem Awaits.step
    {protos : AgentProtos}
    {myself : E}
    {self : HandshakeRun E}
    (hAwaits : self.Awaits myself)
    (event : HandshakeEvent E) :
    (self.step protos myself event).Awaits myself := by
  cases event with
  | elsewhere karmaPolicy agents => exact hAwaits
  | message data =>
      cases hHandshake : self.handshake myself with
      | none =>
          simp only [HandshakeRun.step, hHandshake]
          exact hAwaits
      | some factory =>
          simp only [HandshakeRun.step, hHandshake]
          rcases hAwaits factory hHandshake with
            ⟨endpoint, hEndpoint, hLogin⟩
          cases hState : factory.state with
          | waitingForAgentServerID =>
              exact receive_id hState hEndpoint hLogin data
          | waitingForAgentServerAnswer =>
              intro next hNext
              rcases handshake_eq_some hNext with
                ⟨hOpen, after, hAfter, hFactory⟩
              simp only [receive, hState] at hOpen hAfter
              cases hOutcome :
                  (AnswerCall.make protos myself factory data
                    self.core).outcome with
              | error thrown =>
                  rw [hOutcome] at hOpen
                  exact nomatch hOpen
              | ok outcome =>
                  rcases (AnswerCall.done_of_ok hState hEndpoint
                      hLogin hOutcome).endpoint with
                    ⟨done, hDone, -, hFunctions⟩
                  rw [hDone] at hAfter
                  cases hAfter
                  rw [hFunctions] at hFactory
                  exact nomatch hFactory

section Theorem

variable
  (protos : AgentProtos)
  (core : MtCore E)
  (myself : E)
  (ident : Nat)
  (remoteId coreKey : String)
  (number : Nat)
  (name : String)

theorem awaits_run (events : List (HandshakeEvent E)) :
    ((start core myself ident remoteId coreKey number name).run
      protos myself events).Awaits myself := by
  induction events using List.reverseRecOn with
  | nil => exact awaits_start _ _ _ _ _ _ _
  | append_singleton front event ih =>
      rw [run_snoc]
      exact ih.step event

/- The calls up to here leave all or nothing; the next one
   does exactly if karma bears the login. -/
theorem traceless_step_iff
    {self : HandshakeRun E}
    (hAwaits : self.Awaits myself)
    (hTraceless : self.Traceless protos myself)
    (event : HandshakeEvent E) :
    (self.step protos myself event).Traceless protos myself ↔
      self.LoginBorne protos myself event := by
  cases event with
  | elsewhere karmaPolicy agents =>
      refine iff_of_true hTraceless ?_
      intro data factory endpoint answer hEvent
      exact nomatch hEvent
  | message data =>
      cases hHandshake : self.handshake myself with
      | none =>
          simp only [HandshakeRun.step, hHandshake]
          refine iff_of_true hTraceless ?_
          intro other factory endpoint answer hEvent hSome
          rw [hHandshake] at hSome
          exact nomatch hSome
      | some factory =>
          rcases hAwaits factory hHandshake with
            ⟨endpoint, hEndpoint, hLogin⟩
          simp only [HandshakeRun.step, hHandshake]
          cases hState : factory.state with
          | waitingForAgentServerID =>
              simp only [receive, hState]
              refine iff_of_true hTraceless ?_
              intro other named found answer _ hSame hAnswer
              rw [hHandshake] at hSame
              cases hSame
              rw [hState] at hAnswer
              exact nomatch hAnswer
          | waitingForAgentServerAnswer =>
              have hCall :=
                @AnswerCall.atomic_make_iff E _ protos myself
                  factory hState data self.core endpoint
                  hEndpoint hLogin
              simp only [receive, hState]
              constructor
              · intro hAll other named found answer hEvent hSame
                  _ hFound hParse
                cases hEvent
                rw [hHandshake] at hSame
                cases hSame
                rw [hEndpoint] at hFound
                cases hFound
                exact hCall.mp (hAll _ (by simp)) answer hParse
              · intro hBorne call hMem
                rcases List.mem_append.mp hMem with hOld | hNew
                · exact hTraceless call hOld
                · rw [List.mem_singleton.mp hNew]
                  apply hCall.mpr
                  intro answer hParse
                  exact hBorne data factory endpoint answer rfl
                    hHandshake hState hEndpoint hParse

/-
  In all of a run's states every answer has left all or
  nothing exactly if karma bears the login each time that one
  can be read.
-/
theorem traceless_iff (events : List (HandshakeEvent E)) :
    (∀ front, front <+: events →
      ((start core myself ident remoteId coreKey number
        name).run protos myself front).Traceless protos
          myself) ↔
      ∀ front event back, events = front ++ event :: back →
        ((start core myself ident remoteId coreKey number
          name).run protos myself front).LoginBorne protos
            myself event := by
  apply Runs.forall_prefix_iff fun front =>
    ((start core myself ident remoteId coreKey number
      name).run protos myself front).Traceless protos myself
  · intro call hMem
    exact nomatch hMem
  · intro front hFront
    exact hFront
  · intro front event back hSplit hFront hBorne
    rw [run_snoc, traceless_step_iff protos myself
      (awaits_run _ _ _ _ _ _ _ _ _) hFront]
    exact hBorne
  · intro front event back hSplit hFront hNext
    rw [run_snoc, traceless_step_iff protos myself
      (awaits_run _ _ _ _ _ _ _ _ _) hFront] at hNext
    exact hNext

end Theorem

def aliceLogin : AgentProtos where
  agentServerID _ := some { publicKey := "alice" }
  agentServerAnswer _ := some { willHeartbeat := true }
  envelope _ := none

/- A login costs more than half of what an account can have,
   and `"alice"` has paid for one. -/
def spentPolicy : KarmaPolicyBasic :=
  let policy :=
    KarmaPolicyBasic.construct
      (Function.update (fun _ => none) "login" (some "-6000"))
  let remote := policy.getAccount "127.0.0.1" ""
  let alice := remote.2.getAccount "" "alice"
  (alice.2.perform alice.1 "login" false).2

def spentCore : MtCore Unit where
  karmaPolicy := .basic spentPolicy
  agents := .construct
  endpoints := fun _ => none
  poolCalls := []
  threadGroupId := 1
  drawn := 1000000
  crashed := false

/- Her next login fails, and leaves her in the registry. -/
theorem not_traceless_of_refusal :
    ¬ ∀ front,
      front <+:
          [HandshakeEvent.message [10, 5, 97, 108, 105, 99, 101],
            .message []] →
        ((start spentCore () 1 "127.0.0.1" "core" 1
          "127.0.0.1").run aliceLogin () front).Traceless
            aliceLogin () := by
  intro hAll
  have hTraceless := hAll _ (List.prefix_refl _)
  have hAnswers :
      (((start spentCore () 1 "127.0.0.1" "core" 1
        "127.0.0.1").run aliceLogin ()
          [.message [10, 5, 97, 108, 105, 99, 101],
            .message []]).answers.map fun call =>
              (call.outcome.isOk,
                call.before.agents.find "alice",
                call.after.agents.find "alice")) =
        [(false, none,
          some { key := "alice", endpoint := () })] := by
    decide +kernel
  rcases List.map_eq_singleton_iff.mp hAnswers with
    ⟨call, hCalls, hCall⟩
  have hAtomic : call.Atomic aliceLogin () := by
    apply hTraceless call
    rw [hCalls]
    exact List.mem_singleton_self call
  simp only [Prod.mk.injEq] at hCall
  rcases hCall with ⟨hOutcome, hBefore, hAfter⟩
  unfold AnswerCall.Atomic at hAtomic
  cases hError : call.outcome with
  | ok outcome =>
      rw [hError] at hOutcome
      exact nomatch hOutcome
  | error thrown =>
      rw [hError] at hAtomic
      rw [hAtomic.agents, hBefore] at hAfter
      exact nomatch hAfter

end HandshakeRun

end OefCore
