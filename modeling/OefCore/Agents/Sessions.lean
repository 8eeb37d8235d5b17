import Mathlib.Data.List.Infix
import Mathlib.Tactic.Common
import OefCore.Comms.CleanUp
import OefCore.Comms.HandlerFrames
import OefCore.Library.Directory
import OefCore.Library.Runs

/-
  The sessions of any number of agents: connections that log
  in, send messages and close in any order, over one registry.

  Main declarations:
    * `Sessions`, `Sessions.step`, `Sessions.run`
    * `RegistryAgrees`
    * `Sessions.registryAgrees_iff`
-/

namespace OefCore

------------------------------------------------------------
-- Sessions
------------------------------------------------------------

/- A core, and the connections whose close handler has run. -/
structure Sessions (E : Type) where
  core : MtCore E
  closed : E → Bool

inductive SessionEvent (E : Type) where
  | connect
      (myself : E)
      (ident : Nat)
      (remoteId coreKey : String)
  | message (myself : E) (data : Wire)
  | close (myself : E) (notice : CloseNotice)

namespace Sessions

variable {E : Type} [DecidableEq E]

def start
    (policy : KarmaPolicy)
    (drawn : Nat) : Sessions E where
  core :=
    { karmaPolicy := policy
      agents := Agents.construct
      endpoints := fun _ => none
      poolCalls := []
      threadGroupId := 0
      drawn := drawn
      crashed := false }
  closed := fun _ => false

/- An endpoint that is open gives one notice. -/
def closeWith
    (s : Sessions E)
    (myself : E)
    (notice : CloseNotice) : Sessions E :=
  if s.closed myself || (s.core.endpoints myself).isNone then
    s
  else
    { core :=
        ((OefAgentEndpoint.closeHandler notice.karmaEvent
          myself).exec s.core).2
      closed := Function.update s.closed myself true }

/-
  A connection is set up once. What is thrown over a message
  the endpoint reports as a protocol error.
-/
def step
    (protos : AgentProtos)
    (s : Sessions E) :
    SessionEvent E → Sessions E
  | .connect myself ident remoteId coreKey =>
      match s.core.endpoints myself with
      | some _ => s
      | none =>
          { s with
            core :=
              ((OefAgentEndpoint.onStartHandler myself).exec
                { s.core with
                  endpoints :=
                    Function.update s.core.endpoints myself
                      (some (.construct ident remoteId
                        coreKey)) }).2 }
  | .message myself data =>
      match
        (OefAgentEndpoint.onCompleteHandler protos myself
          data).exec s.core
      with
      | (.ok _, core) => { s with core := core }
      | (.error thrown, core) =>
          { s with core := core }.closeWith myself
            (.protoError thrown.what)
  | .close myself notice => s.closeWith myself notice

def run
    (protos : AgentProtos)
    (s : Sessions E)
    (events : List (SessionEvent E)) : Sessions E :=
  events.foldl (step protos) s

theorem run_snoc
    (protos : AgentProtos)
    (s : Sessions E)
    (events : List (SessionEvent E))
    (event : SessionEvent E) :
    s.run protos (events ++ [event]) =
      (s.run protos events).step protos event := by
  simp [run]

------------------------------------------------------------
-- What the Registry Promises
------------------------------------------------------------

/- A connection that has gone through the handshake. -/
def LoggedIn
    (s : Sessions E)
    (myself : E)
    (key : String) : Prop :=
  ∃ endpoint factory,
    s.core.endpoints myself = some endpoint ∧
      endpoint.factory = some (.oefFunctions factory) ∧
        factory.agentPublicKey = key

structure RegistryAgrees (s : Sessions E) : Prop where
  found :
    ∀ myself key, s.LoggedIn myself key →
      s.closed myself = false →
        ∃ agent, s.core.agents.find key = some agent ∧
          agent.endpoint = myself
  forgotten :
    ∀ myself, s.closed myself = true →
      ∀ key agent, s.core.agents.find key = some agent →
        agent.endpoint ≠ myself
  -- the lookup of `processMessage` for a message to send
  sourceAgent :
    ∀ myself key, s.LoggedIn myself key →
      s.closed myself = false →
        s.core.agents.find key ≠ none

/- The event is the answer that completes a login. -/
def LogsIn
    (protos : AgentProtos)
    (s : Sessions E)
    (event : SessionEvent E)
    (key : String) : Prop :=
  ∃ myself data endpoint factory answer,
    event = .message myself data ∧
      s.core.endpoints myself = some endpoint ∧
        endpoint.factory = some (.initialHandshake factory) ∧
          factory.state = .waitingForAgentServerAnswer ∧
            factory.publicKey = key ∧
              protos.agentServerAnswer data = some answer

/- No open connection is logged in with the key of a login. -/
def Untaken
    (protos : AgentProtos)
    (s : Sessions E)
    (event : SessionEvent E) : Prop :=
  ∀ key, s.LogsIn protos event key →
    ∀ other, s.LoggedIn other key → s.closed other = true

------------------------------------------------------------
-- The Directory of a Core
------------------------------------------------------------

/- The key that a connection is logged in with. -/
def heldKey : Option IOefAgentTaskFactory → Option String
  | some (.oefFunctions factory) => some factory.agentPublicKey
  | some (.initialHandshake _) => none
  | none => none

/- The registry and the logins, as entries and holders. -/
def directory (core : MtCore E) : Directory String E where
  entry key := (core.agents.find key).map Agent.endpoint
  held myself :=
    (core.session myself).bind fun stage => heldKey stage.1

omit [DecidableEq E] in
theorem directory_undisturbed
    {before after : MtCore E}
    (hSame : MtCore.Undisturbed before after) :
    directory after = directory before := by
  simp [directory, hSame.agents_eq, hSame.session_eq]

theorem directory_enter
    {before after : MtCore E}
    {myself : E}
    {factory : OefFunctionsTaskFactory}
    (hAgents :
      after.agents =
        before.agents.add factory.agentPublicKey myself)
    {hasPolicy : Bool}
    (hSession :
      after.session =
        Function.update before.session myself
          (some (some (.oefFunctions factory), hasPolicy))) :
    directory after =
      (directory before).enter myself
        factory.agentPublicKey := by
  unfold directory Directory.enter
  congr 1
  · funext key
    by_cases hKey : key = factory.agentPublicKey
    · simp [hAgents, hKey]
    · simp [hAgents, hKey]
  · funext other
    by_cases hOther : other = myself
    · subst hOther
      simp [hSession, heldKey]
    · simp [hSession, hOther]

theorem directory_leave
    {before after : MtCore E}
    {myself : E}
    {key : String}
    (hAgents : after.agents = before.agents.remove key)
    {hasPolicy : Bool}
    (hSession :
      after.session =
        Function.update before.session myself
          (some (none, hasPolicy))) :
    directory after = (directory before).leave myself key := by
  unfold directory Directory.leave
  congr 1
  · funext other
    by_cases hKey : other = key
    · simp [hAgents, hKey]
    · simp [hAgents, hKey]
  · funext other
    by_cases hOther : other = myself
    · subst hOther
      simp [hSession, heldKey]
    · simp [hSession, hOther]

/- A connection that is not logged in, before or after. -/
theorem directory_moved
    {before after : MtCore E}
    {myself : E}
    (hAgents : after.agents = before.agents)
    {factory : Option IOefAgentTaskFactory}
    {hasPolicy : Bool}
    (hSession :
      after.session =
        Function.update before.session myself
          (some (factory, hasPolicy)))
    (hBefore : (directory before).held myself = none)
    (hAfter : heldKey factory = none) :
    directory after = directory before := by
  have hHeld :
      (directory after).held = (directory before).held := by
    funext other
    by_cases hOther : other = myself
    · rw [hOther, hBefore]
      simp [directory, hSession, hAfter]
    · simp [directory, hSession, hOther]
  unfold directory at hHeld ⊢
  simp only [hAgents] at hHeld ⊢
  rw [hHeld]

omit [DecidableEq E] in
theorem loggedIn_iff
    {s : Sessions E}
    {myself : E}
    {key : String} :
    s.LoggedIn myself key ↔
      (directory s.core).held myself = some key := by
  constructor
  · rintro ⟨endpoint, factory, hEndpoint, hFactory, hKey⟩
    simp [directory, MtCore.session_eq_some hEndpoint,
      hFactory, heldKey, hKey]
  · intro hHeld
    cases hEndpoint : s.core.endpoints myself with
    | none => simp [directory, MtCore.session, hEndpoint] at hHeld
    | some endpoint =>
        cases hFactory : endpoint.factory with
        | none =>
            simp [directory, MtCore.session_eq_some hEndpoint,
              hFactory, heldKey] at hHeld
        | some factory =>
            cases factory with
            | initialHandshake factory =>
                simp [directory,
                  MtCore.session_eq_some hEndpoint,
                  hFactory, heldKey] at hHeld
            | oefFunctions factory =>
                simp [directory,
                  MtCore.session_eq_some hEndpoint,
                  hFactory, heldKey] at hHeld
                exact ⟨endpoint, factory, hEndpoint, hFactory,
                  hHeld⟩

------------------------------------------------------------
-- Sound Sessions
------------------------------------------------------------

/- Connections have an account, and lose their factory when
   they are closed and not before. -/
def StageSound :
    Option (Option IOefAgentTaskFactory × Bool) → Bool → Prop
  | none, closed => closed = false
  | some (factory, hasPolicy), closed =>
      hasPolicy = true ∧ (factory = none ↔ closed = true)

structure Sound (s : Sessions E) : Prop where
  never : s.core.karmaPolicy.NeverRejects
  stages :
    ∀ myself, StageSound (s.core.session myself)
      (s.closed myself)

omit [DecidableEq E] in
theorem sound_start
    {policy : KarmaPolicy}
    (hNever : policy.NeverRejects)
    (drawn : Nat) :
    (start policy drawn : Sessions E).Sound where
  never := hNever
  stages _ := rfl

omit [DecidableEq E] in
theorem Sound.undisturbed
    {s : Sessions E}
    (hSound : s.Sound)
    {core : MtCore E}
    (hSame : MtCore.Undisturbed s.core core) :
    Sound { s with core := core } where
  never := hSame.never hSound.never
  stages myself := by
    simp only [hSame.session_eq]
    exact hSound.stages myself

/- One connection moves on to a stage that is sound. -/
theorem Sound.moved
    {s : Sessions E}
    (hSound : s.Sound)
    {core : MtCore E}
    (hNever : core.karmaPolicy.NeverRejects)
    {myself : E}
    {factory : Option IOefAgentTaskFactory}
    (hSession :
      core.session =
        Function.update s.core.session myself
          (some (factory, true)))
    {closed : E → Bool}
    (hOthers : ∀ other, other ≠ myself →
      closed other = s.closed other)
    (hMyself : factory = none ↔ closed myself = true) :
    Sound { core := core, closed := closed } where
  never := hNever
  stages other := by
    by_cases hOther : other = myself
    · subst hOther
      simp only [hSession, Function.update_self]
      exact ⟨rfl, hMyself⟩
    · simp only [hSession, Function.update_of_ne hOther,
        hOthers other hOther]
      exact hSound.stages other

omit [DecidableEq E] in
theorem Sound.stage
    {s : Sessions E}
    (hSound : s.Sound)
    {myself : E}
    {endpoint : OefAgentEndpoint}
    (hEndpoint : s.core.endpoints myself = some endpoint) :
    s.core.session myself = some (endpoint.factory, true) ∧
      (endpoint.factory = none ↔ s.closed myself = true) := by
  have hStage := hSound.stages myself
  rw [MtCore.session_eq_some hEndpoint] at hStage ⊢
  rcases hStage with ⟨hPolicy, hClosed⟩
  exact ⟨by rw [hPolicy], hClosed⟩

------------------------------------------------------------
-- One Step
------------------------------------------------------------

/- What one event does to the directory. -/
inductive Follows
    (protos : AgentProtos)
    (s : Sessions E)
    (event : SessionEvent E)
    (after : Sessions E) : Prop where
  | same
      (hDirectory : directory after.core = directory s.core)
      (hNone : ∀ key, ¬ s.LogsIn protos event key)
  | enters
      (myself : E)
      (key : String)
      (hDirectory :
        directory after.core =
          (directory s.core).enter myself key)
      (hNew : (directory s.core).held myself = none)
      (hLogsIn : ∀ other, s.LogsIn protos event other ↔
        other = key)
      (hClosed : after.closed = s.closed)
  | leaves
      (myself : E)
      (key : String)
      (hDirectory :
        directory after.core =
          (directory s.core).leave myself key)
      (hHeld : (directory s.core).held myself = some key)
      (hNone : ∀ other, ¬ s.LogsIn protos event other)

omit [DecidableEq E] in
theorem LogsIn.inv
    {protos : AgentProtos}
    {s : Sessions E}
    {myself : E}
    {data : Wire}
    {endpoint : OefAgentEndpoint}
    (hEndpoint : s.core.endpoints myself = some endpoint)
    {key : String}
    (hLogsIn : s.LogsIn protos (.message myself data) key) :
    ∃ factory answer,
      endpoint.factory = some (.initialHandshake factory) ∧
        factory.state = .waitingForAgentServerAnswer ∧
          factory.publicKey = key ∧
            protos.agentServerAnswer data = some answer := by
  rcases hLogsIn with
    ⟨other, data', endpoint', factory, answer, hEvent, hOther,
      hFactory, hState, hKey, hParse⟩
  cases hEvent
  rw [hEndpoint] at hOther
  cases hOther
  exact ⟨factory, answer, hFactory, hState, hKey, hParse⟩

/- A notice takes one connection off, if it is open. -/
theorem Sound.closeWith
    {s : Sessions E}
    (hSound : s.Sound)
    (myself : E)
    (notice : CloseNotice) :
    (s.closeWith myself notice).Sound ∧
      (directory (s.closeWith myself notice).core =
          directory s.core ∨
        ∃ key, (directory s.core).held myself = some key ∧
          directory (s.closeWith myself notice).core =
            (directory s.core).leave myself key) := by
  unfold Sessions.closeWith
  cases hEndpoint : s.core.endpoints myself with
  | none => simpa using hSound
  | some endpoint =>
      rcases hSound.stage hEndpoint with ⟨hStage, hOpen⟩
      cases hClosed : s.closed myself with
      | true => simpa using hSound
      | false =>
          cases hFactory : endpoint.factory with
          | none =>
              rw [hClosed] at hOpen
              exact absurd (hOpen.mp hFactory) (by simp)
          | some factory =>
              rw [hFactory] at hStage
              rcases OefAgentEndpoint.closeHandler_passes
                  hSound.never hStage notice.karmaEvent with
                ⟨after, hExec, hAgents, hSession, hNever⟩
              simp only [Option.isNone_some, Bool.or_self,
                Bool.false_eq_true, if_false, hExec]
              refine ⟨hSound.moved hNever hSession
                (fun other hOther => by simp [hOther])
                (by simp), ?_⟩
              cases factory with
              | initialHandshake factory =>
                  left
                  exact directory_moved hAgents hSession
                    (by simp [directory, hStage, heldKey]) rfl
              | oefFunctions factory =>
                  right
                  refine ⟨factory.agentPublicKey, ?_,
                    directory_leave hAgents hSession⟩
                  simp [directory, hStage, heldKey]

/- A message that a handler throws over closes its
   connection. -/
theorem Sound.closeAfter
    {s : Sessions E}
    (hSound : s.Sound)
    {core : MtCore E}
    (hSame : MtCore.Undisturbed s.core core)
    (myself : E)
    (notice : CloseNotice) :
    (Sessions.closeWith { s with core := core } myself
        notice).Sound ∧
      (directory (Sessions.closeWith { s with core := core }
          myself notice).core = directory s.core ∨
        ∃ key, (directory s.core).held myself = some key ∧
          directory (Sessions.closeWith
            { s with core := core } myself notice).core =
            (directory s.core).leave myself key) := by
  have hClosed := (hSound.undisturbed hSame).closeWith myself
    notice
  rw [directory_undisturbed hSame] at hClosed
  exact hClosed

/- A message that leaves the registry alone. -/
theorem Sound.stepUndisturbed
    {s : Sessions E}
    (hSound : s.Sound)
    {protos : AgentProtos}
    {myself : E}
    {data : Wire}
    (hSame :
      MtCore.Undisturbed s.core
        ((OefAgentEndpoint.onCompleteHandler protos myself
          data).exec s.core).2)
    (hNone : ∀ key,
      ¬ s.LogsIn protos (.message myself data) key) :
    (s.step protos (.message myself data)).Sound ∧
      Follows protos s (.message myself data)
        (s.step protos (.message myself data)) := by
  unfold Sessions.step
  simp only
  rcases hExec :
      (OefAgentEndpoint.onCompleteHandler protos myself
        data).exec s.core with ⟨outcome, core⟩
  rw [hExec] at hSame
  cases outcome with
  | ok done =>
      exact ⟨hSound.undisturbed hSame,
        .same (directory_undisturbed hSame) hNone⟩
  | error thrown =>
      rcases hSound.closeAfter hSame myself
          (.protoError thrown.what) with
        ⟨hAfter, hDirectory | ⟨key, hHeld, hDirectory⟩⟩
      · exact ⟨hAfter, .same hDirectory hNone⟩
      · exact ⟨hAfter,
          .leaves myself key hDirectory hHeld hNone⟩

/- What a login by a message of the handshake takes. -/
omit [DecidableEq E] in
theorem logsIn_iff
    {s : Sessions E}
    (protos : AgentProtos)
    {myself : E}
    (data : Wire)
    {endpoint : OefAgentEndpoint}
    (hEndpoint : s.core.endpoints myself = some endpoint)
    {factory : InitialHandshakeTaskFactory}
    (hFactory :
      endpoint.factory = some (.initialHandshake factory))
    (key : String) :
    s.LogsIn protos (.message myself data) key ↔
      factory.state = .waitingForAgentServerAnswer ∧
        factory.publicKey = key ∧
          ∃ answer,
            protos.agentServerAnswer data = some answer := by
  constructor
  · intro hLogsIn
    rcases LogsIn.inv hEndpoint hLogsIn with
      ⟨other, answer, hOther, hState, hKey, hParse⟩
    rw [hFactory] at hOther
    cases hOther
    exact ⟨hState, hKey, answer, hParse⟩
  · rintro ⟨hState, hKey, answer, hParse⟩
    exact ⟨myself, data, endpoint, factory, answer, rfl,
      hEndpoint, hFactory, hState, hKey, hParse⟩

/- A message in the handshake. -/
theorem Sound.stepHandshake
    {s : Sessions E}
    (hSound : s.Sound)
    (protos : AgentProtos)
    {myself : E}
    (data : Wire)
    {endpoint : OefAgentEndpoint}
    (hEndpoint : s.core.endpoints myself = some endpoint)
    {factory : InitialHandshakeTaskFactory}
    (hFactory :
      endpoint.factory = some (.initialHandshake factory)) :
    (s.step protos (.message myself data)).Sound ∧
      Follows protos s (.message myself data)
        (s.step protos (.message myself data)) := by
  rcases hSound.stage hEndpoint with ⟨hStage, hOpen⟩
  rw [hFactory] at hStage hOpen
  rcases OefAgentEndpoint.onCompleteHandler_passes hSound.never
      hStage protos data with
    ⟨heard, hHeard, hSame⟩
  have hNever := hSame.never hSound.never
  have hHeardStage :
      heard.session myself =
        some (some (.initialHandshake factory), true) := by
    rw [hSame.session_eq, hStage]
  have hHeldNone :
      (directory s.core).held myself = none := by
    simp [directory, hStage, heldKey]
  have hLogsIn := logsIn_iff protos data hEndpoint hFactory
  simp only [IOefAgentTaskFactory.processMessage] at hHeard
  cases hState : factory.state with
  | waitingForAgentServerID =>
      have hNone : ∀ key,
          ¬ s.LogsIn protos (.message myself data) key := by
        intro key
        simp [hLogsIn key, hState]
      rcases factory.exec_processMessage_id hState protos data
          hNever hHeardStage with
        ⟨outcome, hExec⟩ |
          ⟨after, moved, hExec, hAgents, hMoved, hAfter⟩
      · apply hSound.stepUndisturbed _ hNone
        rw [hHeard, hExec]
        exact hSame
      · rw [hSame.session_eq] at hMoved
        rw [hSame.agents_eq] at hAgents
        simp only [Sessions.step, hHeard, hExec]
        exact ⟨hSound.moved hAfter hMoved (fun _ _ => rfl)
            (by simpa using hOpen),
          .same (directory_moved hAgents hMoved hHeldNone rfl)
            hNone⟩
  | waitingForAgentServerAnswer =>
      cases hParse : protos.agentServerAnswer data with
      | none =>
          apply hSound.stepUndisturbed
          · rw [hHeard, factory.exec_processMessage_noAnswer
              hState hParse]
            exact hSame
          · intro key
            simp [hLogsIn key, hParse]
      | some answer =>
          rcases factory.exec_processMessage_answer hState
              hParse hNever hHeardStage with
            ⟨after, hExec, hAgents, hMoved, hAfter⟩
          rw [hSame.session_eq] at hMoved
          rw [hSame.agents_eq] at hAgents
          simp only [Sessions.step, hHeard, hExec]
          refine ⟨hSound.moved hAfter hMoved (fun _ _ => rfl)
              (by simpa using hOpen),
            .enters myself factory.publicKey
              (directory_enter hAgents hMoved) hHeldNone ?_
              rfl⟩
          intro other
          simp [hLogsIn other, hState, hParse, eq_comm]

/- A connection is made that was not there. -/
theorem Sound.stepConnect
    {s : Sessions E}
    (hSound : s.Sound)
    (protos : AgentProtos)
    (myself : E)
    (ident : Nat)
    (remoteId coreKey : String) :
    (s.step protos
        (.connect myself ident remoteId coreKey)).Sound ∧
      Follows protos s (.connect myself ident remoteId coreKey)
        (s.step protos
          (.connect myself ident remoteId coreKey)) := by
  have hNone : ∀ key, ¬ s.LogsIn protos
      (.connect myself ident remoteId coreKey) key := by
    rintro key ⟨_, _, _, _, _, hEvent, -⟩
    cases hEvent
  cases hEndpoint : s.core.endpoints myself with
  | some endpoint =>
      simp only [Sessions.step, hEndpoint]
      exact ⟨hSound, .same rfl hNone⟩
  | none =>
      have hUnknown : s.core.session myself = none := by
        simp [MtCore.session, hEndpoint]
      have hClosed : s.closed myself = false := by
        have hStage := hSound.stages myself
        rwa [hUnknown] at hStage
      let made : OefAgentEndpoint :=
        .construct ident remoteId coreKey
      let fresh : MtCore E :=
        { s.core with
          endpoints :=
            Function.update s.core.endpoints myself
              (some made) }
      have hFresh :
          fresh.session =
            Function.update s.core.session myself
              (some (made.factory, false)) :=
        MtCore.session_of_update rfl
      have hMade : fresh.endpoints myself = some made :=
        Function.update_self _ _ _
      have hNever : fresh.karmaPolicy.NeverRejects :=
        hSound.never
      rcases OefAgentEndpoint.onStartHandler_passes hNever
          hMade with
        ⟨after, hExec, hAgents, hMoved, hAfter⟩
      rw [hFresh, Function.update_idem] at hMoved
      have hStep :
          s.step protos
              (.connect myself ident remoteId coreKey) =
            { s with core := after } := by
        simp only [Sessions.step, hEndpoint]
        change Sessions.mk (Fallible.exec _ fresh).2 _ = _
        rw [hExec]
      rw [hStep]
      exact ⟨hSound.moved hAfter hMoved (fun _ _ => rfl)
          (by simp [made, OefAgentEndpoint.construct,
            hClosed]),
        .same
          (directory_moved hAgents hMoved
            (by simp [directory, hUnknown]) rfl)
          hNone⟩
/- A message of a connection that may be closed, or in the
   handshake, or logged in. -/
theorem Sound.stepMessage
    {s : Sessions E}
    (hSound : s.Sound)
    (protos : AgentProtos)
    (myself : E)
    (data : Wire) :
    (s.step protos (.message myself data)).Sound ∧
      Follows protos s (.message myself data)
        (s.step protos (.message myself data)) := by
  cases hEndpoint : s.core.endpoints myself with
  | none =>
      apply hSound.stepUndisturbed
      · unfold OefAgentEndpoint.onCompleteHandler
          OefAgentEndpoint.withLock
        rw [Fallible.exec_bind_ok
          (Fallible.exec_get s.core), hEndpoint]
        exact Std.Refl.refl s.core
      · rintro key ⟨_, _, endpoint, _, _, hEvent, hOther, -⟩
        cases hEvent
        rw [hEndpoint] at hOther
        cases hOther
  | some endpoint =>
      cases hFactory : endpoint.factory with
      | none =>
          have hStage := (hSound.stage hEndpoint).1
          rw [hFactory] at hStage
          apply hSound.stepUndisturbed
          · exact OefAgentEndpoint.onCompleteHandler_of_closed
              hStage protos data
          · intro key hLogsIn
            rcases LogsIn.inv hEndpoint hLogsIn with
              ⟨_, _, hOther, -⟩
            rw [hFactory] at hOther
            cases hOther
      | some factory =>
          cases factory with
          | initialHandshake factory =>
              exact hSound.stepHandshake protos data
                hEndpoint hFactory
          | oefFunctions factory =>
              have hStage := (hSound.stage hEndpoint).1
              rw [hFactory] at hStage
              rcases
                  OefAgentEndpoint.onCompleteHandler_passes
                    hSound.never hStage protos data with
                ⟨heard, hHeard, hSame⟩
              apply hSound.stepUndisturbed
              · rw [hHeard]
                exact IsTrans.trans _ _ _ hSame
                  (factory.processMessage_undisturbed
                    protos myself data heard)
              · intro key hLogsIn
                rcases LogsIn.inv hEndpoint hLogsIn with
                  ⟨_, _, hOther, -⟩
                rw [hFactory] at hOther
                cases hOther
theorem Sound.step
    {s : Sessions E}
    (hSound : s.Sound)
    (protos : AgentProtos)
    (event : SessionEvent E) :
    (s.step protos event).Sound ∧
      Follows protos s event (s.step protos event) := by
  cases event with
  | connect myself ident remoteId coreKey =>
      exact hSound.stepConnect protos myself ident remoteId
        coreKey
  | message myself data =>
      exact hSound.stepMessage protos myself data
  | close myself notice =>
      have hNone : ∀ key,
          ¬ s.LogsIn protos (.close myself notice) key := by
        rintro key ⟨_, _, _, _, _, hEvent, -⟩
        cases hEvent
      rcases hSound.closeWith myself notice with
        ⟨hAfter, hDirectory | ⟨key, hHeld, hDirectory⟩⟩
      · exact ⟨hAfter, .same hDirectory hNone⟩
      · exact ⟨hAfter,
          .leaves myself key hDirectory hHeld hNone⟩

------------------------------------------------------------
-- All Runs
------------------------------------------------------------

/- A closed connection goes by no key. -/
omit [DecidableEq E] in
theorem Sound.held_of_closed
    {s : Sessions E}
    (hSound : s.Sound)
    {myself : E}
    (hClosed : s.closed myself = true) :
    (directory s.core).held myself = none := by
  have hStage := hSound.stages myself
  rw [hClosed] at hStage
  unfold directory
  simp only
  cases hSession : s.core.session myself with
  | none => rfl
  | some stage =>
      rw [hSession] at hStage
      have hFactory : stage.1 = none := hStage.2.mpr rfl
      simp [hFactory, heldKey]

/- A registry whose entries are the logins keeps what is
   promised of it. -/
omit [DecidableEq E] in
theorem Sound.registryAgrees
    {s : Sessions E}
    (hSound : s.Sound)
    (hAgrees : (directory s.core).Agrees) :
    s.RegistryAgrees := by
  have hFound :
      ∀ myself key, s.LoggedIn myself key →
        ∃ agent, s.core.agents.find key = some agent ∧
          agent.endpoint = myself := by
    intro myself key hLoggedIn
    have hEntry :=
      (hAgrees myself key).mpr (loggedIn_iff.mp hLoggedIn)
    simpa [directory] using hEntry
  constructor
  · exact fun myself key hLoggedIn _ =>
      hFound myself key hLoggedIn
  · intro myself hClosed key agent hAgent hMyself
    have hEntry :
        (directory s.core).entry key = some myself := by
      simp [directory, hAgent, hMyself]
    rw [hAgrees, hSound.held_of_closed hClosed] at hEntry
    cases hEntry
  · intro myself key hLoggedIn _ hNone
    rcases hFound myself key hLoggedIn with ⟨agent, hAgent, -⟩
    rw [hNone] at hAgent
    cases hAgent

/- No login with a key in use: the registry still agrees. -/
theorem Follows.agrees
    {protos : AgentProtos}
    {s after : Sessions E}
    {event : SessionEvent E}
    (hFollows : Follows protos s event after)
    (hSound : s.Sound)
    (hAgrees : (directory s.core).Agrees)
    (hUntaken : s.Untaken protos event) :
    (directory after.core).Agrees := by
  cases hFollows with
  | same hDirectory hNone =>
      rw [hDirectory]
      exact hAgrees
  | enters myself key hDirectory hNew hLogsIn hClosed =>
      rw [hDirectory, Directory.agrees_enter_iff hAgrees hNew]
      intro other hOther
      have hGone := hUntaken key ((hLogsIn key).mpr rfl) other
        (loggedIn_iff.mpr hOther)
      rw [hSound.held_of_closed hGone] at hOther
      cases hOther
  | leaves myself key hDirectory hHeld hNone =>
      rw [hDirectory]
      exact Directory.agrees_leave hAgrees hHeld

/- After a login with a key in use, the registry has lost the
   connection that uses it. -/
theorem Follows.untaken
    {protos : AgentProtos}
    {s after : Sessions E}
    {event : SessionEvent E}
    (hFollows : Follows protos s event after)
    (hAfter : after.RegistryAgrees) :
    s.Untaken protos event := by
  intro name hName other hOther
  cases hFollows with
  | same hDirectory hNone => exact absurd hName (hNone name)
  | leaves myself key hDirectory hHeld hNone =>
      exact absurd hName (hNone name)
  | enters myself key hDirectory hNew hLogsIn hClosed =>
      have hKey : name = key := (hLogsIn name).mp hName
      rw [loggedIn_iff, hKey] at hOther
      have hNe : other ≠ myself := by
        intro hEq
        rw [hEq, hNew] at hOther
        cases hOther
      have hStill : after.LoggedIn other key := by
        rw [loggedIn_iff, hDirectory]
        simpa [Directory.enter, hNe] using hOther
      by_contra hOpen
      rw [← hClosed, Bool.not_eq_true] at hOpen
      rcases hAfter.found other key hStill hOpen with
        ⟨agent, hAgent, hEndpoint⟩
      have hEntry :
          (directory after.core).entry key = some other := by
        simp [directory, hAgent, hEndpoint]
      rw [hDirectory] at hEntry
      simp only [Directory.enter, Function.update_self,
        Option.some.injEq] at hEntry
      exact hNe hEntry.symm

/-
  Under karma that never rejects, the registry agrees with
  the sessions all along a run exactly if no login of the run
  is with the key of a connection that is logged in and open.
-/
theorem registryAgrees_iff
    (protos : AgentProtos)
    {policy : KarmaPolicy}
    (hNever : policy.NeverRejects)
    (drawn : Nat)
    (events : List (SessionEvent E)) :
    (∀ front, front <+: events →
      RegistryAgrees ((start policy drawn).run protos front)) ↔
      ∀ front event back,
        events = front ++ event :: back →
          Untaken protos ((start policy drawn).run protos front)
            event := by
  apply Runs.forall_prefix_iff fun front =>
    let s := (start policy drawn).run protos front
    s.Sound ∧ (directory s.core).Agrees
  · exact ⟨sound_start hNever drawn, fun _ _ => by
      simp [run, start, directory, MtCore.session]⟩
  · rintro front ⟨hSound, hAgrees⟩
    exact hSound.registryAgrees hAgrees
  · rintro front event back - ⟨hSound, hAgrees⟩ hUntaken
    simp only [run_snoc]
    rcases hSound.step protos event with ⟨hAfter, hFollows⟩
    exact ⟨hAfter, hFollows.agrees hSound hAgrees hUntaken⟩
  · rintro front event back - ⟨hSound, hAgrees⟩ hAfter
    rw [run_snoc] at hAfter
    exact (hSound.step protos event).2.untaken hAfter

/- Parsers for which every text is a message of its kind, the
   id of an agent being `"alice"`. -/
def aliceProtos : AgentProtos where
  agentServerID _ := some { publicKey := "alice" }
  agentServerAnswer _ := some { willHeartbeat := false }
  envelope _ := none

theorem registryAgrees_iff_one_login :
    (∀ front,
      front <+:
          [SessionEvent.connect true 1 "127.0.0.1" "core",
            .message true [], .message true []] →
        RegistryAgrees
          ((start .none 1000000).run aliceProtos front)) ↔
      ∀ front event back,
        [SessionEvent.connect true 1 "127.0.0.1" "core",
            .message true [], .message true []] =
          front ++ event :: back →
          Untaken aliceProtos
            ((start .none 1000000).run aliceProtos front)
            event :=
  registryAgrees_iff aliceProtos KarmaPolicy.neverRejects_none
    1000000 _

/- Two connections that log in as the same agent. -/
def secondLogin : List (SessionEvent Bool) :=
  [.connect true 1 "127.0.0.1" "core",
    .message true [], .message true [],
    .connect false 2 "127.0.0.1" "core",
    .message false [], .message false []]

/- The first connection is open and logged in, but the
   registry has the second one under its key. -/
theorem not_registryAgrees_of_second_login :
    ¬ RegistryAgrees
      ((start .none 1000000).run aliceProtos secondLogin) := by
  intro hAgrees
  have hLoggedIn :
      LoggedIn
        ((start .none 1000000).run aliceProtos secondLogin)
        true "alice" :=
    ⟨_, _, rfl, rfl, rfl⟩
  rcases hAgrees.found true "alice" hLoggedIn rfl with
    ⟨agent, hAgent, hEndpoint⟩
  have hOther :
      (((start .none 1000000).run aliceProtos
        secondLogin).core.agents.find "alice").map
          Agent.endpoint = some false := by
    decide +kernel
  rw [hAgent, Option.map_some, hEndpoint] at hOther
  cases hOther

end Sessions

end OefCore
