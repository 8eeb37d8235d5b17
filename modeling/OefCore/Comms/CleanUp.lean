import Mathlib.Tactic.Common
import OefCore.Comms.OefAgentEndpoint

/-
  What is left of an agent's connection after its close
  handler has run, and how that depends on karma.

  Main declarations:
    * `CleanedUp`
    * `KarmaPolicy.Tolerates`
    * `cleanedUp_iff`
-/

namespace OefCore

variable {E : Type} [DecidableEq E]

------------------------------------------------------------
-- Closing
------------------------------------------------------------

namespace CloseNotice

/- The event that karma is charged for. -/
def karmaEvent : CloseNotice → String
  | .eof => "eof"
  | .error _ => "error.comms"
  | .protoError _ => "error.proto"

end CloseNotice

namespace EndpointBase

variable {P TX σ : Type}

/- The function that gives a notice. -/
def give
    (ep : EndpointBase P TX σ) :
    CloseNotice → EndpointBase P TX σ
  | .eof => ep.eof
  | .error ec => ep.error ec
  | .protoError message => ep.protoError message

/- The handlers for closing are those of a connection. -/
structure HandledBy
    (ep : EndpointBase P TX (MtCore E))
    (myself : E) : Prop where
  onEof_eq :
    ep.onEof =
      some (OefAgentEndpoint.toCallback fun _ =>
        OefAgentEndpoint.onEofHandler myself)
  onError_eq :
    ep.onError =
      some (OefAgentEndpoint.toCallback
        (OefAgentEndpoint.onErrorHandler myself))
  onProtoError_eq :
    ep.onProtoError =
      some (OefAgentEndpoint.toCallback
        (OefAgentEndpoint.onProtoErrorHandler myself))

theorem handledBy_setup
    (ep : EndpointBase P TX (MtCore E))
    (myself : E) :
    (OefAgentEndpoint.setup ep myself).HandledBy myself :=
  ⟨rfl, rfl, rfl⟩

/- The first notice runs the handler that was set up. -/
theorem HandledBy.world_give
    {ep : EndpointBase P TX (MtCore E)}
    {myself : E}
    (hHandled : ep.HandledBy myself)
    (hEof : ep.state.eof = false)
    (hErrored : ep.state.errored = false)
    (notice : CloseNotice) :
    (ep.give notice).world =
      ((OefAgentEndpoint.closeHandler notice.karmaEvent
        myself).exec ep.world).2 := by
  cases notice with
  | eof =>
      simp [give, eof, notify, clearHandlers, hEof,
        hHandled.onEof_eq, OefAgentEndpoint.onEofHandler,
        CloseNotice.karmaEvent]
  | error ec =>
      simp [give, error, notify, clearHandlers, hErrored,
        hHandled.onError_eq, OefAgentEndpoint.onErrorHandler,
        CloseNotice.karmaEvent]
  | protoError message =>
      simp [give, protoError, notify, clearHandlers, hErrored,
        hHandled.onProtoError_eq,
        OefAgentEndpoint.onProtoErrorHandler,
        CloseNotice.karmaEvent]

end EndpointBase

------------------------------------------------------------
-- Karma
------------------------------------------------------------

/-
  Karma goes along with an event: no policy is configured,
  the account is void, or its balance bears the effect.
-/
def KarmaPolicy.Tolerates
    (policy : KarmaPolicy)
    (account : KarmaAccount)
    (event : String) : Prop :=
  match policy with
  | .none => True
  | .basic policy =>
      account.hasPolicy = true →
        Bears (policy.refreshed account).karma
          (policy.getPolicy event).toList

theorem KarmaAccount.perform_throws_iff
    (account : KarmaAccount)
    (policy : KarmaPolicy)
    {event : String}
    (hNonempty : event.toList ≠ [])
    (hSingle : ',' ∉ event.toList) :
    (∃ thrown, (account.perform policy event).1 =
        .error thrown) ↔
      ¬ policy.Tolerates account event := by
  unfold KarmaAccount.perform KarmaPolicy.Tolerates
  cases hPolicy : account.hasPolicy with
  | false => cases policy <;> simp
  | true =>
      cases policy with
      | none => simp [KarmaPolicy.perform]
      | basic policy =>
          simpa [KarmaPolicy.perform] using
            policy.perform_throws_iff account hNonempty hSingle

/- The events of the three notices are single actions. -/
theorem CloseNotice.karmaEvent_single (notice : CloseNotice) :
    notice.karmaEvent.toList ≠ [] ∧
      ',' ∉ notice.karmaEvent.toList := by
  cases notice <;> simp [karmaEvent]

------------------------------------------------------------
-- Clean-Up
------------------------------------------------------------

/- What was asked of the task pool between two states. -/
def newCalls (before after : MtCore E) : List (PoolCall E) :=
  after.poolCalls.drop before.poolCalls.length

/- A request to remove all that search has of an agent. -/
def PoolCall.isRemoveRow
    (myself : E)
    (agentKey : String) : PoolCall E → Bool
  | .submit (.searchRemove _ endpoint _ _ agentUri true) _ =>
      endpoint = myself && agentUri = agentKey
  | _ => false

structure CleanedUp
    (myself : E)
    (ident : Nat)
    (agentKey : String)
    (before after : MtCore E) : Prop where
  unregistered :
    ∀ agent, after.agents.find agentKey = some agent →
      agent.endpoint ≠ myself
  submitted :
    (newCalls before after).countP
      (PoolCall.isRemoveRow myself agentKey) = 1
  released :
    ∃ endpoint, after.endpoints myself = some endpoint ∧
      endpoint.factory = none
  cancelled :
    .cancelTaskGroup ident ∈ newCalls before after

/-
  A connection with an agent behind it is cleaned up by its
  close handler exactly if karma tolerates the event that the
  handler starts with.
-/
theorem cleanedUp_iff
    {P TX : Type}
    (ep : EndpointBase P TX (MtCore E))
    (hEof : ep.state.eof = false)
    (hErrored : ep.state.errored = false)
    (myself : E)
    {endpoint : OefAgentEndpoint}
    (hEndpoint : ep.world.endpoints myself = some endpoint)
    {factory : OefFunctionsTaskFactory}
    (hFactory : endpoint.factory = some (.oefFunctions factory))
    (notice : CloseNotice) :
    CleanedUp myself endpoint.ident factory.agentPublicKey
        ep.world
        ((OefAgentEndpoint.setup ep myself).give notice).world ↔
      ep.world.karmaPolicy.Tolerates endpoint.karma
        notice.karmaEvent := by
  have hWorld :
      ((OefAgentEndpoint.setup ep myself).give notice).world =
        ((OefAgentEndpoint.closeHandler notice.karmaEvent
          myself).exec ep.world).2 :=
    (ep.handledBy_setup myself).world_give hEof hErrored notice
  rw [hWorld]
  rcases notice.karmaEvent_single with ⟨hNonempty, hSingle⟩
  have hThrows := KarmaAccount.perform_throws_iff endpoint.karma
    ep.world.karmaPolicy hNonempty hSingle
  rcases hKarma :
      endpoint.karma.perform ep.world.karmaPolicy
        notice.karmaEvent with ⟨outcome, policy⟩
  rw [hKarma] at hThrows
  cases outcome with
  | error thrown =>
      have hRefused :
          ¬ ep.world.karmaPolicy.Tolerates endpoint.karma
            notice.karmaEvent :=
        hThrows.mp ⟨thrown, rfl⟩
      rw [OefAgentEndpoint.exec_closeHandler_error hEndpoint
        hKarma]
      constructor
      · intro hClean
        rcases hClean.released with ⟨left, hLeft, hNone⟩
        have hSame : left = endpoint :=
          Option.some.inj (hLeft.symm.trans hEndpoint)
        rw [hSame, hFactory] at hNone
        cases hNone
      · intro hTolerates
        exact absurd hTolerates hRefused
  | ok granted =>
      have hTolerates :
          ep.world.karmaPolicy.Tolerates endpoint.karma
            notice.karmaEvent := by
        by_contra hRefused
        rcases hThrows.mpr hRefused with ⟨thrown, hThrown⟩
        cases hThrown
      rw [OefAgentEndpoint.exec_closeHandler_ok hEndpoint
        hFactory hKarma]
      refine iff_of_true ?_ hTolerates
      constructor
      · intro agent hFound
        simp at hFound
      · simp [newCalls, PoolCall.isRemoveRow]
      · exact ⟨{ endpoint with factory := none },
          by simp, rfl⟩
      · simp [newCalls]

/- A core with one agent, `"alice"`, under a karma policy
   that does nothing but disconnect on an event. -/
def loggedInCore (event : String) : MtCore Unit where
  karmaPolicy :=
    .basic (KarmaPolicyBasic.construct
      (Function.update (fun _ => none) event (some "X")))
  agents := Agents.construct.add "alice" ()
  endpoints := fun _ =>
    some
      { OefAgentEndpoint.construct 1 "127.0.0.1" "core" with
        karma := .mkAccount 0 "(null karma account)"
        loggedin := true
        factory :=
          some (.oefFunctions
            { agentPublicKey := "alice", coreKey := "core" }) }
  poolCalls := []
  threadGroupId := 1
  drawn := 1000000
  crashed := false

/- Its connection. -/
def loggedInEndpoint
    (event : String) :
    EndpointBase Unit Unit (MtCore Unit) :=
  EndpointBase.construct () 16 16 (loggedInCore event)

theorem cleanedUp_iff_eof :
    CleanedUp () 1 "alice" (loggedInCore "login")
        ((OefAgentEndpoint.setup (loggedInEndpoint "login")
          ()).give .eof).world ↔
      (loggedInCore "login").karmaPolicy.Tolerates
        (.mkAccount 0 "(null karma account)") "eof" :=
  cleanedUp_iff (loggedInEndpoint "login") rfl rfl () rfl rfl
    .eof

/- A policy that disconnects at `"eof"` keeps the agent
   registered after its connection is closed. -/
theorem not_cleanedUp_of_disconnect :
    ¬ CleanedUp () 1 "alice" (loggedInCore "eof")
      ((OefAgentEndpoint.setup (loggedInEndpoint "eof")
        ()).give .eof).world := by
  intro hClean
  have hFound :
      ((OefAgentEndpoint.setup (loggedInEndpoint "eof")
        ()).give .eof).world.agents.find "alice" =
      some { key := "alice", endpoint := () } := by
    decide +kernel
  exact hClean.unregistered _ hFound rfl

end OefCore
