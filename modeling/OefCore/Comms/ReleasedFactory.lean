import OefCore.Comms.CleanUp
import OefCore.Comms.HandlerFrames
import OefCore.Comms.MessageBatches
import OefCore.Library.Runs

/-
  Messages that are handed on after a close handler has
  released the factory of their connection.

  A completed write can close the connection while its last
  read is still at work on a batch of messages; nothing stops
  the batch then.

  Main declarations:
    * `MtCore.KeepsFactories`, `MtCore.FollowsReleased`
    * `BatchedEndpoint.Dereferences`
    * `BatchedEndpoint.never_dereferences_iff`
-/

namespace OefCore

------------------------------------------------------------
-- Connections that Keep Their Factories
------------------------------------------------------------

namespace MtCore

variable {E : Type}

/- A connection that is there has a factory. -/
def HasFactory
    (core : MtCore E)
    (myself : E) : Prop :=
  ∀ endpoint, core.endpoints myself = some endpoint →
    endpoint.factory ≠ none

/- No connection loses its factory. -/
def KeepsFactories (before after : MtCore E) : Prop :=
  ∀ myself, before.HasFactory myself → after.HasFactory myself

instance : Std.Refl (KeepsFactories (E := E)) where
  refl _ _ := id

instance : IsTrans (MtCore E) KeepsFactories where
  trans _ _ _ hFirst hThen myself hBefore :=
    hThen myself (hFirst myself hBefore)

theorem Undisturbed.keepsFactories
    {before after : MtCore E}
    (hSame : Undisturbed before after) :
    KeepsFactories before after := by
  intro myself hBefore endpoint hEndpoint
  have hSession := session_eq_some hEndpoint
  rw [hSame.session_eq] at hSession
  rcases exists_endpoint hSession with
    ⟨earlier, hEarlier, hFactory, -⟩
  rw [← hFactory]
  exact hBefore earlier hEarlier

/- One connection is changed, and has a factory after it if
   it had one before. -/
theorem keepsFactories_of_update
    [DecidableEq E]
    {before after : MtCore E}
    {myself : E}
    {f : OefAgentEndpoint → OefAgentEndpoint}
    (hEndpoints :
      after.endpoints =
        Function.update before.endpoints myself
          ((before.endpoints myself).map f))
    (hFactory :
      ∀ endpoint, endpoint.factory ≠ none →
        (f endpoint).factory ≠ none) :
    KeepsFactories before after := by
  intro other hBefore endpoint hEndpoint
  rw [hEndpoints] at hEndpoint
  by_cases hOther : other = myself
  · subst hOther
    rw [Function.update_self] at hEndpoint
    rcases Option.map_eq_some_iff.mp hEndpoint with
      ⟨earlier, hEarlier, rfl⟩
    exact hFactory earlier (hBefore earlier hEarlier)
  · rw [Function.update_of_ne hOther] at hEndpoint
    exact hBefore endpoint hEndpoint

end MtCore

namespace CoreM

open Fallible (Keeps)
open MtCore (KeepsFactories Undisturbed)

variable {E : Type}

theorem keepsFactories_of_undisturbed
    {α : Type}
    {x : CoreM E α}
    (hKeeps : Keeps Undisturbed x) :
    Keeps KeepsFactories x :=
  hKeeps.mono fun _ _ hSame => hSame.keepsFactories

theorem modifyEndpoint_keepsFactories
    [DecidableEq E]
    (myself : E)
    {f : OefAgentEndpoint → OefAgentEndpoint}
    (hFactory :
      ∀ endpoint, endpoint.factory ≠ none →
        (f endpoint).factory ≠ none) :
    Keeps KeepsFactories (modifyEndpoint myself f) :=
  fun _ => MtCore.keepsFactories_of_update rfl hFactory

theorem karmaUpgrade_keepsFactories
    [DecidableEq E]
    (myself : E)
    (pubkey ip : String) :
    Keeps KeepsFactories (karmaUpgrade myself pubkey ip) := by
  intro core
  cases hEndpoint : core.endpoints myself with
  | none =>
      unfold karmaUpgrade getEndpoint
      simp only [Fallible.exec_bind, Fallible.exec_get,
        hEndpoint, exec_crash]
      exact fun _ => id
  | some endpoint =>
      unfold karmaUpgrade
      rw [Fallible.exec_bind_ok (exec_getEndpoint hEndpoint)]
      split
      · simp only [Fallible.exec_bind, Fallible.exec_get,
          Fallible.exec_set, exec_modifyEndpoint]
        exact MtCore.keepsFactories_of_update rfl
          fun _ hFactory => hFactory
      · exact fun _ => id

end CoreM

namespace InitialHandshakeTaskFactory

open Fallible (Keeps)
open MtCore (KeepsFactories)
open OefCore.CoreM (keepsFactories_of_undisturbed
  modifyEndpoint_keepsFactories)

variable {E : Type} [DecidableEq E]

theorem processAgentServerID_keepsFactories
    (self : InitialHandshakeTaskFactory)
    (protos : AgentProtos)
    (myself : E)
    (data : Wire) :
    Keeps KeepsFactories
      (self.processAgentServerID protos myself data) := by
  unfold processAgentServerID update
  refine Keeps.bind
    (keepsFactories_of_undisturbed
      (CoreM.read_undisturbed _ _)) fun id => ?_
  refine Keeps.bind
    (modifyEndpoint_keepsFactories _ (by simp)) fun _ => ?_
  refine Keeps.bind
    (keepsFactories_of_undisturbed
      (CoreM.submit_undisturbed _)) fun _ => ?_
  exact modifyEndpoint_keepsFactories _ (by simp)

theorem processAgentServerAnswer_keepsFactories
    (self : InitialHandshakeTaskFactory)
    (protos : AgentProtos)
    (myself : E)
    (data : Wire) :
    Keeps KeepsFactories
      (self.processAgentServerAnswer protos myself data) := by
  unfold processAgentServerAnswer startHeartbeat successor
  refine Keeps.bind
    (keepsFactories_of_undisturbed
      (CoreM.read_undisturbed _ _)) fun answer => ?_
  refine Keeps.bind
    (modifyEndpoint_keepsFactories _ (by simp)) fun _ => ?_
  refine Keeps.bind
    (keepsFactories_of_undisturbed
      (CoreM.submit_undisturbed _)) fun _ => ?_
  refine Keeps.bind (Keeps.modify fun _ _ => id) fun _ => ?_
  refine Keeps.bind
    (CoreM.karmaUpgrade_keepsFactories _ _ _) fun _ => ?_
  refine Keeps.bind
    (keepsFactories_of_undisturbed
      (CoreM.karmaPerform_undisturbed _ _)) fun _ => ?_
  refine Keeps.bind ?_ fun _ => ?_
  · split
    · exact keepsFactories_of_undisturbed
        (CoreM.submit_undisturbed _)
    · exact Keeps.pure _
  · refine Keeps.bind
      (modifyEndpoint_keepsFactories _ (by simp)) fun _ => ?_
    exact modifyEndpoint_keepsFactories _ (by simp)

/- The handshake changes the factory, and never drops it. -/
theorem processMessage_keepsFactories
    (self : InitialHandshakeTaskFactory)
    (protos : AgentProtos)
    (myself : E)
    (data : Wire) :
    Keeps KeepsFactories
      (self.processMessage protos myself data) := by
  unfold processMessage
  refine Keeps.tryCatch ?_ fun thrown => ?_
  · cases self.state with
    | waitingForAgentServerID =>
        exact self.processAgentServerID_keepsFactories _ _ _
    | waitingForAgentServerAnswer =>
        exact self.processAgentServerAnswer_keepsFactories
          _ _ _
  · cases thrown <;> exact Keeps.throw _

end InitialHandshakeTaskFactory

namespace OefAgentEndpoint

open Fallible (Keeps)
open MtCore (KeepsFactories)
open OefCore.CoreM (keepsFactories_of_undisturbed)

variable {E : Type} [DecidableEq E]

theorem processMessage_keepsFactories
    (factory : IOefAgentTaskFactory)
    (protos : AgentProtos)
    (myself : E)
    (data : Wire) :
    Keeps KeepsFactories
      (factory.processMessage protos myself data) := by
  cases factory with
  | initialHandshake factory =>
      exact factory.processMessage_keepsFactories _ _ _
  | oefFunctions factory =>
      exact keepsFactories_of_undisturbed
        (factory.processMessage_undisturbed _ _ _)

omit [DecidableEq E] in
theorem withLock_keepsFactories
    (myself : E)
    {body : OefAgentEndpoint → CoreM E Unit}
    (hBody : ∀ endpoint, Keeps KeepsFactories (body endpoint)) :
    Keeps KeepsFactories (withLock myself body) := by
  unfold withLock
  refine Keeps.bind Keeps.get fun core => ?_
  cases core.endpoints myself with
  | none => exact Keeps.pure _
  | some endpoint => exact hBody endpoint

theorem onStartHandler_keepsFactories (myself : E) :
    Keeps KeepsFactories (onStartHandler myself) := by
  refine withLock_keepsFactories myself fun endpoint core => ?_
  have hAccount :
      KeepsFactories core
        { core with
          karmaPolicy :=
            (core.karmaPolicy.getAccount endpoint.remoteId "").2
          endpoints :=
            Function.update core.endpoints myself
              ((core.endpoints myself).map fun endpoint' =>
                { endpoint' with
                  karma :=
                    (core.karmaPolicy.getAccount
                      endpoint.remoteId "").1 }) } :=
    MtCore.keepsFactories_of_update rfl
      fun _ hFactory => hFactory
  have hCharge :=
    keepsFactories_of_undisturbed
      (CoreM.karmaPerform_undisturbed myself "login")
  rw [Fallible.exec_bind_ok (Fallible.exec_get core),
    Fallible.exec_bind_ok (Fallible.exec_set _ _),
    Fallible.exec_bind_ok (CoreM.exec_modifyEndpoint _ _ _)]
  refine IsTrans.trans _ _ _ hAccount ?_
  exact Keeps.bind hCharge (fun _ => Keeps.pure _) _

theorem onCompleteHandler_keepsFactories
    (protos : AgentProtos)
    (myself : E)
    (data : Wire) :
    Keeps KeepsFactories
      (onCompleteHandler protos myself data) := by
  refine withLock_keepsFactories myself fun endpoint => ?_
  refine Keeps.bind
    (keepsFactories_of_undisturbed
      (CoreM.karmaPerform_undisturbed _ _)) fun _ => ?_
  refine Keeps.bind (Keeps.modify fun _ _ => id) fun _ => ?_
  cases endpoint.factory with
  | none =>
      exact keepsFactories_of_undisturbed
        CoreM.crash_undisturbed
  | some factory =>
      exact processMessage_keepsFactories _ _ _ _

end OefAgentEndpoint

------------------------------------------------------------
-- Released Factories
------------------------------------------------------------

namespace KarmaPolicy

theorem Tolerates.perform_ok
    {policy : KarmaPolicy}
    {account : KarmaAccount}
    {event : String}
    (hTolerates : policy.Tolerates account event)
    (hNonempty : event.toList ≠ [])
    (hSingle : ',' ∉ event.toList) :
    ∃ granted policy',
      account.perform policy event = (.ok granted, policy') := by
  have hThrows := account.perform_throws_iff policy hNonempty
    hSingle
  rcases hPerform : account.perform policy event with
    ⟨outcome, policy'⟩
  cases outcome with
  | ok granted => exact ⟨granted, policy', rfl⟩
  | error thrown =>
      exact absurd hTolerates
        (hThrows.mp ⟨thrown, by rw [hPerform]⟩)

theorem perform_error
    {policy : KarmaPolicy}
    {account : KarmaAccount}
    {event : String}
    (hRefuses : ¬ policy.Tolerates account event)
    (hNonempty : event.toList ≠ [])
    (hSingle : ',' ∉ event.toList) :
    ∃ thrown policy',
      account.perform policy event =
        (.error thrown, policy') := by
  rcases (account.perform_throws_iff policy hNonempty
      hSingle).mpr hRefuses with ⟨thrown, hThrown⟩
  exact ⟨thrown, (account.perform policy event).2,
    Prod.ext hThrown rfl⟩

end KarmaPolicy

namespace MtCore

variable {E : Type}

/-
  A message for the connection goes to a factory that has
  been released: karma, which is asked first, lets it pass.
-/
def FollowsReleased
    (core : MtCore E)
    (myself : E) : Prop :=
  ∃ endpoint, core.endpoints myself = some endpoint ∧
    endpoint.factory = none ∧
      core.karmaPolicy.Tolerates endpoint.karma "message"

theorem HasFactory.not_followsReleased
    {core : MtCore E}
    {myself : E}
    (hFactory : core.HasFactory myself) :
    ¬ core.FollowsReleased myself := by
  rintro ⟨endpoint, hEndpoint, hNone, -⟩
  exact hFactory endpoint hEndpoint hNone

/- A close is tolerated, and after it a message. -/
def ClosesTolerated
    (core : MtCore E)
    (myself : E)
    (notice : CloseNotice) : Prop :=
  ∃ endpoint, core.endpoints myself = some endpoint ∧
    core.karmaPolicy.Tolerates endpoint.karma
      notice.karmaEvent ∧
    (endpoint.karma.perform core.karmaPolicy
      notice.karmaEvent).2.Tolerates endpoint.karma "message"

end MtCore

namespace OefAgentEndpoint

open MtCore (FollowsReleased ClosesTolerated)

variable {E : Type}

/- Where there is no factory, a message either ends in karma
   or follows the null pointer. -/
theorem exec_onCompleteHandler_none
    [DecidableEq E]
    {core : MtCore E}
    {myself : E}
    {endpoint : OefAgentEndpoint}
    (hEndpoint : core.endpoints myself = some endpoint)
    (hFactory : endpoint.factory = none)
    (protos : AgentProtos)
    (data : Wire) :
    ∃ thrown after,
      (onCompleteHandler protos myself data).exec core =
          (.error thrown, after) ∧
        (core.crashed = false →
          (after.crashed = true ↔
            core.FollowsReleased myself)) := by
  have hPerform := CoreM.exec_karmaPerform hEndpoint "message"
  unfold onCompleteHandler
  rw [exec_withLock hEndpoint]
  simp only [hFactory]
  by_cases hTolerates :
      core.karmaPolicy.Tolerates endpoint.karma "message"
  · rcases hTolerates.perform_ok (by simp) (by simp) with
      ⟨granted, policy, hKarma⟩
    rw [hKarma] at hPerform
    rw [Fallible.exec_bind_ok hPerform,
      Fallible.exec_bind_ok (Fallible.exec_modify _ _),
      CoreM.exec_crash]
    refine ⟨_, _, rfl, fun _ => iff_of_true rfl ?_⟩
    exact ⟨endpoint, hEndpoint, hFactory, hTolerates⟩
  · rcases KarmaPolicy.perform_error hTolerates (by simp)
        (by simp) with ⟨thrown, policy, hKarma⟩
    rw [hKarma] at hPerform
    rw [Fallible.exec_bind_error hPerform]
    refine ⟨_, _, rfl, fun hSound => iff_of_false ?_ ?_⟩
    · simp [hSound]
    · rintro ⟨other, hOther, -, hMessage⟩
      rw [hEndpoint] at hOther
      cases hOther
      exact hTolerates hMessage

/- A close handler that karma lets pass releases the factory,
   whichever it is. -/
theorem exec_closeHandler_some
    [DecidableEq E]
    {core : MtCore E}
    {myself : E}
    {endpoint : OefAgentEndpoint}
    (hEndpoint : core.endpoints myself = some endpoint)
    (hFactory : endpoint.factory ≠ none)
    {event : String}
    {granted : Bool}
    {policy : KarmaPolicy}
    (hKarma :
      endpoint.karma.perform core.karmaPolicy event =
        (.ok granted, policy)) :
    ∃ after,
      (closeHandler event myself).exec core = (.ok (), after) ∧
        after.endpoints myself =
          some { endpoint with factory := none } ∧
        after.karmaPolicy = policy := by
  rcases Option.ne_none_iff_exists'.mp hFactory with
    ⟨factory, hSome⟩
  cases factory with
  | oefFunctions factory =>
      exact ⟨_, exec_closeHandler_ok hEndpoint hSome hKarma,
        by simp, rfl⟩
  | initialHandshake factory =>
      have hPerform := CoreM.exec_karmaPerform hEndpoint event
      rw [hKarma] at hPerform
      unfold closeHandler
      rw [exec_withLock hEndpoint,
        Fallible.exec_bind_ok hPerform]
      simp only [hSome, IOefAgentTaskFactory.endpointClosed,
        Fallible.exec_bind, Fallible.exec_pure,
        CoreM.exec_modifyEndpoint, CoreM.exec_cancelTaskGroup,
        hEndpoint, Option.map_some]
      exact ⟨_, rfl, by simp, rfl⟩

/- What a close handler leaves for the next message. -/
theorem followsReleased_closeHandler_iff
    [DecidableEq E]
    {core : MtCore E}
    {myself : E}
    (hFactory : core.HasFactory myself)
    (notice : CloseNotice) :
    ((closeHandler notice.karmaEvent myself).exec
        core).2.FollowsReleased myself ↔
      core.ClosesTolerated myself notice := by
  rcases notice.karmaEvent_single with ⟨hNonempty, hSingle⟩
  cases hEndpoint : core.endpoints myself with
  | none =>
      have hSame :
          ((closeHandler notice.karmaEvent myself).exec core).2 =
            core := by
        unfold closeHandler withLock
        rw [Fallible.exec_bind_ok (Fallible.exec_get core),
          hEndpoint]
        rfl
      rw [hSame]
      simp [FollowsReleased, ClosesTolerated, hEndpoint]
  | some endpoint =>
      by_cases hTolerates :
          core.karmaPolicy.Tolerates endpoint.karma
            notice.karmaEvent
      · rcases hTolerates.perform_ok hNonempty hSingle with
          ⟨granted, policy, hKarma⟩
        rcases exec_closeHandler_some hEndpoint
            (hFactory endpoint hEndpoint) hKarma with
          ⟨after, hExec, hReleased, hPolicy⟩
        rw [hExec]
        simp [FollowsReleased, ClosesTolerated, hReleased,
          hPolicy, hEndpoint, hTolerates, hKarma]
      · rcases KarmaPolicy.perform_error hTolerates hNonempty
            hSingle with ⟨thrown, policy, hKarma⟩
        rw [exec_closeHandler_error hEndpoint hKarma]
        simp [FollowsReleased, ClosesTolerated, hEndpoint,
          hTolerates, hFactory endpoint hEndpoint]

end OefAgentEndpoint

------------------------------------------------------------
-- Closing Writes
------------------------------------------------------------

namespace EndpointBase

variable {E P TX : Type} [DecidableEq E]

theorem Aside.handledBy
    {ep' ep : EndpointBase P TX (MtCore E)}
    (hAside : Aside ep' ep)
    {myself : E}
    (hHandled : ep.HandledBy myself) :
    ep'.HandledBy myself where
  onEof_eq := hAside.onEof_eq.trans hHandled.onEof_eq
  onError_eq := hAside.onError_eq.trans hHandled.onError_eq
  onProtoError_eq :=
    hAside.onProtoError_eq.trans hHandled.onProtoError_eq

/- A write that closes a live endpoint gives its notice, and
   the close handler runs. -/
theorem step_of_writeNotice
    [IMessageReader P (MtCore E)]
    [IMessageWriter P TX]
    {ep : EndpointBase P TX (MtCore E)}
    (hAlive : ep.state.dead = false)
    {myself : E}
    (hHandled : ep.HandledBy myself)
    {event : Event TX}
    {notice : CloseNotice}
    (hNotice : event.writeNotice = some notice) :
    Shut (ep.step event) ep ∧
      (ep.step event).world =
        ((OefAgentEndpoint.closeHandler notice.karmaEvent
          myself).exec ep.world).2 := by
  have hFlags := hAlive
  simp only [EndpointState.dead, Bool.or_eq_false_iff]
    at hFlags
  rcases hFlags with ⟨⟨-, hEof⟩, hErrored⟩
  cases event with
  | readCompletes | runSending | runReading | close | send =>
      cases hNotice
  | writeCompletes ec bytes =>
      let popped := { ep with writes := ep.writes.drop 1 }
      have hPopped : popped.HandledBy myself :=
        ⟨hHandled.onEof_eq, hHandled.onError_eq,
          hHandled.onProtoError_eq⟩
      have hClosed : popped.close.HandledBy myself :=
        popped.close_aside.handledBy hPopped
      simp only [step, writeCompletes, completeSending, hAlive,
        Bool.false_eq_true, if_false]
      cases ec with
      | success => cases hNotice
      | eof | operationAborted =>
          cases hNotice
          have hShut := popped.close.eof_shut
          exact ⟨⟨hShut.dead, hShut.protocol_eq⟩,
            hClosed.world_give hEof hErrored .eof⟩
      | other value =>
          cases hNotice
          have hShut := popped.error_shut (.other value)
          exact ⟨⟨hShut.dead, hShut.protocol_eq⟩,
            hPopped.world_give hEof hErrored
              (.error (.other value))⟩

end EndpointBase

------------------------------------------------------------
-- Batches of a Connection
------------------------------------------------------------

namespace BatchedEndpoint

variable {E TX : Type} [DecidableEq E]

/- The handler for messages, as the reader stores it. -/
def messageHandler
    (protos : AgentProtos)
    (myself : E) :
    Callback (MtCore E) ConstCharArrayBuffer :=
  OefAgentEndpoint.toCallback fun buffer =>
    OefAgentEndpoint.onCompleteHandler protos myself
      buffer.copyOut

/- A connection that the listener has accepted. -/
def accepted
    (ep :
      EndpointBase (ProtoMessageEndpoint (MtCore E)) TX
        (MtCore E))
    (protos : AgentProtos)
    (myself : E) : BatchedEndpoint TX (MtCore E) where
  endpoint :=
    (OefAgentEndpoint.setup
      { ep with
        protocol := .fresh (messageHandler protos myself) }
      myself).go
  batch := none

/- The pass that comes next calls `processMessage` on a
   factory that a close handler has released. -/
structure Dereferences
    (s : BatchedEndpoint TX (MtCore E))
    (myself : E) : Prop where
  nextMessage : s.nextMessage ≠ none
  followsReleased : s.endpoint.world.FollowsReleased myself

/-
  A completed write closes the live endpoint while its last
  read has another message to hand on, and karma tolerates
  both the close and the message.
-/
structure ClosesBetween
    (s : BatchedEndpoint TX (MtCore E))
    (myself : E)
    (event : Event TX) : Prop where
  alive : s.endpoint.state.dead = false
  nextMessage : s.nextMessage ≠ none
  tolerated :
    ∃ notice, event.writeNotice = some notice ∧
      s.endpoint.world.ClosesTolerated myself notice

/-
  While the connection lives its handlers are in place, and
  it has its factory; when it is closed no message is waiting
  for a factory that is gone.
-/
structure Attended
    (protos : AgentProtos)
    (myself : E)
    (s : BatchedEndpoint TX (MtCore E)) : Prop where
  onComplete_eq :
    s.endpoint.protocol.protoMessageReader.onComplete =
      some (messageHandler protos myself)
  handledBy :
    s.endpoint.state.dead = false →
      s.endpoint.HandledBy myself
  kept :
    s.endpoint.world.HasFactory myself ∨
      s.endpoint.state.dead = true ∧ ¬ s.Dereferences myself

namespace Attended

open EndpointBase (Aside Shut)

variable {protos : AgentProtos} {myself : E}
variable {s s' : BatchedEndpoint TX (MtCore E)}

omit [DecidableEq E] in
theorem nextMessage_congr
    (hProtocol : s'.endpoint.protocol = s.endpoint.protocol)
    (hBatch : s'.batch = s.batch) :
    s'.nextMessage = s.nextMessage := by
  unfold nextMessage
  rw [hProtocol, hBatch]

theorem not_dereferences
    (hAttended : Attended protos myself s) :
    ¬ s.Dereferences myself := by
  rcases hAttended.kept with hFactory | ⟨-, hNot⟩
  · exact fun hFollows =>
      hFactory.not_followsReleased hFollows.followsReleased
  · exact hNot

/- A live connection has its factory. -/
theorem hasFactory
    (hAttended : Attended protos myself s)
    (hAlive : s.endpoint.state.dead = false) :
    s.endpoint.world.HasFactory myself := by
  rcases hAttended.kept with hFactory | ⟨hDead, -⟩
  · exact hFactory
  · rw [hAlive] at hDead
    cases hDead

/- Nothing changes that the batch depends on. -/
theorem aside
    (hAttended : Attended protos myself s)
    (hAside : Aside s'.endpoint s.endpoint)
    (hBatch :
      s'.batch = s.batch ∨ s.endpoint.state.dead = false) :
    Attended protos myself s' where
  onComplete_eq := by
    rw [hAside.protocol_eq]
    exact hAttended.onComplete_eq
  handledBy := fun hAlive =>
    hAside.handledBy (hAttended.handledBy (hAside.alive hAlive))
  kept := by
    rw [hAside.world_eq]
    rcases hBatch with hSame | hAlive
    · refine hAttended.kept.imp id ?_
      rintro ⟨hDead, hNot⟩
      refine ⟨hAside.dead hDead, fun hFollows => hNot ?_⟩
      have hNext := nextMessage_congr hAside.protocol_eq hSame
      exact
        { nextMessage := hNext ▸ hFollows.nextMessage
          followsReleased :=
            hAside.world_eq ▸ hFollows.followsReleased }
    · exact Or.inl (hAttended.hasFactory hAlive)

/- The endpoint is dead, and no read is at work. -/
theorem ended
    (hOnComplete :
      s.endpoint.protocol.protoMessageReader.onComplete =
        some (messageHandler protos myself))
    (hDead : s.endpoint.state.dead = true)
    (hEnded : s.batch = none) :
    Attended protos myself s where
  onComplete_eq := hOnComplete
  handledBy := fun hAlive => by
    rw [hDead] at hAlive
    cases hAlive
  kept := by
    refine Or.inr ⟨hDead, fun hFollows => ?_⟩
    exact hFollows.nextMessage (by simp [nextMessage, hEnded])

/- The reader or a message has gone on. -/
theorem heard
    (hAttended : Attended protos myself s)
    {protocol : ProtoMessageEndpoint (MtCore E)}
    (hOnComplete :
      protocol.protoMessageReader.onComplete =
        some (messageHandler protos myself))
    (world : MtCore E)
    (batch : Option Batch)
    (hKept :
      world.HasFactory myself ∨
        s.endpoint.state.dead = true ∧ batch = none) :
    Attended protos myself
      { endpoint :=
          { s.endpoint with protocol := protocol, world := world }
        batch := batch } where
  onComplete_eq := hOnComplete
  handledBy := fun hAlive => by
    have hHandled := hAttended.handledBy hAlive
    exact ⟨hHandled.onEof_eq, hHandled.onError_eq,
      hHandled.onProtoError_eq⟩
  kept := by
    refine hKept.imp id ?_
    rintro ⟨hDead, hEnded⟩
    refine ⟨hDead, fun hFollows => hFollows.nextMessage ?_⟩
    simp [nextMessage, hEnded]

/- A message that does not throw found its factory. -/
theorem hasFactory_of_handled
    {buffer : ConstCharArrayBuffer}
    {core after : MtCore E}
    (hDone :
      messageHandler protos myself buffer core =
        (.ok (), after)) :
    after.HasFactory myself := by
  have hAfter :
      ((OefAgentEndpoint.onCompleteHandler protos myself
        buffer.copyOut).exec core).2 = after := by
    rw [← OefAgentEndpoint.toCallback_snd
      (fun buffer : ConstCharArrayBuffer =>
        OefAgentEndpoint.onCompleteHandler protos myself
          buffer.copyOut)]
    exact congrArg Prod.snd hDone
  rw [← hAfter]
  apply OefAgentEndpoint.onCompleteHandler_keepsFactories
  intro endpoint hEndpoint hFactory
  rcases (OefAgentEndpoint.exec_onCompleteHandler_none
      hEndpoint hFactory protos buffer.copyOut) with
    ⟨thrown, left, hExec, -⟩
  simp only [messageHandler, OefAgentEndpoint.toCallback, hExec]
    at hDone
  cases hDone

/- A read completes: it is the end of a connection, or the
   start of a batch on a live one. -/
theorem readCompletes
    (hAttended : Attended protos myself s)
    (hIdle : s.batch = none)
    (ec : ErrorCode)
    (bytes : List UInt8) :
    Attended protos myself (s.readCompletes ec bytes) := by
  have hArrived := (s.endpoint.arrived_untouched bytes).aside
  unfold BatchedEndpoint.readCompletes
  simp only
  split
  · exact hAttended.aside hArrived (Or.inl rfl)
  · rename_i hLives
    have hAlive :=
      hArrived.alive (Bool.not_eq_true _ ▸ hLives)
    have hEnds :
        ∀ ep' : EndpointBase (ProtoMessageEndpoint (MtCore E))
            TX (MtCore E),
          Shut ep' (s.endpoint.arrived bytes) →
            Attended protos myself
              { s with endpoint := ep' } := by
      intro ep' hShut
      refine ended ?_ hShut.dead hIdle
      rw [hShut.protocol_eq, hArrived.protocol_eq]
      exact hAttended.onComplete_eq
    cases ec with
    | success =>
        have hMarked :
            Aside
              { s.endpoint.arrived bytes with
                readBuffer :=
                  (s.endpoint.arrived
                    bytes).readBuffer.markSpaceUsed
                      bytes.length }
              (s.endpoint.arrived bytes) :=
          ⟨rfl, rfl, rfl, rfl, rfl, id⟩
        exact hAttended.aside (hMarked.trans hArrived)
          (Or.inr hAlive)
    | eof | operationAborted =>
        apply hEnds
        simp only [EndpointBase.completeReading, if_neg hLives]
        have hShut :=
          (s.endpoint.arrived bytes).close.eof_shut
        exact ⟨hShut.dead, hShut.protocol_eq⟩
    | other value =>
        apply hEnds
        simp only [EndpointBase.completeReading, if_neg hLives]
        have hShut := EndpointBase.error_shut
          { s.endpoint.arrived bytes with
            state :=
              { (s.endpoint.arrived bytes).state with
                errored := true } }
          (.other value)
        have hClose := EndpointBase.close_aside
          ({ s.endpoint.arrived bytes with
              state :=
                { (s.endpoint.arrived bytes).state with
                  errored := true } }.error (.other value))
        exact ⟨hClose.dead hShut.dead,
          hClose.protocol_eq.trans hShut.protocol_eq⟩

/- The read completion returns, or its exception is
   reported. -/
theorem conclude
    (hAttended : Attended protos myself s)
    {checked : ProtoMessageEndpoint.Checked (MtCore E)}
    (hOnComplete :
      checked.endpoint.protoMessageReader.onComplete =
        some (messageHandler protos myself))
    (hWorld :
      checked.world = s.endpoint.world ∨
        ∃ what, checked.result = .error what) :
    Attended protos myself (s.conclude checked) := by
  unfold BatchedEndpoint.conclude
  simp only
  cases hResult : checked.result with
  | error what =>
      have hShut := EndpointBase.protoError_shut
        { s.endpoint with
          protocol := checked.endpoint
          world := checked.world } what
      apply ended _ hShut.dead rfl
      rw [hShut.protocol_eq]
      exact hOnComplete
  | ok counts =>
      have hSame : checked.world = s.endpoint.world := by
        rcases hWorld with hSame | ⟨what, hWhat⟩
        · exact hSame
        · rw [hResult] at hWhat
          cases hWhat
      refine (hAttended.heard hOnComplete checked.world none
        ?_).aside ?_ (Or.inl rfl)
      · rw [hSame]
        exact hAttended.kept.imp id fun hDead => ⟨hDead.1, rfl⟩
      · exact (EndpointBase.runReading_untouched _).aside.trans
          ⟨rfl, rfl, rfl, rfl, rfl, id⟩

/- One pass: a message either finds its factory, or karma
   refuses it. -/
theorem pass
    (hAttended : Attended protos myself s) :
    Attended protos myself s.pass := by
  unfold BatchedEndpoint.pass
  cases hBatch : s.batch with
  | none => exact hAttended
  | some batch =>
      have hOnComplete :=
        (s.endpoint.protocol.onComplete_iterate
          batch.chars).trans hAttended.onComplete_eq
      simp only
      cases hPass :
          s.endpoint.protocol.iterate batch.chars with
      | needs needed protocol =>
          rw [hPass] at hOnComplete
          exact hAttended.conclude hOnComplete (Or.inl rfl)
      | throws what protocol =>
          rw [hPass] at hOnComplete
          exact hAttended.conclude hOnComplete (Or.inl rfl)
      | message buffer bodySize protocol chars =>
          rw [hPass] at hOnComplete
          have hHandler :
              protocol.protoMessageReader.onComplete =
                some (messageHandler protos myself) :=
            hOnComplete
          simp only [hHandler]
          rcases hDone :
              messageHandler protos myself buffer
                s.endpoint.world with
            ⟨outcome, world⟩
          cases outcome with
          | error what =>
              exact hAttended.conclude hHandler
                (Or.inr ⟨what, rfl⟩)
          | ok value =>
              exact hAttended.heard hHandler world _
                (Or.inl (hasFactory_of_handled hDone))

/- What the condition leaves to a write that closes a live
   endpoint, and what it takes from it. -/
theorem step_writeNotice
    [IMessageWriter (ProtoMessageEndpoint (MtCore E)) TX]
    (hAttended : Attended protos myself s)
    (hAlive : s.endpoint.state.dead = false)
    {event : EndpointBase.Event TX}
    {notice : CloseNotice}
    (hNotice : event.writeNotice = some notice) :
    (s.step (.happens event)).endpoint.Shut s.endpoint ∧
      ((s.step (.happens event)).Dereferences myself ↔
        s.ClosesBetween myself (.happens event)) := by
  have hStep :
      s.step (.happens event) =
        { s with endpoint := s.endpoint.step event } := by
    cases event with
    | readCompletes => cases hNotice
    | writeCompletes | runSending | runReading | close
    | send => rfl
  rcases EndpointBase.step_of_writeNotice hAlive
      (hAttended.handledBy hAlive) hNotice with
    ⟨hShut, hWorld⟩
  have hNext :
      { s with endpoint := s.endpoint.step event }.nextMessage =
        s.nextMessage :=
    nextMessage_congr hShut.protocol_eq rfl
  have hCloses :=
    OefAgentEndpoint.followsReleased_closeHandler_iff
      (hAttended.hasFactory hAlive) notice
  rw [← hWorld] at hCloses
  rw [hStep]
  refine ⟨hShut, ?_, ?_⟩
  · intro hFollows
    exact
      { alive := hAlive
        nextMessage := hNext ▸ hFollows.nextMessage
        tolerated :=
          ⟨notice, hNotice,
            hCloses.mp hFollows.followsReleased⟩ }
  · intro hBetween
    rcases hBetween.tolerated with
      ⟨other, hOther, hTolerated⟩
    have hSame : notice = other :=
      Option.some.inj (hNotice.symm.trans hOther)
    rw [← hSame] at hTolerated
    exact
      { nextMessage := hNext.symm ▸ hBetween.nextMessage
        followsReleased := hCloses.mpr hTolerated }

/- One event that closes nothing between two messages. -/
theorem step
    [IMessageWriter (ProtoMessageEndpoint (MtCore E)) TX]
    (hAttended : Attended protos myself s)
    {event : Event TX}
    (hBetween : ¬ s.ClosesBetween myself event) :
    Attended protos myself (s.step event) := by
  cases event with
  | pass => exact hAttended.pass
  | happens event =>
      by_cases hQuiet :
          s.endpoint.state.dead = true ∨
            event.writeNotice = none
      · cases event with
        | readCompletes ec bytes =>
            cases hBatch : s.batch with
            | none =>
                simp only [BatchedEndpoint.step, hBatch]
                exact hAttended.readCompletes hBatch ec bytes
            | some batch =>
                simpa only [BatchedEndpoint.step, hBatch]
                  using hAttended
        | writeCompletes | runSending | runReading | close
        | send =>
            have hStep := s.endpoint.step_aside
              (hQuiet.imp id fun hNone => ⟨hNone, by simp⟩)
            exact hAttended.aside hStep (Or.inl rfl)
      · rcases not_or.mp hQuiet with ⟨hLives, hSome⟩
        rcases Option.ne_none_iff_exists'.mp hSome with
          ⟨notice, hNotice⟩
        have hAlive : s.endpoint.state.dead = false :=
          Bool.not_eq_true _ ▸ hLives
        rcases hAttended.step_writeNotice hAlive hNotice with
          ⟨hShut, hFollows⟩
        exact
          { onComplete_eq := by
              rw [hShut.protocol_eq]
              exact hAttended.onComplete_eq
            handledBy := fun hStill => by
              rw [hShut.dead] at hStill
              cases hStill
            kept := Or.inr
              ⟨hShut.dead, fun hAfter =>
                hBetween (hFollows.mp hAfter)⟩ }

/- A connection that was just made is asked for a read. -/
theorem opened
    {ep :
      EndpointBase (ProtoMessageEndpoint (MtCore E)) TX
        (MtCore E)}
    (hOnComplete :
      ep.protocol.protoMessageReader.onComplete =
        some (messageHandler protos myself))
    (hHandled : ep.HandledBy myself)
    (hFactory : ep.world.HasFactory myself) :
    Attended protos myself
      { endpoint := ep.runReading, batch := none } := by
  have hBefore :
      Attended protos myself { endpoint := ep, batch := none } :=
    ⟨hOnComplete, fun _ => hHandled, Or.inl hFactory⟩
  exact hBefore.aside ep.runReading_untouched.aside (Or.inl rfl)

/- Whether or not its start handler throws. -/
theorem accepted
    {ep :
      EndpointBase (ProtoMessageEndpoint (MtCore E)) TX
        (MtCore E)}
    (hFactory : ep.world.HasFactory myself) :
    Attended protos myself
      (BatchedEndpoint.accepted ep protos myself) := by
  have hStart :=
    OefAgentEndpoint.onStartHandler_keepsFactories myself
      ep.world myself hFactory
  unfold BatchedEndpoint.accepted EndpointBase.go
  simp only [OefAgentEndpoint.setup,
    OefAgentEndpoint.toCallback]
  rcases hExec :
      (OefAgentEndpoint.onStartHandler myself).exec
        ep.world with ⟨outcome, world⟩
  rw [hExec] at hStart
  cases outcome with
  | error thrown =>
      exact opened rfl ⟨rfl, rfl, rfl⟩ hStart
  | ok value =>
      exact opened rfl ⟨rfl, rfl, rfl⟩ hStart

end Attended

------------------------------------------------------------
-- Runs
------------------------------------------------------------

section Runs

variable [IMessageWriter (ProtoMessageEndpoint (MtCore E)) TX]

/-
  No message is processed after clean-up along exactly those
  runs in which no write closes the live connection between
  two messages of a batch.
-/
theorem never_dereferences_iff
    (ep :
      EndpointBase (ProtoMessageEndpoint (MtCore E)) TX
        (MtCore E))
    (protos : AgentProtos)
    (myself : E)
    (hFactory : ep.world.HasFactory myself)
    (events : List (Event TX)) :
    (∀ front, front <+: events →
        ¬ ((accepted ep protos myself).run
          front).Dereferences myself) ↔
      ∀ front event back,
        events = front ++ event :: back →
          ¬ ((accepted ep protos myself).run
            front).ClosesBetween myself event := by
  refine Runs.forall_prefix_iff
    (fun front =>
      Attended protos myself
        ((accepted ep protos myself).run front))
    (Attended.accepted hFactory) ?_ ?_ ?_
  · intro front hAttended
    exact hAttended.not_dereferences
  · intro front event back _ hAttended hBetween
    rw [run_snoc]
    exact hAttended.step hBetween
  · intro front event back _ hAttended hNot hBetween
    rw [run_snoc] at hNot
    rcases hBetween.tolerated with ⟨notice, hNotice, -⟩
    cases event with
    | pass => cases hNotice
    | happens event =>
        exact hNot
          ((hAttended.step_writeNotice hBetween.alive
            hNotice).2.mpr hBetween)

end Runs

/- Every message is a pong. -/
def pongProtos : AgentProtos where
  agentServerID := fun _ => none
  agentServerAnswer := fun _ => none
  envelope := fun _ =>
    some { msgId := 1, agentUri := "", payload := .pong }

/- A connection with an agent behind it, without karma. -/
def pongEndpoint :
    EndpointBase (ProtoMessageEndpoint (MtCore Unit)) ShortBody
      (MtCore Unit) :=
  EndpointBase.construct
    (.fresh (messageHandler pongProtos ())) 16 16
    { loggedInCore "login" with karmaPolicy := .none }

/- Two messages arrive, and the write of an answer to the
   first reports the end of the connection. -/
def closedBetween (answer : ShortBody) :
    List (Event ShortBody) :=
  [.happens
      (.readCompletes .success [1, 0, 0, 0, 9, 1, 0, 0, 0, 9]),
    .pass,
    .happens (.send answer),
    .happens .runSending,
    .happens (.writeCompletes .eof 0)]

theorem never_dereferences_iff_closedBetween :
    (∀ front, front <+: closedBetween ⟨[7], by decide⟩ →
        ¬ ((accepted pongEndpoint pongProtos ()).run
          front).Dereferences ()) ↔
      ∀ front event back,
        closedBetween ⟨[7], by decide⟩ =
            front ++ event :: back →
          ¬ ((accepted pongEndpoint pongProtos ()).run
            front).ClosesBetween () event :=
  never_dereferences_iff pongEndpoint pongProtos ()
    (by simp [MtCore.HasFactory, pongEndpoint,
      EndpointBase.construct, loggedInCore]) _

/- The second message is handed on after the clean-up, and
   follows the null pointer. -/
theorem dereferences_closedBetween :
    (¬ ∀ front, front <+: closedBetween ⟨[7], by decide⟩ →
        ¬ ((accepted pongEndpoint pongProtos ()).run
          front).Dereferences ()) ∧
      ((accepted pongEndpoint pongProtos ()).run
        (closedBetween ⟨[7], by decide⟩ ++
          [.pass])).endpoint.world.crashed = true := by
  refine ⟨fun hNever => ?_, by decide +kernel⟩
  apply hNever _ List.prefix_rfl
  have hReleased :
      (((accepted pongEndpoint pongProtos ()).run
        (closedBetween
          ⟨[7], by decide⟩)).endpoint.world.endpoints ()).map
            (fun endpoint => endpoint.factory) = some none := by
    decide +kernel
  have hTolerates :
      ∀ account,
        KarmaPolicy.Tolerates
          ((accepted pongEndpoint pongProtos ()).run
            (closedBetween
              ⟨[7], by decide⟩)).endpoint.world.karmaPolicy
          account "message" :=
    fun _ => trivial
  have hNext :
      ((accepted pongEndpoint pongProtos ()).run
        (closedBetween
          ⟨[7], by decide⟩)).nextMessage.isSome = true := by
    decide +kernel
  rcases Option.map_eq_some_iff.mp hReleased with
    ⟨endpoint, hEndpoint, hNone⟩
  exact
    { nextMessage := Option.isSome_iff_ne_none.mp hNext
      followsReleased :=
        ⟨endpoint, hEndpoint, hNone, hTolerates _⟩ }

end BatchedEndpoint

end OefCore
