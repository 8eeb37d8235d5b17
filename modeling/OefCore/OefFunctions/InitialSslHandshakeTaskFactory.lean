import OefCore.Comms.HandlerFrames
import OefCore.OefFunctions.InitialHandshakeTaskFactory
import OefCore.Secure.PublicKeyUtils

/-
  The handshake of an agent that is known by the key of its
  certificate, and the white list that it is checked against.

  Main declarations:
    * `InitialSslHandshakeTaskFactory.processMessage`
    * `MtCore.HasAgent`, `MtCore.Admits`
    * `InitialSslHandshakeTaskFactory.admits_processMessage_iff`,
      `admits_listed_iff`
-/

namespace OefCore

------------------------------------------------------------
-- The Handshake
------------------------------------------------------------

structure InitialSslHandshakeTaskFactory where
  coreKey : String
  whiteList : List String
  whiteListEnabled : Bool
  deriving DecidableEq, Repr

namespace InitialSslHandshakeTaskFactory

variable {E K : Type} [DecidableEq E]

/- `get_peer_ssl_key`: there may be no certificate. -/
def getPeerSslKey (peer : Option K) : CoreM E K :=
  match peer with
  | some key => return key
  | none => throw .standard

/- What is done for an agent that is let in. -/
def welcome
    (self : InitialSslHandshakeTaskFactory)
    (hi : AgentServerAnswer)
    (publicKey : String)
    (myself : E) : CoreM E Unit := do
  CoreM.submit (.sendConnected true myself)
  modify fun core =>
    { core with agents := core.agents.add publicKey myself }
  CoreM.karmaUpgrade myself "" publicKey
  let _ ← CoreM.karmaPerform myself "login"
  InitialHandshakeTaskFactory.startHeartbeat hi myself
  CoreM.modifyEndpoint myself fun endpoint =>
    { endpoint with loggedin := true }
  InitialHandshakeTaskFactory.successor
    (.oefFunctions
      { agentPublicKey := publicKey
        coreKey := self.coreKey })
    myself

/- The text of the key decides. -/
def lets
    (self : InitialSslHandshakeTaskFactory)
    (ssl : OpenSsl K)
    (key : K) : Bool :=
  self.whiteList.contains (EvpPublicKey.toString ssl key) ||
    !self.whiteListEnabled

def processMessage
    (self : InitialSslHandshakeTaskFactory)
    (protos : AgentProtos)
    (ssl : OpenSsl K)
    (peer : Option K)
    (myself : E)
    (data : Wire) : CoreM E Unit := do
  let hi ← CoreM.read protos.agentServerAnswer data
  CoreM.modifyEndpoint myself fun endpoint =>
    { endpoint with willHeartbeat := hi.willHeartbeat }
  let key ← getPeerSslKey peer
  let publicKey :=
    rsaModulusShort (EvpPublicKey.toString ssl key)
  if self.lets ssl key then
    self.welcome hi publicKey myself
  else
    CoreM.submit (.sendConnected false myself)

end InitialSslHandshakeTaskFactory

------------------------------------------------------------
-- Admission
------------------------------------------------------------

namespace MtCore

variable {E : Type}

/- A connection is registered as an agent, or has become one
   for the functions of the core. -/
def HasAgent (core : MtCore E) (myself : E) : Prop :=
  (∃ key agent,
    core.agents.find key = some agent ∧
      agent.endpoint = myself) ∨
  ∃ endpoint functions,
    core.endpoints myself = some endpoint ∧
      endpoint.factory = some (.oefFunctions functions)

/- What is done to the core makes an agent of a connection
   that was none. -/
def Admits (before after : MtCore E) (myself : E) : Prop :=
  ¬ before.HasAgent myself ∧ after.HasAgent myself

theorem hasAgent_of_undisturbed
    {before after : MtCore E}
    (hUndisturbed : before.Undisturbed after)
    {myself : E}
    (hAfter : after.HasAgent myself) :
    before.HasAgent myself := by
  rcases hAfter with ⟨key, agent, hFind, hAgent⟩ |
    ⟨endpoint, functions, hEndpoint, hFactory⟩
  · left
    refine ⟨key, agent, ?_, hAgent⟩
    rw [← hUndisturbed.agents_eq]
    exact hFind
  · right
    have hSession := session_eq_some hEndpoint
    rw [hUndisturbed.session_eq] at hSession
    rcases exists_endpoint hSession with
      ⟨found, hFound, hSame, _⟩
    exact ⟨found, functions, hFound, hSame.trans hFactory⟩

theorem hasAgent_of_agents_eq
    {before after : MtCore E}
    {publicKey : String}
    {myself : E}
    (hAgents : after.agents = before.agents.add publicKey myself) :
    after.HasAgent myself := by
  left
  refine ⟨publicKey,
    { key := publicKey, endpoint := myself }, ?_, rfl⟩
  rw [hAgents]
  exact Agents.find_add_self _ _ _

/- The registry stays as it is. -/
def SameAgents (before after : MtCore E) : Prop :=
  after.agents = before.agents

instance refl_sameAgents :
    Std.Refl (SameAgents (E := E)) where
  refl _ := rfl

instance trans_sameAgents :
    IsTrans (MtCore E) SameAgents where
  trans _ _ _ hFirst hThen := hThen.trans hFirst

end MtCore

namespace InitialSslHandshakeTaskFactory

open Fallible (Keeps)
open MtCore (SameAgents Undisturbed)

variable {E K : Type} [DecidableEq E]

theorem modifyEndpoint_sameAgents
    (myself : E)
    (f : OefAgentEndpoint → OefAgentEndpoint) :
    Keeps SameAgents (CoreM.modifyEndpoint myself f) :=
  fun _ => rfl

theorem karmaUpgrade_sameAgents
    (myself : E)
    (pubkey ip : String) :
    Keeps SameAgents (CoreM.karmaUpgrade myself pubkey ip) := by
  intro core
  cases hEndpoint : core.endpoints myself with
  | none =>
      unfold CoreM.karmaUpgrade CoreM.getEndpoint
      simp only [Fallible.exec_bind, Fallible.exec_get,
        hEndpoint, CoreM.exec_crash]
      rfl
  | some endpoint =>
      cases hPolicy : endpoint.karma.hasPolicy with
      | true =>
          rw [CoreM.exec_karmaUpgrade hEndpoint hPolicy]
          rfl
      | false =>
          unfold CoreM.karmaUpgrade
          rw [Fallible.exec_bind_ok
            (CoreM.exec_getEndpoint hEndpoint)]
          simp only [hPolicy, Bool.false_eq_true, if_false,
            CoreM.exec_crash]
          rfl

omit [DecidableEq E] in
theorem startHeartbeat_sameAgents
    (hi : AgentServerAnswer)
    (myself : E) :
    Keeps SameAgents
      (InitialHandshakeTaskFactory.startHeartbeat hi
        myself) := by
  unfold InitialHandshakeTaskFactory.startHeartbeat
  split
  · intro core
    rfl
  · exact Keeps.pure _

/- Whatever comes after it, an agent that is let in stays
   registered. -/
theorem agents_welcome
    (self : InitialSslHandshakeTaskFactory)
    (hi : AgentServerAnswer)
    (publicKey : String)
    (myself : E)
    (core : MtCore E) :
    ((self.welcome hi publicKey myself).exec core).2.agents =
      core.agents.add publicKey myself := by
  have hRest : Keeps SameAgents (do
      CoreM.karmaUpgrade myself "" publicKey
      let _ ← CoreM.karmaPerform myself "login"
      InitialHandshakeTaskFactory.startHeartbeat hi myself
      CoreM.modifyEndpoint myself fun endpoint =>
        { endpoint with loggedin := true }
      InitialHandshakeTaskFactory.successor
        (.oefFunctions
          { agentPublicKey := publicKey
            coreKey := self.coreKey })
        myself) := by
    apply Keeps.bind (karmaUpgrade_sameAgents myself _ _)
    intro _
    refine Keeps.bind (fun core => ?_) ?_
    · exact (CoreM.karmaPerform_undisturbed myself "login"
        core).agents_eq
    intro _
    apply Keeps.bind (startHeartbeat_sameAgents hi myself)
    intro _
    apply Keeps.bind (modifyEndpoint_sameAgents myself _)
    intro _
    exact modifyEndpoint_sameAgents myself _
  unfold welcome
  rw [Fallible.exec_bind_ok (CoreM.exec_submit _ _),
    Fallible.exec_bind_ok (Fallible.exec_modify _ _)]
  exact hRest _

/- An agent is let in by the text of its key only. -/
theorem processMessage_undisturbed
    {self : InitialSslHandshakeTaskFactory}
    {protos : AgentProtos}
    {ssl : OpenSsl K}
    {peer : Option K}
    {data : Wire}
    (hLets : ∀ key hi,
      peer = some key →
        protos.agentServerAnswer data = some hi →
          self.lets ssl key = false)
    (myself : E) :
    Keeps Undisturbed
      (self.processMessage protos ssl peer myself data) := by
  intro core
  unfold processMessage
  cases hParse : protos.agentServerAnswer data with
  | none =>
      rw [Fallible.exec_bind_error
        (CoreM.exec_read_none hParse core)]
      exact ⟨rfl, rfl, id⟩
  | some hi =>
      rw [Fallible.exec_bind_ok
        (CoreM.exec_read_some hParse core)]
      have hEndpoint :=
        CoreM.modifyEndpoint_undisturbed myself
          (f := fun endpoint =>
            { endpoint with willHeartbeat := hi.willHeartbeat })
          (fun _ => rfl)
          (fun _ => rfl)
      refine Keeps.bind hEndpoint (fun _ later => ?_) core
      cases hPeer : peer with
      | none =>
          rw [getPeerSslKey, Fallible.exec_bind_error
            (Fallible.exec_throw _ _)]
          exact ⟨rfl, rfl, id⟩
      | some key =>
          rw [getPeerSslKey, Fallible.exec_bind_ok
            (Fallible.exec_pure _ _)]
          simp only [hLets key hi hPeer hParse,
            Bool.false_eq_true, if_false]
          exact CoreM.submit_undisturbed _ later

/- One that is let in is registered. -/
theorem hasAgent_processMessage
    {self : InitialSslHandshakeTaskFactory}
    {protos : AgentProtos}
    {ssl : OpenSsl K}
    {key : K}
    {data : Wire}
    {hi : AgentServerAnswer}
    (hParse : protos.agentServerAnswer data = some hi)
    (hLets : self.lets ssl key = true)
    (myself : E)
    (core : MtCore E) :
    ((self.processMessage protos ssl (some key) myself
      data).exec core).2.HasAgent myself := by
  unfold processMessage getPeerSslKey
  rw [Fallible.exec_bind_ok (CoreM.exec_read_some hParse core),
    Fallible.exec_bind_ok (CoreM.exec_modifyEndpoint _ _ _),
    Fallible.exec_bind_ok (Fallible.exec_pure _ _), hLets]
  exact MtCore.hasAgent_of_agents_eq
    (self.agents_welcome hi _ myself _)

/- Exactly what it takes to be admitted. -/
theorem admits_processMessage_iff
    {self : InitialSslHandshakeTaskFactory}
    {protos : AgentProtos}
    {ssl : OpenSsl K}
    {peer : Option K}
    {myself : E}
    {data : Wire}
    {core : MtCore E} :
    core.Admits
        ((self.processMessage protos ssl peer myself
          data).exec core).2
        myself ↔
      ¬ core.HasAgent myself ∧
        ∃ key hi,
          peer = some key ∧
            protos.agentServerAnswer data = some hi ∧
              self.lets ssl key = true := by
  unfold MtCore.Admits
  apply and_congr_right
  intro hNone
  constructor
  · intro hAfter
    by_contra hLets
    apply hNone
    apply MtCore.hasAgent_of_undisturbed
      (processMessage_undisturbed _ myself core) hAfter
    intro key hi hPeer hParse
    apply Bool.eq_false_iff.mpr
    intro hLet
    exact hLets ⟨key, hi, hPeer, hParse, hLet⟩
  · rintro ⟨key, hi, rfl, hParse, hLets⟩
    exact hasAgent_processMessage hParse hLets myself core

/- A key is let in as one of those that were loaded, or as
   one that has no text, as one of those. -/
theorem lets_iff
    {self : InitialSslHandshakeTaskFactory}
    {ssl : OpenSsl K}
    {content : String}
    (hApart : ssl.PrintsApart)
    (hEnabled : self.whiteListEnabled = true)
    (hWhiteList :
      self.whiteList = loadSslPubKeys ssl content [])
    (key : K) :
    self.lets ssl key = true ↔
      key ∈ loadedKeys ssl content ∨
        EvpPublicKey.toString ssl key = "" ∧
          ∃ other ∈ loadedKeys ssl content,
            EvpPublicKey.toString ssl other = "" := by
  simp only [lets, hEnabled, hWhiteList, Bool.not_true,
    Bool.or_false, List.contains_iff_mem,
    mem_loadSslPubKeys_iff]
  constructor
  · rintro ⟨other, hOther, hSame⟩
    by_cases hEmpty : EvpPublicKey.toString ssl key = ""
    · exact .inr ⟨hEmpty, other, hOther, hSame.trans hEmpty⟩
    · left
      rw [EvpPublicKey.eq_of_toString hApart hEmpty hSame.symm]
      exact hOther
  · rintro (hLoaded | ⟨hEmpty, other, hOther, hSame⟩)
    · exact ⟨key, hLoaded, rfl⟩
    · exact ⟨other, hOther, hSame.trans hEmpty.symm⟩

/- Only agents with a key of the list are admitted, unless
   neither the agent's key nor one of the list has a text. -/
theorem admits_listed_iff
    {self : InitialSslHandshakeTaskFactory}
    {ssl : OpenSsl K}
    {content : String}
    (hApart : ssl.PrintsApart)
    (hEnabled : self.whiteListEnabled = true)
    (hWhiteList :
      self.whiteList = loadSslPubKeys ssl content [])
    (protos : AgentProtos)
    (peer : Option K)
    (myself : E)
    (data : Wire)
    (core : MtCore E) :
    (core.Admits
        ((self.processMessage protos ssl peer myself
          data).exec core).2
        myself →
      ∃ key ∈ loadedKeys ssl content, peer = some key) ↔
      ∀ key hi,
        ¬ core.HasAgent myself →
          peer = some key →
            protos.agentServerAnswer data = some hi →
              EvpPublicKey.toString ssl key = "" →
                ∀ other ∈ loadedKeys ssl content,
                  EvpPublicKey.toString ssl other = "" →
                    key ∈ loadedKeys ssl content := by
  rw [admits_processMessage_iff]
  constructor
  · intro hListed key hi hNone hPeer hParse hEmpty other hOther
      hSame
    have hLets : self.lets ssl key = true :=
      (lets_iff hApart hEnabled hWhiteList key).mpr
        (.inr ⟨hEmpty, other, hOther, hSame⟩)
    rcases hListed ⟨hNone, key, hi, hPeer, hParse, hLets⟩ with
      ⟨listed, hLoaded, hIs⟩
    rw [hPeer] at hIs
    cases hIs
    exact hLoaded
  · rintro hCondition ⟨hNone, key, hi, hPeer, hParse, hLets⟩
    refine ⟨key, ?_, hPeer⟩
    rcases (lets_iff hApart hEnabled hWhiteList key).mp hLets
      with hLoaded | ⟨hEmpty, other, hOther, hSame⟩
    · exact hLoaded
    · exact hCondition key hi hNone hPeer hParse hEmpty other
        hOther hSame

/- Keys on elliptic curves; the file of one of them can be
   read. -/
def curveKeys : OpenSsl Bool where
  baseId _ := .other
  rsaPrint _ := none
  pemReadPubkey path :=
    if path = "agent.pem" then some true else none

theorem printsApart_curveKeys : curveKeys.PrintsApart := by
  intro left right text hLeft hRight hLeftText hRightText
  exact absurd rfl hLeft

def curveListed : InitialSslHandshakeTaskFactory where
  coreKey := "core"
  whiteList := loadSslPubKeys curveKeys "agent.pem\n" []
  whiteListEnabled := true

def curveProtos : AgentProtos where
  agentServerID _ := none
  agentServerAnswer _ := some { willHeartbeat := false }
  envelope _ := none

/- A core with one connection, and no agents. -/
def curveCore : MtCore Unit where
  karmaPolicy :=
    .basic (KarmaPolicyBasic.construct fun _ => none)
  agents := .construct
  endpoints := fun _ =>
    some
      { OefAgentEndpoint.construct 1 "127.0.0.1" "core" with
        karma := .mkAccount 0 "(null karma account)" }
  poolCalls := []
  threadGroupId := 1
  drawn := 1000000
  crashed := false

theorem admits_listed_iff_of_curve :
    (curveCore.Admits
        ((curveListed.processMessage curveProtos curveKeys
          (some true) () []).exec curveCore).2
        () →
      ∃ key ∈ loadedKeys curveKeys "agent.pem\n",
        some true = some key) ↔
      ∀ key hi,
        ¬ curveCore.HasAgent () →
          some true = some key →
            curveProtos.agentServerAnswer [] = some hi →
              EvpPublicKey.toString curveKeys key = "" →
                ∀ other ∈ loadedKeys curveKeys "agent.pem\n",
                  EvpPublicKey.toString curveKeys other = "" →
                    key ∈ loadedKeys curveKeys "agent.pem\n" :=
  admits_listed_iff printsApart_curveKeys rfl rfl curveProtos
    (some true) () [] curveCore

/- The key that is not listed is as good as the one that
   is. -/
theorem not_listed_of_curve :
    curveKeys.PrintsApart ∧
      ¬ (∃ key ∈ loadedKeys curveKeys "agent.pem\n",
        some false = some key) ∧
        let after :=
          ((curveListed.processMessage curveProtos curveKeys
            (some false) () []).exec curveCore).2
        curveCore.Admits after () ∧
          after.agents.find "" =
              some { key := "", endpoint := () } ∧
            (after.endpoints ()).map (·.factory) =
              some (some (.oefFunctions
                { agentPublicKey := "", coreKey := "core" })) := by
  have hNone : ¬ curveCore.HasAgent () := by
    rintro (⟨key, agent, hFind, _⟩ |
      ⟨endpoint, functions, hEndpoint, hFactory⟩)
    · simp [curveCore] at hFind
    · cases hEndpoint
      exact nomatch hFactory
  refine ⟨printsApart_curveKeys, by decide +kernel, ⟨hNone, ?_⟩,
    by decide +kernel, by decide +kernel⟩
  exact hasAgent_processMessage rfl (by decide +kernel) ()
    curveCore

end InitialSslHandshakeTaskFactory

end OefCore
