import OefCore.Karma.KarmaPolicyBasic

/-
  Runs of a karma policy: accounts are asked for and used by
  their holders, with refresh cycles in between.

  Main declarations:
    * `KarmaRun`, `KarmaEvent`, `KarmaRun.run`
    * `KarmaRun.InRange`
    * `KarmaRun.inRange_run`
-/

namespace OefCore

------------------------------------------------------------
-- Runs
------------------------------------------------------------

/- `held` are the accounts given out so far, and `outcomes`
   what was returned or thrown to their holders. -/
structure KarmaRun where
  policy : KarmaPolicyBasic
  held : List KarmaAccount
  outcomes : List (Except Exception Bool)

/- A holder is known by the place of its account in `held`. -/
inductive KarmaEvent where
  | refreshCycle
  | getAccount (pubkey ip : String)
  | perform (holder : Nat) (event : String)
  | couldPerform (holder : Nat) (action : String)
  deriving DecidableEq, Repr

namespace KarmaRun

def start (config : String → Option String) : KarmaRun where
  policy := .construct config
  held := []
  outcomes := []

def step (self : KarmaRun) : KarmaEvent → KarmaRun
  | .refreshCycle =>
      { self with policy := self.policy.refreshCycle.2 }
  | .getAccount pubkey ip =>
      let found := self.policy.getAccount pubkey ip
      { self with
        policy := found.2
        held := self.held ++ [found.1] }
  | .perform holder event =>
      match self.held[holder]? with
      | none => self
      | some identifier =>
          let performed :=
            self.policy.perform identifier event false
          { self with
            policy := performed.2
            outcomes := self.outcomes ++ [performed.1] }
  | .couldPerform holder action =>
      match self.held[holder]? with
      | none => self
      | some identifier =>
          let predicted :=
            self.policy.couldPerform identifier action
          { self with
            policy := predicted.2
            outcomes := self.outcomes ++ [predicted.1] }

def run
    (self : KarmaRun)
    (events : List KarmaEvent) : KarmaRun :=
  events.foldl step self

theorem run_snoc
    (self : KarmaRun)
    (events : List KarmaEvent)
    (event : KarmaEvent) :
    self.run (events ++ [event]) =
      (self.run events).step event := by
  simp [run]

end KarmaRun

------------------------------------------------------------
-- What One Call Does
------------------------------------------------------------

/- The balances that an account may have. -/
def Account.InRange (account : Account) : Prop :=
  0 ≤ account.karma ∧ account.karma ≤ maxKarma

theorem inRange_default : (default : Account).InRange := by
  constructor <;> decide

theorem Account.inRange_bringUpToDate
    (account : Account)
    (tickAmounts tickCounter : Nat) :
    (account.bringUpToDate tickAmounts
      tickCounter).InRange := by
  constructor
  · exact account.bringUpToDate_nonneg tickAmounts tickCounter
  · exact Int.ofNat_le.mpr (Nat.min_le_right _ _)

namespace KarmaPolicyBasic

/- The worst of several effects is no better than nothing. -/
theorem le_of_foldlM
    {currentBalance : Int}
    (policies : List String)
    {worst next : Int}
    (hFold :
      policies.foldlM
        (fun worst effect => do
          let result ← parseEffect currentBalance effect.toList
          return if result < worst then result else worst)
        worst = Except.ok next) :
    next ≤ worst := by
  induction policies generalizing worst with
  | nil =>
      rw [List.foldlM_nil] at hFold
      exact Int.le_of_eq (Except.ok.inj hFold).symm
  | cons effect policies ih =>
      rw [List.foldlM_cons] at hFold
      cases hEffect :
          parseEffect currentBalance effect.toList with
      | error thrown =>
          simp [hEffect, bind, Except.bind] at hFold
      | ok result =>
          simp only [hEffect, bind, Except.bind, pure,
            Except.pure] at hFold
          have hRest := ih hFold
          split at hRest <;> omega

theorem afterwards_le
    {policy : KarmaPolicyBasic}
    {currentBalance next : Int}
    {actions : String}
    (hNext :
      policy.afterwards currentBalance actions = .ok next) :
    next ≤ currentBalance := by
  apply le_of_foldlM (policy.getPolicies actions)
  unfold afterwards at hNext
  dsimp only at hNext
  split at hNext
  · exact nomatch hNext
  · exact hNext

/- `perform` leaves the account up to date, or charges it; it
   never gives. -/
theorem perform_cases
    (policy : KarmaPolicyBasic)
    (identifier : KarmaAccount)
    (event : String) :
    let account := policy.refreshed identifier
    (policy.perform identifier event false).2 =
        policy.withAccount identifier account ∨
      ∃ next, 0 ≤ next ∧ next ≤ account.karma ∧
        (policy.perform identifier event false).2 =
          (policy.withAccount identifier account).withAccount
            identifier { account with karma := next } := by
  intro account
  unfold perform
  dsimp only
  cases hNext : policy.afterwards account.karma event with
  | error thrown =>
      left
      rfl
  | ok next =>
      by_cases hNonneg : 0 ≤ next
      · right
        refine ⟨next, hNonneg, afterwards_le hNext, ?_⟩
        simp only [hNonneg, true_or, if_true]
        rfl
      · left
        simp [hNonneg]
        rfl

theorem couldPerform_snd
    (policy : KarmaPolicyBasic)
    (identifier : KarmaAccount)
    (action : String) :
    (policy.couldPerform identifier action).2 =
      policy.withAccount identifier
        (policy.refreshed identifier) := by
  unfold couldPerform
  dsimp only
  split <;> rfl

/- The name that the accounts know an account by. -/
def keyOf (pubkey ip : String) : String :=
  if pubkey ≠ "" then
    pubkey
  else if ip ≠ "" then
    ip
  else
    "(null karma account)"

/- The accounts are in order, and the one that exists from the
   start is the first. -/
structure Regular (karma : KarmaPolicyBasic) : Prop where
  accounts : karma.accounts.Regular
  null : karma.accounts.names "(null karma account)" = some 0

theorem regular_construct (config : String → Option String) :
    (construct config).Regular where
  accounts :=
    BucketsOf.regular_construct.get (by decide) _
  null := by
    unfold construct
    rw [BucketsOf.names_get]
    rfl

/- Asking for an account is asking for its name. -/
theorem Regular.getAccount_eq
    {policy : KarmaPolicyBasic}
    (hRegular : policy.Regular)
    (pubkey ip : String) :
    let found := policy.accounts.get (keyOf pubkey ip)
    (policy.getAccount pubkey ip).1.id = found.1 ∧
      (policy.getAccount pubkey ip).2 =
        { policy with accounts := found.2 } := by
  intro found
  by_cases hKey : pubkey ≠ ""
  · simp only [found, getAccount, keyOf, if_pos hKey]
    exact ⟨rfl, rfl⟩
  · by_cases hIp : ip ≠ ""
    · simp only [found, getAccount, keyOf, if_neg hKey,
        if_pos hIp]
      exact ⟨rfl, rfl⟩
    · have hFound : found = (0, policy.accounts) := by
        simp only [found, keyOf, if_neg hKey, if_neg hIp]
        exact BucketsOf.get_of_known hRegular.null
      simp only [hFound, getAccount, if_neg hKey, if_neg hIp]
      exact ⟨rfl, trivial⟩

theorem Regular.withAccount
    {policy : KarmaPolicyBasic}
    (hRegular : policy.Regular)
    {identifier : KarmaAccount}
    (hIdentifier : identifier.id < policy.accounts.size)
    (account : Account) :
    (policy.withAccount identifier account).Regular where
  accounts := hRegular.accounts.store hIdentifier account
  null := hRegular.null

theorem Regular.getAccount
    {policy : KarmaPolicyBasic}
    (hRegular : policy.Regular)
    (pubkey ip : String) :
    (policy.getAccount pubkey ip).2.Regular := by
  rw [(hRegular.getAccount_eq pubkey ip).2]
  constructor
  · exact hRegular.accounts.get (by decide) _
  · exact BucketsOf.names_get_of_known _ hRegular.null

end KarmaPolicyBasic

------------------------------------------------------------
-- Balances Stay in Range
------------------------------------------------------------

namespace KarmaRun

/-
  Every balance is in range, and whoever holds an account
  cannot gain by `perform`, whatever it is called with.
-/
structure InRange (karma : KarmaRun) : Prop where
  balances : karma.policy.accounts.All Account.InRange
  noGain :
    ∀ identifier ∈ karma.held, ∀ event,
      ((karma.policy.perform identifier event
        false).2.accounts.access identifier.id).karma ≤
        (karma.policy.refreshed identifier).karma

/- The balances are in range, and the accounts that were given
   out are there. -/
structure Sound (karma : KarmaRun) : Prop where
  regular : karma.policy.Regular
  balances : karma.policy.accounts.All Account.InRange
  held :
    ∀ identifier ∈ karma.held,
      identifier.id < karma.policy.accounts.size

theorem sound_start (config : String → Option String) :
    (start config).Sound where
  regular := KarmaPolicyBasic.regular_construct config
  balances :=
    (BucketsOf.all_construct _).get inRange_default _
  held := by simp [start]

theorem Sound.refresh
    {self : KarmaRun}
    (hSound : self.Sound)
    {identifier : KarmaAccount}
    (hHeld : identifier ∈ self.held) :
    let refreshed :=
      self.policy.withAccount identifier
        (self.policy.refreshed identifier)
    refreshed.Regular ∧
      refreshed.accounts.All Account.InRange ∧
      refreshed.accounts.access identifier.id =
        self.policy.refreshed identifier := by
  have hIdentifier := hSound.held identifier hHeld
  refine ⟨hSound.regular.withAccount hIdentifier _, ?_, ?_⟩
  · apply hSound.balances.store
    exact Account.inRange_bringUpToDate _ _ _
  · exact BucketsOf.access_store_self
      (hSound.regular.accounts.hasSlot hIdentifier) _

theorem Sound.inRange
    {self : KarmaRun}
    (hSound : self.Sound) :
    self.InRange := by
  constructor
  · exact hSound.balances
  · intro identifier hHeld event
    rcases hSound.refresh hHeld with ⟨hRegular, _, hAccess⟩
    have hIdentifier := hSound.held identifier hHeld
    rcases self.policy.perform_cases identifier event with
      hSame | ⟨next, _, hLe, hCharged⟩
    · apply Int.le_of_eq
      rw [hSame, hAccess]
    · rw [hCharged]
      unfold KarmaPolicyBasic.withAccount
      rw [BucketsOf.access_store_self]
      · exact hLe
      · exact hRegular.accounts.hasSlot hIdentifier

/- A holder that is found holds one of the accounts. -/
theorem Sound.perform
    {self : KarmaRun}
    (hSound : self.Sound)
    {identifier : KarmaAccount}
    (hHeld : identifier ∈ self.held)
    (event : String) :
    let performed :=
      (self.policy.perform identifier event false).2
    performed.Regular ∧
      performed.accounts.All Account.InRange ∧
      performed.accounts.size = self.policy.accounts.size := by
  intro performed
  rcases hSound.refresh hHeld with ⟨hRegular, hAll, _⟩
  have hIdentifier := hSound.held identifier hHeld
  rcases self.policy.perform_cases identifier event with
    hSame | ⟨next, hNonneg, hLe, hCharged⟩
  · simp only [performed, hSame]
    exact ⟨hRegular, hAll, rfl⟩
  · simp only [performed, hCharged]
    refine ⟨hRegular.withAccount hIdentifier _, ?_, rfl⟩
    apply hAll.store
    have hMax :=
      ((self.policy.accounts.access
        identifier.id).inRange_bringUpToDate
          self.policy.tickAmounts self.policy.tickCounter).2
    exact ⟨hNonneg, Int.le_trans hLe hMax⟩

theorem Sound.step
    {self : KarmaRun}
    (hSound : self.Sound)
    (event : KarmaEvent) :
    (self.step event).Sound := by
  cases event with
  | refreshCycle =>
      have hAccounts :
          self.policy.refreshCycle.2.accounts =
            self.policy.accounts := by
        unfold KarmaPolicyBasic.refreshCycle
        split <;> rfl
      constructor
      · constructor
        · simpa [KarmaRun.step, hAccounts]
            using hSound.regular.accounts
        · simpa [KarmaRun.step, hAccounts]
            using hSound.regular.null
      · simpa [KarmaRun.step, hAccounts] using hSound.balances
      · simpa [KarmaRun.step, hAccounts] using hSound.held
  | getAccount pubkey ip =>
      rcases hSound.regular.getAccount_eq pubkey ip with
        ⟨hId, hPolicy⟩
      have hRegular := hSound.regular.getAccount pubkey ip
      constructor
      · exact hRegular
      · simp only [KarmaRun.step, hPolicy]
        exact hSound.balances.get inRange_default _
      · intro identifier hIdentifier
        simp only [KarmaRun.step, List.mem_append,
          List.mem_singleton] at hIdentifier
        simp only [KarmaRun.step, hPolicy]
        rcases hIdentifier with hOld | hNew
        · exact Nat.lt_of_lt_of_le
            (hSound.held identifier hOld)
            (BucketsOf.size_le_get _ _)
        · have hNumbered :=
            (hSound.regular.accounts.get (by decide)
              (KarmaPolicyBasic.keyOf pubkey ip)).numbered _ _
              (BucketsOf.names_get _ _)
          simpa [hNew, hId] using hNumbered
  | perform holder event =>
      cases hHolder : self.held[holder]? with
      | none => simpa [KarmaRun.step, hHolder] using hSound
      | some identifier =>
          have hHeld := List.mem_of_getElem? hHolder
          rcases hSound.perform hHeld event with
            ⟨hRegular, hAll, hSize⟩
          simp only [KarmaRun.step, hHolder]
          constructor
          · exact hRegular
          · exact hAll
          · simpa only [hSize] using hSound.held
  | couldPerform holder action =>
      cases hHolder : self.held[holder]? with
      | none => simpa [KarmaRun.step, hHolder] using hSound
      | some identifier =>
          have hHeld := List.mem_of_getElem? hHolder
          rcases hSound.refresh hHeld with ⟨hRegular, hAll, _⟩
          simp only [KarmaRun.step, hHolder,
            KarmaPolicyBasic.couldPerform_snd]
          exact ⟨hRegular, hAll, hSound.held⟩

theorem Sound.run
    {self : KarmaRun}
    (hSound : self.Sound)
    (events : List KarmaEvent) :
    (self.run events).Sound := by
  induction events generalizing self with
  | nil => exact hSound
  | cons event events ih => exact ih (hSound.step event)

/- Whatever is configured and whatever is asked of the policy,
   balances stay between zero and the maximum. -/
theorem inRange_run
    (config : String → Option String)
    (events : List KarmaEvent) :
    ((start config).run events).InRange :=
  ((sound_start config).run events).inRange

end KarmaRun

end OefCore
