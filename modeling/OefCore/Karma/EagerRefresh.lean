import Mathlib.Data.List.Forall2
import OefCore.Karma.KarmaRun

/-
  Refreshing an account only when it is used comes to the same
  as refreshing all of them at every tick.

  Main declarations:
    * `EagerKarma`, `EagerKarma.run`
    * `EagerKarma.Simulates`
    * `EagerKarma.lazy_eq_eager`
-/

namespace OefCore

------------------------------------------------------------
-- The Reference
------------------------------------------------------------

/- A balance for each name, which every tick raises. -/
structure EagerKarma where
  balances : String → Int
  held : List String
  outcomes : List (Except Exception Bool)

namespace EagerKarma

def start : EagerKarma where
  balances := fun _ => maxKarma
  held := []
  outcomes := []

/- A charge is accepted if no debt is left. -/
def perform
    (rules : KarmaPolicyBasic)
    (self : EagerKarma)
    (key event : String) : EagerKarma :=
  match rules.afterwards (self.balances key) event with
  | .error thrown =>
      { self with
        outcomes := self.outcomes ++ [.error thrown] }
  | .ok next =>
      if 0 ≤ next then
        { self with
          balances := Function.update self.balances key next
          outcomes := self.outcomes ++ [.ok true] }
      else
        { self with
          outcomes := self.outcomes ++ [.error (.karma event)] }

def couldPerform
    (rules : KarmaPolicyBasic)
    (self : EagerKarma)
    (key action : String) : EagerKarma :=
  match rules.afterwards (self.balances key)
      (rules.getPolicy action) with
  | .error thrown =>
      { self with
        outcomes := self.outcomes ++ [.error thrown] }
  | .ok next =>
      { self with
        outcomes := self.outcomes ++ [.ok (decide (0 ≤ next))] }

/- The rules are those of a policy; its accounts play no
   part. -/
def step
    (rules : KarmaPolicyBasic)
    (amount : Nat)
    (self : EagerKarma) : KarmaEvent → EagerKarma
  | .refreshCycle =>
      { self with
        balances := fun key =>
          min maxKarma (self.balances key + amount) }
  | .getAccount pubkey ip =>
      { self with
        held :=
          self.held ++ [KarmaPolicyBasic.keyOf pubkey ip] }
  | .perform holder event =>
      match self.held[holder]? with
      | none => self
      | some key => self.perform rules key event
  | .couldPerform holder action =>
      match self.held[holder]? with
      | none => self
      | some key => self.couldPerform rules key action

def run
    (rules : KarmaPolicyBasic)
    (amount : Nat)
    (self : EagerKarma)
    (events : List KarmaEvent) : EagerKarma :=
  events.foldl (step rules amount) self

theorem run_snoc
    (rules : KarmaPolicyBasic)
    (amount : Nat)
    (self : EagerKarma)
    (events : List KarmaEvent)
    (event : KarmaEvent) :
    self.run rules amount (events ++ [event]) =
      (self.run rules amount events).step rules amount
        event := by
  simp [run]

end EagerKarma

------------------------------------------------------------
-- Refreshing an Account
------------------------------------------------------------

/- Without wrap-around the refreshed balance is what the ticks
   since the last time make of it. -/
theorem Account.karma_bringUpToDate
    (account : Account)
    {tickAmounts tickCounter sum : Nat}
    (hWhen : account.when ≤ tickCounter)
    (hCounter : tickCounter < sizeRange)
    (hSum :
      account.karma +
        ((tickCounter - account.when) * tickAmounts : Nat) =
          sum)
    (hFits : sum < sizeRange) :
    (account.bringUpToDate tickAmounts tickCounter).karma =
      (min sum maxKarma : Nat) := by
  have hDiff :
      (tickCounter + (sizeRange - account.when % sizeRange)) %
          sizeRange =
        tickCounter - account.when := by
    rw [Nat.mod_eq_of_lt (Nat.lt_of_le_of_lt hWhen hCounter)]
    have hLe : account.when ≤ sizeRange :=
      Nat.le_of_lt (Nat.lt_of_le_of_lt hWhen hCounter)
    have hSame :
        tickCounter + (sizeRange - account.when) =
          (tickCounter - account.when) + sizeRange := by
      omega
    rw [hSame, Nat.add_mod_right]
    exact Nat.mod_eq_of_lt
      (Nat.lt_of_le_of_lt (Nat.sub_le _ _) hCounter)
  unfold Account.bringUpToDate
  dsimp only
  rw [hDiff]
  have hKarma :
      ((account.karma % sizeRange).toNat +
          (tickCounter - account.when) * tickAmounts) %
          sizeRange =
        sum := by
    generalize (tickCounter - account.when) * tickAmounts =
      gain at hSum
    have hMod : (0 : Int) ≤ account.karma % (sizeRange : Nat) :=
      Int.emod_nonneg _ (by decide)
    have hNat :
        (((account.karma % (sizeRange : Nat)).toNat + gain :
          Nat) : Int) % (sizeRange : Nat) =
          (sum : Int) % (sizeRange : Nat) := by
      rw [← hSum, Int.natCast_add, Int.toNat_of_nonneg hMod,
        Int.emod_add_emod]
    have hSumMod :=
      Int.emod_eq_of_lt (Int.natCast_nonneg sum)
        (Int.ofNat_lt.mpr hFits)
    rw [hSumMod] at hNat
    exact_mod_cast hNat
  rw [hKarma]

/- What an account comes to after so many ticks. -/
def Account.settled
    (account : Account)
    (amount ticks : Nat) : Int :=
  min
    (account.karma +
      ((ticks - account.when) * amount : Nat))
    maxKarma

/- The sum that `bringUpToDate` makes does not wrap around. -/
def Account.Unwrapped
    (account : Account)
    (amount ticks : Nat) : Prop :=
  account.karma + ((ticks - account.when) * amount : Nat) <
    sizeRange

/- The refreshed balance of an account that is in range. -/
theorem Account.karma_of_unwrapped
    {account : Account}
    (hRange : account.InRange)
    {amount ticks : Nat}
    (hWhen : account.when ≤ ticks)
    (hTicks : ticks < sizeRange)
    (hUnwrapped : account.Unwrapped amount ticks) :
    (account.bringUpToDate amount ticks).karma =
      account.settled amount ticks := by
  have hBalance :
      ((account.karma.toNat : Nat) : Int) = account.karma :=
    Int.toNat_of_nonneg hRange.1
  have hSum :
      account.karma + ((ticks - account.when) * amount : Nat) =
        (account.karma.toNat +
          (ticks - account.when) * amount : Nat) := by
    rw [Int.natCast_add, hBalance]
  unfold Account.Unwrapped at hUnwrapped
  unfold Account.settled
  rw [account.karma_bringUpToDate hWhen hTicks hSum (by omega)]
  omega

/- An account that is up to date stays as it is. -/
theorem Account.settled_of_current
    {account : Account}
    (hRange : account.InRange)
    (amount : Nat)
    {ticks : Nat}
    (hWhen : account.when = ticks) :
    account.settled amount ticks = account.karma := by
  unfold Account.settled
  rw [hWhen, Nat.sub_self, Nat.zero_mul]
  have hLe := hRange.2
  omega

/- Saturating once after all ticks is saturating at each. -/
theorem Account.settled_succ
    {account : Account}
    (amount : Nat)
    {ticks : Nat}
    (hWhen : account.when ≤ ticks) :
    account.settled amount (ticks + 1) =
      min (maxKarma : Int)
        (account.settled amount ticks + amount) := by
  unfold Account.settled
  rw [Nat.succ_sub hWhen, Nat.succ_mul]
  omega

------------------------------------------------------------
-- The Simulation
------------------------------------------------------------

namespace EagerKarma

/-
  After so many ticks a policy agrees with the reference: each
  account that was given out has, once refreshed, the balance
  of its name, and no account is ahead of the ticks.
-/
structure Simulates
    (config : String → Option String)
    (amount ticks : Nat)
    (karma : KarmaRun)
    (eager : EagerKarma) : Prop where
  regular : karma.policy.Regular
  configured : karma.policy.config = config
  counter : karma.policy.tickCounter = ticks
  amounts : ticks = 0 ∨ karma.policy.tickAmounts = amount
  accounts :
    karma.policy.accounts.All fun account =>
      account.InRange ∧ account.when ≤ ticks
  balances :
    ∀ (key : String) (identifier : KarmaAccount),
      karma.policy.accounts.names key =
          some identifier.id →
        (karma.policy.accounts.access identifier.id).settled
            amount ticks =
          eager.balances key
  fresh :
    ∀ key, karma.policy.accounts.names key = none →
      eager.balances key = maxKarma
  held :
    List.Forall₂
      (fun identifier key =>
        karma.policy.accounts.names key = some identifier.id)
      karma.held eager.held
  outcomes : karma.outcomes = eager.outcomes

theorem inRange_default (ticks : Nat) :
    (default : Account).InRange ∧
      (default : Account).when ≤ ticks :=
  ⟨OefCore.inRange_default, Nat.zero_le ticks⟩

theorem simulates_start
    (config : String → Option String)
    (amount : Nat) :
    Simulates config amount 0 (KarmaRun.start config)
      start := by
  have hRegular := KarmaPolicyBasic.regular_construct config
  have hAll :
      (KarmaPolicyBasic.construct config).accounts.All
        fun account => account.InRange ∧ account.when ≤ 0 :=
    (BucketsOf.all_construct _).get (inRange_default 0) _
  constructor
  · exact hRegular
  · rfl
  · rfl
  · exact Or.inl rfl
  · exact hAll
  · intro key identifier hName
    have hAccount :
        (KarmaRun.start config).policy.accounts.access
          identifier.id = default := by
      unfold KarmaRun.start KarmaPolicyBasic.construct
      rw [BucketsOf.access_get]
      rfl
    rw [hAccount]
    exact Account.settled_of_current OefCore.inRange_default
      amount rfl
  · intro key hName
    rfl
  · exact .nil
  · rfl

namespace Simulates

variable
  {config : String → Option String}
  {amount ticks : Nat}
  {karma : KarmaRun}
  {eager : EagerKarma}
  (hSimulates : Simulates config amount ticks karma eager)

include hSimulates

/- An account that was just written is up to date. -/
theorem charge
    {identifier : KarmaAccount}
    {key : String}
    (hKey :
      karma.policy.accounts.names key = some identifier.id)
    {account : Account}
    (hRange : account.InRange)
    (hWhen : account.when = ticks) :
    Simulates config amount ticks
      { karma with
        policy := karma.policy.withAccount identifier account }
      { eager with
        balances :=
          Function.update eager.balances key account.karma } := by
  have hAccounts := hSimulates.regular.accounts
  have hIdentifier := hAccounts.numbered key identifier.id hKey
  constructor
  · exact hSimulates.regular.withAccount hIdentifier account
  · exact hSimulates.configured
  · exact hSimulates.counter
  · exact hSimulates.amounts
  · exact hSimulates.accounts.store identifier.id
      ⟨hRange, Nat.le_of_eq hWhen⟩
  · intro other holder hOther
    dsimp only at hOther ⊢
    unfold KarmaPolicyBasic.withAccount
    dsimp only
    by_cases hSame : other = key
    · have hId : holder.id = identifier.id := by
        apply Option.some.inj
        rw [← hKey, ← hSame]
        exact hOther.symm
      rw [hSame, Function.update_self, hId,
        BucketsOf.access_store_self
          (hAccounts.hasSlot hIdentifier)]
      exact Account.settled_of_current hRange amount hWhen
    · have hId : holder.id ≠ identifier.id := by
        intro hId
        apply hSame
        apply hAccounts.distinct other key holder.id hOther
        rw [hId]
        exact hKey
      rw [Function.update_of_ne hSame,
        BucketsOf.access_store_of_ne _ hId]
      exact hSimulates.balances other holder hOther
  · intro other hNone
    have hOther : other ≠ key := by
      intro hSame
      rw [hSame] at hNone
      exact nomatch hNone.symm.trans hKey
    dsimp only
    rw [Function.update_of_ne hOther]
    exact hSimulates.fresh other hNone
  · exact hSimulates.held
  · exact hSimulates.outcomes

theorem outcome
    (outcome : Except Exception Bool) :
    Simulates config amount ticks
      { karma with
        outcomes := karma.outcomes ++ [outcome] }
      { eager with
        outcomes := eager.outcomes ++ [outcome] } where
  regular := hSimulates.regular
  configured := hSimulates.configured
  counter := hSimulates.counter
  amounts := hSimulates.amounts
  accounts := hSimulates.accounts
  balances := hSimulates.balances
  fresh := hSimulates.fresh
  held := hSimulates.held
  outcomes := by simp [hSimulates.outcomes]

/- The accounts play no part in judging an action. -/
theorem afterwards_eq
    (balance : Int)
    (actions : String) :
    karma.policy.afterwards balance actions =
      (KarmaPolicyBasic.construct config).afterwards balance
        actions := by
  unfold KarmaPolicyBasic.afterwards
    KarmaPolicyBasic.getPolicies KarmaPolicyBasic.getPolicy
  rw [hSimulates.configured]
  rfl

theorem getPolicy_eq
    (action : String) :
    karma.policy.getPolicy action =
      (KarmaPolicyBasic.construct config).getPolicy
        action := by
  unfold KarmaPolicyBasic.getPolicy
  rw [hSimulates.configured]
  rfl

section Holders

variable
  (hTicks : ticks < sizeRange)
  {identifier : KarmaAccount}
  {key : String}
  (hKey :
    karma.policy.accounts.names key = some identifier.id)
  (hUnwrapped :
    (karma.policy.accounts.access identifier.id).Unwrapped
      amount ticks)

include hTicks hKey hUnwrapped

/- Unless it wraps around, the refreshed balance is that of the
   reference. -/
theorem karma_refreshed :
    (karma.policy.refreshed identifier).karma =
      eager.balances key := by
  rw [← hSimulates.balances key identifier hKey]
  have hAccount :
      (karma.policy.accounts.access identifier.id).InRange ∧
        (karma.policy.accounts.access identifier.id).when ≤
          ticks :=
    hSimulates.accounts.access (inRange_default ticks) _
  unfold KarmaPolicyBasic.refreshed
  rw [hSimulates.counter]
  generalize karma.policy.accounts.access identifier.id =
    account at hAccount hUnwrapped ⊢
  rcases hAccount with ⟨hRange, hWhen⟩
  rcases hSimulates.amounts with hNone | hAmount
  · -- before the first tick the amount is not looked at
    have hAlready : account.when = ticks := by omega
    have hOther :
        account.Unwrapped karma.policy.tickAmounts ticks := by
      have hLe := hRange.2
      have hMax : (maxKarma : Int) < sizeRange := by decide
      unfold Account.Unwrapped
      rw [hAlready, Nat.sub_self, Nat.zero_mul]
      omega
    rw [Account.karma_of_unwrapped hRange hWhen hTicks hOther,
      Account.settled_of_current hRange _ hAlready,
      Account.settled_of_current hRange _ hAlready]
  · rw [hAmount]
    exact Account.karma_of_unwrapped hRange hWhen hTicks
      hUnwrapped

/- Refreshing alone changes nothing in the reference. -/
theorem refresh :
    Simulates config amount ticks
      { karma with
        policy :=
          karma.policy.withAccount identifier
            (karma.policy.refreshed identifier) }
      eager := by
  have hRange :
      (karma.policy.refreshed identifier).InRange :=
    Account.inRange_bringUpToDate _ _ _
  have hCharged :=
    hSimulates.charge hKey hRange hSimulates.counter
  rw [hSimulates.karma_refreshed hTicks hKey hUnwrapped,
    Function.update_eq_self] at hCharged
  exact hCharged

theorem perform
    (event : String) :
    let performed :=
      karma.policy.perform identifier event false
    Simulates config amount ticks
      { karma with
        policy := performed.2
        outcomes := karma.outcomes ++ [performed.1] }
      (eager.perform (KarmaPolicyBasic.construct config) key
        event) := by
  have hBalance :=
    hSimulates.karma_refreshed hTicks hKey hUnwrapped
  have hRefreshed := hSimulates.refresh hTicks hKey hUnwrapped
  have hJudged :=
    hSimulates.afterwards_eq
      (karma.policy.refreshed identifier).karma event
  rw [hBalance] at hJudged
  unfold EagerKarma.perform KarmaPolicyBasic.perform
  dsimp only
  rw [hBalance, hJudged]
  cases hNext :
      (KarmaPolicyBasic.construct config).afterwards
        (eager.balances key) event with
  | error thrown =>
      exact hRefreshed.outcome (.error thrown)
  | ok next =>
      by_cases hNonneg : 0 ≤ next
      · have hLe : next ≤ eager.balances key :=
          KarmaPolicyBasic.afterwards_le hNext
        have hMax :=
          (Account.inRange_bringUpToDate
            (karma.policy.accounts.access identifier.id)
            karma.policy.tickAmounts
            karma.policy.tickCounter).2
        have hRange :
            Account.InRange
              { karma.policy.refreshed identifier with
                karma := next } := by
          constructor
          · exact hNonneg
          · apply Int.le_trans hLe
            rw [← hBalance]
            exact hMax
        have hCharged :=
          hRefreshed.charge hKey hRange hSimulates.counter
        simp only [hNonneg, true_or, if_true]
        exact hCharged.outcome (.ok true)
      · simp only [hNonneg, Bool.false_eq_true, or_self,
          if_false]
        exact hRefreshed.outcome (.error (.karma event))

theorem couldPerform
    (action : String) :
    let predicted :=
      karma.policy.couldPerform identifier action
    Simulates config amount ticks
      { karma with
        policy := predicted.2
        outcomes := karma.outcomes ++ [predicted.1] }
      (eager.couldPerform (KarmaPolicyBasic.construct config)
        key action) := by
  have hBalance :=
    hSimulates.karma_refreshed hTicks hKey hUnwrapped
  have hRefreshed := hSimulates.refresh hTicks hKey hUnwrapped
  have hJudged :=
    hSimulates.afterwards_eq
      (karma.policy.refreshed identifier).karma
      (karma.policy.getPolicy action)
  rw [hBalance, hSimulates.getPolicy_eq] at hJudged
  unfold EagerKarma.couldPerform KarmaPolicyBasic.couldPerform
  dsimp only
  rw [hBalance, hSimulates.getPolicy_eq, hJudged]
  cases (KarmaPolicyBasic.construct config).afterwards
      (eager.balances key)
      ((KarmaPolicyBasic.construct config).getPolicy
        action) with
  | error thrown => exact hRefreshed.outcome (.error thrown)
  | ok next =>
      exact hRefreshed.outcome (.ok (decide (0 ≤ next)))

end Holders

theorem getAccount
    (pubkey ip : String) :
    Simulates config amount ticks
      (karma.step (.getAccount pubkey ip))
      { eager with
        held :=
          eager.held ++
            [KarmaPolicyBasic.keyOf pubkey ip] } := by
  have hAccounts := hSimulates.regular.accounts
  rcases hSimulates.regular.getAccount_eq pubkey ip with
    ⟨hId, hPolicy⟩
  unfold KarmaRun.step
  dsimp only
  rw [hPolicy]
  constructor
  · rw [← hPolicy]
    exact hSimulates.regular.getAccount pubkey ip
  · exact hSimulates.configured
  · exact hSimulates.counter
  · exact hSimulates.amounts
  · exact hSimulates.accounts.get (inRange_default ticks) _
  · intro other holder hOther
    dsimp only at hOther ⊢
    rw [BucketsOf.access_get]
    cases hBefore : karma.policy.accounts.names other with
    | some number =>
        rw [BucketsOf.names_get_of_known _ hBefore] at hOther
        apply hSimulates.balances
        rw [hBefore]
        exact hOther
    | none =>
        -- a new account has the balance that all begin with
        have hAccount :
            karma.policy.accounts.access holder.id =
              default := by
          apply hAccounts.untouched
          exact BucketsOf.size_le_of_new hBefore hOther
        rw [hAccount, hSimulates.fresh other hBefore]
        have hFull : (default : Account).karma = maxKarma := rfl
        unfold Account.settled
        omega
  · intro other hNone
    apply hSimulates.fresh
    cases hBefore : karma.policy.accounts.names other with
    | none => rfl
    | some number =>
        dsimp only at hNone
        rw [BucketsOf.names_get_of_known _ hBefore] at hNone
        exact nomatch hNone
  · apply List.rel_append
    · apply hSimulates.held.imp
      intro identifier key hKey
      exact BucketsOf.names_get_of_known _ hKey
    · refine .cons ?_ .nil
      rw [hId]
      exact BucketsOf.names_get _ _
  · exact hSimulates.outcomes

/- A tick of the counter is a tick of the reference. -/
theorem refreshCycle
    (hEffect :
      (KarmaPolicyBasic.construct config).refreshEffect =
        .ok (amount : Int))
    (hAmount : amount < sizeRange)
    (hTicks : ticks + 1 < sizeRange) :
    Simulates config amount (ticks + 1)
      { karma with policy := karma.policy.refreshCycle.2 }
      { eager with
        balances := fun key =>
          min maxKarma (eager.balances key + amount) } := by
  have hEqual :
      karma.policy.refreshEffect = .ok (amount : Int) := by
    rw [← hEffect]
    unfold KarmaPolicyBasic.refreshEffect
      KarmaPolicyBasic.getPolicies KarmaPolicyBasic.getPolicy
    rw [hSimulates.configured]
    rfl
  have hNext :
      karma.policy.refreshCycle.2 =
        { karma.policy with
          tickAmounts := amount
          tickCounter := ticks + 1 } := by
    have hSame :
        ((amount : Int) % (sizeRange : Nat)).toNat = amount := by
      rw [Int.emod_eq_of_lt (Int.natCast_nonneg amount)
        (Int.ofNat_lt.mpr hAmount)]
      exact Int.toNat_natCast amount
    unfold KarmaPolicyBasic.refreshCycle
    rw [hEqual, hSimulates.counter]
    dsimp only
    rw [hSame, Nat.mod_eq_of_lt hTicks]
  rw [hNext]
  constructor
  · exact ⟨hSimulates.regular.accounts, hSimulates.regular.null⟩
  · exact hSimulates.configured
  · rfl
  · exact Or.inr rfl
  · intro bucket hBucket account hAccount
    rcases hSimulates.accounts bucket hBucket account hAccount
      with ⟨hRange, hWhen⟩
    exact ⟨hRange, Nat.le_succ_of_le hWhen⟩
  · intro key identifier hKey
    have hAccount :
        (karma.policy.accounts.access identifier.id).InRange ∧
          (karma.policy.accounts.access identifier.id).when ≤
            ticks :=
      hSimulates.accounts.access (inRange_default ticks) _
    dsimp only
    rw [Account.settled_succ amount hAccount.2,
      hSimulates.balances key identifier hKey]
  · intro key hNone
    dsimp only
    rw [hSimulates.fresh key hNone]
    omega
  · exact hSimulates.held
  · exact hSimulates.outcomes

/- The holders of both are the same. -/
theorem holder
    (holder : Nat) :
    (karma.held[holder]? = none ∧
      eager.held[holder]? = none) ∨
    ∃ identifier key,
      karma.held[holder]? = some identifier ∧
        eager.held[holder]? = some key ∧
        karma.policy.accounts.names key =
          some identifier.id := by
  have hLength := hSimulates.held.length_eq
  by_cases hHolder : holder < karma.held.length
  · right
    have hOther : holder < eager.held.length := by
      rwa [← hLength]
    refine ⟨_, _, List.getElem?_eq_getElem hHolder,
      List.getElem?_eq_getElem hOther, ?_⟩
    exact hSimulates.held.get hHolder hOther
  · left
    have hOther : ¬ holder < eager.held.length := by
      rwa [← hLength]
    exact ⟨List.getElem?_eq_none (Nat.le_of_not_lt hHolder),
      List.getElem?_eq_none (Nat.le_of_not_lt hOther)⟩

end Simulates

/- An amount that is configured is one of `int`. -/
theorem amount_lt
    {policy : KarmaPolicyBasic}
    {amount : Nat}
    (hEffect : policy.refreshEffect = .ok (amount : Int)) :
    amount < sizeRange := by
  have hLt := parseEffect_lt (by decide) hEffect
  have hRange : (2 : Int) ^ 31 < sizeRange := by decide
  omega

/- How many ticks there are in a run. -/
def ticks (events : List KarmaEvent) : Nat :=
  events.count .refreshCycle

end EagerKarma

/- The account that an event brings up to date. -/
def KarmaRun.used
    (self : KarmaRun) : KarmaEvent → Option KarmaAccount
  | .perform holder _ => self.held[holder]?
  | .couldPerform holder _ => self.held[holder]?
  | _ => none

namespace EagerKarma

theorem Simulates.step
    {config : String → Option String}
    {amount : Nat}
    {events : List KarmaEvent}
    {event : KarmaEvent}
    {karma : KarmaRun}
    {eager : EagerKarma}
    (hSimulates :
      Simulates config amount (ticks events) karma eager)
    (hEffect :
      (KarmaPolicyBasic.construct config).refreshEffect =
        .ok (amount : Int))
    (hTicks : ticks (events ++ [event]) < sizeRange)
    (hProducts :
      ∀ identifier, karma.used event = some identifier →
        (karma.policy.accounts.access
          identifier.id).Unwrapped amount (ticks events)) :
    Simulates config amount (ticks (events ++ [event]))
      (karma.step event)
      (eager.step (KarmaPolicyBasic.construct config) amount
        event) := by
  cases event with
  | refreshCycle =>
      have hOne :
          ticks (events ++ [.refreshCycle]) =
            ticks events + 1 := by
        simp [ticks]
      rw [hOne] at hTicks ⊢
      exact hSimulates.refreshCycle hEffect
        (amount_lt hEffect) hTicks
  | getAccount pubkey ip =>
      have hNone :
          ticks (events ++ [.getAccount pubkey ip]) =
            ticks events := by
        simp [ticks]
      rw [hNone]
      exact hSimulates.getAccount pubkey ip
  | perform holder action =>
      have hNone :
          ticks (events ++ [.perform holder action]) =
            ticks events := by
        simp [ticks]
      rw [hNone] at hTicks ⊢
      unfold KarmaRun.step EagerKarma.step
      rcases hSimulates.holder holder with
        ⟨hKarma, hEager⟩ | ⟨identifier, key, hKarma, hEager, hKey⟩
      · simpa only [hKarma, hEager] using hSimulates
      · simp only [hKarma, hEager]
        exact hSimulates.perform hTicks hKey
          (hProducts identifier hKarma) action
  | couldPerform holder action =>
      have hNone :
          ticks (events ++ [.couldPerform holder action]) =
            ticks events := by
        simp [ticks]
      rw [hNone] at hTicks ⊢
      unfold KarmaRun.step EagerKarma.step
      rcases hSimulates.holder holder with
        ⟨hKarma, hEager⟩ | ⟨identifier, key, hKarma, hEager, hKey⟩
      · simpa only [hKarma, hEager] using hSimulates
      · simp only [hKarma, hEager]
        exact hSimulates.couldPerform hTicks hKey
          (hProducts identifier hKarma) action

/- No product that is computed on a run wraps around. -/
def ProductsFit
    (config : String → Option String)
    (amount : Nat)
    (events : List KarmaEvent) : Prop :=
  ∀ front event back, events = front ++ event :: back →
    ∀ identifier,
      ((KarmaRun.start config).run front).used event =
          some identifier →
        (((KarmaRun.start config).run
          front).policy.accounts.access
            identifier.id).Unwrapped amount (ticks front)

/- It is enough that all the ticks together do not wrap
   around. -/
theorem productsFit_of_bound
    (config : String → Option String)
    {amount : Nat}
    {events : List KarmaEvent}
    (hBound : maxKarma + ticks events * amount < sizeRange) :
    ProductsFit config amount events := by
  intro front event back hSplit identifier _
  have hSound := (KarmaRun.sound_start config).run front
  have hRange :=
    hSound.balances.access OefCore.inRange_default
      identifier.id
  have hTicks : ticks front ≤ ticks events := by
    simp [hSplit, ticks]
  have hProduct :
      (ticks front -
          (((KarmaRun.start config).run
            front).policy.accounts.access
              identifier.id).when) * amount ≤
        ticks events * amount := by
    apply Nat.mul_le_mul_right amount
    exact Nat.le_trans (Nat.sub_le _ _) hTicks
  have hLe := hRange.2
  unfold Account.Unwrapped
  omega

theorem simulates_run
    {config : String → Option String}
    {amount : Nat}
    (hEffect :
      (KarmaPolicyBasic.construct config).refreshEffect =
        .ok (amount : Int))
    (events : List KarmaEvent)
    (hTicks : ticks events < sizeRange)
    (hProducts : ProductsFit config amount events) :
    Simulates config amount (ticks events)
      ((KarmaRun.start config).run events)
      (start.run (KarmaPolicyBasic.construct config) amount
        events) := by
  induction events using List.reverseRecOn with
  | nil => exact simulates_start config amount
  | append_singleton events event ih =>
      have hLess : ticks events ≤ ticks (events ++ [event]) := by
        simp [ticks]
      have hBefore : ProductsFit config amount events := by
        intro front other back hSplit
        apply hProducts front other (back ++ [event])
        rw [hSplit]
        simp
      rw [KarmaRun.run_snoc, run_snoc]
      exact (ih (by omega) hBefore).step hEffect hTicks
        (hProducts events event [] rfl)

/-
  A policy whose refreshes add some amount, as long as neither
  the ticks nor the products wrap around, gives the answers of
  the reference, and an account that is then brought up to
  date has the balance of the reference.
-/
theorem lazy_eq_eager
    {config : String → Option String}
    {amount : Nat}
    (hEffect :
      (KarmaPolicyBasic.construct config).refreshEffect =
        .ok (amount : Int))
    (events : List KarmaEvent)
    (hTicks : ticks events < sizeRange)
    (hProducts : ProductsFit config amount events) :
    let karma := (KarmaRun.start config).run events
    let eager :=
      start.run (KarmaPolicyBasic.construct config) amount
        events
    karma.outcomes = eager.outcomes ∧
      List.Forall₂
        (fun identifier key =>
          (karma.policy.accounts.access
            identifier.id).Unwrapped amount (ticks events) →
          (karma.policy.refreshed identifier).karma =
            eager.balances key)
        karma.held eager.held := by
  intro karma eager
  have hSimulates :=
    simulates_run hEffect events hTicks hProducts
  constructor
  · exact hSimulates.outcomes
  · apply hSimulates.held.imp
    intro identifier key hKey hUnwrapped
    exact hSimulates.karma_refreshed hTicks hKey hUnwrapped

/- Each tick gives ten, and a payment takes thirty. -/
def payments : String → Option String
  | "refresh" => some "+10"
  | "pay" => some "-30"
  | _ => none

theorem lazy_eq_eager_of_payments :
    let events : List KarmaEvent :=
      [.getAccount "agent" "", .perform 0 "pay", .refreshCycle,
        .refreshCycle, .perform 0 "pay"]
    let karma := (KarmaRun.start payments).run events
    let eager :=
      start.run (KarmaPolicyBasic.construct payments) 10 events
    karma.outcomes = eager.outcomes ∧
      List.Forall₂
        (fun identifier key =>
          (karma.policy.accounts.access
            identifier.id).Unwrapped 10 (ticks events) →
          (karma.policy.refreshed identifier).karma =
            eager.balances key)
        karma.held eager.held := by
  have hEffect :
      (KarmaPolicyBasic.construct payments).refreshEffect =
        .ok ((10 : Nat) : Int) := by
    unfold KarmaPolicyBasic.refreshEffect
    rw [KarmaPolicyBasic.getPolicies_of_single _ (by decide)
      (by decide)]
    decide +kernel
  exact lazy_eq_eager hEffect _ (by decide)
    (productsFit_of_bound payments (by decide))

end EagerKarma

end OefCore
