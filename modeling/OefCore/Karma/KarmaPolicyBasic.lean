import Mathlib.Data.List.TakeWhile
import Mathlib.Tactic.Common
import OefCore.Basic.MachineInt
import OefCore.Basic.Numerals
import OefCore.CppUtils.BucketsOf
import OefCore.Karma.IKarmaPolicy

/-
  The configurable karma policy: each action has an effect,
  a text that disconnects, adds to the balance or sets it.

  Main declarations:
    * `parseEffect`
    * `Account.bringUpToDate`
    * `KarmaPolicyBasic.perform`, `couldPerform`,
      `refreshCycle`
    * `KarmaPolicyBasic.perform_throws_iff`
-/

namespace OefCore

------------------------------------------------------------
-- Actions
------------------------------------------------------------

/- The pieces of a text between delimiters, empty ones
   left out. -/
def tokenise
    (input : List Char)
    (delim : Char) : List (List Char) :=
  match hRest : input.dropWhile (· = delim) with
  | [] => []
  | c :: rest =>
      (c :: rest).takeWhile (· ≠ delim) ::
        tokenise (rest.dropWhile (· ≠ delim)) delim
termination_by input.length
decreasing_by
  have hDropped :=
    (List.dropWhile_suffix (l := input) (· = delim)).length_le
  have hLater :=
    (List.dropWhile_suffix (l := rest) (· ≠ delim)).length_le
  rw [hRest] at hDropped
  simp only [List.length_cons] at hDropped
  omega

/- A text without delimiter is one piece. -/
theorem tokenise_of_notMem
    {input : List Char}
    {delim : Char}
    (hNonempty : input ≠ [])
    (hNotMem : delim ∉ input) :
    tokenise input delim = [input] := by
  cases input with
  | nil => exact absurd rfl hNonempty
  | cons c rest =>
      have hHead : c ≠ delim := by
        intro hEq
        exact hNotMem (by simp [hEq])
      have hAll : ∀ d ∈ rest, d ≠ delim := by
        intro d hMem hEq
        exact hNotMem (by simp [← hEq, hMem])
      have hTail : rest.takeWhile (· ≠ delim) = rest := by
        rw [List.takeWhile_eq_self_iff]
        simpa using hAll
      have hNone : rest.dropWhile (· ≠ delim) = [] := by
        rw [List.dropWhile_eq_nil_iff]
        simpa using hAll
      rw [tokenise]
      split
      · rename_i hEmpty
        simp [hHead] at hEmpty
      · rename_i d others hSplit
        rw [List.dropWhile_cons_of_neg (by simpa using hHead)]
          at hSplit
        cases hSplit
        rw [List.takeWhile_cons_of_pos (by simpa using hHead),
          hTail, hNone, tokenise]
        simp

------------------------------------------------------------
-- Effects
------------------------------------------------------------

def parseEffect
    (currentBalance : Int)
    (effect : List Char) : Except Exception Int :=
  match effect with
  | [] => .ok currentBalance
  | c :: rest =>
      if c = 'X' then
        .error (.disconnect "Disconnect due to Karma policy")
      else if c.isDigit || c = '+' || c = '-' then
        match stoi effect with
        | .error thrown => .error thrown
        | .ok delta => .ok (toInt32 (currentBalance + delta))
      else if c = '=' then
        stoi rest
      else
        .ok currentBalance

/- What an effect makes of a balance is one of `int`. -/
theorem parseEffect_lt
    {currentBalance next : Int}
    (hBalance : currentBalance < 2 ^ 31)
    {effect : List Char}
    (hNext : parseEffect currentBalance effect = .ok next) :
    next < 2 ^ 31 := by
  have hStoi :
      ∀ {text : List Char} {value : Int},
        stoi text = .ok value → value < 2 ^ 31 := by
    intro text value hValue
    rw [stoi_eq_ok_iff] at hValue
    have hFound := Option.filter_eq_some_iff.mp hValue
    exact (of_decide_eq_true hFound.2).2
  unfold parseEffect at hNext
  split at hNext
  · rw [← Except.ok.inj hNext]
    exact hBalance
  · split at hNext
    · exact nomatch hNext
    · split at hNext
      · split at hNext
        · exact nomatch hNext
        · rw [← Except.ok.inj hNext]
          exact toInt32_lt _
      · split at hNext
        · exact hStoi hNext
        · rw [← Except.ok.inj hNext]
          exact hBalance

/-
  An effect that a balance bears: it does not disconnect, its
  number can be read, and no debt is left.
-/
def Bears
    (balance : Int)
    (effect : List Char) : Prop :=
  match effect with
  | [] => True
  | c :: rest =>
      if c = 'X' then
        False
      else if c.isDigit || c = '+' || c = '-' then
        ∃ delta, readsInt effect = some delta ∧
          0 ≤ toInt32 (balance + delta)
      else if c = '=' then
        ∃ value, readsInt rest = some value ∧ 0 ≤ value
      else
        True

theorem bears_iff
    {balance : Int}
    (hBalance : 0 ≤ balance)
    (effect : List Char) :
    Bears balance effect ↔
      ∃ next, parseEffect balance effect = .ok next ∧
        0 ≤ next := by
  cases effect with
  | nil => simp [Bears, parseEffect, hBalance]
  | cons c rest =>
      unfold Bears parseEffect
      simp only
      split
      · simp
      · split
        · cases hRead : stoi (c :: rest) with
          | error thrown =>
              have hNone : ∀ delta,
                  readsInt (c :: rest) ≠ some delta := by
                intro delta hSome
                rw [← stoi_eq_ok_iff, hRead] at hSome
                cases hSome
              simp [hNone]
          | ok delta =>
              rw [stoi_eq_ok_iff] at hRead
              simp [hRead]
        · split
          · simp only [stoi_eq_ok_iff]
          · simp [hBalance]

------------------------------------------------------------
-- Accounts
------------------------------------------------------------

/- `MAX_KARMA`. -/
def maxKarma : Nat := 10000

/- The values of `std::size_t`. -/
abbrev sizeRange : Nat := 2 ^ 64

structure Account where
  karma : Int
  when : Nat
  deriving DecidableEq, Repr

instance : Inhabited Account where
  default := { karma := maxKarma, when := 0 }

/-
  The sum is one of `std::size_t`: a negative balance counts
  as a huge one.
-/
def Account.bringUpToDate
    (account : Account)
    (tickAmounts tickCounter : Nat) : Account :=
  let diff :=
    (tickCounter + (sizeRange - account.when % sizeRange)) %
      sizeRange
  let karma := (account.karma % sizeRange).toNat
  let sum := (karma + diff * tickAmounts) % sizeRange
  { karma := (min sum maxKarma : Nat)
    when := tickCounter }

theorem Account.bringUpToDate_nonneg
    (account : Account)
    (tickAmounts tickCounter : Nat) :
    0 ≤ (account.bringUpToDate tickAmounts
      tickCounter).karma := by
  unfold Account.bringUpToDate
  exact Int.natCast_nonneg _

------------------------------------------------------------
-- The Policy
------------------------------------------------------------

/-
  A policy, with the process-wide `tick_amounts` and
  `tick_counter` that it reads.
-/
structure KarmaPolicyBasic where
  accounts : BucketsOf Account String 1024
  config : String → Option String
  tickAmounts : Nat
  tickCounter : Nat

namespace KarmaPolicyBasic

def construct
    (config : String → Option String) : KarmaPolicyBasic where
  accounts :=
    (BucketsOf.construct.get "(null karma account)").2
  config := config
  tickAmounts := 0
  tickCounter := 0

def getPolicy
    (policy : KarmaPolicyBasic)
    (action : String) : String :=
  match policy.config action with
  | some effect => effect
  | none =>
      match policy.config "*" with
      | some effect => effect
      | none => "0"

def getPolicies
    (policy : KarmaPolicyBasic)
    (action : String) : List String :=
  let actions :=
    match tokenise action.toList ',' with
    | [] => ["*"]
    | actions => actions.map String.ofList
  actions.map policy.getPolicy

def afterwards
    (policy : KarmaPolicyBasic)
    (currentBalance : Int)
    (actions : String) : Except Exception Int :=
  let worst :=
    (policy.getPolicies actions).foldlM
      (fun worst effect => do
        let result ← parseEffect currentBalance effect.toList
        return if result < worst then result else worst)
      currentBalance
  match worst with
  | .error (.karma _) =>
      .error (.karma
        ("actions:" ++ actions ++
          " result in disconnect due to Karma policy"))
  | worst => worst

def getAccountNumber
    (policy : KarmaPolicyBasic)
    (s : String) : Nat × KarmaPolicyBasic :=
  let found := policy.accounts.get s
  (found.1, { policy with accounts := found.2 })

def getAccount
    (policy : KarmaPolicyBasic)
    (pubkey ip : String) :
    KarmaAccount × KarmaPolicyBasic :=
  if pubkey ≠ "" then
    let found := policy.getAccountNumber pubkey
    (.mkAccount found.1 pubkey, found.2)
  else if ip ≠ "" then
    let found := policy.getAccountNumber ip
    (.mkAccount found.1 ip, found.2)
  else
    (.mkAccount 0 "DEFAULT_KARMA_ACCOUNT", policy)

/- The account of a holder, as `bringUpToDate` leaves it. -/
def refreshed
    (policy : KarmaPolicyBasic)
    (identifier : KarmaAccount) : Account :=
  (policy.accounts.access identifier.id).bringUpToDate
    policy.tickAmounts policy.tickCounter

def withAccount
    (policy : KarmaPolicyBasic)
    (identifier : KarmaAccount)
    (account : Account) : KarmaPolicyBasic :=
  { policy with
    accounts := policy.accounts.store identifier.id account }

def perform
    (policy : KarmaPolicyBasic)
    (identifier : KarmaAccount)
    (event : String)
    (force : Bool) :
    Except Exception Bool × KarmaPolicyBasic :=
  let account := policy.refreshed identifier
  let refreshed := policy.withAccount identifier account
  match policy.afterwards account.karma event with
  | .error thrown => (.error thrown, refreshed)
  | .ok next =>
      if 0 ≤ next ∨ force then
        (.ok true,
          refreshed.withAccount identifier
            { account with karma := next })
      else
        (.error (.karma event), refreshed)

/- The policy of an action is looked up as an action again. -/
def couldPerform
    (policy : KarmaPolicyBasic)
    (identifier : KarmaAccount)
    (action : String) :
    Except Exception Bool × KarmaPolicyBasic :=
  let account := policy.refreshed identifier
  let refreshed := policy.withAccount identifier account
  match policy.afterwards account.karma
      (policy.getPolicy action) with
  | .error thrown => (.error thrown, refreshed)
  | .ok next => (.ok (decide (0 ≤ next)), refreshed)

/- The effect that is configured for a refresh; there is always
   a first policy. -/
def refreshEffect
    (policy : KarmaPolicyBasic) : Except Exception Int :=
  let policies := policy.getPolicies "refresh"
  parseEffect 0 (policies.headD "").toList

/- The amount becomes a `std::size_t`. -/
def refreshCycle
    (policy : KarmaPolicyBasic) :
    Except Exception Unit × KarmaPolicyBasic :=
  match policy.refreshEffect with
  | .error thrown => (.error thrown, policy)
  | .ok amounts =>
      (.ok (),
        { policy with
          tickAmounts := (amounts % sizeRange).toNat
          tickCounter :=
            (policy.tickCounter + 1) % sizeRange })

/- An action by itself has one effect. -/
theorem getPolicies_of_single
    (policy : KarmaPolicyBasic)
    {action : String}
    (hNonempty : action.toList ≠ [])
    (hSingle : ',' ∉ action.toList) :
    policy.getPolicies action = [policy.getPolicy action] := by
  unfold getPolicies
  rw [tokenise_of_notMem hNonempty hSingle]
  simp

theorem afterwards_of_single
    (policy : KarmaPolicyBasic)
    {action : String}
    (hNonempty : action.toList ≠ [])
    (hSingle : ',' ∉ action.toList)
    {balance : Int}
    (hBalance : 0 ≤ balance) :
    (∃ next, policy.afterwards balance action = .ok next ∧
        0 ≤ next) ↔
      Bears balance (policy.getPolicy action).toList := by
  rw [bears_iff hBalance]
  unfold afterwards
  rw [policy.getPolicies_of_single hNonempty hSingle]
  cases hEffect :
      parseEffect balance (policy.getPolicy action).toList with
  | error thrown =>
      cases thrown <;> simp [hEffect, bind, Except.bind]
  | ok result =>
      by_cases hWorse : result < balance
      · simp [hEffect, bind, Except.bind, pure, Except.pure,
          hWorse]
      · have hNonneg : 0 ≤ result := by omega
        simp [hEffect, bind, Except.bind, pure, Except.pure,
          hWorse, hBalance, hNonneg]

/-
  A single action, not forced, throws exactly if the
  refreshed balance does not bear its effect.
-/
theorem perform_throws_iff
    (policy : KarmaPolicyBasic)
    (identifier : KarmaAccount)
    {event : String}
    (hNonempty : event.toList ≠ [])
    (hSingle : ',' ∉ event.toList) :
    (∃ thrown,
        (policy.perform identifier event false).1 =
          .error thrown) ↔
      ¬ Bears (policy.refreshed identifier).karma
        (policy.getPolicy event).toList := by
  have hBalance :
      0 ≤ (policy.refreshed identifier).karma :=
    Account.bringUpToDate_nonneg _ _ _
  rw [← policy.afterwards_of_single hNonempty hSingle hBalance]
  unfold perform
  simp only
  cases policy.afterwards (policy.refreshed identifier).karma
      event with
  | error thrown => simp
  | ok next =>
      by_cases hNext : 0 ≤ next
      · simp [hNext]
      · simp [hNext]

end KarmaPolicyBasic

end OefCore
