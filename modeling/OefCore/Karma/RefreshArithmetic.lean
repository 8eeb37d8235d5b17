import Mathlib.Data.Int.ModEq
import OefCore.Karma.KarmaPolicyBasic

/-
  The sum by which an account is brought up to date, against
  the one over the integers.

  Main declarations:
    * `Account.exactSum`, `Account.RefreshedExactly`
    * `Account.karma_bringUpToDate_mod`
    * `KarmaPolicyBasic.refreshedExactly_iff`
-/

------------------------------------------------------------
-- Exact Refreshes
------------------------------------------------------------

namespace OefCore

namespace Account

def exactSum
    (account : Account)
    (ticks : Nat)
    (amount : Int) : Int :=
  account.karma + ticks * amount

/- What a refresh after some ticks should make of an account. -/
structure RefreshedExactly
    (account after : Account)
    (ticks : Nat)
    (amount : Int) : Prop where
  exact :
    after.karma = min (account.exactSum ticks amount) maxKarma
  unchanged :
    ticks = 0 → account.karma ≤ maxKarma →
      after.karma = account.karma
  notRaised :
    amount < 0 → after.karma ≤ account.karma

/- The other two follow from the first. -/
theorem refreshedExactly_of_exact
    {account after : Account}
    {ticks : Nat}
    {amount : Int}
    (hExact :
      after.karma =
        min (account.exactSum ticks amount) maxKarma) :
    account.RefreshedExactly after ticks amount where
  exact := hExact
  unchanged := by
    intro hTicks hLe
    have hSame : account.exactSum ticks amount =
        account.karma := by
      simp [exactSum, hTicks]
    rw [hExact, hSame]
    exact min_eq_left hLe
  notRaised := by
    intro hNegative
    have hLoss : (ticks : Int) * amount ≤ 0 :=
      Int.mul_nonpos_of_nonneg_of_nonpos
        (Int.natCast_nonneg ticks) (Int.le_of_lt hNegative)
    rw [hExact]
    apply Int.le_trans (min_le_left _ _)
    unfold exactSum
    omega

------------------------------------------------------------
-- Unsigned Sums
------------------------------------------------------------

/- The ticks since the last time, on a counter that may have
   wrapped around. -/
theorem elapsed_eq
    (account : Account)
    {ticks tickCounter : Nat}
    (hTicks : ticks < sizeRange)
    (hCounter :
      tickCounter = (account.when + ticks) % sizeRange) :
    (tickCounter +
        (sizeRange - account.when % sizeRange)) % sizeRange =
      ticks := by
  have hWhen : account.when % sizeRange < sizeRange :=
    Nat.mod_lt _ (by decide)
  rw [hCounter, Nat.mod_add_mod]
  have hSplit :=
    Nat.div_add_mod account.when sizeRange
  have hSame :
      account.when + ticks +
          (sizeRange - account.when % sizeRange) =
        ticks +
          sizeRange * (account.when / sizeRange + 1) := by
    rw [Nat.mul_add]
    omega
  rw [hSame, Nat.add_mul_mod_self_left]
  exact Nat.mod_eq_of_lt hTicks

/- The sum that is compared with the maximum is the exact one
   up to multiples of the range. -/
theorem karma_bringUpToDate_mod
    (account : Account)
    {ticks tickCounter : Nat}
    (hTicks : ticks < sizeRange)
    (hCounter :
      tickCounter = (account.when + ticks) % sizeRange)
    (amount : Int) :
    (account.bringUpToDate (amount % sizeRange).toNat
        tickCounter).karma =
      min (account.exactSum ticks amount % sizeRange)
        maxKarma := by
  have hKarma :
      (((account.karma % (sizeRange : Nat)).toNat : Nat) : Int) =
        account.karma % (sizeRange : Nat) :=
    Int.toNat_of_nonneg (Int.emod_nonneg _ (by decide))
  have hAmount :
      (((amount % (sizeRange : Nat)).toNat : Nat) : Int) =
        amount % (sizeRange : Nat) :=
    Int.toNat_of_nonneg (Int.emod_nonneg _ (by decide))
  have hSum :
      (account.karma % (sizeRange : Nat) +
          ticks * (amount % (sizeRange : Nat))) %
            (sizeRange : Nat) =
        account.exactSum ticks amount % (sizeRange : Nat) :=
    Int.ModEq.add (Int.mod_modEq _ _)
      (Int.ModEq.mul_left _ (Int.mod_modEq _ _))
  unfold bringUpToDate
  dsimp only
  rw [account.elapsed_eq hTicks hCounter]
  have hCast : ∀ sum : Nat,
      ((min sum maxKarma : Nat) : Int) =
        min (sum : Int) maxKarma := by
    intro sum
    omega
  rw [hCast, Int.natCast_mod, Int.natCast_add,
    Int.natCast_mul, hKarma, hAmount, hSum]

end Account

------------------------------------------------------------
-- When Refreshes Are Exact
------------------------------------------------------------

namespace KarmaPolicyBasic

/-
  With the amount that the configuration gives, and an exact
  sum that fits into 64 bits, an account is refreshed exactly
  unless the sum is negative.
-/
theorem refreshedExactly_iff
    {policy : KarmaPolicyBasic}
    {amount : Int}
    (hAmount : policy.refreshEffect = .ok amount)
    (account : Account)
    {ticks tickCounter : Nat}
    (hTicks : ticks < sizeRange)
    (hCounter :
      tickCounter = (account.when + ticks) % sizeRange)
    (hLow : -2 ^ 63 ≤ account.exactSum ticks amount)
    (hHigh : account.exactSum ticks amount < 2 ^ 64) :
    account.RefreshedExactly
        (account.bringUpToDate policy.refreshCycle.2.tickAmounts
          tickCounter) ticks amount ↔
      0 ≤ account.karma + ticks * amount := by
  have hConfigured :
      policy.refreshCycle.2.tickAmounts =
        (amount % sizeRange).toNat := by
    simp [refreshCycle, hAmount]
  have hKarma := account.karma_bringUpToDate_mod hTicks
    hCounter amount
  have hRange : ((sizeRange : Nat) : Int) = 2 ^ 64 := rfl
  have hMost : ((maxKarma : Nat) : Int) = 10000 := rfl
  rw [hConfigured]
  change _ ↔ 0 ≤ account.exactSum ticks amount
  constructor
  · intro hRefreshed
    by_contra hNegative
    -- a negative sum counts as a huge one
    have hWrapped :
        account.exactSum ticks amount % (sizeRange : Nat) =
          account.exactSum ticks amount + (sizeRange : Nat) := by
      rw [← Int.add_emod_right]
      exact Int.emod_eq_of_lt (by omega) (by omega)
    have hMax :
        ((maxKarma : Nat) : Int) ≤
          account.exactSum ticks amount + (sizeRange : Nat) := by
      omega
    have hBelow :
        (account.bringUpToDate (amount % sizeRange).toNat
            tickCounter).karma ≤
          account.exactSum ticks amount := by
      rw [hRefreshed.exact]
      exact min_le_left _ _
    rw [hKarma, hWrapped, min_eq_right hMax] at hBelow
    omega
  · intro hNonneg
    apply Account.refreshedExactly_of_exact
    have hSame :
        account.exactSum ticks amount % (sizeRange : Nat) =
          account.exactSum ticks amount :=
      Int.emod_eq_of_lt hNonneg (by omega)
    rw [hKarma, hSame]

/- A balance that gains two for each of three ticks. -/
theorem refreshedExactly_iff_three_ticks :
    let account : Account := { karma := 5, when := 1 }
    let policy := construct fun action =>
      if action = "refresh" then some "2" else none
    account.RefreshedExactly
        (account.bringUpToDate policy.refreshCycle.2.tickAmounts
          4) 3 2 ↔
      0 ≤ account.karma + (3 : Nat) * 2 :=
  refreshedExactly_iff (by decide +kernel) _ (by decide)
    (by decide) (by decide) (by decide)

/- A debt is forgiven by the next call, without any tick. -/
theorem not_refreshedExactly_of_debt :
    let account : Account := { karma := -50, when := 1 }
    let policy := construct fun action =>
      if action = "refresh" then some "2" else none
    ¬ account.RefreshedExactly
      (account.bringUpToDate policy.refreshCycle.2.tickAmounts
        1) 0 2 := by
  intro account policy hRefreshed
  have hExact := hRefreshed.exact
  revert hExact
  decide +kernel

end KarmaPolicyBasic

end OefCore
