import OefCore.Karma.KarmaRun
import OefCore.Library.WorstCase

/-
  What comes of `perform` for a list of actions, and what
  `couldPerform` says about it beforehand.

  Main declarations:
    * `Effect`, `Effect.ofText`, `Effect.applied`
    * `KarmaPolicyBasic.listedActions`
    * `KarmaPolicyBasic.perform_all_or_nothing`
    * `KarmaPolicyBasic.couldPerform_iff`
-/

namespace OefCore

------------------------------------------------------------
-- Effects over the Integers
------------------------------------------------------------

/- What the text of an effect asks for. -/
inductive Effect where
  | disconnects
  | adds (delta : Int)
  | sets (value : Int)
  | keeps
  | unreadable
  deriving DecidableEq, Repr

namespace Effect

def ofText : List Char → Effect
  | [] => .keeps
  | c :: rest =>
      if c = 'X' then
        .disconnects
      else if c.isDigit || c = '+' || c = '-' then
        match readsInt (c :: rest) with
        | some delta => .adds delta
        | none => .unreadable
      else if c = '=' then
        match readsInt rest with
        | some value => .sets value
        | none => .unreadable
      else
        .keeps

/- What it makes of a balance, if it does not throw. -/
def applied (balance : Int) : Effect → Option Int
  | .disconnects => none
  | .adds delta => some (balance + delta)
  | .sets value => some value
  | .keeps => some balance
  | .unreadable => none

/- Added to a balance in range it does not overflow `int32`. -/
def Fits : Effect → Prop
  | .adds delta =>
      ∀ balance : Int, 0 ≤ balance → balance ≤ maxKarma →
        -2 ^ 31 ≤ balance + delta ∧ balance + delta < 2 ^ 31
  | _ => True

end Effect

/- Narrowing an `int` changes nothing. -/
theorem toInt32_of_range
    {value : Int}
    (hLe : -2 ^ 31 ≤ value)
    (hLt : value < 2 ^ 31) :
    toInt32 value = value := by
  unfold toInt32
  rw [Int.bmod_eq_of_le] <;> omega

theorem stoi_eq_error_iff (text : List Char) :
    (∃ thrown, stoi text = .error thrown) ↔
      readsInt text = none := by
  cases hRead : stoi text with
  | error thrown =>
      have hNone : ∀ value, readsInt text ≠ some value := by
        intro value hSome
        rw [← stoi_eq_ok_iff, hRead] at hSome
        cases hSome
      simp [Option.eq_none_iff_forall_ne_some, hNone]
  | ok value =>
      rw [stoi_eq_ok_iff] at hRead
      simp [hRead]

/- An effect that fits is applied to a balance in range as
   over the integers. -/
theorem parseEffect_eq_ok_iff
    {balance : Int}
    (hNonneg : 0 ≤ balance)
    (hLe : balance ≤ maxKarma)
    {text : List Char}
    (hFits : (Effect.ofText text).Fits)
    (next : Int) :
    parseEffect balance text = .ok next ↔
      (Effect.ofText text).applied balance = some next := by
  cases text with
  | nil => simp [parseEffect, Effect.ofText, Effect.applied]
  | cons c rest =>
      unfold Effect.ofText at hFits ⊢
      unfold parseEffect
      simp only at hFits ⊢
      split at hFits
      · rename_i hX
        simp [hX, Effect.applied]
      · rename_i hX
        simp only [if_neg hX]
        split at hFits
        · rename_i hAdds
          simp only [if_pos hAdds]
          cases hRead : readsInt (c :: rest) with
          | none =>
              rcases (stoi_eq_error_iff _).mpr hRead with
                ⟨thrown, hThrown⟩
              simp [hThrown, Effect.applied]
          | some delta =>
              simp only [hRead] at hFits
              rcases hFits balance hNonneg hLe with
                ⟨hLow, hHigh⟩
              rw [stoi_eq_ok_iff.mpr hRead]
              simp [Effect.applied,
                toInt32_of_range hLow hHigh]
        · rename_i hAdds
          simp only [if_neg hAdds]
          split
          · cases hRead : readsInt rest with
            | none =>
                rcases (stoi_eq_error_iff _).mpr hRead with
                  ⟨thrown, hThrown⟩
                simp [hThrown, Effect.applied]
            | some value =>
                rw [stoi_eq_ok_iff.mpr hRead]
                simp [Effect.applied]
          · simp [Effect.applied]

/- The exceptions by which an action is refused. -/
def Exception.IsRefusal : Exception → Prop
  | .karma _ => True
  | .disconnect _ => True
  | .invalidArgument _ => True
  | .outOfRange _ => True
  | _ => False

theorem isRefusal_of_stoi
    {text : List Char}
    {thrown : Exception}
    (hThrown : stoi text = .error thrown) :
    thrown.IsRefusal := by
  unfold stoi at hThrown
  split at hThrown
  · cases hThrown
    exact True.intro
  · split at hThrown
    · cases hThrown
    · cases hThrown
      exact True.intro

theorem isRefusal_of_parseEffect
    {balance : Int}
    {text : List Char}
    {thrown : Exception}
    (hThrown : parseEffect balance text = .error thrown) :
    thrown.IsRefusal := by
  unfold parseEffect at hThrown
  split at hThrown
  · cases hThrown
  · split at hThrown
    · cases hThrown
      exact True.intro
    · split at hThrown
      · split at hThrown
        · rename_i hStoi
          cases hThrown
          exact isRefusal_of_stoi hStoi
        · cases hThrown
      · split at hThrown
        · exact isRefusal_of_stoi hThrown
        · cases hThrown

------------------------------------------------------------
-- Lists of Actions
------------------------------------------------------------

namespace KarmaPolicyBasic

/- The actions of a text; an empty list stands for `*`. -/
def listedActions (event : String) : List String :=
  match tokenise event.toList ',' with
  | [] => ["*"]
  | actions => actions.map String.ofList

theorem getPolicies_eq_map
    (policy : KarmaPolicyBasic)
    (event : String) :
    policy.getPolicies event =
      (listedActions event).map policy.getPolicy := rfl

/- What an action makes of a balance. -/
def effectOn
    (policy : KarmaPolicyBasic)
    (balance : Int)
    (action : String) : Except Exception Int :=
  parseEffect balance (policy.getPolicy action).toList

theorem worst_eq_foldlM
    (policy : KarmaPolicyBasic)
    (balance : Int)
    (event : String) :
    (policy.getPolicies event).foldlM
        (fun worst effect => do
          let result ← parseEffect balance effect.toList
          return if result < worst then result else worst)
        balance =
      WorstCase.worst (policy.effectOn balance) balance
        (listedActions event) := by
  rw [getPolicies_eq_map, List.foldlM_map]
  rfl

/- The balance afterwards is the worst that one of the actions
   leads to. -/
theorem afterwards_eq_ok_iff
    (policy : KarmaPolicyBasic)
    (balance next : Int)
    (event : String) :
    policy.afterwards balance event = .ok next ↔
      WorstCase.worst (policy.effectOn balance) balance
        (listedActions event) = .ok next := by
  rw [← worst_eq_foldlM]
  unfold afterwards
  dsimp only
  split
  · rename_i hKarma
    rw [hKarma]
    simp
  · rfl

theorem isRefusal_of_afterwards
    {policy : KarmaPolicyBasic}
    {balance : Int}
    {event : String}
    {thrown : Exception}
    (hThrown :
      policy.afterwards balance event = .error thrown) :
    thrown.IsRefusal := by
  unfold afterwards at hThrown
  dsimp only at hThrown
  rw [worst_eq_foldlM] at hThrown
  split at hThrown
  · cases hThrown
    exact True.intro
  · rcases WorstCase.exists_of_worst_eq_error hThrown with
      ⟨action, -, hAction⟩
    exact isRefusal_of_parseEffect hAction

------------------------------------------------------------
-- All or Nothing
------------------------------------------------------------

/- The balance that a call of `perform` leaves. -/
def balanceAfter
    (policy : KarmaPolicyBasic)
    (identifier : KarmaAccount)
    (event : String) : Int :=
  ((policy.perform identifier event
    false).2.accounts.access identifier.id).karma

/- No configured effect overflows on a balance in range. -/
def EffectsFit (policy : KarmaPolicyBasic) : Prop :=
  ∀ action effect, policy.config action = some effect →
    (Effect.ofText effect.toList).Fits

theorem EffectsFit.getPolicy
    {policy : KarmaPolicyBasic}
    (hFit : policy.EffectsFit)
    (action : String) :
    (Effect.ofText (policy.getPolicy action).toList).Fits := by
  unfold KarmaPolicyBasic.getPolicy
  split
  · rename_i hSome
    exact hFit _ _ hSome
  · split
    · rename_i hSome
      exact hFit _ _ hSome
    · have hZero :
          Effect.ofText "0".toList = .adds 0 := by
        decide
      rw [hZero]
      intro balance hNonneg hLe
      simp only [maxKarma] at hLe
      omega

/- The configured effect of an action, applied over the
   integers. -/
def applied
    (policy : KarmaPolicyBasic)
    (balance : Int)
    (action : String) : Option Int :=
  (Effect.ofText (policy.getPolicy action).toList).applied
    balance

/- Every listed action was applied, and the balance is the
   least that one of them, or none, leads to. -/
structure Charged
    (policy : KarmaPolicyBasic)
    (identifier : KarmaAccount)
    (event : String) : Prop where
  returns :
    (policy.perform identifier event false).1 = .ok true
  applies :
    ∀ action ∈ listedActions event, ∃ next,
      policy.applied (policy.refreshed identifier).karma
        action = some next
  least :
    IsLeast
      (insert (policy.refreshed identifier).karma
        {next | ∃ action ∈ listedActions event,
          policy.applied (policy.refreshed identifier).karma
            action = some next})
      (policy.balanceAfter identifier event)
  noDebt : 0 ≤ policy.balanceAfter identifier event

/- Nothing was charged. -/
structure Refused
    (policy : KarmaPolicyBasic)
    (identifier : KarmaAccount)
    (event : String) : Prop where
  throws :
    ∃ thrown,
      (policy.perform identifier event false).1 =
          .error thrown ∧
        thrown.IsRefusal
  balance :
    policy.balanceAfter identifier event =
      (policy.refreshed identifier).karma

section Outcomes

variable {policy : KarmaPolicyBasic}
variable {identifier : KarmaAccount}

/- Both writes of `perform` go to an account that is there. -/
theorem access_withAccount
    (hSlot : policy.accounts.HasSlot identifier.id)
    (account : Account) :
    (policy.withAccount identifier account).accounts.access
        identifier.id =
      account :=
  BucketsOf.access_store_self hSlot account

theorem balanceAfter_of_ok
    (hSlot : policy.accounts.HasSlot identifier.id)
    {event : String}
    {next : Int}
    (hNext :
      policy.afterwards (policy.refreshed identifier).karma
        event = .ok next)
    (hNonneg : 0 ≤ next) :
    (policy.perform identifier event false).1 = .ok true ∧
      policy.balanceAfter identifier event = next := by
  have hSlot' :
      (policy.withAccount identifier
        (policy.refreshed identifier)).accounts.HasSlot
          identifier.id := hSlot.store _ _
  unfold balanceAfter perform
  dsimp only
  simp only [hNext, hNonneg, true_or, if_true]
  rw [access_withAccount hSlot']
  exact ⟨trivial, rfl⟩

theorem refused_of_debt
    (hSlot : policy.accounts.HasSlot identifier.id)
    {event : String}
    {next : Int}
    (hNext :
      policy.afterwards (policy.refreshed identifier).karma
        event = .ok next)
    (hDebt : ¬ 0 ≤ next) :
    policy.Refused identifier event := by
  constructor
  · refine ⟨.karma event, ?_, True.intro⟩
    simp [perform, hNext, hDebt]
  · unfold balanceAfter perform
    simp [hNext, hDebt, access_withAccount hSlot]

theorem refused_of_error
    (hSlot : policy.accounts.HasSlot identifier.id)
    {event : String}
    {thrown : Exception}
    (hThrown :
      policy.afterwards (policy.refreshed identifier).karma
        event = .error thrown) :
    policy.Refused identifier event := by
  constructor
  · refine ⟨thrown, ?_, isRefusal_of_afterwards hThrown⟩
    simp [perform, hThrown]
  · unfold balanceAfter perform
    simp [hThrown, access_withAccount hSlot]

/- Over the integers, the balance afterwards is the least that
   a listed action leads to. -/
theorem afterwards_eq_ok_iff_isLeast
    (hFit : policy.EffectsFit)
    {balance : Int}
    (hNonneg : 0 ≤ balance)
    (hLe : balance ≤ maxKarma)
    (next : Int)
    (event : String) :
    policy.afterwards balance event = .ok next ↔
      (∀ action ∈ listedActions event, ∃ result,
        policy.applied balance action = some result) ∧
      IsLeast
        (insert balance
          {result | ∃ action ∈ listedActions event,
            policy.applied balance action = some result})
        next := by
  have hApplied : ∀ action result,
      policy.effectOn balance action = .ok result ↔
        policy.applied balance action = some result := by
    intro action result
    exact parseEffect_eq_ok_iff hNonneg hLe
      (hFit.getPolicy action) result
  rw [afterwards_eq_ok_iff, WorstCase.worst_eq_ok_iff]
  simp only [WorstCase.outcomes, hApplied]

/- A call charges or refuses. -/
theorem charged_or_refused
    (hFit : policy.EffectsFit)
    (hSlot : policy.accounts.HasSlot identifier.id)
    (event : String) :
    policy.Charged identifier event ∨
      policy.Refused identifier event := by
  have hRange :=
    (policy.accounts.access
      identifier.id).inRange_bringUpToDate
        policy.tickAmounts policy.tickCounter
  cases hNext :
      policy.afterwards (policy.refreshed identifier).karma
        event with
  | error thrown =>
      right
      exact refused_of_error hSlot hNext
  | ok next =>
      by_cases hNonneg : 0 ≤ next
      · left
        rcases balanceAfter_of_ok hSlot hNext hNonneg with
          ⟨hReturns, hBalance⟩
        rcases (afterwards_eq_ok_iff_isLeast hFit hRange.1
          hRange.2 next event).mp hNext with ⟨hAll, hLeast⟩
        constructor
        · exact hReturns
        · exact hAll
        · rw [hBalance]
          exact hLeast
        · rw [hBalance]
          exact hNonneg
      · right
        exact refused_of_debt hSlot hNext hNonneg

/- A call that charges has a worst case without debt. -/
theorem Charged.afterwards
    (hSlot : policy.accounts.HasSlot identifier.id)
    {event : String}
    (hCharged : policy.Charged identifier event) :
    policy.afterwards (policy.refreshed identifier).karma
        event =
      .ok (policy.balanceAfter identifier event) := by
  have hReturns := hCharged.returns
  cases hNext :
      policy.afterwards (policy.refreshed identifier).karma
        event with
  | error thrown =>
      simp [perform, hNext] at hReturns
  | ok next =>
      by_cases hNonneg : 0 ≤ next
      · rw [(balanceAfter_of_ok hSlot hNext hNonneg).2]
      · simp [perform, hNext, hNonneg] at hReturns

theorem Charged.not_refused
    {event : String}
    (hCharged : policy.Charged identifier event) :
    ¬ policy.Refused identifier event := by
  intro hRefused
  rcases hRefused.throws with ⟨thrown, hThrown, -⟩
  rw [hCharged.returns] at hThrown
  cases hThrown

/- The same actions in another order, or more than once, are
   charged the same. -/
theorem Charged.of_same_actions
    (hFit : policy.EffectsFit)
    (hSlot : policy.accounts.HasSlot identifier.id)
    {event other : String}
    (hSame : ∀ action,
      action ∈ listedActions event ↔
        action ∈ listedActions other)
    (hCharged : policy.Charged identifier event) :
    policy.Charged identifier other ∧
      policy.balanceAfter identifier other =
        policy.balanceAfter identifier event := by
  have hNext := hCharged.afterwards hSlot
  rw [afterwards_eq_ok_iff,
    WorstCase.worst_congr _ _ _ hSame,
    ← afterwards_eq_ok_iff] at hNext
  rcases balanceAfter_of_ok hSlot hNext hCharged.noDebt with
    ⟨hReturns, hBalance⟩
  refine ⟨?_, hBalance⟩
  rcases charged_or_refused hFit hSlot other with
    hOther | hOther
  · exact hOther
  · rcases hOther.throws with ⟨thrown, hThrown, -⟩
    rw [hReturns] at hThrown
    cases hThrown

theorem Refused.of_same_actions
    (hFit : policy.EffectsFit)
    (hSlot : policy.accounts.HasSlot identifier.id)
    {event other : String}
    (hSame : ∀ action,
      action ∈ listedActions event ↔
        action ∈ listedActions other)
    (hRefused : policy.Refused identifier event) :
    policy.Refused identifier other := by
  rcases charged_or_refused hFit hSlot other with
    hCharged | hOther
  · have hEvent := hCharged.of_same_actions hFit hSlot
      (fun action => (hSame action).symm)
    exact (hEvent.1.not_refused hRefused).elim
  · exact hOther

end Outcomes

/- Two actions at different prices. -/
def twoPrices : String → Option String
  | "login" => some "-10"
  | "search" => some "-25"
  | "*" => some "+1"
  | _ => none

theorem effectsFit_twoPrices :
    (construct twoPrices).EffectsFit := by
  have hAdds :
      ∀ delta : Int, -25 ≤ delta → delta ≤ 1 →
        (Effect.adds delta).Fits := by
    intro delta hLow hHigh balance hNonneg hLe
    simp only [maxKarma] at hLe
    omega
  have hLogin : Effect.ofText "-10".toList = .adds (-10) := by
    decide
  have hSearch :
      Effect.ofText "-25".toList = .adds (-25) := by
    decide
  have hOther : Effect.ofText "+1".toList = .adds 1 := by
    decide
  intro action effect hEffect
  change twoPrices action = some effect at hEffect
  unfold twoPrices at hEffect
  split at hEffect
  · cases hEffect
    rw [hLogin]
    exact hAdds _ (by decide) (by decide)
  · cases hEffect
    rw [hSearch]
    exact hAdds _ (by decide) (by decide)
  · cases hEffect
    rw [hOther]
    exact hAdds _ (by decide) (by decide)
  · cases hEffect

section Predictions

variable (policy : KarmaPolicyBasic)

/- A balance bears the effects of all actions of a text. -/
def BearsAll
    (balance : Int)
    (event : String) : Prop :=
  ∀ action ∈ listedActions event,
    Bears balance (policy.getPolicy action).toList

theorem bearsAll_iff
    {balance : Int}
    (hBalance : 0 ≤ balance)
    (event : String) :
    policy.BearsAll balance event ↔
      ∃ next, policy.afterwards balance event = .ok next ∧
        0 ≤ next := by
  have hEffect : ∀ action,
      Bears balance (policy.getPolicy action).toList ↔
        ∃ next, policy.effectOn balance action = .ok next ∧
          0 ≤ next :=
    fun action => bears_iff hBalance _
  simp only [afterwards_eq_ok_iff, BearsAll, hEffect]
  constructor
  · intro hAll
    have hSome : ∀ action ∈ listedActions event,
        ∃ next, policy.effectOn balance action = .ok next := by
      intro action hMem
      rcases hAll action hMem with ⟨next, hNext, -⟩
      exact ⟨next, hNext⟩
    cases hWorst :
        WorstCase.worst (policy.effectOn balance) balance
          (listedActions event) with
    | error thrown =>
        rcases WorstCase.exists_of_worst_eq_error hWorst with
          ⟨action, hMem, hThrown⟩
        rcases hSome action hMem with ⟨next, hNext⟩
        rw [hThrown] at hNext
        cases hNext
    | ok next =>
        refine ⟨next, rfl, ?_⟩
        rcases (WorstCase.worst_eq_ok_iff.mp hWorst).2.1 with
          hStart | ⟨action, hMem, hNext⟩
        · rw [hStart]
          exact hBalance
        · rcases hAll action hMem with
            ⟨other, hOther, hNonneg⟩
          rw [hNext] at hOther
          cases hOther
          exact hNonneg
  · rintro ⟨next, hWorst, hNonneg⟩ action hMem
    rcases WorstCase.worst_eq_ok_iff.mp hWorst with
      ⟨hSome, -, hBound⟩
    rcases hSome action hMem with ⟨result, hResult⟩
    refine ⟨result, hResult, ?_⟩
    exact Int.le_trans hNonneg
      (hBound (.inr ⟨action, hMem, hResult⟩))

/- `perform` accepts what the balance bears. -/
theorem perform_eq_ok_iff
    (identifier : KarmaAccount)
    (event : String) :
    (policy.perform identifier event false).1 = .ok true ↔
      policy.BearsAll (policy.refreshed identifier).karma
        event := by
  have hBalance :
      0 ≤ (policy.refreshed identifier).karma :=
    Account.bringUpToDate_nonneg _ _ _
  rw [policy.bearsAll_iff hBalance]
  unfold perform
  dsimp only
  cases policy.afterwards (policy.refreshed identifier).karma
      event with
  | error thrown => simp
  | ok next =>
      by_cases hNext : 0 ≤ next
      · simp [hNext]
      · simp [hNext]

/- `couldPerform` is for what the effect names. -/
theorem couldPerform_eq_ok_iff
    (identifier : KarmaAccount)
    (action : String) :
    (policy.couldPerform identifier action).1 = .ok true ↔
      policy.BearsAll (policy.refreshed identifier).karma
        (policy.getPolicy action) := by
  have hBalance :
      0 ≤ (policy.refreshed identifier).karma :=
    Account.bringUpToDate_nonneg _ _ _
  rw [policy.bearsAll_iff hBalance]
  unfold couldPerform
  dsimp only
  cases policy.afterwards (policy.refreshed identifier).karma
      (policy.getPolicy action) with
  | error thrown => simp
  | ok next => simp

end Predictions

end KarmaPolicyBasic

end OefCore
