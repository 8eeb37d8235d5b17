import Mathlib.Data.Set.Function
import Mathlib.Order.Lattice
import Mathlib.Tactic.Common

/-
  Comparators of queues that bring entries of least key to
  the top.

  A queue asks for a strict weak ordering. `greater` is one;
  `notLess`, which differs from it for equal keys only, is
  not.

  Main declarations:
    * `Comparator.StrictWeak`, `Comparator.Topmost`
    * `Comparator.strictWeak_greater`
    * `Comparator.strictWeak_notLess_iff`
    * `Comparator.asymm_notLess_iff`
-/

------------------------------------------------------------
-- Laws
------------------------------------------------------------

namespace Comparator

variable {E K : Type}

def Incomparable (comp : E → E → Bool) (a b : E) : Prop :=
  comp a b = false ∧ comp b a = false

/- A strict weak ordering of a set of entries. -/
structure StrictWeak
    (comp : E → E → Bool)
    (entries : Set E) : Prop where
  irrefl : ∀ a ∈ entries, comp a a = false
  asymm :
    ∀ a ∈ entries, ∀ b ∈ entries,
      comp a b = true → comp b a = false
  trans :
    ∀ a ∈ entries, ∀ b ∈ entries, ∀ c ∈ entries,
      comp a b = true → comp b c = true → comp a c = true
  incomparable_trans :
    ∀ a ∈ entries, ∀ b ∈ entries, ∀ c ∈ entries,
      Incomparable comp a b → Incomparable comp b c →
        Incomparable comp a c

/- An entry that compares less than no other. -/
def Topmost
    (comp : E → E → Bool)
    (entries : Set E)
    (top : E) : Prop :=
  top ∈ entries ∧
    ∀ other ∈ entries, other ≠ top → comp top other = false

variable [LinearOrder K]

def greater (key : E → K) (a b : E) : Bool :=
  decide (key b < key a)

def notLess (key : E → K) (a b : E) : Bool :=
  !decide (key a < key b)

variable {key : E → K} {a b c top : E} {entries : Set E}

------------------------------------------------------------
-- The Strict Comparator
------------------------------------------------------------

theorem greater_iff :
    greater key a b = true ↔ key b < key a :=
  decide_eq_true_iff

theorem greater_eq_false_iff :
    greater key a b = false ↔ key a ≤ key b := by
  rw [greater, decide_eq_false_iff_not, not_lt]

theorem incomparable_greater_iff :
    Incomparable (greater key) a b ↔ key a = key b := by
  unfold Incomparable
  rw [greater_eq_false_iff, greater_eq_false_iff]
  exact le_antisymm_iff.symm

theorem strictWeak_greater (key : E → K) (entries : Set E) :
    StrictWeak (greater key) entries := by
  refine ⟨?_, ?_, ?_, ?_⟩
  · intro a _
    rw [greater_eq_false_iff]
  · intro a _ b _ hGreater
    rw [greater_eq_false_iff]
    exact (greater_iff.mp hGreater).le
  · intro a _ b _ c _ hFirst hSecond
    rw [greater_iff] at hFirst hSecond ⊢
    exact hSecond.trans hFirst
  · intro a _ b _ c _ hFirst hSecond
    rw [incomparable_greater_iff] at hFirst hSecond ⊢
    exact hFirst.trans hSecond

theorem topmost_greater_iff :
    Topmost (greater key) entries top ↔
      top ∈ entries ∧
        ∀ other ∈ entries, key top ≤ key other := by
  refine and_congr_right fun _ => ?_
  constructor
  · intro hTop other hOther
    by_cases hSame : other = top
    · rw [hSame]
    · exact greater_eq_false_iff.mp (hTop other hOther hSame)
  · intro hLeast other hOther _
    exact greater_eq_false_iff.mpr (hLeast other hOther)

------------------------------------------------------------
-- The Comparator That Holds for Ties
------------------------------------------------------------

theorem notLess_iff :
    notLess key a b = true ↔ key b ≤ key a := by
  simp [notLess]

theorem notLess_eq_false_iff :
    notLess key a b = false ↔ key a < key b := by
  simp [notLess]

theorem notLess_self (key : E → K) (a : E) :
    notLess key a a = true :=
  notLess_iff.mpr le_rfl

/- The two comparators differ for ties, and only there. -/
theorem notLess_eq_greater_iff :
    notLess key a b = greater key a b ↔ key a ≠ key b := by
  rw [Bool.eq_iff_iff, notLess_iff, greater_iff]
  constructor
  · intro hIff hSame
    exact (hIff.mp hSame.ge).ne hSame.symm
  · intro hOther
    exact ⟨fun hLe => hLe.lt_of_ne hOther.symm, le_of_lt⟩

theorem notLess_trans
    (hFirst : notLess key a b = true)
    (hSecond : notLess key b c = true) :
    notLess key a c = true := by
  rw [notLess_iff] at hFirst hSecond ⊢
  exact hSecond.trans hFirst

/- One of two entries always compares less. -/
theorem not_incomparable_notLess :
    ¬ Incomparable (notLess key) a b := by
  rintro ⟨hLeft, hRight⟩
  rw [notLess_eq_false_iff] at hLeft hRight
  exact absurd hRight (lt_asymm hLeft)

/- As it is not irreflexive anywhere, it is lawful for no
   entry. -/
theorem strictWeak_notLess_iff
    (key : E → K)
    (entries : Set E) :
    StrictWeak (notLess key) entries ↔ entries = ∅ := by
  constructor
  · intro hLaws
    refine Set.eq_empty_iff_forall_notMem.mpr ?_
    intro a hMem
    exact absurd (hLaws.irrefl a hMem)
      (by simp [notLess_self])
  · intro hEmpty
    rw [hEmpty]
    exact ⟨by simp, by simp, by simp, by simp⟩

/- Different entries are told apart exactly if their keys
   are. -/
theorem asymm_notLess_iff
    (key : E → K)
    (entries : Set E) :
    (∀ a ∈ entries, ∀ b ∈ entries, a ≠ b →
        notLess key a b = true → notLess key b a = false) ↔
      Set.InjOn key entries := by
  constructor
  · intro hAsymm a hMem b hMem' hSame
    by_contra hOther
    have hLess :=
      hAsymm a hMem b hMem' hOther (notLess_iff.mpr hSame.ge)
    rw [notLess_eq_false_iff, hSame] at hLess
    exact lt_irrefl _ hLess
  · intro hInj a hMem b hMem' hOther hNotLess
    rw [notLess_iff] at hNotLess
    rw [notLess_eq_false_iff]
    refine hNotLess.lt_of_ne fun hSame => hOther ?_
    exact (hInj hMem' hMem hSame).symm

/- What is topmost all the same has a least key. -/
theorem le_of_topmost_notLess
    (hTop : Topmost (notLess key) entries top)
    {other : E}
    (hOther : other ∈ entries) :
    key top ≤ key other := by
  by_cases hSame : other = top
  · rw [hSame]
  · exact (notLess_eq_false_iff.mp
      (hTop.2 other hOther hSame)).le

end Comparator
