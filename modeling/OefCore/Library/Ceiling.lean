import Mathlib.Data.List.Basic
import Mathlib.Order.Lattice
import Mathlib.Tactic.Common

/-
  Lists in ascending order of their keys, where the first
  element that is not below a key is looked up.

  Main declarations:
    * `Ceiling.Ascending`, `Ceiling.find`
    * `Ceiling.find_key`, `Ceiling.find_least`,
      `Ceiling.le_getLast`
-/

namespace Ceiling

variable {α K : Type} [LinearOrder K]

/- Keys ascend; the same element may stand there twice. -/
def Ascending (key : α → K) (xs : List α) : Prop :=
  xs.Pairwise fun x y => key x < key y ∨ x = y

/- The first element that is not below a key. -/
def find (key : α → K) (k : K) (xs : List α) : Option α :=
  xs.find? fun x => k ≤ key x

variable {key : α → K} {xs : List α}

theorem find_eq_some
    {k : K}
    {x : α}
    (hFound : find key k xs = some x) :
    x ∈ xs ∧ k ≤ key x :=
  ⟨List.mem_of_find?_eq_some hFound,
    of_decide_eq_true
      (List.find?_some (p := fun x => decide (k ≤ key x)) hFound)⟩

theorem find_eq_none_iff {k : K} :
    find key k xs = none ↔ ∀ x ∈ xs, key x < k := by
  simp [find]

/- No element that is not below the key comes before the one
   that is found. -/
theorem find_least
    (hAscending : Ascending key xs)
    {k : K}
    {x : α}
    (hFound : find key k xs = some x)
    {y : α}
    (hMem : y ∈ xs)
    (hAbove : k ≤ key y) :
    key x < key y ∨ x = y := by
  obtain ⟨-, before, after, rfl, hBefore⟩ :=
    List.find?_eq_some_iff_append.mp hFound
  rcases List.mem_append.mp hMem with hEarly | hLate
  · have hNot := hBefore y hEarly
    simp [hAbove] at hNot
  · rcases List.mem_cons.mp hLate with rfl | hAfter
    · exact .inr rfl
    · have hTail := (List.pairwise_append.mp hAscending).2.1
      exact (List.pairwise_cons.mp hTail).1 y hAfter

/- What is in the list is found by its key. -/
theorem find_key
    (hAscending : Ascending key xs)
    {x : α}
    (hMem : x ∈ xs) :
    find key (key x) xs = some x := by
  cases hFound : find key (key x) xs with
  | none =>
    exact absurd (find_eq_none_iff.mp hFound x hMem) (lt_irrefl _)
  | some y =>
    have hAbove := (find_eq_some hFound).2
    rcases find_least hAscending hFound hMem le_rfl with
      hLess | rfl
    · exact absurd hLess (not_lt.mpr hAbove)
    · rfl

theorem le_getLast
    (hAscending : Ascending key xs)
    {x y : α}
    (hLast : xs.getLast? = some y)
    (hMem : x ∈ xs) :
    key x < key y ∨ x = y := by
  obtain ⟨before, rfl⟩ := List.getLast?_eq_some_iff.mp hLast
  rcases List.mem_append.mp hMem with hEarly | hSelf
  · exact (List.pairwise_append.mp hAscending).2.2 x hEarly y
      (List.mem_singleton_self y)
  · exact .inr (List.mem_singleton.mp hSelf)

end Ceiling
