import Mathlib.Logic.Function.Basic
import Mathlib.Tactic.Common

/-
  Tables that keep, under each key of a growing list, the
  position where the key stands last.

  Main declarations:
    * `LastPosition.IsLast`
    * `LastPosition.Records`
    * `LastPosition.Records.snoc`
-/

------------------------------------------------------------
-- Last Positions
------------------------------------------------------------

namespace LastPosition

variable {K : Type}

/- The key stands at a position and at none after it. -/
def IsLast
    (keys : List K)
    (key : K)
    (position : Nat) : Prop :=
  keys[position]? = some key ∧
    ∀ later, position < later → keys[later]? ≠ some key

/- The table finds the last position of every key. -/
def Records
    (keys : List K)
    (table : K → Option Nat) : Prop :=
  ∀ key position,
    table key = some position ↔ IsLast keys key position

theorem IsLast.lt_length
    {keys : List K}
    {key : K}
    {position : Nat}
    (hLast : IsLast keys key position) :
    position < keys.length :=
  (List.getElem?_eq_some_iff.mp hLast.1).1

theorem records_nil :
    Records ([] : List K) (fun _ => none) := by
  intro key position
  simp [IsLast]

/- A key that is appended stands last at the end, and every
   other key where it stood. -/
theorem isLast_snoc_iff
    (keys : List K)
    (new key : K)
    (position : Nat) :
    IsLast (keys ++ [new]) key position ↔
      (key = new ∧ position = keys.length) ∨
        (key ≠ new ∧ IsLast keys key position) := by
  have hEnd : (keys ++ [new])[keys.length]? = some new := by
    simp
  have hFront : ∀ {other}, other < keys.length →
      (keys ++ [new])[other]? = keys[other]? :=
    fun hLt => List.getElem?_append_left hLt
  have hBeyond : ∀ {other}, keys.length < other →
      (keys ++ [new])[other]? = none := by
    intro other hLt
    rw [List.getElem?_eq_none_iff, List.length_append]
    exact hLt
  constructor
  · intro hLast
    by_cases hKey : key = new
    · left
      refine ⟨hKey, ?_⟩
      rcases Nat.lt_trichotomy position keys.length with
        hLt | hEq | hGt
      · exact absurd (by rw [hEnd, hKey])
          (hLast.2 keys.length hLt)
      · exact hEq
      · have hHere := hLast.1
        rw [hBeyond hGt] at hHere
        cases hHere
    · right
      refine ⟨hKey, ?_⟩
      have hPosition : position < keys.length := by
        by_contra hNot
        rcases Nat.lt_or_eq_of_le (Nat.le_of_not_lt hNot) with
          hGt | hEq
        · have hHere := hLast.1
          rw [hBeyond hGt] at hHere
          cases hHere
        · have hHere := hLast.1
          rw [← hEq, hEnd, Option.some.injEq] at hHere
          exact hKey hHere.symm
      refine ⟨by rw [← hFront hPosition]; exact hLast.1, ?_⟩
      intro later hLater hSame
      have hLt := (List.getElem?_eq_some_iff.mp hSame).1
      apply hLast.2 later hLater
      rw [hFront hLt]
      exact hSame
  · rintro (⟨hKey, hPosition⟩ | ⟨hKey, hLast⟩)
    · subst hKey hPosition
      refine ⟨hEnd, ?_⟩
      intro later hLater
      rw [hBeyond hLater]
      simp
    · refine ⟨by rw [hFront hLast.lt_length]; exact hLast.1, ?_⟩
      intro later hLater hSame
      rcases Nat.lt_trichotomy later keys.length with
        hLt | hEq | hGt
      · rw [hFront hLt] at hSame
        exact hLast.2 later hLater hSame
      · rw [hEq, hEnd, Option.some.injEq] at hSame
        exact hKey hSame.symm
      · rw [hBeyond hGt] at hSame
        cases hSame

/- Writing the end of the list under the key that is
   appended keeps the table. -/
theorem Records.snoc
    [DecidableEq K]
    {keys : List K}
    {table : K → Option Nat}
    (hRecords : Records keys table)
    (new : K) :
    Records (keys ++ [new])
      (Function.update table new (some keys.length)) := by
  intro key position
  rw [isLast_snoc_iff]
  by_cases hKey : key = new
  · subst hKey
    simp [eq_comm]
  · rw [Function.update_of_ne hKey]
    simp [hKey, hRecords key position]

end LastPosition
