import Mathlib.Logic.Function.Basic
import Mathlib.Tactic.Common

/-
  Directories: names that are entered for their holders, where
  an entry is overwritten by whoever enters the name next and
  is erased by the name.

  Main declarations:
    * `Directory.Agrees`
    * `Directory.agrees_enter_iff`, `Directory.agrees_leave`
-/

------------------------------------------------------------
-- Directories
------------------------------------------------------------

/- What is entered under a name, and the name that each
   holder goes by. -/
structure Directory (K O : Type) where
  entry : K → Option O
  held : O → Option K

namespace Directory

variable {K O : Type} [DecidableEq K] [DecidableEq O]

/- Every holder is found under its name, and nobody else is
   found. -/
def Agrees (d : Directory K O) : Prop :=
  ∀ owner name, d.entry name = some owner ↔
    d.held owner = some name

def enter
    (d : Directory K O)
    (owner : O)
    (name : K) : Directory K O where
  entry := Function.update d.entry name (some owner)
  held := Function.update d.held owner (some name)

/- The entry goes by its name, whoever it is for. -/
def leave
    (d : Directory K O)
    (owner : O)
    (name : K) : Directory K O where
  entry := Function.update d.entry name none
  held := Function.update d.held owner none

/-
  A newcomer may enter exactly under a name that nobody goes
  by.
-/
theorem agrees_enter_iff
    {d : Directory K O}
    (hAgrees : d.Agrees)
    {owner : O}
    (hNew : d.held owner = none)
    (name : K) :
    (d.enter owner name).Agrees ↔
      ∀ other, d.held other ≠ some name := by
  constructor
  · intro hAfter other hOther
    have hNe : other ≠ owner := by
      intro hEq
      rw [hEq, hNew] at hOther
      cases hOther
    have hEntry :
        (d.enter owner name).entry name = some other := by
      rw [hAfter]
      simpa [enter, hNe] using hOther
    simp only [enter, Function.update_self,
      Option.some.injEq] at hEntry
    exact hNe hEntry.symm
  · intro hFree other key
    by_cases hKey : key = name
    · by_cases hOther : other = owner
      · simp [enter, hKey, hOther]
      · have hNot : ¬ owner = other := fun hEq =>
          hOther hEq.symm
        simp [enter, hKey, hOther, hNot, hFree other]
    · by_cases hOther : other = owner
      · have hNot : ¬ name = key := fun hEq => hKey hEq.symm
        have hNone : d.entry key ≠ some owner := by
          rw [Ne, hAgrees, hNew]
          simp
        simp [enter, hKey, hOther, hNot, hNone]
      · simpa [enter, hKey, hOther] using hAgrees other key

/- A holder may leave under the name it goes by. -/
theorem agrees_leave
    {d : Directory K O}
    (hAgrees : d.Agrees)
    {owner : O}
    {name : K}
    (hHeld : d.held owner = some name) :
    (d.leave owner name).Agrees := by
  have hEntry : d.entry name = some owner :=
    (hAgrees owner name).mpr hHeld
  intro other key
  by_cases hKey : key = name
  · by_cases hOther : other = owner
    · simp [leave, hKey, hOther]
    · have hNot : d.held other ≠ some name := by
        intro hSame
        have hTwice := (hAgrees other name).mpr hSame
        rw [hEntry, Option.some.injEq] at hTwice
        exact hOther hTwice.symm
      simp [leave, hKey, hOther, hNot]
  · by_cases hOther : other = owner
    · have hNone : d.entry key ≠ some owner := by
        rw [Ne, hAgrees, hHeld, Option.some.injEq]
        exact fun hEq => hKey hEq.symm
      simp [leave, hKey, hOther, hNone]
    · simpa [leave, hKey, hOther] using hAgrees other key

end Directory
