import Mathlib.Order.Bounds.Basic
import Mathlib.Order.MinMax
import Mathlib.Tactic.Common

/-
  The worst of what a partial function makes of some inputs,
  and of a result that is there from the start.

  Main declarations:
    * `WorstCase.worst`, `WorstCase.outcomes`
    * `WorstCase.worst_eq_ok_iff`
    * `WorstCase.worst_congr`
-/

------------------------------------------------------------
-- Worst Cases
------------------------------------------------------------

namespace WorstCase

variable {α β ε : Type}
variable [LinearOrder β]

def worst
    (f : α → Except ε β)
    (start : β)
    (inputs : List α) : Except ε β :=
  inputs.foldlM
    (fun worst input => do
      let result ← f input
      return if result < worst then result else worst)
    start

/- The start, and what is made of the inputs. -/
def outcomes
    (f : α → Except ε β)
    (start : β)
    (inputs : List α) : Set β :=
  insert start {b | ∃ input ∈ inputs, f input = .ok b}

theorem worst_cons_of_ok
    {f : α → Except ε β}
    {input : α}
    {result : β}
    (hResult : f input = .ok result)
    (start : β)
    (inputs : List α) :
    worst f start (input :: inputs) =
      worst f (min result start) inputs := by
  have hMin :
      (if result < start then result else start) =
        min result start := by
    split
    · rename_i hLt
      exact (min_eq_left hLt.le).symm
    · rename_i hLe
      exact (min_eq_right (not_lt.mp hLe)).symm
  simp [worst, hResult, hMin, bind, Except.bind, pure,
    Except.pure]

theorem worst_cons_of_error
    {f : α → Except ε β}
    {input : α}
    {thrown : ε}
    (hThrown : f input = .error thrown)
    (start : β)
    (inputs : List α) :
    worst f start (input :: inputs) = .error thrown := by
  simp [worst, hThrown, bind, Except.bind]

/- Whatever stops the fold comes from one of the inputs. -/
theorem exists_of_worst_eq_error
    {f : α → Except ε β}
    {start : β}
    {inputs : List α}
    {thrown : ε}
    (hThrown : worst f start inputs = .error thrown) :
    ∃ input ∈ inputs, f input = .error thrown := by
  induction inputs generalizing start with
  | nil => cases hThrown
  | cons input inputs ih =>
      cases hInput : f input with
      | error other =>
          rw [worst_cons_of_error hInput] at hThrown
          cases hThrown
          exact ⟨input, List.mem_cons_self, hInput⟩
      | ok result =>
          rw [worst_cons_of_ok hInput] at hThrown
          rcases ih hThrown with ⟨other, hMem, hOther⟩
          exact ⟨other, List.mem_cons_of_mem input hMem,
            hOther⟩

/- Of the smaller of two values and some more the least is the
   least of all of them. -/
theorem isLeast_insert_min
    {values : Set β}
    {left right least : β} :
    IsLeast (insert (min left right) values) least ↔
      IsLeast (insert right (insert left values)) least := by
  have hBounds :
      least ∈ lowerBounds (insert (min left right) values) ↔
        least ∈
          lowerBounds (insert right (insert left values)) := by
    simp only [lowerBounds_insert, Set.mem_inter_iff,
      Set.mem_Iic, le_min_iff]
    tauto
  constructor
  · rintro ⟨hMem, hBound⟩
    refine ⟨?_, hBounds.mp hBound⟩
    rcases hMem with rfl | hMem
    · rcases min_choice left right with hLeft | hRight
      · exact .inr (.inl hLeft)
      · exact .inl hRight
    · exact .inr (.inr hMem)
  · rintro ⟨hMem, hBound⟩
    refine ⟨?_, hBounds.mpr hBound⟩
    rcases hMem with rfl | rfl | hMem
    · left
      apply (min_eq_right _).symm
      exact hBound (.inr (.inl rfl))
    · left
      apply (min_eq_left _).symm
      exact hBound (.inl rfl)
    · exact .inr hMem

omit [LinearOrder β] in
theorem outcomes_cons
    {f : α → Except ε β}
    {input : α}
    {result : β}
    (hResult : f input = .ok result)
    (start : β)
    (inputs : List α) :
    outcomes f start (input :: inputs) =
      insert start
        (insert result
          {b | ∃ other ∈ inputs, f other = .ok b}) := by
  ext b
  have hResults :
      (∃ other ∈ input :: inputs, f other = .ok b) ↔
        b = result ∨ ∃ other ∈ inputs, f other = .ok b := by
    simp only [List.mem_cons, or_and_right, exists_or,
      exists_eq_left, hResult, Except.ok.injEq,
      eq_comm (a := b)]
  simp only [outcomes, Set.mem_insert_iff,
    Set.mem_ofPred_eq, hResults]

/- There is a worst case if every input has a result, and it
   is the least of them and the start. -/
theorem worst_eq_ok_iff
    {f : α → Except ε β}
    {start least : β}
    {inputs : List α} :
    worst f start inputs = .ok least ↔
      (∀ input ∈ inputs, ∃ b, f input = .ok b) ∧
        IsLeast (outcomes f start inputs) least := by
  induction inputs generalizing start with
  | nil =>
      have hOnly : outcomes f start [] = {start} := by
        simp [outcomes]
      have hStart :
          worst f start [] = .ok start := rfl
      rw [hOnly, hStart]
      constructor
      · intro hOk
        cases hOk
        exact ⟨by simp, isLeast_singleton⟩
      · rintro ⟨-, hLeast⟩
        exact congrArg Except.ok hLeast.1.symm
  | cons input inputs ih =>
      cases hInput : f input with
      | error thrown =>
          rw [worst_cons_of_error hInput]
          constructor
          · intro hOk
            cases hOk
          · rintro ⟨hAll, -⟩
            rcases hAll input List.mem_cons_self with
              ⟨b, hOk⟩
            rw [hInput] at hOk
            cases hOk
      | ok result =>
          rw [worst_cons_of_ok hInput, ih,
            outcomes_cons hInput]
          unfold outcomes
          rw [isLeast_insert_min]
          simp only [List.forall_mem_cons, hInput,
            Except.ok.injEq, exists_eq', true_and]

/- Neither the order of the inputs nor how often they come
   plays a part. -/
theorem worst_congr
    (f : α → Except ε β)
    (start least : β)
    {inputs others : List α}
    (hSame : ∀ input, input ∈ inputs ↔ input ∈ others) :
    worst f start inputs = .ok least ↔
      worst f start others = .ok least := by
  simp only [worst_eq_ok_iff, outcomes, hSame]

end WorstCase
