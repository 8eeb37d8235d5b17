import Mathlib.Data.List.GetD
import Mathlib.Tactic.Common

/-
  Reading a list at positions that may lie past its end, where
  a fixed value stands in for what is missing.

  Main declarations:
    * `Padded.window`
    * `Padded.window_of_piece`
    * `Padded.window_shifted_iff`
-/

------------------------------------------------------------
-- Windows
------------------------------------------------------------

namespace Padded

variable {α : Type}

/- The `n` values from position `k` on. -/
def window
    (pad : α)
    (view : List α)
    (k : Nat) : Nat → List α
  | 0 => []
  | n + 1 => view.getD k pad :: window pad view (k + 1) n

variable {pad : α}

@[simp]
theorem length_window
    (view : List α)
    (k n : Nat) :
    (window pad view k n).length = n := by
  induction n generalizing k with
  | zero => rfl
  | succ n ih => rw [window, List.length_cons, ih]

theorem getElem_window
    (view : List α)
    (k : Nat)
    {n j : Nat}
    (hIndex : j < (window pad view k n).length) :
    (window pad view k n)[j] = view.getD (k + j) pad := by
  induction n generalizing k j with
  | zero => simp [window] at hIndex
  | succ n ih =>
      cases j with
      | zero => rfl
      | succ j =>
          have hRest : j < (window pad view (k + 1) n).length := by
            rw [length_window] at hIndex ⊢
            omega
          have hNext := ih (k + 1) hRest
          rw [Nat.add_assoc, Nat.add_comm 1 j] at hNext
          simp only [window, List.getElem_cons_succ]
          exact hNext

/- The window over a piece of the list shows the piece. -/
theorem window_of_piece
    (front piece back : List α) :
    window pad (front ++ piece ++ back) front.length
        piece.length =
      piece := by
  apply List.ext_getElem (length_window _ _ _)
  intro j hWindow hPiece
  rw [getElem_window, List.append_assoc,
    List.getD_append_right _ _ _ _ (by omega),
    Nat.add_sub_cancel_left, List.getD_append _ _ _ _ hPiece,
    List.getD_eq_getElem _ _ hPiece]

------------------------------------------------------------
-- Shifted Windows
------------------------------------------------------------

/- Past a piece there is only padding. -/
theorem getD_append_pad
    {piece back : List α}
    (hBack : ∀ value ∈ back, value = pad)
    {k : Nat}
    (hPiece : ∀ hIn : k < piece.length,
      piece.get ⟨k, hIn⟩ = pad) :
    (piece ++ back).getD k pad = pad := by
  by_cases hIn : k < piece.length
  · rw [List.getD_append _ _ _ _ hIn,
      List.getD_eq_getElem _ _ hIn]
    exact hPiece hIn
  · rw [List.getD_append_right _ _ _ _ (by omega)]
    by_cases hPast : k - piece.length < back.length
    · rw [List.getD_eq_getElem _ _ hPast]
      exact hBack _ (List.getElem_mem hPast)
    · exact List.getD_eq_default _ _ (by omega)

/- If each value of a piece is the one further on, it is padding
   all through: from its end backwards. -/
theorem eq_pad_of_shifted
    {piece back : List α}
    (hBack : ∀ value ∈ back, value = pad)
    {shift : Nat}
    (hShift : 0 < shift)
    (hEach : ∀ j, (hIndex : j < piece.length) →
      piece.get ⟨j, hIndex⟩ =
        (piece ++ back).getD (j + shift) pad)
    (j : Nat)
    (hIndex : j < piece.length) :
    piece.get ⟨j, hIndex⟩ = pad := by
  induction hLeft : piece.length - j using Nat.strongRecOn
    generalizing j with
  | ind left ih =>
      rw [hEach j hIndex]
      apply getD_append_pad hBack
      intro hIn
      exact ih _ (by omega) (j + shift) hIn rfl

/-
  A piece before nothing but padding is seen in a window that
  is too far to the right only if it is padding itself.
-/
theorem window_shifted_iff
    (front piece : List α)
    {back : List α}
    (hBack : ∀ value ∈ back, value = pad)
    {shift : Nat}
    (hShift : 0 < shift) :
    window pad (front ++ piece ++ back) (front.length + shift)
        piece.length = piece ↔
      ∀ value ∈ piece, value = pad := by
  have hAt : ∀ j,
      (front ++ piece ++ back).getD (front.length + shift + j)
          pad =
        (piece ++ back).getD (j + shift) pad := by
    intro j
    rw [List.append_assoc,
      List.getD_append_right _ _ _ _ (by omega)]
    congr 1
    omega
  constructor
  · intro hSame value hValue
    rcases List.mem_iff_get.mp hValue with ⟨⟨j, hIndex⟩, hGet⟩
    rw [← hGet]
    apply eq_pad_of_shifted hBack hShift
    intro j hIndex
    have hAlike := List.getElem_of_eq hSame.symm hIndex
    rw [getElem_window, hAt] at hAlike
    exact hAlike
  · intro hPad
    apply List.ext_getElem (length_window _ _ _)
    intro j hWindow hPiece
    rw [getElem_window, hAt,
      hPad _ (List.getElem_mem hPiece)]
    apply getD_append_pad hBack
    intro hIn
    exact hPad _ (List.get_mem _ _)

end Padded
