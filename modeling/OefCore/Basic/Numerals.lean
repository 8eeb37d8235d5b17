import Mathlib.Algebra.Order.Ring.Int
import Mathlib.Tactic.Common
import OefCore.Karma.IKarmaPolicy

/-
  `std::stoi`: the numbers at the front of texts.

  Main declarations:
    * `decimal`, `leadingInt`, `stoi`
    * `stoi_eq_ok_iff`
-/

namespace OefCore

------------------------------------------------------------
-- Numbers in Texts
------------------------------------------------------------

/- The characters that `isspace` accepts. -/
def isSpace (c : Char) : Bool :=
  c = ' ' || (9 ≤ c.toNat && c.toNat ≤ 13)

/- The value of a run of decimal digits. -/
def decimal (digits : List Char) : Nat :=
  digits.foldl
    (fun value digit => value * 10 + (digit.toNat - 48)) 0

/-
  The number at the front of a text, if there is one: space,
  a sign, digits, and whatever follows them.
-/
def leadingInt (text : List Char) : Option Int :=
  let number := text.dropWhile isSpace
  let magnitude (digits : List Char) : Option Nat :=
    match digits.takeWhile Char.isDigit with
    | [] => none
    | digit :: others => some (decimal (digit :: others))
  match number with
  | '-' :: digits =>
      (magnitude digits).map fun value => -(value : Int)
  | '+' :: digits => (magnitude digits).map fun value => value
  | digits => (magnitude digits).map fun value => value

/- `std::stoi`. -/
def stoi (text : List Char) : Except Exception Int :=
  match leadingInt text with
  | none => .error (.invalidArgument "stoi")
  | some value =>
      if -2 ^ 31 ≤ value ∧ value < 2 ^ 31 then
        .ok value
      else
        .error (.outOfRange "stoi")

/- A number that an `int` holds. -/
def readsInt (text : List Char) : Option Int :=
  (leadingInt text).filter fun value =>
    -2 ^ 31 ≤ value ∧ value < 2 ^ 31

theorem stoi_eq_ok_iff
    {text : List Char}
    {value : Int} :
    stoi text = .ok value ↔ readsInt text = some value := by
  unfold stoi readsInt
  cases leadingInt text with
  | none => simp
  | some number =>
      simp only [Option.filter_some, decide_eq_true_eq]
      by_cases hRange : -2 ^ 31 ≤ number ∧ number < 2 ^ 31
      · rw [if_pos hRange, if_pos hRange]
        simp
      · rw [if_neg hRange, if_neg hRange]
        simp

end OefCore
