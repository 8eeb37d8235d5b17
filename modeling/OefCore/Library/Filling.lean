import Mathlib.Data.List.Basic
import Mathlib.Tactic.Common

/-
  Buffers of a fixed size that are filled from the front, one
  position after the other.  Nothing can be put behind the end.

  Main declarations:
    * `Filling`, `Filling.put`, `Filling.puts`
    * `Filling.puts_append`
    * `Filling.puts_blank`, `Filling.filled_iff`
-/

------------------------------------------------------------
-- Filling
------------------------------------------------------------

/- A buffer, and where the next value goes. -/
structure Filling (α : Type) where
  buffer : List α
  idx : Nat

namespace Filling

variable {α : Type}

def blank
    (size : Nat)
    (value : α) : Filling α where
  buffer := List.replicate size value
  idx := 0

/- A position outside is not written. -/
def put
    (f : Filling α)
    (value : α) : Option (Filling α) :=
  if f.idx < f.buffer.length then
    some ⟨f.buffer.set f.idx value, f.idx + 1⟩
  else
    none

def puts (f : Filling α) : List α → Option (Filling α)
  | [] => some f
  | value :: values => do
      let next ← f.put value
      next.puts values

theorem puts_append
    (f : Filling α)
    (values more : List α) :
    f.puts (values ++ more) =
      (f.puts values).bind fun next => next.puts more := by
  induction values generalizing f with
  | nil => rfl
  | cons value values ih =>
      simp only [List.cons_append, puts, Option.bind_eq_bind]
      cases f.put value with
      | none => rfl
      | some next => exact ih next

/- Values are put where the filling has come to, as long as
   there is room. -/
theorem puts_eq
    (front back values : List α) :
    puts ⟨front ++ back, front.length⟩ values =
      if values.length ≤ back.length then
        some ⟨front ++ values ++ back.drop values.length,
          front.length + values.length⟩
      else
        none := by
  induction values generalizing front back with
  | nil => simp [puts]
  | cons value values ih =>
      cases back with
      | nil => simp [puts, put]
      | cons old back =>
          have hPut :
              put ⟨front ++ old :: back, front.length⟩ value =
                some ⟨(front ++ [value]) ++ back,
                  (front ++ [value]).length⟩ := by
            simp [put]
          rw [puts, hPut, Option.bind_eq_bind, Option.bind_some,
            ih]
          simp [Nat.add_assoc, Nat.add_comm 1]

theorem puts_blank
    (size : Nat)
    (value : α)
    (values : List α) :
    (blank size value).puts values =
      if values.length ≤ size then
        some
          ⟨values ++
            List.replicate (size - values.length) value,
            values.length⟩
      else
        none := by
  have hPuts :=
    puts_eq [] (List.replicate size value) values
  simpa [blank] using hPuts

/- A blank buffer is filled if it has the size of what is put
   into it, and one that is too small is not. -/
theorem filled_iff
    (size : Nat)
    (value : α)
    {values : List α}
    (hSize : size ≤ values.length) :
    ((blank size value).puts values).map (·.buffer) =
      if size = values.length then some values else none := by
  rw [puts_blank]
  by_cases hSame : size = values.length
  · simp [hSame]
  · rw [if_neg hSame, if_neg (by omega)]
    rfl

end Filling
