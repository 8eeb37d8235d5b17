import Mathlib.Data.List.Infix
import Mathlib.Data.List.Nodup
import Mathlib.Logic.Function.Basic
import Mathlib.Tactic.Common

/-
  A memory of cells and the scattering of a list of values
  over a list of addresses.

  Main declarations:
    * `fill`
    * `fill_append` and `fill_of_notMem`
    * `map_fill`
-/

------------------------------------------------------------
-- Filling Addresses
------------------------------------------------------------

namespace Memory

variable {α β : Type}
variable [DecidableEq α]

/- Write values to addresses, one after the other, until
   either list ends. -/
def fill (mem : α → β) : List α → List β → α → β
  | address :: addresses, value :: values =>
      fill (Function.update mem address value) addresses values
  | _, _ => mem

@[simp] theorem fill_nil_right
    (mem : α → β)
    (addresses : List α) :
    fill mem addresses [] = mem := by
  cases addresses <;> rfl

@[simp] theorem fill_nil_left
    (mem : α → β)
    (values : List β) :
    fill mem [] values = mem := by
  cases values <;> rfl

theorem fill_cons
    (mem : α → β)
    (address : α)
    (addresses : List α)
    (value : β)
    (values : List β) :
    fill mem (address :: addresses) (value :: values) =
      fill (Function.update mem address value) addresses
        values := rfl

/- Cells that are not addressed keep their value. -/
theorem fill_of_notMem
    (mem : α → β)
    {addresses : List α}
    (values : List β)
    {cell : α}
    (hCell : cell ∉ addresses) :
    fill mem addresses values cell = mem cell := by
  induction addresses generalizing mem values with
  | nil => simp
  | cons address addresses ih =>
      cases values with
      | nil => simp
      | cons value values =>
          rcases not_or.mp (mt List.mem_cons.mpr hCell) with
            ⟨hNe, hRest⟩
          rw [fill_cons, ih _ _ hRest,
            Function.update_of_ne hNe]

/- Writing two lists in turn writes their concatenation. -/
theorem fill_append
    (mem : α → β)
    (addresses : List α)
    (first second : List β) :
    fill (fill mem addresses first)
        (addresses.drop first.length) second =
      fill mem addresses (first ++ second) := by
  induction first generalizing mem addresses with
  | nil => simp
  | cons value first ih =>
      cases addresses with
      | nil => simp
      | cons address addresses =>
          simp only [fill_cons, List.length_cons,
            List.drop_succ_cons, List.cons_append]
          exact ih _ _

/- Distinct addresses read back what was written. -/
theorem map_fill
    (mem : α → β)
    {addresses : List α}
    (hNodup : addresses.Nodup)
    (values : List β)
    (hLength : values.length ≤ addresses.length) :
    addresses.map (fill mem addresses values) =
      values ++ (addresses.map mem).drop values.length := by
  induction addresses generalizing mem values with
  | nil =>
      have hNil : values = [] :=
        List.length_eq_zero_iff.mp (by simpa using hLength)
      simp [hNil]
  | cons address addresses ih =>
      cases values with
      | nil => simp
      | cons value values =>
          rcases List.nodup_cons.mp hNodup with
            ⟨hNot, hRest⟩
          have hTail := ih
            (Function.update mem address value) hRest
            values (by simpa using hLength)
          have hSame :
              addresses.map
                  (Function.update mem address value) =
                addresses.map mem := by
            apply List.map_congr_left
            intro cell hCell
            apply Function.update_of_ne
            intro hEq
            exact hNot (hEq ▸ hCell)
          rw [List.map_cons, fill_cons,
            fill_of_notMem _ _ hNot, Function.update_self,
            hTail, hSame]
          rfl

end Memory
