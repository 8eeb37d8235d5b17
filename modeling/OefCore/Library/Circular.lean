import Mathlib.Data.List.Range
import Mathlib.Data.Nat.ModEq
import Mathlib.Data.List.Nodup
import Mathlib.Tactic.Common

/-
  Intervals of positions on a circle of `size` cells.

  Main declarations:
    * `Circular.interval`
    * `Circular.interval_add` and `Circular.nodup_interval`
    * `Circular.segments_eq`
-/

------------------------------------------------------------
-- Circular Intervals
------------------------------------------------------------

namespace Circular

/- `count` positions from `start` on, around the circle. -/
def interval (size start count : Nat) : List Nat :=
  (List.range count).map (fun i => (start + i) % size)

@[simp] theorem length_interval
    (size start count : Nat) :
    (interval size start count).length = count := by
  simp [interval]

/- Only the position on the circle counts. -/
theorem interval_mod
    (size start count : Nat) :
    interval size (start % size) count =
      interval size start count := by
  simp [interval]

/- An interval is one stretch followed by another. -/
theorem interval_add
    (size start first second : Nat) :
    interval size start (first + second) =
      interval size start first ++
        interval size (start + first) second := by
  simp only [interval, List.range_add, List.map_append,
    List.map_map]
  congr 1
  apply List.map_congr_left
  intro i _
  simp only [Function.comp, Nat.add_assoc]

theorem drop_interval
    (size start : Nat)
    {amount count : Nat}
    (hLe : amount ≤ count) :
    (interval size start count).drop amount =
      interval size (start + amount) (count - amount) := by
  have hSplit :=
    interval_add size start amount (count - amount)
  rw [Nat.add_sub_cancel' hLe] at hSplit
  rw [hSplit]
  exact List.drop_left' (length_interval _ _ _)

theorem take_interval
    (size start : Nat)
    {amount count : Nat}
    (hLe : amount ≤ count) :
    (interval size start count).take amount =
      interval size start amount := by
  have hSplit :=
    interval_add size start amount (count - amount)
  rw [Nat.add_sub_cancel' hLe] at hSplit
  rw [hSplit]
  exact List.take_left' (length_interval _ _ _)

/- No position comes twice within one turn. -/
theorem nodup_interval
    {size start count : Nat}
    (hTurn : count ≤ size) :
    (interval size start count).Nodup := by
  apply List.Nodup.map_on _ List.nodup_range
  intro i hi j hj hEq
  rw [List.mem_range] at hi hj
  have hSame : i % size = j % size :=
    Nat.ModEq.add_left_cancel' start hEq
  rwa [Nat.mod_eq_of_lt (by omega),
    Nat.mod_eq_of_lt (by omega)] at hSame

/- Short of the end of the cells, an interval is a range. -/
theorem interval_eq_range
    {size start count : Nat}
    (hEnd : start + count ≤ size) :
    interval size start count = List.range' start count := by
  rw [interval, List.range'_eq_map_range]
  apply List.map_congr_left
  intro i hi
  rw [List.mem_range] at hi
  exact Nat.mod_eq_of_lt (by omega)

/-
  An interval within one turn is the range up to the end of
  the cells, followed by the range from the first cell on.
-/
theorem segments_eq
    {size start count : Nat}
    (hStart : start < size)
    (hTurn : count ≤ size) :
    List.range' start (min (start + count) size - start) ++
        List.range' 0
          (count - (min (start + count) size - start)) =
      interval size start count := by
  by_cases hWrap : start + count ≤ size
  · rw [Nat.min_eq_left hWrap, Nat.add_sub_cancel_left,
      Nat.sub_self, interval_eq_range hWrap]
    simp
  · rw [Nat.min_eq_right (by omega)]
    have hSplit := interval_add size start (size - start)
      (count - (size - start))
    rw [Nat.add_sub_cancel' (by omega),
      Nat.add_sub_cancel' (by omega : start ≤ size)] at hSplit
    have hTurned :
        interval size size (count - (size - start)) =
          interval size 0 (count - (size - start)) := by
      rw [← interval_mod, Nat.mod_self]
    rw [hSplit, hTurned, interval_eq_range (by omega),
      interval_eq_range (by omega)]

end Circular
