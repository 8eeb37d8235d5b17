import Mathlib.Data.List.Basic
import Mathlib.Tactic.Common

/-
  Arrays that are allocated one after the other, and views of
  parts of them that may overlap.  What is written to one array
  is seen through the views of it that reach there, and through
  no others.

  Main declarations:
    * `SharedArrays.View`, `SharedArrays.read`
    * `SharedArrays.write`, `SharedArrays.copy`
    * `SharedArrays.Written`, `SharedArrays.written_copy`
-/

namespace SharedArrays

variable {α : Type}

------------------------------------------------------------
-- Views
------------------------------------------------------------

/- The arrays, in the order in which they were allocated. -/
abbrev Heap (α : Type) := List (List α)

/- A part of an array. -/
structure View where
  array : Nat
  start : Nat
  length : Nat
deriving DecidableEq, Repr

def cells
    (heap : Heap α)
    (array : Nat) : List α :=
  heap.getD array []

def read
    (heap : Heap α)
    (view : View) : List α :=
  ((cells heap view.array).drop view.start).take view.length

/- The view is one of an array, and within it. -/
structure View.Valid
    (view : View)
    (heap : Heap α) : Prop where
  allocated : view.array < heap.length
  within :
    view.start + view.length ≤ (cells heap view.array).length

theorem View.Valid.length_read
    {heap : Heap α}
    {view : View}
    (hValid : view.Valid heap) :
    (read heap view).length = view.length := by
  have hWithin := hValid.within
  simp only [read, List.length_take, List.length_drop]
  omega

/- A view can be cut into two. -/
theorem read_add
    (heap : Heap α)
    (array start front back : Nat) :
    read heap ⟨array, start, front + back⟩ =
      read heap ⟨array, start, front⟩ ++
        read heap ⟨array, start + front, back⟩ := by
  simp only [read, List.take_add, List.drop_drop]

/- A part of a view. -/
theorem read_part
    (heap : Heap α)
    (view : View)
    (start length : Nat)
    (hPart : start + length ≤ view.length) :
    read heap ⟨view.array, view.start + start, length⟩ =
      ((read heap view).drop start).take length := by
  simp only [read, List.drop_take, List.drop_drop,
    List.take_take]
  congr 1
  omega

------------------------------------------------------------
-- Allocation
------------------------------------------------------------

theorem cells_alloc
    {heap : Heap α}
    {array : Nat}
    (hOld : array < heap.length)
    (more : Heap α) :
    cells (heap ++ more) array = cells heap array := by
  simp [cells, List.getD_eq_getElem?_getD,
    List.getElem?_append_left hOld]

theorem cells_alloc_new
    (heap : Heap α)
    (values : List α) :
    cells (heap ++ [values]) heap.length = values := by
  simp [cells]

theorem cells_alloc_cases
    (heap : Heap α)
    (values : List α)
    (array : Nat) :
    cells (heap ++ [values]) array = cells heap array ∨
      cells (heap ++ [values]) array = values := by
  rcases Nat.lt_trichotomy array heap.length with
    hOld | hNew | hBeyond
  · exact .inl (cells_alloc hOld [values])
  · rw [hNew]
    exact .inr (cells_alloc_new heap values)
  · left
    have hNone : heap.length ≤ array := Nat.le_of_lt hBeyond
    have hStill : (heap ++ [values]).length ≤ array := by
      rw [List.length_append]
      exact hBeyond
    simp only [cells, List.getD_eq_getElem?_getD,
      List.getElem?_eq_none hNone,
      List.getElem?_eq_none hStill]

/- What was allocated is as it was. -/
structure Kept (heap after : Heap α) : Prop where
  length_le : heap.length ≤ after.length
  same : ∀ array, array < heap.length →
    cells after array = cells heap array

theorem kept_refl (heap : Heap α) : Kept heap heap :=
  ⟨Nat.le_refl _, fun _ _ => rfl⟩

theorem Kept.trans
    {heap middle after : Heap α}
    (hFirst : Kept heap middle)
    (hSecond : Kept middle after) :
    Kept heap after where
  length_le := Nat.le_trans hFirst.length_le hSecond.length_le
  same := fun array hArray =>
    (hSecond.same array
      (Nat.lt_of_lt_of_le hArray hFirst.length_le)).trans
        (hFirst.same array hArray)

theorem kept_alloc (heap more : Heap α) :
    Kept heap (heap ++ more) where
  length_le := by
    rw [List.length_append]
    exact Nat.le_add_right _ _
  same := fun _ hArray => cells_alloc hArray more

theorem Kept.valid
    {heap after : Heap α}
    (hKept : Kept heap after)
    {view : View}
    (hValid : view.Valid heap) :
    view.Valid after where
  allocated :=
    Nat.lt_of_lt_of_le hValid.allocated hKept.length_le
  within := by
    rw [hKept.same _ hValid.allocated]
    exact hValid.within

theorem Kept.read_eq
    {heap after : Heap α}
    (hKept : Kept heap after)
    {view : View}
    (hOld : view.array < heap.length) :
    read after view = read heap view := by
  rw [read, hKept.same _ hOld, read]

------------------------------------------------------------
-- Writing
------------------------------------------------------------

/- The values of a list from a position on, exchanged. -/
def splice
    (old : List α)
    (position : Nat)
    (values : List α) : List α :=
  old.take position ++ values ++
    old.drop (position + values.length)

/- Values in front of what was exchanged before. -/
theorem splice_splice
    {old front back : List α}
    {position : Nat}
    (hWithin :
      position + front.length + back.length ≤ old.length) :
    splice (splice old (position + front.length) back) position
        front =
      splice old position (front ++ back) := by
  have hTake :
      (old.take (position + front.length)).length =
        position + front.length := by
    rw [List.length_take]
    omega
  have hFirst :
      (splice old (position + front.length) back).take position =
        old.take position := by
    rw [splice, List.append_assoc,
      List.take_append_of_le_length (by omega), List.take_take]
    congr 1
    omega
  have hLast :
      (splice old (position + front.length) back).drop
          (position + front.length) =
        back ++
          old.drop (position + front.length + back.length) := by
    rw [splice, List.append_assoc, List.drop_append, hTake,
      Nat.sub_self, List.drop_zero,
      List.drop_eq_nil_of_le (Nat.le_of_eq hTake),
      List.nil_append]
  rw [splice, hFirst, hLast, splice, List.length_append]
  simp [Nat.add_assoc]

/- Values are written to an array, which has to have all the
   positions. -/
def write
    (heap : Heap α)
    (array position : Nat)
    (values : List α) : Option (Heap α) :=
  if array < heap.length ∧
      position + values.length ≤ (cells heap array).length then
    some (heap.set array
      (splice (cells heap array) position values))
  else
    none

/- A heap after values were written to it. -/
structure Written
    (heap after : Heap α)
    (array position : Nat)
    (values : List α) : Prop where
  length_eq : after.length = heap.length
  within :
    position + values.length ≤ (cells heap array).length
  same : ∀ other, other ≠ array →
    cells after other = cells heap other
  spliced :
    cells after array =
      splice (cells heap array) position values

theorem written_of_write
    {heap after : Heap α}
    {array position : Nat}
    {values : List α}
    (hWrite : write heap array position values = some after) :
    Written heap after array position values := by
  unfold write at hWrite
  split at hWrite
  · next hThere =>
      obtain rfl := Option.some.inj hWrite
      refine ⟨by simp, hThere.2, fun other hOther => ?_, ?_⟩
      · simp [cells, List.getD_eq_getElem?_getD,
          List.getElem?_set_ne hOther.symm]
      · simp [cells, List.getD_eq_getElem?_getD, hThere.1]
  · exact nomatch hWrite

theorem write_isSome
    {heap : Heap α}
    {array position : Nat}
    {values : List α}
    (hArray : array < heap.length)
    (hWithin :
      position + values.length ≤ (cells heap array).length) :
    ∃ after, write heap array position values = some after := by
  unfold write
  rw [if_pos ⟨hArray, hWithin⟩]
  exact ⟨_, rfl⟩

namespace Written

variable
  {heap after : Heap α}
  {array position : Nat}
  {values : List α}
  (hWritten : Written heap after array position values)

include hWritten

theorem length_cells (other : Nat) :
    (cells after other).length = (cells heap other).length := by
  by_cases hOther : other = array
  · have hWithin := hWritten.within
    rw [hOther, hWritten.spliced]
    simp only [splice, List.length_append, List.length_take,
      List.length_drop]
    omega
  · rw [hWritten.same other hOther]

/- What was there before the array was allocated is kept. -/
theorem kept
    {before : Heap α}
    (hKept : Kept before heap)
    (hNew : before.length ≤ array) :
    Kept before after where
  length_le := hWritten.length_eq ▸ hKept.length_le
  same := fun other hOther =>
    (hWritten.same other (by omega)).trans
      (hKept.same other hOther)

theorem valid
    {view : View}
    (hValid : view.Valid heap) :
    view.Valid after where
  allocated := hWritten.length_eq ▸ hValid.allocated
  within := by
    rw [hWritten.length_cells]
    exact hValid.within

/- Other arrays read as before. -/
theorem read_other
    {view : View}
    (hOther : view.array ≠ array) :
    read after view = read heap view := by
  rw [read, hWritten.same view.array hOther, read]

/- So does what stands in front of what was written. -/
theorem read_front
    {view : View}
    (hFront : view.start + view.length ≤ position) :
    read after view = read heap view := by
  by_cases hArray : view.array = array
  · have hWithin := hWritten.within
    rw [read, hArray, hWritten.spliced, read, hArray, splice,
      List.append_assoc, List.drop_append_of_le_length
        (by rw [List.length_take]; omega),
      List.take_append_of_le_length
        (by rw [List.length_drop, List.length_take]; omega),
      List.drop_take, List.take_take]
    congr 1
    omega
  · exact hWritten.read_other hArray

/- And what stands behind it. -/
theorem read_back
    {view : View}
    (hBack : position + values.length ≤ view.start) :
    read after view = read heap view := by
  by_cases hArray : view.array = array
  · have hWithin := hWritten.within
    have hFront :
        ((cells heap array).take position ++ values).length =
          position + values.length := by
      rw [List.length_append, List.length_take]
      omega
    have hPlace :
        position + values.length +
            (view.start - (position + values.length)) =
          view.start := by
      omega
    rw [read, hArray, hWritten.spliced, read, hArray, splice,
      List.drop_append, hFront,
      List.drop_eq_nil_of_le (hFront.symm ▸ hBack),
      List.nil_append, List.drop_drop, hPlace]
  · exact hWritten.read_other hArray

/- What was written is read. -/
theorem read_written :
    read after ⟨array, position, values.length⟩ = values := by
  have hWithin := hWritten.within
  have hTake :
      ((cells heap array).take position).length = position := by
    rw [List.length_take]
    omega
  change ((cells after array).drop position).take
    values.length = values
  rw [hWritten.spliced, splice, List.append_assoc,
    List.drop_append, hTake, Nat.sub_self, List.drop_zero,
    List.drop_eq_nil_of_le (Nat.le_of_eq hTake)]
  simp

/- What is written right in front of it is written with it. -/
theorem cons
    {last : Heap α}
    {start : Nat}
    {more : List α}
    (hStart : start + more.length = position)
    (hMore : Written after last array start more) :
    Written heap last array start (more ++ values) where
  length_eq := hMore.length_eq.trans hWritten.length_eq
  within := by
    have hWithin := hWritten.within
    rw [List.length_append]
    omega
  same := fun other hOther =>
    (hMore.same other hOther).trans
      (hWritten.same other hOther)
  spliced := by
    have hWithin := hWritten.within
    rw [hMore.spliced, hWritten.spliced, ← hStart]
    exact splice_splice (by omega)

end Written

------------------------------------------------------------
-- Copying
------------------------------------------------------------

/- Cells are copied, not to where they are themselves; nothing
   is looked at if there are none to copy. -/
def copy
    (heap : Heap α)
    (array position : Nat)
    (source : View) : Option (Heap α) :=
  if source.length = 0 then
    some heap
  else if (cells heap source.array).length <
      source.start + source.length then
    none
  else if source.array = array ∧
      position < source.start + source.length ∧
      source.start < position + source.length then
    none
  else
    write heap array position (read heap source)

theorem splice_nil
    (old : List α)
    (position : Nat) :
    splice old position [] = old := by
  simp [splice]

/- Nothing is written. -/
theorem written_nil
    {heap : Heap α}
    {array position : Nat}
    (hWithin : position ≤ (cells heap array).length) :
    Written heap heap array position [] where
  length_eq := rfl
  within := hWithin
  same := fun _ _ => rfl
  spliced := by rw [splice_nil]

/- Copying from another array writes what is read there. -/
theorem written_copy
    {heap : Heap α}
    {array position : Nat}
    {source : View}
    (hArray : array < heap.length)
    (hWithin :
      position + source.length ≤ (cells heap array).length)
    (hSource : source.Valid heap)
    (hOther : source.array ≠ array) :
    ∃ after, copy heap array position source = some after ∧
      Written heap after array position (read heap source) := by
  have hLength := hSource.length_read
  by_cases hNone : source.length = 0
  · rw [hNone] at hLength hWithin
    rw [List.eq_nil_of_length_eq_zero hLength]
    exact ⟨heap, by rw [copy, if_pos hNone],
      written_nil hWithin⟩
  · have hInside :
        ¬ (cells heap source.array).length <
          source.start + source.length :=
      Nat.not_lt.mpr hSource.within
    have hCopy :
        copy heap array position source =
          write heap array position (read heap source) := by
      rw [copy, if_neg hNone, if_neg hInside,
        if_neg fun hOverlap => hOther hOverlap.1]
    obtain ⟨after, hWrite⟩ :=
      write_isSome hArray (hLength.symm ▸ hWithin)
    exact ⟨after, hCopy.trans hWrite, written_of_write hWrite⟩

end SharedArrays
