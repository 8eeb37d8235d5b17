import Mathlib.Data.List.TakeWhile
import Mathlib.Order.Interval.Basic
import Mathlib.Order.Minimal
import Mathlib.Tactic.Common

/-
  The segments of a list: its maximal parts without a
  delimiter, known by where they stand.

  A part is an interval of positions; positions stand between
  the entries, so that a part may be empty.

  Main declarations:
    * `Segments.induct`
    * `Segments.Free`, `Segments.Listing`
    * `Segments.listing_splitOn`
    * `Segments.listing_filter_splitOn`
    * `Segments.Listing.unique`
-/

namespace Segments

variable {α : Type}

------------------------------------------------------------
-- Up to a Delimiter
------------------------------------------------------------

section

variable [DecidableEq α] {delim : α} {line : List α}

theorem takeWhile_append_delim
    (hLine : delim ∉ line)
    (rest : List α) :
    (line ++ delim :: rest).takeWhile (· ≠ delim) = line := by
  rw [List.takeWhile_append_of_pos]
  · simp
  · intro c hMem
    have hOther : c ≠ delim := by
      intro hEq
      exact hLine (hEq ▸ hMem)
    simpa using hOther

theorem dropWhile_append_delim
    (hLine : delim ∉ line)
    (rest : List α) :
    (line ++ delim :: rest).dropWhile (· ≠ delim) =
      delim :: rest := by
  rw [List.dropWhile_append_of_pos]
  · simp
  · intro c hMem
    have hOther : c ≠ delim := by
      intro hEq
      exact hLine (hEq ▸ hMem)
    simpa using hOther

/- What holds of lists without a delimiter, and of a list if it
   does of what follows its first delimiter, holds of all. -/
@[elab_as_elim]
theorem induct
    (delim : α)
    {motive : List α → Prop}
    (free : ∀ xs, delim ∉ xs → motive xs)
    (delimited :
      ∀ line rest, delim ∉ line → motive rest →
        motive (line ++ delim :: rest))
    (xs : List α) :
    motive xs := by
  induction hLength : xs.length using Nat.strong_induction_on
    generalizing xs with
  | _ length ih =>
      by_cases hDelim : delim ∈ xs
      · rcases List.eq_append_cons_of_mem hDelim with
          ⟨line, rest, hSplit, hLine⟩
        have hShorter : rest.length < length := by
          rw [← hLength, hSplit, List.length_append,
            List.length_cons]
          omega
        rw [hSplit]
        exact delimited line rest hLine
          (ih rest.length hShorter rest rfl)
      · exact free xs hDelim

end

------------------------------------------------------------
-- Parts of a List
------------------------------------------------------------

/- A part of a list in which a delimiter does not occur. -/
structure Free
    (xs : List α)
    (delim : α)
    (part : NonemptyInterval Nat) : Prop where
  le_length : part.snd ≤ xs.length
  ne_delim :
    ∀ i, part.fst ≤ i → i < part.snd →
      xs[i]? ≠ some delim

/- The entries of a part. -/
def slice
    (xs : List α)
    (part : NonemptyInterval Nat) : List α :=
  (xs.drop part.fst).take (part.snd - part.fst)

/- It cannot be made longer: an end of the list or a delimiter
   stands on either side. -/
structure Bounded
    (xs : List α)
    (delim : α)
    (part : NonemptyInterval Nat) : Prop where
  left : part.fst = 0 ∨ xs[part.fst - 1]? = some delim
  right :
    part.snd = xs.length ∨ xs[part.snd]? = some delim

variable {xs : List α} {delim : α}
variable {part other : NonemptyInterval Nat}

theorem left_of_maximal
    (hMaximal : Maximal (Free xs delim) part) :
    part.fst = 0 ∨ xs[part.fst - 1]? = some delim := by
  by_contra hLeft
  rw [not_or] at hLeft
  -- the part that starts one entry earlier
  let longer : NonemptyInterval Nat :=
    ⟨(part.fst - 1, part.snd),
      (Nat.sub_le _ _).trans part.fst_le_snd⟩
  have hFree : Free xs delim longer := by
    refine ⟨hMaximal.prop.le_length, ?_⟩
    intro i hFrom hTo
    by_cases hFirst : i = part.fst - 1
    · rw [hFirst]
      exact hLeft.2
    · have hIn : part.fst ≤ i := by
        have hStart : part.fst - 1 ≤ i := hFrom
        omega
      exact hMaximal.prop.ne_delim i hIn hTo
  have hLe : part ≤ longer :=
    NonemptyInterval.le_def.mpr ⟨Nat.sub_le _ _, le_rfl⟩
  have hFst : part.fst ≤ part.fst - 1 :=
    (NonemptyInterval.le_def.mp
      (hMaximal.le_of_ge hFree hLe)).1
  omega

theorem maximal_of_bounded
    (hFree : Free xs delim part)
    (hBounded : Bounded xs delim part) :
    Maximal (Free xs delim) part := by
  refine ⟨hFree, ?_⟩
  intro other hOther hLe
  rcases NonemptyInterval.le_def.mp hLe with ⟨hFst, hSnd⟩
  have hOrder : part.fst ≤ part.snd := part.fst_le_snd
  refine NonemptyInterval.le_def.mpr ⟨?_, ?_⟩
  · by_contra hEarlier
    rcases hBounded.left with hZero | hDelim
    · omega
    · exact hOther.ne_delim (part.fst - 1)
        (by omega) (by omega) hDelim
  · by_contra hLater
    rcases hBounded.right with hEnd | hDelim
    · have hLength := hOther.le_length
      omega
    · exact hOther.ne_delim part.snd
        (by omega) (by omega) hDelim

/- Only one segment starts at a place. -/
theorem eq_of_fst_eq
    (hPart : Maximal (Free xs delim) part)
    (hOther : Maximal (Free xs delim) other)
    (hFst : part.fst = other.fst) :
    part = other := by
  rcases Nat.le_total part.snd other.snd with hSnd | hSnd
  · exact hPart.eq_of_le hOther.prop
      (NonemptyInterval.le_def.mpr ⟨hFst.ge, hSnd⟩)
  · exact (hOther.eq_of_le hPart.prop
      (NonemptyInterval.le_def.mpr ⟨hFst.le, hSnd⟩)).symm

------------------------------------------------------------
-- Where They Start
------------------------------------------------------------

section

variable [DecidableEq α]

/- The part from a place up to the next delimiter. -/
def partAt
    (xs : List α)
    (delim : α)
    (start : Nat) : NonemptyInterval Nat :=
  ⟨(start,
      start +
        ((xs.drop start).takeWhile (· ≠ delim)).length),
    Nat.le_add_right _ _⟩

/- Where the delimiters stand. -/
def delimiters (xs : List α) (delim : α) : List Nat :=
  (List.range xs.length).filter (xs[·]? = some delim)

/- The segments, from left to right: the first one starts the
   list, and each delimiter is followed by one. -/
def parts
    (xs : List α)
    (delim : α) : List (NonemptyInterval Nat) :=
  (0 :: (delimiters xs delim).map (· + 1)).map
    (partAt xs delim)

/- A list from a place on: the part there, and the rest. -/
theorem drop_eq_append
    (xs : List α)
    (delim : α)
    (start : Nat) :
    xs.drop start =
      (xs.drop start).takeWhile (· ≠ delim) ++
        (xs.drop start).dropWhile (· ≠ delim) :=
  List.takeWhile_append_dropWhile.symm

theorem slice_partAt
    (xs : List α)
    (delim : α)
    (start : Nat) :
    slice xs (partAt xs delim start) =
      (xs.drop start).takeWhile (· ≠ delim) := by
  have hPrefix :=
    List.takeWhile_prefix (· ≠ delim) (l := xs.drop start)
  unfold slice partAt
  rw [Nat.add_sub_cancel_left]
  exact (List.prefix_iff_eq_take.mp hPrefix).symm

theorem free_partAt
    {start : Nat}
    (hStart : start ≤ xs.length) :
    Free xs delim (partAt xs delim start) := by
  refine ⟨?_, ?_⟩
  · have hLength :=
      (List.takeWhile_prefix (· ≠ delim)
        (l := xs.drop start)).length_le
    rw [List.length_drop] at hLength
    change start + _ ≤ _
    omega
  · intro i hFrom hTo hDelim
    change start ≤ i at hFrom
    change i < start + _ at hTo
    have hEntry :
        ((xs.drop start).takeWhile (· ≠ delim))[i - start]? =
          some delim := by
      rw [← hDelim, ← List.getElem?_append_left (by omega),
        ← drop_eq_append, List.getElem?_drop,
        Nat.add_sub_cancel' hFrom]
    have hMem := List.mem_of_getElem? hEntry
    simpa using List.mem_takeWhile_imp hMem

/- What ends it is a delimiter, or the end of the list. -/
theorem right_partAt
    {start : Nat}
    (hStart : start ≤ xs.length) :
    (partAt xs delim start).snd = xs.length ∨
      xs[(partAt xs delim start).snd]? = some delim := by
  have hSplit := drop_eq_append xs delim start
  cases hRest : (xs.drop start).dropWhile (· ≠ delim) with
  | nil =>
      left
      rw [hRest, List.append_nil] at hSplit
      change start + _ = _
      rw [← hSplit, List.length_drop]
      omega
  | cons c rest =>
      right
      have hDelim : c = delim := by
        have hHead :=
          List.head?_dropWhile_not (· ≠ delim) (xs.drop start)
        rw [hRest] at hHead
        simpa using hHead
      rw [hRest, hDelim] at hSplit
      calc xs[(partAt xs delim start).snd]?
          = (xs.drop start)[((xs.drop start).takeWhile
              (· ≠ delim)).length]? := List.getElem?_drop.symm
        _ = ((xs.drop start).takeWhile (· ≠ delim) ++
              delim :: rest)[((xs.drop start).takeWhile
              (· ≠ delim)).length]? := by rw [← hSplit]
        _ = some delim := by simp

/- Every delimiter is in its place. -/
theorem mem_delimiters_iff
    (xs : List α)
    (delim : α)
    (i : Nat) :
    i ∈ delimiters xs delim ↔ xs[i]? = some delim := by
  unfold delimiters
  rw [List.mem_filter, List.mem_range, decide_eq_true_iff]
  constructor
  · exact And.right
  · intro hDelim
    exact ⟨(List.getElem?_eq_some_iff.mp hDelim).1, hDelim⟩

theorem maximal_partAt
    {start : Nat}
    (hStart :
      start ∈ 0 :: (delimiters xs delim).map (· + 1)) :
    Maximal (Free xs delim) (partAt xs delim start) := by
  rw [List.mem_cons] at hStart
  rcases hStart with hZero | hAfter
  · subst hZero
    exact maximal_of_bounded (free_partAt (Nat.zero_le _))
      ⟨.inl rfl, right_partAt (Nat.zero_le _)⟩
  · rcases List.mem_map.mp hAfter with ⟨i, hMem, hEq⟩
    subst hEq
    have hDelim := (mem_delimiters_iff xs delim i).mp hMem
    have hLength : i + 1 ≤ xs.length :=
      (List.getElem?_eq_some_iff.mp hDelim).1
    exact maximal_of_bounded (free_partAt hLength)
      ⟨.inr hDelim, right_partAt hLength⟩

theorem mem_parts_iff :
    part ∈ parts xs delim ↔ Maximal (Free xs delim) part := by
  constructor
  · intro hMem
    rcases List.mem_map.mp hMem with ⟨start, hStart, hEq⟩
    rw [← hEq]
    exact maximal_partAt hStart
  · intro hMaximal
    have hStart :
        part.fst ∈ 0 :: (delimiters xs delim).map (· + 1) := by
      rw [List.mem_cons]
      rcases left_of_maximal hMaximal with hZero | hDelim
      · exact .inl hZero
      · by_cases hZero : part.fst = 0
        · exact .inl hZero
        · right
          refine List.mem_map.mpr ⟨part.fst - 1, ?_, ?_⟩
          · exact (mem_delimiters_iff xs delim _).mpr hDelim
          · omega
    refine List.mem_map.mpr ⟨part.fst, hStart, ?_⟩
    exact eq_of_fst_eq (maximal_partAt hStart) hMaximal rfl

theorem pairwise_parts
    (xs : List α)
    (delim : α) :
    (parts xs delim).Pairwise
      (fun left right => left.fst < right.fst) := by
  have hDelimiters : (delimiters xs delim).Pairwise (· < ·) :=
    List.pairwise_lt_range.filter _
  refine List.pairwise_map.mpr (List.pairwise_cons.mpr ?_)
  refine ⟨?_, List.pairwise_map.mpr ?_⟩
  · intro start hStart
    rcases List.mem_map.mp hStart with ⟨i, _, hEq⟩
    rw [← hEq]
    exact Nat.succ_pos i
  · exact hDelimiters.imp Nat.succ_lt_succ

------------------------------------------------------------
-- Their Entries
------------------------------------------------------------

theorem delimiters_cons
    (x : α)
    (xs : List α)
    (delim : α) :
    delimiters (x :: xs) delim =
      (if x = delim then [0] else []) ++
        (delimiters xs delim).map (· + 1) := by
  unfold delimiters
  rw [List.length_cons, List.range_succ_eq_map,
    List.filter_cons, List.filter_map]
  by_cases hDelim : x = delim
  · simp [hDelim, Function.comp_def]
  · simp [hDelim, Function.comp_def]

/- What stands in the parts is what splitting leaves. -/
theorem map_slice_parts
    (xs : List α)
    (delim : α) :
    (parts xs delim).map (slice xs) = xs.splitOn delim := by
  have hSlices :
      ∀ xs : List α,
        (parts xs delim).map (slice xs) =
          xs.takeWhile (· ≠ delim) ::
            (delimiters xs delim).map fun i =>
              (xs.drop (i + 1)).takeWhile (· ≠ delim) := by
    intro xs
    simp [parts, slice_partAt, Function.comp_def]
  induction xs with
  | nil => rw [hSlices]; rfl
  | cons x xs ih =>
      rw [hSlices] at ih
      rw [hSlices, delimiters_cons,
        List.splitOn_cons_eq_if_modifyHead, ← ih]
      by_cases hDelim : x = delim
      · simp [hDelim, Function.comp_def]
      · simp [hDelim, Function.comp_def]

/- There is one more segment than there are delimiters. -/
theorem length_splitOn
    (xs : List α)
    (delim : α) :
    (xs.splitOn delim).length = xs.count delim + 1 := by
  induction xs with
  | nil => rfl
  | cons x xs ih =>
      rw [List.splitOn_cons_eq_if_modifyHead, List.count_cons]
      split
      · rw [List.length_cons, ih]
      · rw [List.length_modifyHead, ih]

end

------------------------------------------------------------
-- Listings
------------------------------------------------------------

/- The pieces are the parts with a property, each of them once
   and from left to right. -/
def Listing
    (xs : List α)
    (property : NonemptyInterval Nat → Prop)
    (pieces : List (List α)) : Prop :=
  ∃ parts : List (NonemptyInterval Nat),
    parts.Pairwise (fun left right => left.fst < right.fst) ∧
      (∀ part, part ∈ parts ↔ property part) ∧
      pieces = parts.map (slice xs)

theorem nodup_of_pairwise
    {parts : List (NonemptyInterval Nat)}
    (hSorted :
      parts.Pairwise fun left right => left.fst < right.fst) :
    parts.Nodup := by
  refine hSorted.imp ?_
  intro left right hLt hSame
  exact Nat.ne_of_lt hLt (by rw [hSame])

theorem Listing.unique
    {property : NonemptyInterval Nat → Prop}
    {pieces others : List (List α)}
    (hPieces : Listing xs property pieces)
    (hOthers : Listing xs property others) :
    pieces = others := by
  rcases hPieces with ⟨parts, hSorted, hMem, hEq⟩
  rcases hOthers with ⟨parts', hSorted', hMem', hEq'⟩
  have hNodup := nodup_of_pairwise hSorted
  have hNodup' := nodup_of_pairwise hSorted'
  have hPerm : parts.Perm parts' := by
    refine (List.perm_ext_iff_of_nodup hNodup hNodup').mpr ?_
    intro part
    rw [hMem, hMem']
  have hSame : parts = parts' := by
    refine hPerm.eq_of_pairwise ?_ hSorted hSorted'
    intro left right _ _ hLeft hRight
    exact absurd hRight (Nat.lt_asymm hLeft)
  rw [hEq, hEq', hSame]

/- The parts without a delimiter that have an entry. -/
def FreeNonempty
    (xs : List α)
    (delim : α)
    (part : NonemptyInterval Nat) : Prop :=
  Free xs delim part ∧ part.fst < part.snd

theorem maximal_freeNonempty_iff :
    Maximal (FreeNonempty xs delim) part ↔
      Maximal (Free xs delim) part ∧ part.fst < part.snd := by
  constructor
  · intro hMaximal
    refine ⟨⟨hMaximal.prop.1, ?_⟩, hMaximal.prop.2⟩
    intro other hOther hLe
    rcases NonemptyInterval.le_def.mp hLe with ⟨hFst, hSnd⟩
    have hNonempty : other.fst < other.snd :=
      Nat.lt_of_le_of_lt hFst
        (Nat.lt_of_lt_of_le hMaximal.prop.2 hSnd)
    exact hMaximal.le_of_ge ⟨hOther, hNonempty⟩ hLe
  · intro hBoth
    refine ⟨⟨hBoth.1.prop, hBoth.2⟩, ?_⟩
    intro other hOther hLe
    exact hBoth.1.le_of_ge hOther.1 hLe

variable [DecidableEq α]

/- Splitting lists the segments. -/
theorem listing_splitOn
    (xs : List α)
    (delim : α) :
    Listing xs (Maximal (Free xs delim)) (xs.splitOn delim) :=
  ⟨parts xs delim, pairwise_parts xs delim,
    fun _ => mem_parts_iff, (map_slice_parts xs delim).symm⟩

/- Without its empty pieces, it lists those with an entry. -/
theorem listing_filter_splitOn
    (xs : List α)
    (delim : α) :
    Listing xs (Maximal (FreeNonempty xs delim))
      ((xs.splitOn delim).filter (· ≠ [])) := by
  refine
    ⟨(parts xs delim).filter (fun part => part.fst < part.snd),
      (pairwise_parts xs delim).filter _, ?_, ?_⟩
  · intro part
    rw [List.mem_filter, mem_parts_iff,
      maximal_freeNonempty_iff, decide_eq_true_iff]
  · rw [← map_slice_parts, List.filter_map]
    congr 1
    refine List.filter_congr ?_
    intro part hMem
    have hLength :=
      (mem_parts_iff.mp hMem).prop.le_length
    have hOrder : part.fst ≤ part.snd := part.fst_le_snd
    have hEntries :
        slice xs part ≠ [] ↔ part.fst < part.snd := by
      rw [← List.length_pos_iff]
      unfold slice
      rw [List.length_take, List.length_drop]
      omega
    exact decide_eq_decide.mpr hEntries

end Segments
