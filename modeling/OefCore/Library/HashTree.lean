import Mathlib.Algebra.Order.Ring.Nat
import Mathlib.Data.List.Basic
import Mathlib.Tactic.Common

/-
  Balanced binary trees over lists of leaves, in which the
  value of a node is combined from those of its two children.
  The root is computed from its two halves, or level by level.

  Main declarations:
    * `HashTree.root`, `HashTree.parents`
    * `HashTree.root_succ`
    * `HashTree.families`, `HashTree.root_binding`
-/

namespace HashTree

variable {D : Type}

------------------------------------------------------------
-- Roots and Levels
------------------------------------------------------------

/- The root of the tree over two to the power of `k` leaves. -/
def root
    (combine : D → D → D) :
    Nat → List D → Option D
  | 0, [leaf] => some leaf
  | 0, _ => none
  | k + 1, leaves => do
      let left ← root combine k (leaves.take (2 ^ k))
      let right ← root combine k (leaves.drop (2 ^ k))
      some (combine left right)

/- The neighbours that have one parent. -/
def siblings : List D → List (D × D)
  | left :: right :: rest => (left, right) :: siblings rest
  | _ => []

/- The level above. -/
def parents
    (combine : D → D → D)
    (leaves : List D) : List D :=
  (siblings leaves).map fun pair => combine pair.1 pair.2

@[simp] theorem siblings_cons_cons
    (left right : D)
    (rest : List D) :
    siblings (left :: right :: rest) =
      (left, right) :: siblings rest := rfl

theorem length_siblings (leaves : List D) :
    (siblings leaves).length = leaves.length / 2 := by
  match leaves with
  | [] => simp [siblings]
  | [_] => simp [siblings]
  | left :: right :: rest =>
      simp only [siblings_cons_cons, List.length_cons,
        length_siblings rest]
      omega

theorem take_siblings
    (n : Nat)
    (leaves : List D) :
    (siblings leaves).take n = siblings (leaves.take (2 * n)) := by
  match n, leaves with
  | 0, _ => rfl
  | n + 1, [] => rfl
  | n + 1, [_] => simp [siblings, Nat.mul_succ]
  | n + 1, left :: right :: rest =>
      simp [Nat.mul_succ, take_siblings n rest]

theorem drop_siblings
    (n : Nat)
    (leaves : List D) :
    (siblings leaves).drop n = siblings (leaves.drop (2 * n)) := by
  match n, leaves with
  | 0, _ => rfl
  | n + 1, [] => rfl
  | n + 1, [_] => simp [siblings, Nat.mul_succ]
  | n + 1, left :: right :: rest =>
      simp [Nat.mul_succ, drop_siblings n rest]

/- Nothing gets lost if all have a neighbour. -/
theorem eq_of_siblings_eq
    {n : Nat}
    {leaves others : List D}
    (hLeaves : leaves.length = 2 * n)
    (hOthers : others.length = 2 * n)
    (hSame : siblings leaves = siblings others) :
    leaves = others := by
  induction n generalizing leaves others with
  | zero =>
      rw [List.eq_nil_of_length_eq_zero hLeaves,
        List.eq_nil_of_length_eq_zero hOthers]
  | succ n ih =>
      match leaves, others, hLeaves, hOthers with
      | a :: b :: rest, c :: d :: others, hLeaves, hOthers =>
          simp only [List.length_cons] at hLeaves hOthers
          simp only [siblings_cons_cons, List.cons.injEq,
            Prod.mk.injEq] at hSame
          obtain ⟨⟨rfl, rfl⟩, hRest⟩ := hSame
          rw [ih (by omega) (by omega) hRest]

section Levels

variable (combine : D → D → D)

@[simp] theorem parents_cons_cons
    (left right : D)
    (rest : List D) :
    parents combine (left :: right :: rest) =
      combine left right :: parents combine rest := rfl

theorem length_parents (leaves : List D) :
    (parents combine leaves).length = leaves.length / 2 := by
  rw [parents, List.length_map, length_siblings]

theorem length_parents_of_pow
    {k : Nat}
    {leaves : List D}
    (hLength : leaves.length = 2 ^ (k + 1)) :
    (parents combine leaves).length = 2 ^ k := by
  rw [length_parents, hLength]
  omega

/- Halving and going up a level are the same. -/
theorem root_succ
    {k : Nat}
    {leaves : List D}
    (hLength : leaves.length = 2 ^ (k + 1)) :
    root combine (k + 1) leaves =
      root combine k (parents combine leaves) := by
  induction k generalizing leaves with
  | zero =>
      match leaves, hLength with
      | [left, right], _ => rfl
  | succ k ih =>
      have hPower : 2 ^ (k + 1 + 1) = 2 * 2 ^ (k + 1) :=
        Nat.pow_succ'
      have hFirst :
          (leaves.take (2 ^ (k + 1))).length = 2 ^ (k + 1) := by
        rw [List.length_take, hLength]
        omega
      have hSecond :
          (leaves.drop (2 ^ (k + 1))).length = 2 ^ (k + 1) := by
        rw [List.length_drop, hLength]
        omega
      have hHalf : 2 ^ (k + 1) = 2 * 2 ^ k := Nat.pow_succ'
      rw [root, ih hFirst, ih hSecond, root, parents, parents,
        parents, hHalf, ← take_siblings, ← drop_siblings,
        List.map_take, List.map_drop]

/- A list of the right length has a root. -/
theorem root_isSome
    {k : Nat}
    {leaves : List D}
    (hLength : leaves.length = 2 ^ k) :
    ∃ value, root combine k leaves = some value := by
  induction k generalizing leaves with
  | zero =>
      match leaves, hLength with
      | [leaf], _ => exact ⟨leaf, rfl⟩
  | succ k ih =>
      rw [root_succ combine hLength]
      exact ih (length_parents_of_pow combine hLength)

------------------------------------------------------------
-- Binding
------------------------------------------------------------

/- All pairs that are combined on the way to the root. -/
def families : Nat → List D → List (D × D)
  | 0, _ => []
  | k + 1, leaves =>
      siblings leaves ++ families k (parents combine leaves)

/- What holds of the pairs of leaves and of all pairs of
   values that were combined holds of all families. -/
theorem forall_families
    {P : D × D → Prop}
    (hCombined : ∀ a b c d, P (combine a b, combine c d))
    {k : Nat}
    {leaves : List D}
    (hLeaves : ∀ pair ∈ siblings leaves, P pair) :
    ∀ pair ∈ families combine k leaves, P pair := by
  have hParents : ∀ pairs : List (D × D),
      ∀ pair ∈ siblings
        (pairs.map fun pair => combine pair.1 pair.2),
        P pair := by
    intro pairs
    induction pairs using siblings.induct with
    | case1 first second rest ih =>
        simpa using ⟨hCombined .., by simpa using ih⟩
    | case2 pairs hShort =>
        match pairs, hShort with
        | [], _ => simp [siblings]
        | [_], _ => simp [siblings]
        | first :: second :: rest, hShort =>
            exact (hShort first second rest rfl).elim
  induction k generalizing leaves with
  | zero => simp [families]
  | succ k ih =>
      rw [families, List.forall_mem_append]
      exact ⟨hLeaves, ih (hParents (siblings leaves))⟩

/- Two pairs are combined to the same value. -/
def Clash
    (pairs others : List (D × D)) : Prop :=
  ∃ pair ∈ pairs, ∃ other ∈ others, pair ≠ other ∧
    combine pair.1 pair.2 = combine other.1 other.2

theorem map_combine_binding
    {pairs others : List (D × D)}
    (hSame :
      (pairs.map fun pair => combine pair.1 pair.2) =
        others.map fun pair => combine pair.1 pair.2) :
    pairs = others ∨ Clash combine pairs others := by
  induction pairs generalizing others with
  | nil =>
      left
      exact (List.map_eq_nil_iff.mp hSame.symm).symm
  | cons pair pairs ih =>
      cases others with
      | nil => exact nomatch hSame
      | cons other others =>
          simp only [List.map_cons, List.cons.injEq] at hSame
          by_cases hPair : pair = other
          · rcases ih hSame.2 with hRest |
              ⟨first, hFirst, second, hSecond, hClash⟩
            · left
              rw [hPair, hRest]
            · right
              exact ⟨first, List.mem_cons_of_mem _ hFirst,
                second, List.mem_cons_of_mem _ hSecond, hClash⟩
          · right
            exact ⟨pair, List.mem_cons_self, other,
              List.mem_cons_self, hPair, hSame.1⟩

/-
  A root tells all leaves, unless two different pairs in the
  two trees are combined to the same value.
-/
theorem root_binding
    {k : Nat}
    {leaves others : List D}
    (hLeaves : leaves.length = 2 ^ k)
    (hOthers : others.length = 2 ^ k)
    (hSame : root combine k leaves = root combine k others) :
    leaves = others ∨
      Clash combine (families combine k leaves)
        (families combine k others) := by
  induction k generalizing leaves others with
  | zero =>
      match leaves, others, hLeaves, hOthers with
      | [leaf], [other], _, _ =>
          left
          rw [Option.some.inj hSame]
  | succ k ih =>
      have hHalf : 2 ^ (k + 1) = 2 * 2 ^ k := Nat.pow_succ'
      rw [root_succ combine hLeaves, root_succ combine hOthers]
        at hSame
      rcases ih (length_parents_of_pow combine hLeaves)
        (length_parents_of_pow combine hOthers) hSame with
        hLevel | ⟨first, hFirst, second, hSecond, hClash⟩
      · rcases map_combine_binding combine hLevel with
          hPairs | ⟨first, hFirst, second, hSecond, hClash⟩
        · left
          exact eq_of_siblings_eq (hLeaves.trans hHalf)
            (hOthers.trans hHalf) hPairs
        · right
          exact ⟨first, List.mem_append_left _ hFirst, second,
            List.mem_append_left _ hSecond, hClash⟩
      · right
        exact ⟨first, List.mem_append_right _ hFirst, second,
          List.mem_append_right _ hSecond, hClash⟩

end Levels

end HashTree
