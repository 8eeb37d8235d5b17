import Mathlib.Algebra.Order.Ring.Nat
import Mathlib.Data.Nat.Log
import OefCore.Library.HashTree

/-
  The merkle tree of the ledger: the leaf nodes are bumped up
  to a power of two, and then condensed in their own vector.

  Main declarations:
    * `MerkleTree`, `MerkleTree.calculateRoot`
    * `MerkleTree.calculateRoot_eq`
    * `MerkleTree.calculateRoot_binding`
-/

namespace OefCore

------------------------------------------------------------
-- The Tree
------------------------------------------------------------

abbrev Digest := List UInt8

/- The number of bytes that SHA-256 makes. -/
def digestSize : Nat := 32

structure MerkleTree where
  leafNodes : List Digest
  root : Digest

namespace MerkleTree

/- `count` empty digests. -/
def construct (count : Nat) : MerkleTree where
  leafNodes := List.replicate count []
  root := []

def isLog2 (value : Nat) : Bool :=
  value ≠ 0 ∧ value &&& (value - 1) = 0

theorem isLog2_iff (value : Nat) :
    isLog2 value = true ↔ value.isPowerOfTwo := by
  rw [isLog2, decide_eq_true_iff]
  exact Nat.ne_zero_and_sub_one_eq_zero_iff_isPowerOfTwo

/- What is no power of two is less than the next one. -/
theorem lt_pow_of_not_isLog2
    {value : Nat}
    (hNot : ¬ isLog2 value = true) :
    value < 2 ^ Nat.clog 2 value := by
  apply Nat.lt_of_le_of_ne (Nat.le_pow_clog Nat.one_lt_two _)
  intro hSame
  rw [isLog2_iff] at hNot
  exact hNot ⟨Nat.clog 2 value, hSame⟩

/- The power of two to go for stays the same on the way. -/
theorem clog_succ
    {value : Nat}
    (hNot : ¬ isLog2 value = true) :
    Nat.clog 2 (value + 1) = Nat.clog 2 value := by
  apply Nat.le_antisymm
  · exact Nat.clog_le_of_le_pow (lt_pow_of_not_isLog2 hNot)
  · exact Nat.clog_mono_right 2 (Nat.le_succ value)

/- Empty digests are pushed back until the size is a power of
   two. -/
def bump (hashes : List Digest) : List Digest :=
  if isLog2 hashes.length then hashes
  else bump (hashes ++ [[]])
termination_by 2 ^ Nat.clog 2 hashes.length - hashes.length
decreasing_by
  have hNot : ¬ isLog2 hashes.length = true := by assumption
  have hLt := lt_pow_of_not_isLog2 hNot
  rw [List.length_append, List.length_singleton,
    clog_succ hNot]
  omega

/- The loop over one level: parents take the places from the
   front. -/
def condenseLoop
    (hash : List UInt8 → Digest)
    (i j : Nat)
    (hashes : List Digest) : Option (List Digest) :=
  if i < hashes.length then do
    let first ← hashes[i]?
    let second ← hashes[i + 1]?
    let concatenatedHash := first ++ second
    condenseLoop hash (i + 2) (j + 1)
      (hashes.set j (hash concatenatedHash))
  else
    some hashes
termination_by hashes.length - i
decreasing_by
  simp only [List.length_set]
  omega

def condense
    (hash : List UInt8 → Digest)
    (hashes : List Digest) : Option (List Digest) :=
  if 1 < hashes.length then do
    let next ← condenseLoop hash 0 0 hashes
    condense hash (next.take (hashes.length / 2))
  else
    some hashes
termination_by hashes.length
decreasing_by
  simp only [List.length_take]
  omega

/- No tree if a digest outside of the vector is read.  The
   hash is SHA-256 there. -/
def calculateRoot
    (hash : List UInt8 → Digest)
    (tree : MerkleTree) : Option MerkleTree :=
  match tree.leafNodes with
  | [] => some { tree with root := hash [] }
  | [leaf] => some { tree with root := leaf }
  | _ => do
      let hashes ← condense hash (bump tree.leafNodes)
      let root ← hashes[0]?
      some { tree with root := root }

------------------------------------------------------------
-- The Balanced Tree
------------------------------------------------------------

/- What is hashed to the digest of a parent. -/
def combine
    (hash : List UInt8 → Digest)
    (left right : Digest) : Digest :=
  hash (left ++ right)

/- The leaves, and empty digests up to a power of two. -/
def padded (leaves : List Digest) : List Digest :=
  leaves ++
    List.replicate
      (2 ^ Nat.clog 2 leaves.length - leaves.length) []

theorem length_padded (leaves : List Digest) :
    (padded leaves).length = 2 ^ Nat.clog 2 leaves.length := by
  have hLe := Nat.le_pow_clog Nat.one_lt_two leaves.length
  rw [padded, List.length_append, List.length_replicate]
  omega

theorem bump_eq
    {hashes : List Digest}
    (hSome : hashes ≠ []) :
    bump hashes = padded hashes := by
  induction hashes using bump.induct with
  | case1 hashes hLog =>
      obtain ⟨k, hk⟩ := (isLog2_iff hashes.length).mp hLog
      rw [bump, if_pos hLog, padded, hk,
        Nat.clog_pow 2 k Nat.one_lt_two, Nat.sub_self]
      simp
  | case2 hashes hLog ih =>
      have hLt := lt_pow_of_not_isLog2 hLog
      have hMissing :
          2 ^ Nat.clog 2 hashes.length - hashes.length =
            2 ^ Nat.clog 2 hashes.length -
              (hashes.length + 1) + 1 := by
        omega
      rw [bump, if_neg hLog, ih (by simp), padded,
        List.length_append, List.length_singleton,
        clog_succ hLog, padded, hMissing, List.replicate_succ]
      simp

/- The parents that are done stand in front, and behind them
   what they were condensed from. -/
theorem condenseLoop_eq
    (hash : List UInt8 → Digest)
    {n : Nat}
    (done stale : List Digest)
    {rest : List Digest}
    (hRest : rest.length = 2 * n)
    (hStale : stale.length = done.length) :
    ∃ behind, behind.length = done.length + n ∧
      condenseLoop hash (2 * done.length) done.length
          (done ++ stale ++ rest) =
        some (done ++ HashTree.parents (combine hash) rest ++
          behind) := by
  induction n generalizing rest done stale with
  | zero =>
      obtain rfl := List.eq_nil_of_length_eq_zero hRest
      refine ⟨stale, hStale, ?_⟩
      rw [condenseLoop, if_neg (by simp; omega)]
      simp [HashTree.parents, HashTree.siblings]
  | succ n ih =>
      obtain ⟨first, others, rfl⟩ :=
        List.exists_cons_of_length_eq_add_one hRest
      rw [List.length_cons] at hRest
      obtain ⟨second, rest, rfl⟩ :=
        List.exists_cons_of_length_eq_add_one
          (Nat.succ.inj hRest)
      obtain ⟨old, others, hOld⟩ :
          ∃ old others,
            stale ++ [first, second] = old :: others := by
        cases stale <;> exact ⟨_, _, rfl⟩
      have hOthers : others.length = done.length + 1 := by
        have hLength := congrArg List.length hOld
        simp only [List.length_append, List.length_cons,
          List.length_nil, hStale] at hLength
        omega
      have hFirst :
          (done ++ stale ++ first :: second :: rest)[
            2 * done.length]? = some first := by
        rw [List.getElem?_append_right (by simp; omega)]
        simp [hStale, Nat.two_mul]
      have hSecond :
          (done ++ stale ++ first :: second :: rest)[
            2 * done.length + 1]? = some second := by
        rw [List.getElem?_append_right (by simp; omega)]
        simp [hStale, Nat.two_mul]
      have hSet :
          (done ++ stale ++ first :: second :: rest).set
              done.length (combine hash first second) =
            (done ++ [combine hash first second]) ++
              others ++ rest := by
        have hSame :
            done ++ stale ++ first :: second :: rest =
              done ++ old :: (others ++ rest) := by
          rw [← List.cons_append, ← hOld]
          simp
        rw [hSame]
        simp
      obtain ⟨behind, hLength, hLoop⟩ :=
        ih (done ++ [combine hash first second]) others
          (by simpa [Nat.mul_succ] using hRest)
          (by simpa using hOthers)
      simp only [List.length_append, List.length_singleton]
        at hLength hLoop
      refine ⟨behind, by omega, ?_⟩
      rw [condenseLoop, if_pos (by simp; omega), hFirst,
        hSecond]
      change condenseLoop hash (2 * (done.length + 1))
        (done.length + 1)
        ((done ++ stale ++ first :: second :: rest).set
          done.length (combine hash first second)) = _
      rw [hSet, hLoop]
      simp

/- One value is left, which is that of the balanced tree. -/
theorem condense_eq
    (hash : List UInt8 → Digest)
    {k : Nat}
    {hashes : List Digest}
    (hLength : hashes.length = 2 ^ k) :
    condense hash hashes =
      (HashTree.root (combine hash) k hashes).map
        fun root => [root] := by
  induction k generalizing hashes with
  | zero =>
      match hashes, hLength with
      | [leaf], _ =>
          rw [condense]
          rfl
  | succ k ih =>
      have hHalf : 2 ^ (k + 1) = 2 * 2 ^ k := Nat.pow_succ'
      have hPositive : 0 < 2 ^ k := Nat.two_pow_pos k
      have hParents :=
        HashTree.length_parents_of_pow (combine hash) hLength
      have hTake : hashes.length / 2 = 2 ^ k := by omega
      obtain ⟨behind, -, hLoop⟩ :=
        condenseLoop_eq hash [] [] (hLength.trans hHalf) rfl
      simp only [List.nil_append, List.length_nil,
        Nat.mul_zero] at hLoop
      rw [condense, if_pos (by omega), hLoop,
        HashTree.root_succ (combine hash) hLength,
        ← ih hParents, hTake, ← hParents]
      simp

/-
  The root is that of the balanced tree over the leaves and
  the empty digests behind them, and nothing outside of the
  vector is read on the way to it.
-/
theorem calculateRoot_eq
    (hash : List UInt8 → Digest)
    (tree : MerkleTree) :
    ∃ root,
      tree.calculateRoot hash =
        some { tree with root := root } ∧
      (if tree.leafNodes = [] then some (hash [])
        else HashTree.root (combine hash)
          (Nat.clog 2 tree.leafNodes.length)
          (padded tree.leafNodes)) = some root := by
  obtain ⟨leaves, old⟩ := tree
  match leaves with
  | [] => exact ⟨hash [], rfl, rfl⟩
  | [leaf] => exact ⟨leaf, rfl, by simp [padded, HashTree.root]⟩
  | first :: second :: rest =>
      have hSome : first :: second :: rest ≠ [] := by simp
      have hLength := length_padded (first :: second :: rest)
      obtain ⟨root, hRoot⟩ :=
        HashTree.root_isSome (combine hash) hLength
      refine ⟨root, ?_, by rw [if_neg hSome, hRoot]⟩
      simp only [calculateRoot, bump_eq hSome,
        condense_eq hash hLength, hRoot]
      rfl

/- A tree of another height may have the same root: that of
   the parents does. -/
theorem root_parents
    (hash : List UInt8 → Digest)
    {leaves : List Digest}
    (hTwo : 2 ≤ leaves.length) :
    ∃ k, Nat.clog 2 leaves.length = k + 1 ∧
      HashTree.root (combine hash) (k + 1) (padded leaves) =
        HashTree.root (combine hash) k
          (HashTree.parents (combine hash)
            (padded leaves)) := by
  obtain ⟨k, hk⟩ := Nat.exists_eq_add_one.mpr
    (Nat.clog_pos Nat.one_lt_two hTwo)
  refine ⟨k, hk, HashTree.root_succ (combine hash) ?_⟩
  rw [length_padded, hk]

------------------------------------------------------------
-- Binding
------------------------------------------------------------

/- The inputs of the hash for all parents. -/
def hashed
    (hash : List UInt8 → Digest)
    (tree : MerkleTree) : List (List UInt8) :=
  (HashTree.families (combine hash)
    (Nat.clog 2 tree.leafNodes.length)
    (padded tree.leafNodes)).map fun pair => pair.1 ++ pair.2

/- A whole digest before a whole or an empty one, or nothing
   at all. -/
def Neighbours (pair : Digest × Digest) : Prop :=
  (pair.1.length = digestSize ∧
    (pair.2.length = digestSize ∨ pair.2 = [])) ∨
  (pair.1 = [] ∧ pair.2 = [])

/- Neighbours can be told from what is hashed. -/
theorem neighbours_eq
    {pair other : Digest × Digest}
    (hPair : Neighbours pair)
    (hOther : Neighbours other)
    (hInput : pair.1 ++ pair.2 = other.1 ++ other.2) :
    pair = other := by
  obtain ⟨a, b⟩ := pair
  obtain ⟨c, d⟩ := other
  rcases hPair with ⟨hA, -⟩ | ⟨hA, hB⟩
  · rcases hOther with ⟨hC, -⟩ | ⟨hC, hD⟩
    · exact Prod.ext_iff.mpr
        (List.append_inj hInput (hA.trans hC.symm))
    · dsimp only at hA hC hD hInput
      rw [hC, hD] at hInput ⊢
      obtain ⟨rfl, rfl⟩ := List.append_eq_nil_iff.mp hInput
      rfl
  · dsimp only at hA hB hInput
    rw [hA, hB] at hInput ⊢
    obtain ⟨rfl, rfl⟩ := List.append_eq_nil_iff.mp hInput.symm
    rfl

theorem siblings_replicate (n : Nat) :
    ∀ pair ∈ HashTree.siblings
      (List.replicate n ([] : Digest)), Neighbours pair := by
  match n with
  | 0 => simp [HashTree.siblings]
  | 1 => simp [HashTree.siblings]
  | n + 2 =>
      rw [List.replicate_succ, List.replicate_succ,
        HashTree.siblings_cons_cons, List.forall_mem_cons]
      exact ⟨.inr ⟨rfl, rfl⟩, siblings_replicate n⟩

theorem siblings_padded
    {leaves : List Digest}
    (hLeaves : ∀ leaf ∈ leaves, leaf.length = digestSize)
    (n : Nat) :
    ∀ pair ∈ HashTree.siblings
      (leaves ++ List.replicate n []), Neighbours pair := by
  match leaves with
  | [] => exact siblings_replicate n
  | [leaf] =>
      have hLeaf := hLeaves leaf List.mem_cons_self
      match n with
      | 0 => simp [HashTree.siblings]
      | n + 1 =>
          rw [List.replicate_succ, List.cons_append,
            List.nil_append, HashTree.siblings_cons_cons,
            List.forall_mem_cons]
          exact ⟨.inl ⟨hLeaf, .inr rfl⟩, siblings_replicate n⟩
  | first :: second :: rest =>
      rw [List.forall_mem_cons, List.forall_mem_cons] at hLeaves
      obtain ⟨hFirst, hSecond, hRest⟩ := hLeaves
      rw [List.cons_append, List.cons_append,
        HashTree.siblings_cons_cons, List.forall_mem_cons]
      exact ⟨.inl ⟨hFirst, .inl hSecond⟩,
        siblings_padded hRest n⟩

theorem neighbours_of_families
    {hash : List UInt8 → Digest}
    (hHash : ∀ bytes, (hash bytes).length = digestSize)
    {leaves : List Digest}
    (hLeaves : ∀ leaf ∈ leaves, leaf.length = digestSize)
    (k : Nat) :
    ∀ pair ∈ HashTree.families (combine hash) k
      (padded leaves), Neighbours pair :=
  HashTree.forall_families (combine hash)
    (fun a b c d =>
      .inl ⟨hHash (a ++ b), .inl (hHash (c ++ d))⟩)
    (siblings_padded hLeaves _)

/- The leaves are what is not empty. -/
theorem filter_padded
    {leaves : List Digest}
    (hLeaves : ∀ leaf ∈ leaves, leaf.length = digestSize) :
    (padded leaves).filter (· ≠ []) = leaves := by
  have hAll : ∀ leaf ∈ leaves, leaf ≠ [] := by
    intro leaf hLeaf hNil
    have hLength := hLeaves leaf hLeaf
    rw [hNil] at hLength
    exact nomatch hLength
  have hKept : leaves.filter (· ≠ []) = leaves := by
    simpa [List.filter_eq_self] using hAll
  rw [padded, List.filter_append, hKept, List.filter_replicate]
  simp

/-
  Trees of the same height whose leaves differ have different
  roots, or else the hash confuses an input of the one with
  another input of the other.
-/
theorem calculateRoot_binding
    {hash : List UInt8 → Digest}
    (hHash : ∀ bytes, (hash bytes).length = digestSize)
    {tree other : MerkleTree}
    (hTree : tree.leafNodes ≠ [])
    (hOther : other.leafNodes ≠ [])
    (hLeaves : ∀ leaf ∈ tree.leafNodes,
      leaf.length = digestSize)
    (hOtherLeaves : ∀ leaf ∈ other.leafNodes,
      leaf.length = digestSize)
    (hHeight : Nat.clog 2 tree.leafNodes.length =
      Nat.clog 2 other.leafNodes.length)
    (hDiffer : tree.leafNodes ≠ other.leafNodes) :
    (tree.calculateRoot hash).map (·.root) ≠
        (other.calculateRoot hash).map (·.root) ∨
      ∃ input ∈ tree.hashed hash,
        ∃ confused ∈ other.hashed hash,
          input ≠ confused ∧ hash input = hash confused := by
  obtain ⟨root, hRun, hRoot⟩ := calculateRoot_eq hash tree
  obtain ⟨otherRoot, hOtherRun, hOtherRoot⟩ :=
    calculateRoot_eq hash other
  rw [if_neg hTree] at hRoot
  rw [if_neg hOther, ← hHeight] at hOtherRoot
  by_cases hSame : root = otherRoot
  · right
    have hLength := length_padded other.leafNodes
    rw [← hHeight] at hLength
    rcases HashTree.root_binding (combine hash)
      (length_padded tree.leafNodes) hLength
      (by rw [hRoot, hOtherRoot, hSame]) with hPadded |
      ⟨pair, hPair, clash, hClash, hNe, hHashes⟩
    · rw [← filter_padded hLeaves, hPadded,
        filter_padded hOtherLeaves] at hDiffer
      exact (hDiffer rfl).elim
    · refine ⟨pair.1 ++ pair.2, List.mem_map_of_mem hPair,
        clash.1 ++ clash.2, ?_, ?_, hHashes⟩
      · rw [hashed, ← hHeight]
        exact List.mem_map_of_mem hClash
      · intro hInput
        exact hNe (neighbours_eq
          (neighbours_of_families hHash hLeaves _ pair hPair)
          (neighbours_of_families hHash hOtherLeaves _ clash
            hClash) hInput)
  · left
    rw [hRun, hOtherRun]
    simpa using hSame

section Swapped

def zeros : Digest := List.replicate digestSize 0

def ones : Digest := List.replicate digestSize 1

/- The digests of two inputs. -/
def sampleHash (bytes : List UInt8) : Digest :=
  if bytes = zeros ++ ones then
    [92, 133, 149, 95, 112, 146, 131, 236, 206, 43,
    116, 241, 177, 85, 41, 24, 129, 159, 57, 9,
    17, 129, 110, 123, 180, 102, 128, 90, 56, 171,
    135, 243]
  else if bytes = ones ++ zeros then
    [3, 125, 109, 251, 58, 54, 154, 65, 224, 17,
    0, 253, 213, 60, 53, 238, 63, 182, 157, 222,
    197, 131, 13, 97, 225, 19, 141, 6, 106, 76,
    34, 133]
  else
    zeros

theorem length_sampleHash (bytes : List UInt8) :
    (sampleHash bytes).length = digestSize := by
  unfold sampleHash
  split
  · rfl
  · split <;> rfl

theorem calculateRoot_binding_swapped :
    ((MerkleTree.mk [zeros, ones] []).calculateRoot
        sampleHash).map (·.root) ≠
      ((MerkleTree.mk [ones, zeros] []).calculateRoot
        sampleHash).map (·.root) ∨
    ∃ input ∈ (MerkleTree.mk [zeros, ones] []).hashed sampleHash,
      ∃ confused ∈
        (MerkleTree.mk [ones, zeros] []).hashed sampleHash,
        input ≠ confused ∧
          sampleHash input = sampleHash confused :=
  calculateRoot_binding length_sampleHash (by simp) (by simp)
    (by decide) (by decide) rfl (by decide)

end Swapped

end MerkleTree

end OefCore
