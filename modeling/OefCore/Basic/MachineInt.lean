import Mathlib.Algebra.Order.Ring.Int
import Mathlib.Algebra.Order.Ring.Nat
import Mathlib.Data.List.Infix
import Mathlib.Tactic.Common
import OefCore.Library.Framing

/-
  The fixed-width integers of the source: narrowing to
  `int`, and the byte order of 32-bit length headers.

  Main declarations:
    * `toInt32`
    * `byteAt` and `ntohl`
    * `networkHeader` and `littleHeader`
-/

------------------------------------------------------------
-- Narrowing
------------------------------------------------------------

namespace OefCore

/- A value stored into a 32-bit signed `int`. -/
def toInt32 (value : Int) : Int :=
  value.bmod (2 ^ 32)

theorem toInt32_of_lt
    {value : Int}
    (hNonneg : 0 ≤ value)
    (hLt : value < 2 ^ 31) :
    toInt32 value = value := by
  unfold toInt32
  rw [Int.bmod_eq_of_le] <;> omega

theorem toInt32_lt (value : Int) :
    toInt32 value < 2 ^ 31 := by
  have hLt := Int.bmod_lt (x := value) (m := 2 ^ 32) (by decide)
  unfold toInt32
  omega

/- Adding before or after narrowing gives the same `int`. -/
theorem toInt32_toInt32_add (left right : Int) :
    toInt32 (toInt32 left + right) =
      toInt32 (left + right) := by
  simp [toInt32]

/- Narrowing a count never enlarges it. -/
theorem toNat_toInt32_le (count : Nat) :
    (toInt32 count).toNat ≤ count := by
  unfold toInt32
  rw [Int.bmod_def]
  split <;> omega

/- A count that no `int` can hold loses half the range. -/
theorem toNat_toInt32_add_le
    {count : Nat}
    (hLarge : 2 ^ 31 ≤ count) :
    (toInt32 count).toNat + 2 ^ 31 ≤ count := by
  unfold toInt32
  rw [Int.bmod_def]
  split <;> omega

------------------------------------------------------------
-- Byte Order
------------------------------------------------------------

/- Byte number `k` of a word, the lowest being number 0. -/
def byteAt (word k : Nat) : UInt8 :=
  UInt8.ofNat (word / 256 ^ k)

/-
  The host word whose memory image is `c0 c1 c2 c3` after
  `ntohl`: the first byte weighs most on every host.
-/
def ntohl (c0 c1 c2 c3 : UInt8) : Nat :=
  c0.toNat * 2 ^ 24 + c1.toNat * 2 ^ 16 +
    c2.toNat * 2 ^ 8 + c3.toNat

theorem ntohl_byteAt
    {word : Nat}
    (hWord : word < 2 ^ 32) :
    ntohl (byteAt word 3) (byteAt word 2)
        (byteAt word 1) (byteAt word 0) =
      word := by
  simp only [ntohl, byteAt, UInt8.toNat_ofNat']
  omega

/- The high bytes decide which words are small. -/
theorem ntohl_lt_iff
    (c0 c1 c2 c3 : UInt8) :
    ntohl c0 c1 c2 c3 < 65536 ↔ c0 = 0 ∧ c1 = 0 := by
  have h1 := c1.toNat_lt
  have h2 := c2.toNat_lt
  have h3 := c3.toNat_lt
  simp only [ntohl, ← UInt8.toNat_inj]
  simp only [UInt8.toNat_zero]
  omega

------------------------------------------------------------
-- Length Headers
------------------------------------------------------------

/- The four bytes of a word, the most significant first. -/
def networkBytes (word : Nat) : List UInt8 :=
  [byteAt word 3, byteAt word 2, byteAt word 1, byteAt word 0]

/- The four bytes of a word, the least significant first. -/
def littleBytes (word : Nat) : List UInt8 :=
  [byteAt word 0, byteAt word 1, byteAt word 2, byteAt word 3]

def networkWord : List UInt8 → Nat
  | [c0, c1, c2, c3] => ntohl c0 c1 c2 c3
  | _ => 0

def littleWord : List UInt8 → Nat
  | [c0, c1, c2, c3] => ntohl c3 c2 c1 c0
  | _ => 0

/- Length headers in network byte order. -/
def networkHeader : Framing.Header UInt8 where
  width := 4
  bound := 2 ^ 32
  encode := networkBytes
  decode := networkWord
  width_pos := by decide
  encode_length := fun _ => rfl
  decode_encode := fun _ hWord => ntohl_byteAt hWord

/- Length headers in little-endian byte order. -/
def littleHeader : Framing.Header UInt8 where
  width := 4
  bound := 2 ^ 32
  encode := littleBytes
  decode := littleWord
  width_pos := by decide
  encode_length := fun _ => rfl
  decode_encode := fun _ hWord => ntohl_byteAt hWord

/- A short length in network order is no short length when
   it is read little-endian. -/
theorem littleWord_ge_of_networkWord
    {bytes : List UInt8}
    (hPos : 0 < networkWord bytes)
    (hShort : networkWord bytes < 65536) :
    65536 ≤ littleWord bytes := by
  match bytes with
  | [c0, c1, c2, c3] =>
      simp only [networkWord, littleWord] at hPos hShort ⊢
      by_contra hLittle
      rcases (ntohl_lt_iff c0 c1 c2 c3).mp hShort with
        ⟨rfl, rfl⟩
      rcases (ntohl_lt_iff c3 c2 0 0).mp (by omega) with
        ⟨rfl, rfl⟩
      exact absurd hPos (by decide)
  | [] | [_] | [_, _] | [_, _, _] => simp [networkWord] at hPos
  | _ :: _ :: _ :: _ :: _ :: _ => simp [networkWord] at hPos

end OefCore
