import Mathlib.Data.List.GetD
import OefCore.Basic.MachineInt

/-
  `ConstCharArrayBuffer`: a read cursor over a sequence of
  asio const buffers.

  A const buffer is modelled by the bytes it covers.  `size`
  and `current` are `int`s in the source; `size` is summed
  from `std::size_t` lengths and wraps, the cursor never
  leaves `0 .. size`.

  Main declarations:
    * `ConstCharArrayBuffer.uflow`, `read`,
      `readLittleEndian`, `advance`, `copyOut`
    * `ConstCharArrayBuffer.Views` and its read lemmas
-/

------------------------------------------------------------
-- The Cursor
------------------------------------------------------------

namespace OefCore

structure ConstCharArrayBuffer where
  buffers : List (List UInt8)
  current : Int
  size : Int
  deriving DecidableEq, Repr

namespace ConstCharArrayBuffer

/- `traits_type::eof()` as an `int_type`. -/
def eof : Int := -1

/- `traits_type::eof()` returned as a `char`. -/
def eofChar : UInt8 := 255

/- The cursor at the start of some buffers. -/
def ofBuffers
    (thebuffers : List (List UInt8)) :
    ConstCharArrayBuffer :=
  { buffers := thebuffers
    current := 0
    size := thebuffers.foldl
      (fun size b => toInt32 (size + b.length)) 0 }

/- The copy of a cursor that ends at `sizelimit`. -/
def withLimit
    (other : ConstCharArrayBuffer)
    (sizelimit : Int) : ConstCharArrayBuffer :=
  { other with size := toInt32 sizelimit }

/-
  The walk of `get_char_at` over the buffers.  A buffer
  longer than an `int` gives a wrapped `c`; the byte then
  addressed is outside the buffer and `eofChar` stands for it.
-/
def getCharAtIn : List (List UInt8) → Int → UInt8
  | [], _ => eofChar
  | b :: buffers, pos =>
      let c := toInt32 b.length
      if c ≤ pos then
        getCharAtIn buffers (pos - c)
      else
        b.getD pos.toNat eofChar

def getCharAt
    (chars : ConstCharArrayBuffer)
    (pos : Int) : UInt8 :=
  if chars.size ≤ pos then
    eofChar
  else
    getCharAtIn chars.buffers pos

def remainingData (chars : ConstCharArrayBuffer) : Int :=
  chars.size - chars.current

/- The next byte as an `int_type`, or `eof` at the end. -/
def uflow
    (chars : ConstCharArrayBuffer) :
    Int × ConstCharArrayBuffer :=
  if chars.size ≤ chars.current then
    (eof, chars)
  else
    ((chars.getCharAt chars.current).toNat,
      { chars with current := chars.current + 1 })

/- The cast `(uint8_t)uflow()`. -/
def uflowByte
    (chars : ConstCharArrayBuffer) :
    UInt8 × ConstCharArrayBuffer :=
  (UInt8.ofInt chars.uflow.1, chars.uflow.2)

/- `read(uint32_t &)`: a word in network byte order. -/
def read
    (chars : ConstCharArrayBuffer) :
    Nat × ConstCharArrayBuffer :=
  let c0 := chars.uflowByte
  let c1 := c0.2.uflowByte
  let c2 := c1.2.uflowByte
  let c3 := c2.2.uflowByte
  (ntohl c0.1 c1.1 c2.1 c3.1, c3.2)

/- `read_little_endian`: `c[3]` is filled first. -/
def readLittleEndian
    (chars : ConstCharArrayBuffer) :
    Nat × ConstCharArrayBuffer :=
  let c3 := chars.uflowByte
  let c2 := c3.2.uflowByte
  let c1 := c2.2.uflowByte
  let c0 := c1.2.uflowByte
  (ntohl c0.1 c1.1 c2.1 c3.1, c0.2)

def advance
    (chars : ConstCharArrayBuffer)
    (amount : Int) : ConstCharArrayBuffer :=
  { chars with current := chars.current + amount }

def tell (chars : ConstCharArrayBuffer) : Int :=
  chars.current

/- The bytes `copyOut` appends, one for each step left. -/
def copyOutFrom
    (chars : ConstCharArrayBuffer) : Nat → List UInt8
  | 0 => []
  | steps + 1 =>
      chars.getCharAt chars.current ::
        copyOutFrom (chars.advance 1) steps

/- Everything from the cursor to the end. -/
def copyOut (chars : ConstCharArrayBuffer) : List UInt8 :=
  chars.copyOutFrom chars.remainingData.toNat

------------------------------------------------------------
-- Cursor Movement
------------------------------------------------------------

@[simp] theorem advance_size
    (chars : ConstCharArrayBuffer)
    (amount : Int) :
    (chars.advance amount).size = chars.size := rfl

@[simp] theorem advance_current
    (chars : ConstCharArrayBuffer)
    (amount : Int) :
    (chars.advance amount).current =
      chars.current + amount := rfl

@[simp] theorem remainingData_advance
    (chars : ConstCharArrayBuffer)
    (amount : Int) :
    (chars.advance amount).remainingData =
      chars.remainingData - amount := by
  simp only [remainingData, advance_size, advance_current]
  omega

theorem advance_advance
    (chars : ConstCharArrayBuffer)
    (first second : Int) :
    (chars.advance first).advance second =
      chars.advance (first + second) := by
  simp [advance, Int.add_assoc]

/- While data remains, a byte read moves the cursor by one. -/
theorem uflowByte_snd
    (chars : ConstCharArrayBuffer)
    (hMore : 1 ≤ chars.remainingData) :
    chars.uflowByte.2 = chars.advance 1 := by
  have hNot : ¬ chars.size ≤ chars.current := by
    simp only [remainingData] at hMore
    omega
  simp only [uflowByte, uflow, if_neg hNot]
  rfl

/- A later position of the same cursor. -/
structure Follows
    (later chars : ConstCharArrayBuffer) : Prop where
  size_eq : later.size = chars.size
  current_le : chars.current ≤ later.current

namespace Follows

theorem refl (chars : ConstCharArrayBuffer) :
    chars.Follows chars :=
  ⟨rfl, Int.le_refl _⟩

theorem trans
    {last later chars : ConstCharArrayBuffer}
    (hLast : last.Follows later)
    (hLater : later.Follows chars) :
    last.Follows chars :=
  ⟨hLast.size_eq.trans hLater.size_eq,
    Int.le_trans hLater.current_le hLast.current_le⟩

theorem remainingData_le
    {later chars : ConstCharArrayBuffer}
    (hLater : later.Follows chars) :
    later.remainingData ≤ chars.remainingData := by
  have hSize := hLater.size_eq
  have hCurrent := hLater.current_le
  simp only [remainingData]
  omega

end Follows

theorem advance_follows
    (chars : ConstCharArrayBuffer)
    (amount : Nat) :
    (chars.advance amount).Follows chars where
  size_eq := rfl
  current_le := by
    rw [advance_current]
    omega

/- Reading a byte never moves the cursor back. -/
theorem uflowByte_follows (chars : ConstCharArrayBuffer) :
    chars.uflowByte.2.Follows chars := by
  simp only [uflowByte, uflow]
  split
  · exact Follows.refl chars
  · exact chars.advance_follows 1

theorem read_follows (chars : ConstCharArrayBuffer) :
    chars.read.2.Follows chars :=
  (uflowByte_follows _).trans
    ((uflowByte_follows _).trans
      ((uflowByte_follows _).trans (uflowByte_follows _)))

/- The four byte reads of a word, each one step further. -/
theorem uflowByte_chain
    {chars : ConstCharArrayBuffer}
    (hMore : 4 ≤ chars.remainingData) :
    chars.uflowByte.2 = chars.advance 1 ∧
      (chars.advance 1).uflowByte.2 = chars.advance 2 ∧
      (chars.advance 2).uflowByte.2 = chars.advance 3 ∧
      (chars.advance 3).uflowByte.2 = chars.advance 4 := by
  have h1 := (chars.advance 1).uflowByte_snd
    (by simp; omega)
  have h2 := (chars.advance 2).uflowByte_snd
    (by simp; omega)
  have h3 := (chars.advance 3).uflowByte_snd
    (by simp; omega)
  rw [advance_advance] at h1 h2 h3
  exact ⟨chars.uflowByte_snd (by omega), h1, h2, h3⟩

theorem read_eq
    {chars : ConstCharArrayBuffer}
    (hMore : 4 ≤ chars.remainingData) :
    chars.read =
      (ntohl chars.uflowByte.1 (chars.advance 1).uflowByte.1
          (chars.advance 2).uflowByte.1
          (chars.advance 3).uflowByte.1,
        chars.advance 4) := by
  rcases uflowByte_chain hMore with ⟨h0, h1, h2, h3⟩
  simp only [read, h0, h1, h2, h3]

theorem readLittleEndian_eq
    {chars : ConstCharArrayBuffer}
    (hMore : 4 ≤ chars.remainingData) :
    chars.readLittleEndian =
      (ntohl (chars.advance 3).uflowByte.1
          (chars.advance 2).uflowByte.1
          (chars.advance 1).uflowByte.1 chars.uflowByte.1,
        chars.advance 4) := by
  rcases uflowByte_chain hMore with ⟨h0, h1, h2, h3⟩
  simp only [readLittleEndian, h0, h1, h2, h3]

/- `copyOut` yields one byte for each step to the limit. -/
theorem length_copyOutFrom
    (chars : ConstCharArrayBuffer)
    (steps : Nat) :
    (chars.copyOutFrom steps).length = steps := by
  induction steps generalizing chars with
  | zero => rfl
  | succ steps ih => simp [copyOutFrom, ih]

/- A copy limited to `amount` further bytes holds as many. -/
theorem length_copyOut_withLimit
    {chars : ConstCharArrayBuffer}
    {amount : Nat}
    (hStart : 0 ≤ chars.current)
    (hEnd : chars.current + amount < 2 ^ 31) :
    (chars.withLimit (chars.current + amount)).copyOut.length =
      amount := by
  have hLimit :
      toInt32 (chars.current + amount) =
        chars.current + amount :=
    toInt32_of_lt (by omega) hEnd
  rw [copyOut, length_copyOutFrom, remainingData, withLimit,
    hLimit]
  simp only
  omega

------------------------------------------------------------
-- Cursors over a View
------------------------------------------------------------

/-
  The cursor is `k` bytes into a view of its buffers, and
  the buffers are short enough for `int` positions.
-/
structure Views
    (chars : ConstCharArrayBuffer)
    (view : List UInt8)
    (k : Nat) : Prop where
  view_prefix : view <+: chars.buffers.flatten
  length_lt : chars.buffers.flatten.length < 2 ^ 31
  size_eq : chars.size = view.length
  current_eq : chars.current = k
  current_le : k ≤ view.length

/- Summing wrapped lengths wraps the sum of the lengths. -/
theorem foldl_size_eq
    (buffers : List (List UInt8))
    (start : Int) :
    buffers.foldl
        (fun size b => toInt32 (size + b.length))
        (toInt32 start) =
      toInt32 (start + buffers.flatten.length) := by
  induction buffers generalizing start with
  | nil => simp
  | cons b buffers ih =>
      rw [List.foldl_cons, toInt32_toInt32_add, ih,
        Int.add_assoc]
      simp only [List.flatten_cons, List.length_append,
        Int.natCast_add]

/- The summed size is the number of bytes, wrapped. -/
theorem size_ofBuffers (buffers : List (List UInt8)) :
    (ofBuffers buffers).size =
      toInt32 buffers.flatten.length := by
  have hZero : toInt32 0 = 0 :=
    toInt32_of_lt (by decide) (by decide)
  have hFold := foldl_size_eq buffers 0
  rwa [hZero, Int.zero_add] at hFold

/- A fresh cursor views its buffers from the start. -/
theorem views_ofBuffers
    {buffers : List (List UInt8)}
    {view : List UInt8}
    (hFlatten : buffers.flatten = view)
    (hLength : view.length < 2 ^ 31) :
    (ofBuffers buffers).Views view 0 where
  view_prefix := by
    subst hFlatten
    exact List.prefix_rfl
  length_lt := by
    subst hFlatten
    exact hLength
  size_eq := by
    rw [size_ofBuffers, hFlatten]
    exact toInt32_of_lt (by omega) (by omega)
  current_eq := rfl
  current_le := Nat.zero_le _

/- The walk over the buffers finds the byte of the view. -/
theorem getCharAtIn_eq
    (buffers : List (List UInt8))
    (k : Nat)
    (hLength : buffers.flatten.length < 2 ^ 31) :
    getCharAtIn buffers k =
      buffers.flatten.getD k eofChar := by
  induction buffers generalizing k with
  | nil => simp [getCharAtIn]
  | cons b buffers ih =>
      simp only [List.flatten_cons, List.length_append]
        at hLength
      have hInt : toInt32 b.length = b.length :=
        toInt32_of_lt (by omega) (by omega)
      simp only [getCharAtIn, hInt, List.flatten_cons]
      by_cases hSkip : b.length ≤ k
      · have hPos : (k : Int) - b.length =
            ((k - b.length : Nat) : Int) := by omega
        rw [if_pos (by omega), hPos, ih _ (by omega)]
        rw [List.getD_append_right _ _ _ _ hSkip]
      · rw [if_neg (by omega), Int.toNat_natCast]
        rw [List.getD_append _ _ _ _ (by omega)]

namespace Views

variable {chars : ConstCharArrayBuffer}
variable {view : List UInt8}
variable {k : Nat}

theorem remainingData_eq
    (hViews : chars.Views view k) :
    chars.remainingData = (view.length - k : Nat) := by
  have hLe := hViews.current_le
  simp only [remainingData, hViews.size_eq,
    hViews.current_eq]
  omega

theorem getCharAt_eq
    (hViews : chars.Views view k)
    (pos : Nat)
    (hPos : pos < view.length) :
    chars.getCharAt pos = view[pos] := by
  have hIn :=
    getCharAtIn_eq chars.buffers pos hViews.length_lt
  have hNot : ¬ chars.size ≤ (pos : Int) := by
    rw [hViews.size_eq]
    omega
  have hAll : pos < chars.buffers.flatten.length :=
    Nat.lt_of_lt_of_le hPos hViews.view_prefix.length_le
  rw [getCharAt, if_neg hNot, hIn,
    List.getD_eq_getElem _ _ hAll]
  exact (hViews.view_prefix.getElem hPos).symm

/- Moving the cursor within the view keeps the view. -/
theorem advance
    (hViews : chars.Views view k)
    (amount : Nat)
    (hFits : k + amount ≤ view.length) :
    (chars.advance amount).Views view (k + amount) where
  view_prefix := hViews.view_prefix
  length_lt := hViews.length_lt
  size_eq := hViews.size_eq
  current_eq := by
    simp [ConstCharArrayBuffer.advance, hViews.current_eq]
  current_le := hFits

theorem uflowByte_eq
    (hViews : chars.Views view k)
    (hMore : k < view.length) :
    chars.uflowByte = (view[k], chars.advance 1) := by
  have hNot : ¬ chars.size ≤ chars.current := by
    rw [hViews.size_eq, hViews.current_eq]
    omega
  have hChar := hViews.getCharAt_eq k hMore
  rw [← hViews.current_eq] at hChar
  have hLt := view[k].toNat_lt
  simp only [uflowByte, uflow, if_neg hNot, hChar,
    ConstCharArrayBuffer.advance, Prod.mk.injEq, and_true]
  rw [UInt8.ofInt, ← UInt8.toNat_inj, UInt8.toNat_ofNat']
  omega

/- A byte read at the end of the view gives `0xFF` and
   leaves the cursor where it is. -/
theorem uflowByte_getD
    (hViews : chars.Views view k) :
    chars.uflowByte.1 = view.getD k 255 ∧
      chars.uflowByte.2.Views view
        (min (k + 1) view.length) := by
  have hLe := hViews.current_le
  by_cases hMore : k < view.length
  · have hNext := hViews.advance 1 hMore
    rw [hViews.uflowByte_eq hMore, Nat.min_eq_left hMore]
    exact ⟨(List.getD_eq_getElem _ _ hMore).symm, hNext⟩
  · have hEnd : chars.size ≤ chars.current := by
      rw [hViews.size_eq, hViews.current_eq]
      omega
    have hSame : chars.uflowByte = (255, chars) := by
      simp only [uflowByte, uflow, if_pos hEnd]
      rfl
    have hMin : min (k + 1) view.length = k := by omega
    rw [hSame, hMin, List.getD_eq_default _ _ (by omega)]
    exact ⟨rfl, hViews⟩

/- The byte `n` positions after the cursor. -/
theorem uflowByte_advance
    (hViews : chars.Views view k)
    {n : Nat}
    (hMore : k + n < view.length) :
    (chars.advance n).uflowByte.1 = view[k + n] := by
  rw [(hViews.advance n (by omega)).uflowByte_eq hMore]

/- The next four bytes of the view, one read each. -/
theorem take_four_eq
    (hViews : chars.Views view k)
    (hMore : k + 4 ≤ view.length) :
    (view.drop k).take 4 =
      [chars.uflowByte.1, (chars.advance 1).uflowByte.1,
        (chars.advance 2).uflowByte.1,
        (chars.advance 3).uflowByte.1] := by
  have h0 := hViews.uflowByte_eq (by omega)
  have h1 := hViews.uflowByte_advance (n := 1) (by omega)
  have h2 := hViews.uflowByte_advance (n := 2) (by omega)
  have h3 := hViews.uflowByte_advance (n := 3) (by omega)
  rw [List.drop_eq_getElem_cons (by omega),
    List.drop_eq_getElem_cons (by omega),
    List.drop_eq_getElem_cons (by omega),
    List.drop_eq_getElem_cons (by omega)]
  simp only [List.take_succ_cons, List.take_zero, h0]
  exact congrArg₂ List.cons rfl
    (congrArg₂ List.cons h1.symm
      (congrArg₂ List.cons h2.symm
        (congrArg₂ List.cons h3.symm rfl)))

/- A word read decodes the next four bytes of the view. -/
theorem read_eq
    (hViews : chars.Views view k)
    (hMore : k + 4 ≤ view.length) :
    chars.read =
      (networkWord ((view.drop k).take 4),
        chars.advance 4) := by
  have hRemaining := hViews.remainingData_eq
  rw [ConstCharArrayBuffer.read_eq (by omega),
    hViews.take_four_eq hMore]
  rfl

theorem readLittleEndian_eq
    (hViews : chars.Views view k)
    (hMore : k + 4 ≤ view.length) :
    chars.readLittleEndian =
      (littleWord ((view.drop k).take 4),
        chars.advance 4) := by
  have hRemaining := hViews.remainingData_eq
  rw [ConstCharArrayBuffer.readLittleEndian_eq (by omega),
    hViews.take_four_eq hMore]
  rfl

/- A word read past the end of the view reads `0xFF`s. -/
theorem read_getD
    (hViews : chars.Views view k) :
    chars.read.1 =
        ntohl (view.getD k 255) (view.getD (k + 1) 255)
          (view.getD (k + 2) 255) (view.getD (k + 3) 255) ∧
      chars.read.2.Views view
        (min (k + 4) view.length) := by
  have hSaturate :
      ∀ n, view.getD (min n view.length) 255 =
        view.getD n 255 := by
    intro n
    by_cases hLt : n < view.length
    · rw [Nat.min_eq_left (by omega)]
    · rw [Nat.min_eq_right (by omega),
        List.getD_eq_default _ _ (by omega),
        List.getD_eq_default _ _ (by omega)]
  have hStep :
      ∀ n, min (min n view.length + 1) view.length =
        min (n + 1) view.length := by omega
  rcases hViews.uflowByte_getD with ⟨hC0, h0⟩
  rcases h0.uflowByte_getD with ⟨hC1, h1⟩
  rcases h1.uflowByte_getD with ⟨hC2, h2⟩
  rcases h2.uflowByte_getD with ⟨hC3, h3⟩
  simp only [hStep, hSaturate] at hC1 hC2 hC3 h3
  constructor
  · simp only [read, hC0, hC1, hC2, hC3]
  · exact h3

/- Copying out a number of steps takes that part of the view. -/
theorem copyOutFrom_eq
    (hViews : chars.Views view k)
    {steps : Nat}
    (hFits : k + steps ≤ view.length) :
    chars.copyOutFrom steps = (view.drop k).take steps := by
  induction steps generalizing chars k with
  | zero => simp [copyOutFrom]
  | succ steps ih =>
      have hChar := hViews.getCharAt_eq k (by omega)
      have hNext := ih (hViews.advance 1
        (by omega)) (by omega)
      rw [← hViews.current_eq] at hChar
      rw [copyOutFrom, hChar,
        List.drop_eq_getElem_cons (by omega),
        List.take_succ_cons]
      exact congrArg (List.cons _) hNext

/- A limited copy views the part up to its limit. -/
theorem withLimit
    (hViews : chars.Views view k)
    (amount : Nat)
    (hFits : k + amount ≤ view.length) :
    (chars.withLimit (chars.current + amount)).Views
      (view.take (k + amount)) k where
  view_prefix :=
    (List.take_prefix _ _).trans hViews.view_prefix
  length_lt := hViews.length_lt
  size_eq := by
    have hAll := hViews.view_prefix.length_le
    have hLength := hViews.length_lt
    rw [List.length_take, Nat.min_eq_left hFits]
    simp only [ConstCharArrayBuffer.withLimit,
      hViews.current_eq, ← Int.natCast_add]
    exact toInt32_of_lt (by omega) (by omega)
  current_eq := hViews.current_eq
  current_le := by
    rw [List.length_take]
    omega

/- The copy handed on for a body holds exactly the body. -/
theorem copyOut_withLimit
    (hViews : chars.Views view k)
    (amount : Nat)
    (hFits : k + amount ≤ view.length) :
    (chars.withLimit (chars.current + amount)).copyOut =
      (view.drop k).take amount := by
  have hLimit := hViews.withLimit amount hFits
  have hLength :
      (view.take (k + amount)).length = k + amount := by
    rw [List.length_take, Nat.min_eq_left hFits]
  rw [copyOut, hLimit.remainingData_eq,
    Int.toNat_natCast, hLength, Nat.add_sub_cancel_left,
    hLimit.copyOutFrom_eq (by omega), List.drop_take,
    Nat.add_sub_cancel_left, List.take_take, Nat.min_self]

end Views

end ConstCharArrayBuffer

end OefCore
