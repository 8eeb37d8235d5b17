import OefCore.Basic.MachineInt
import OefCore.Library.Memory

/-
  `CharArrayBuffer`: a write cursor over a sequence of asio
  mutable buffers.

  A mutable buffer is a region of memory.  As in the read
  cursor, `size` is an `int` summed from `std::size_t`.

  Main declarations:
    * `MutableBuffer`, `addresses`
    * `CharArrayBuffer.oflow`, `write`,
      `writeLittleEndian`, `xsputn`
    * `CharArrayBuffer.Over` and its write lemmas
-/

------------------------------------------------------------
-- The Cursor
------------------------------------------------------------

namespace OefCore

structure MutableBuffer where
  data : Nat
  size : Nat
  deriving DecidableEq, Repr

/- The memory cells of some buffers, in buffer order. -/
def addresses (buffers : List MutableBuffer) : List Nat :=
  buffers.flatMap (fun b => List.range' b.data b.size)

structure CharArrayBuffer where
  buffers : List MutableBuffer
  mem : Nat → UInt8
  current : Int
  size : Int

namespace CharArrayBuffer

def ofBuffers
    (thebuffers : List MutableBuffer)
    (mem : Nat → UInt8) : CharArrayBuffer :=
  { buffers := thebuffers
    mem := mem
    current := 0
    size := thebuffers.foldl
      (fun size b => toInt32 (size + b.size)) 0 }

/-
  The cell `put_char_at` finds in its walk over the buffers.
  For a buffer longer than an `int` the walk can land on a
  negative offset; its first cell stands for that.
-/
def cellAt : List MutableBuffer → Int → Option Nat
  | [], _ => none
  | b :: buffers, pos =>
      let c := toInt32 b.size
      if c ≤ pos then
        cellAt buffers (pos - c)
      else
        some (b.data + pos.toNat)

def putCharAt
    (chars : CharArrayBuffer)
    (pos : Int)
    (character : UInt8) : Bool × CharArrayBuffer :=
  if chars.size ≤ pos then
    (false, chars)
  else
    match cellAt chars.buffers pos with
    | none => (false, chars)
    | some cell =>
        (true,
          { chars with
            mem := Function.update chars.mem cell character })

def remainingSpace (chars : CharArrayBuffer) : Int :=
  chars.size - chars.current

/- One byte at the cursor, if there is space for it. -/
def oflow
    (chars : CharArrayBuffer)
    (c : UInt8) : CharArrayBuffer :=
  if chars.size ≤ chars.current then
    chars
  else
    { (chars.putCharAt chars.current c).2 with
      current := chars.current + 1 }

/- `write(uint32_t)`: the bytes of `htonl(i)` in order. -/
def write
    (chars : CharArrayBuffer)
    (i : Nat) : CharArrayBuffer :=
  (networkBytes i).foldl oflow chars

/- `write_little_endian(uint32_t)`: the same, backwards. -/
def writeLittleEndian
    (chars : CharArrayBuffer)
    (i : Nat) : CharArrayBuffer :=
  (littleBytes i).foldl oflow chars

/- What the stream calls for a run of bytes.  It moves the
   cursor even where `put_char_at` finds no space. -/
def xsputn
    (chars : CharArrayBuffer) :
    List UInt8 → CharArrayBuffer
  | [] => chars
  | c :: s =>
      xsputn
        { (chars.putCharAt chars.current c).2 with
          current := chars.current + 1 }
        s

theorem xsputn_append
    (chars : CharArrayBuffer)
    (first second : List UInt8) :
    chars.xsputn (first ++ second) =
      (chars.xsputn first).xsputn second := by
  induction first generalizing chars with
  | nil => rfl
  | cons c first ih => exact ih _

------------------------------------------------------------
-- Cursors over Memory Cells
------------------------------------------------------------

/-
  The cursor is `k` cells into buffers that lie over
  `cells`, few enough for `int` positions.
-/
structure Over
    (chars : CharArrayBuffer)
    (cells : List Nat)
    (k : Nat) : Prop where
  addresses_eq : addresses chars.buffers = cells
  length_lt : cells.length < 2 ^ 31
  size_eq : chars.size = cells.length
  current_eq : chars.current = k
  current_le : k ≤ cells.length

theorem length_addresses_cons
    (b : MutableBuffer)
    (buffers : List MutableBuffer) :
    (addresses (b :: buffers)).length =
      b.size + (addresses buffers).length := by
  simp [addresses]

/- Summing wrapped sizes wraps the number of cells. -/
theorem foldl_size_eq
    (buffers : List MutableBuffer)
    (start : Int) :
    buffers.foldl
        (fun size b => toInt32 (size + b.size))
        (toInt32 start) =
      toInt32 (start + (addresses buffers).length) := by
  induction buffers generalizing start with
  | nil => simp [addresses]
  | cons b buffers ih =>
      rw [List.foldl_cons, toInt32_toInt32_add, ih,
        Int.add_assoc, length_addresses_cons]
      simp only [Int.natCast_add]

/- The summed size is the number of cells, wrapped. -/
theorem size_ofBuffers
    (buffers : List MutableBuffer)
    (mem : Nat → UInt8) :
    (ofBuffers buffers mem).size =
      toInt32 (addresses buffers).length := by
  have hZero : toInt32 0 = 0 :=
    toInt32_of_lt (by decide) (by decide)
  have hFold := foldl_size_eq buffers 0
  rwa [hZero, Int.zero_add] at hFold

/- A fresh cursor is over all cells of its buffers. -/
theorem over_ofBuffers
    {buffers : List MutableBuffer}
    {cells : List Nat}
    (mem : Nat → UInt8)
    (hCells : addresses buffers = cells)
    (hLength : cells.length < 2 ^ 31) :
    (ofBuffers buffers mem).Over cells 0 where
  addresses_eq := hCells
  length_lt := hLength
  size_eq := by
    rw [size_ofBuffers, hCells]
    exact toInt32_of_lt (by omega) (by omega)
  current_eq := rfl
  current_le := Nat.zero_le _

/- The walk over the buffers finds the numbered cell. -/
theorem cellAt_eq
    (buffers : List MutableBuffer)
    {k : Nat}
    (hPos : k < (addresses buffers).length)
    (hLength : (addresses buffers).length < 2 ^ 31) :
    cellAt buffers k = some (addresses buffers)[k] := by
  induction buffers generalizing k with
  | nil => simp [addresses] at hPos
  | cons b buffers ih =>
      rw [length_addresses_cons] at hPos hLength
      have hInt : toInt32 b.size = b.size :=
        toInt32_of_lt (by omega) (by omega)
      simp only [cellAt, hInt]
      by_cases hSkip : b.size ≤ k
      · have hCast : (k : Int) - b.size =
            ((k - b.size : Nat) : Int) := by omega
        rw [if_pos (by omega), hCast,
          ih (by omega) (by omega)]
        simp [addresses, List.getElem_append_right, hSkip]
      · rw [if_neg (by omega)]
        simp [addresses, List.getElem_append_left,
          Nat.lt_of_not_le hSkip]

namespace Over

variable {chars : CharArrayBuffer}
variable {cells : List Nat}
variable {k : Nat}

theorem remainingSpace_eq
    (hOver : chars.Over cells k) :
    chars.remainingSpace = (cells.length - k : Nat) := by
  have hLe := hOver.current_le
  simp only [remainingSpace, hOver.size_eq, hOver.current_eq]
  omega

/- The cursor after `n` further cells of new contents. -/
theorem moved
    (hOver : chars.Over cells k)
    {n : Nat}
    (hFits : k + n ≤ cells.length)
    (mem : Nat → UInt8) :
    ({ chars with
        mem := mem
        current := chars.current + n } :
      CharArrayBuffer).Over cells (k + n) where
  addresses_eq := hOver.addresses_eq
  length_lt := hOver.length_lt
  size_eq := hOver.size_eq
  current_eq := by simp [hOver.current_eq]
  current_le := hFits

theorem putCharAt_eq
    (hOver : chars.Over cells k)
    (hMore : k < cells.length)
    (character : UInt8) :
    (chars.putCharAt chars.current character).2 =
      { chars with
        mem := Function.update chars.mem cells[k]
          character } := by
  have hNot : ¬ chars.size ≤ chars.current := by
    rw [hOver.size_eq, hOver.current_eq]
    omega
  have hCell := cellAt_eq chars.buffers (k := k)
    (by rw [hOver.addresses_eq]; exact hMore)
    (by rw [hOver.addresses_eq]; exact hOver.length_lt)
  simp only [hOver.addresses_eq] at hCell
  rw [putCharAt, if_neg hNot, hOver.current_eq, hCell]

/- A run of bytes fills the cells from the cursor on. -/
theorem xsputn_eq
    (hOver : chars.Over cells k)
    {s : List UInt8}
    (hFits : k + s.length ≤ cells.length) :
    chars.xsputn s =
      { chars with
        mem := Memory.fill chars.mem (cells.drop k) s
        current := chars.current + s.length } := by
  induction s generalizing chars k with
  | nil => simp [xsputn]
  | cons c s ih =>
      rw [List.length_cons] at hFits
      have hNext := hOver.moved (n := 1) (by omega)
        (Function.update chars.mem
          (cells.get ⟨k, by omega⟩) c)
      rw [xsputn, hOver.putCharAt_eq (by omega)]
      refine (ih hNext (by omega)).trans ?_
      rw [List.drop_eq_getElem_cons (i := k) (by omega),
        Memory.fill_cons]
      congr 1
      simp only [List.length_cons]
      omega

/- Within the space, `oflow` writes as `xsputn` does. -/
theorem foldl_oflow_eq
    (hOver : chars.Over cells k)
    {s : List UInt8}
    (hFits : k + s.length ≤ cells.length) :
    s.foldl oflow chars = chars.xsputn s := by
  induction s generalizing chars k with
  | nil => rfl
  | cons c s ih =>
      rw [List.length_cons] at hFits
      have hNot : ¬ chars.size ≤ chars.current := by
        rw [hOver.size_eq, hOver.current_eq]
        omega
      have hNext := hOver.moved (n := 1) (by omega)
        (Function.update chars.mem
          (cells.get ⟨k, by omega⟩) c)
      rw [List.foldl_cons, oflow, if_neg hNot, xsputn,
        hOver.putCharAt_eq (by omega)]
      exact ih hNext (by omega)

end Over

end CharArrayBuffer

end OefCore
