import OefCore.BasicComms.CharArrayBuffer
import OefCore.BasicComms.ConstCharArrayBuffer
import OefCore.Library.PaddedReads

/-
  Sequences of numbers and strings, written over an area of
  memory and read back from it.

  The characters of a string are its bytes.

  Main declarations:
    * `CharArrayBuffer.writeInt32`, `writeString`
    * `ConstCharArrayBuffer.readInt32`, `readString`
    * `TypedValue`, `TypedValue.writeAll`, `readAll`
    * `TypedValue.ComesBack`, `Unharmed`
    * `TypedValue.comesBack_iff`
-/

namespace OefCore

------------------------------------------------------------
-- Writing
------------------------------------------------------------

/- An `int32_t` passed on as an `uint32_t`. -/
def toUInt32 (value : Int) : Nat :=
  (value % 2 ^ 32).toNat

namespace CharArrayBuffer

/- `write(int32_t)`. -/
def writeInt32
    (chars : CharArrayBuffer)
    (i : Int) : CharArrayBuffer :=
  (networkBytes (toUInt32 i)).foldl oflow chars

/- `write(std::string)`: the characters and nothing else. -/
def writeString
    (chars : CharArrayBuffer)
    (s : List UInt8) : CharArrayBuffer :=
  s.foldl oflow chars

end CharArrayBuffer

------------------------------------------------------------
-- Reading
------------------------------------------------------------

namespace ConstCharArrayBuffer

/- `read(int32_t &)`. -/
def readInt32
    (chars : ConstCharArrayBuffer) :
    Int × ConstCharArrayBuffer :=
  (toInt32 chars.read.1, chars.read.2)

/- The loop of `read(std::string &, uint32_t)`. -/
def readChars
    (chars : ConstCharArrayBuffer) :
    Nat → List UInt8 × ConstCharArrayBuffer
  | 0 => ([], chars)
  | length + 1 =>
      let c := chars.uflowByte
      let rest := c.2.readChars length
      (c.1 :: rest.1, rest.2)

/- After the string, one more character is discarded. -/
def readString
    (chars : ConstCharArrayBuffer)
    (length : Nat) : List UInt8 × ConstCharArrayBuffer :=
  let output := chars.readChars length
  (output.1, output.2.uflow.2)

end ConstCharArrayBuffer

------------------------------------------------------------
-- Values
------------------------------------------------------------

inductive TypedValue where
  | uint32 (i : UInt32)
  | littleEndian (i : UInt32)
  | int32 (i : Int32)
  | string (s : List UInt8)
  deriving DecidableEq

namespace TypedValue

def isString : TypedValue → Bool
  | string _ => true
  | _ => false

def write
    (chars : CharArrayBuffer) :
    TypedValue → CharArrayBuffer
  | uint32 i => chars.write i.toNat
  | littleEndian i => chars.writeLittleEndian i.toNat
  | int32 i => chars.writeInt32 i.toInt
  | string s => chars.writeString s

/- The call that matches the one by which the value was
   written; of a string, it is given the length. -/
def read
    (chars : ConstCharArrayBuffer) :
    TypedValue → TypedValue × ConstCharArrayBuffer
  | uint32 _ =>
      (uint32 (UInt32.ofNat chars.read.1), chars.read.2)
  | littleEndian _ =>
      (littleEndian (UInt32.ofNat chars.readLittleEndian.1),
        chars.readLittleEndian.2)
  | int32 _ =>
      (int32 (Int32.ofInt chars.readInt32.1),
        chars.readInt32.2)
  | string s =>
      (string (chars.readString s.length).1,
        (chars.readString s.length).2)

def writeAll
    (chars : CharArrayBuffer)
    (values : List TypedValue) : CharArrayBuffer :=
  values.foldl write chars

def readAll
    (chars : ConstCharArrayBuffer) :
    List TypedValue → List TypedValue × ConstCharArrayBuffer
  | [] => ([], chars)
  | value :: values =>
      let first := value.read chars
      let rest := readAll first.2 values
      (first.1 :: rest.1, rest.2)

/- The bytes that a value takes up. -/
def encode : TypedValue → List UInt8
  | uint32 i => networkBytes i.toNat
  | littleEndian i => littleBytes i.toNat
  | int32 i => networkBytes (toUInt32 i.toInt)
  | string s => s

/- How many bytes a read moves on from the end of a value. -/
def discarded : TypedValue → Nat
  | string _ => 1
  | _ => 0

------------------------------------------------------------
-- What Is Written
------------------------------------------------------------

theorem writeAll_eq
    (chars : CharArrayBuffer)
    (values : List TypedValue) :
    writeAll chars values =
      (values.flatMap encode).foldl CharArrayBuffer.oflow
        chars := by
  induction values generalizing chars with
  | nil => rfl
  | cons value values ih =>
      have hFirst :
          value.write chars =
            value.encode.foldl CharArrayBuffer.oflow chars := by
        cases value <;> rfl
      rw [List.flatMap_cons, List.foldl_append, ← hFirst]
      exact ih _

/- Values that fit into an area fill the first cells of it. -/
theorem writeAll_ofBuffers
    {buffers : List MutableBuffer}
    {cells : List Nat}
    (mem : Nat → UInt8)
    (hCells : addresses buffers = cells)
    (hLength : cells.length < 2 ^ 31)
    {values : List TypedValue}
    (hFits : (values.flatMap encode).length ≤ cells.length) :
    (writeAll (.ofBuffers buffers mem) values).mem =
        Memory.fill mem cells (values.flatMap encode) ∧
      (writeAll (.ofBuffers buffers mem) values).current =
        (values.flatMap encode).length := by
  have hOver :=
    CharArrayBuffer.over_ofBuffers mem hCells hLength
  have hRoom :
      0 + (values.flatMap encode).length ≤ cells.length := by
    omega
  rw [writeAll_eq, hOver.foldl_oflow_eq hRoom,
    hOver.xsputn_eq hRoom]
  constructor
  · rfl
  · simp [CharArrayBuffer.ofBuffers]

end TypedValue

------------------------------------------------------------
-- What Is Read
------------------------------------------------------------

/- The loop reads a window of what the cursor views, and the
   cursor stops at the end. -/
theorem ConstCharArrayBuffer.Views.readChars
    {chars : ConstCharArrayBuffer}
    {view : List UInt8}
    {k : Nat}
    (hViews : chars.Views view (min k view.length))
    (length : Nat) :
    (chars.readChars length).1 =
        Padded.window 255 view k length ∧
      (chars.readChars length).2.Views view
        (min (k + length) view.length) := by
  induction length generalizing chars k with
  | zero => exact ⟨rfl, hViews⟩
  | succ length ih =>
      rcases hViews.uflowByte_getD with ⟨hFirst, hNext⟩
      have hChar :
          view.getD (min k view.length) 255 =
            view.getD k 255 := by
        by_cases hIn : k < view.length
        · rw [Nat.min_eq_left (by omega)]
        · rw [Nat.min_eq_right (by omega),
            List.getD_eq_default _ _ (by omega),
            List.getD_eq_default _ _ (by omega)]
      have hStep :
          min (min k view.length + 1) view.length =
            min (k + 1) view.length := by
        omega
      have hLast : k + 1 + length = k + (length + 1) := by
        omega
      rw [hChar] at hFirst
      rw [hStep] at hNext
      rcases ih hNext with ⟨hRest, hEnd⟩
      rw [hLast] at hEnd
      simp only [ConstCharArrayBuffer.readChars]
      refine ⟨?_, hEnd⟩
      rw [hFirst, hRest]
      rfl

theorem networkWord_lt (bytes : List UInt8) :
    networkWord bytes < 2 ^ 32 := by
  unfold networkWord
  split
  · rename_i c0 c1 c2 c3
    have h0 := c0.toNat_lt
    have h1 := c1.toNat_lt
    have h2 := c2.toNat_lt
    have h3 := c3.toNat_lt
    unfold ntohl
    omega
  · decide

/- Four bytes are the bytes of their word. -/
theorem networkBytes_networkWord
    {bytes : List UInt8}
    (hLength : bytes.length = 4) :
    networkBytes (networkWord bytes) = bytes := by
  match bytes, hLength with
  | [c0, c1, c2, c3], _ =>
      have h0 := c0.toNat_lt
      have h1 := c1.toNat_lt
      have h2 := c2.toNat_lt
      have h3 := c3.toNat_lt
      simp only [networkBytes, networkWord, byteAt, ntohl,
        List.cons.injEq, ← UInt8.toNat_inj,
        UInt8.toNat_ofNat', and_true]
      omega

theorem networkBytes_eq_iff
    {bytes : List UInt8}
    (hLength : bytes.length = 4)
    {word : Nat}
    (hWord : word < 2 ^ 32) :
    networkWord bytes = word ↔ bytes = networkBytes word := by
  constructor
  · intro hEq
    rw [← hEq, networkBytes_networkWord hLength]
  · intro hEq
    rw [hEq]
    exact ntohl_byteAt hWord

theorem littleBytes_eq_iff
    {bytes : List UInt8}
    (hLength : bytes.length = 4)
    {word : Nat}
    (hWord : word < 2 ^ 32) :
    littleWord bytes = word ↔ bytes = littleBytes word := by
  match bytes, hLength with
  | [c0, c1, c2, c3], _ =>
      have hReversed :
          networkWord [c3, c2, c1, c0] = word ↔
            [c3, c2, c1, c0] = networkBytes word :=
        networkBytes_eq_iff rfl hWord
      simp only [networkWord, networkBytes, littleWord,
        littleBytes, List.cons.injEq, and_true] at hReversed ⊢
      rw [hReversed]
      constructor
      · rintro ⟨h3, h2, h1, h0⟩
        exact ⟨h0, h1, h2, h3⟩
      · rintro ⟨h0, h1, h2, h3⟩
        exact ⟨h3, h2, h1, h0⟩

namespace TypedValue

/- What a read makes of the bytes it finds. -/
def decode (bytes : List UInt8) : TypedValue → TypedValue
  | uint32 _ => uint32 (UInt32.ofNat (networkWord bytes))
  | littleEndian _ =>
      littleEndian (UInt32.ofNat (littleWord bytes))
  | int32 _ => int32 (Int32.ofInt (toInt32 (networkWord bytes)))
  | string _ => string bytes

theorem ofNat_eq_iff
    {word : Nat}
    (hWord : word < 2 ^ 32)
    (i : UInt32) :
    UInt32.ofNat word = i ↔ word = i.toNat := by
  rw [← UInt32.toNat_inj, UInt32.toNat_ofNat',
    Nat.mod_eq_of_lt hWord]

theorem ofInt_eq_iff
    {word : Nat}
    (hWord : word < 2 ^ 32)
    (i : Int32) :
    Int32.ofInt (toInt32 word) = i ↔
      word = toUInt32 i.toInt := by
  have hLow := Int32.le_toInt i
  have hHigh := Int32.toInt_lt i
  have hTwice :
      (toInt32 word).bmod Int32.size = toInt32 word :=
    Int.bmod_bmod
  rw [← Int32.toInt_inj, Int32.toInt_ofInt, hTwice]
  unfold toInt32 toUInt32
  rw [Int.bmod_def]
  split <;> omega

/- Only its own bytes are read as the value. -/
theorem decode_eq_iff
    {bytes : List UInt8}
    {value : TypedValue}
    (hLength : bytes.length = value.encode.length) :
    value.decode bytes = value ↔ bytes = value.encode := by
  cases value with
  | uint32 i =>
      simp only [decode, encode, uint32.injEq]
      rw [ofNat_eq_iff (networkWord_lt bytes),
        networkBytes_eq_iff hLength i.toNat_lt]
  | littleEndian i =>
      have hWord : littleWord bytes < 2 ^ 32 := by
        match bytes, hLength with
        | [c0, c1, c2, c3], _ =>
            exact networkWord_lt [c3, c2, c1, c0]
      simp only [decode, encode, littleEndian.injEq]
      rw [ofNat_eq_iff hWord,
        littleBytes_eq_iff hLength i.toNat_lt]
  | int32 i =>
      have hWord : toUInt32 i.toInt < 2 ^ 32 := by
        unfold toUInt32
        omega
      simp only [decode, encode, int32.injEq]
      rw [ofInt_eq_iff (networkWord_lt bytes),
        networkBytes_eq_iff hLength hWord]
  | string s => simp [decode, encode]

variable {chars : ConstCharArrayBuffer}
variable {view : List UInt8}
variable {k : Nat}

theorem read_eq
    (hViews : chars.Views view (min k view.length))
    (value : TypedValue) :
    (value.read chars).1 =
        value.decode
          (Padded.window 255 view k value.encode.length) ∧
      (value.read chars).2.Views view
        (min (k + value.encode.length + value.discarded)
          view.length) := by
  have hFour := hViews.readChars 4
  have hRead :
      chars.read =
        (networkWord (chars.readChars 4).1,
          (chars.readChars 4).2) :=
    rfl
  have hLittle :
      chars.readLittleEndian =
        (littleWord (chars.readChars 4).1,
          (chars.readChars 4).2) :=
    rfl
  cases value with
  | uint32 i =>
      rw [read, hRead, hFour.1]
      exact ⟨rfl, hFour.2⟩
  | littleEndian i =>
      rw [read, hLittle, hFour.1]
      exact ⟨rfl, hFour.2⟩
  | int32 i =>
      have hLength : (int32 i).encode.length = 4 := rfl
      rw [read, ConstCharArrayBuffer.readInt32, hRead, hFour.1,
        hLength, decode]
      refine ⟨?_, hFour.2⟩
      dsimp only
  | string s =>
      have hChars := hViews.readChars s.length
      have hLast := hChars.2.readChars 1
      rw [read, ConstCharArrayBuffer.readString, hChars.1]
      exact ⟨rfl, hLast.2⟩

theorem discarded_eq (value : TypedValue) :
    value.discarded = if value.isString then 1 else 0 := by
  cases value <;> rfl

/- The values that are read, one after the other from position
   `k` on, are the given ones. -/
def FoundAt (view : List UInt8) : Nat → List TypedValue → Prop
  | _, [] => True
  | k, value :: values =>
      Padded.window 255 view k value.encode.length =
          value.encode ∧
        FoundAt view
          (k + value.encode.length + value.discarded) values

@[simp]
theorem foundAt_nil (view : List UInt8) (k : Nat) :
    FoundAt view k [] :=
  trivial

theorem foundAt_cons
    (view : List UInt8)
    (k : Nat)
    (value : TypedValue)
    (values : List TypedValue) :
    FoundAt view k (value :: values) ↔
      Padded.window 255 view k value.encode.length =
          value.encode ∧
        FoundAt view
          (k + value.encode.length + value.discarded) values :=
  Iff.rfl

theorem readAll_eq
    (hViews : chars.Views view (min k view.length))
    (values : List TypedValue) :
    ((readAll chars values).1 = values ↔
        FoundAt view k values) ∧
      (readAll chars values).2.Views view
        (min (k + (values.flatMap encode).length +
          values.countP isString) view.length) := by
  induction values generalizing chars k with
  | nil => exact ⟨by simp [readAll], hViews⟩
  | cons value values ih =>
      rcases read_eq hViews value with ⟨hFirst, hNext⟩
      rcases ih hNext with ⟨hRest, hEnd⟩
      have hDiscarded :
          (value :: values).countP isString =
            value.discarded + values.countP isString := by
        rw [List.countP_cons, discarded_eq, Nat.add_comm]
      constructor
      · rw [readAll, foundAt_cons, ← hRest, List.cons.injEq, hFirst,
          decode_eq_iff (Padded.length_window _ _ _)]
      · rw [List.flatMap_cons, List.length_append, hDiscarded]
        have hSum :
            k + (value.encode.length +
                (values.flatMap encode).length) +
              (value.discarded + values.countP isString) =
            k + value.encode.length + value.discarded +
              (values.flatMap encode).length +
                values.countP isString := by
          omega
        rw [hSum]
        exact hEnd

------------------------------------------------------------
-- Strings in Between
------------------------------------------------------------

/- Without strings, all values are found where they were
   written. -/
theorem foundAt_of_no_string
    (front back : List UInt8)
    {values : List TypedValue}
    (hNone : ∀ value ∈ values, value.isString = false) :
    FoundAt (front ++ values.flatMap encode ++ back)
      front.length values := by
  induction values generalizing front with
  | nil => trivial
  | cons value values ih =>
      have hDiscarded : value.discarded = 0 := by
        rw [discarded_eq, hNone value List.mem_cons_self]
        rfl
      have hView :
          front ++ (value :: values).flatMap encode ++ back =
            front ++ value.encode ++
              (values.flatMap encode ++ back) := by
        simp
      have hNext := ih (front ++ value.encode)
        (fun other hOther =>
          hNone other (List.mem_cons_of_mem _ hOther))
      rw [foundAt_cons, hDiscarded]
      constructor
      · rw [hView]
        exact Padded.window_of_piece front value.encode _
      · rw [hView, ← List.append_assoc]
        rw [List.length_append] at hNext
        exact hNext

/- Once a read is ahead, what follows is found only if it is
   all 0xFF, which the end of the area reads as, too. -/
theorem foundAt_shifted_iff
    (front : List UInt8)
    (values : List TypedValue)
    {shift : Nat}
    (hShift : 0 < shift) :
    FoundAt (front ++ values.flatMap encode)
        (front.length + shift) values ↔
      ∀ byte ∈ values.flatMap encode, byte = 255 := by
  induction values generalizing front shift with
  | nil => simp
  | cons value values ih =>
      have hView :
          front ++ (value :: values).flatMap encode =
            front ++ value.encode ++ values.flatMap encode := by
        simp
      have hStart :
          front.length + shift + value.encode.length +
              value.discarded =
            (front ++ value.encode).length +
              (shift + value.discarded) := by
        rw [List.length_append]
        omega
      rw [foundAt_cons, hView, hStart,
        ih (front ++ value.encode) (by omega),
        List.flatMap_cons, List.forall_mem_append]
      apply and_congr_left
      intro hRest
      exact Padded.window_shifted_iff front value.encode hRest
        hShift

/- The values that were written after a string. -/
def afterString : List TypedValue → List TypedValue
  | [] => []
  | value :: values =>
      if value.isString then
        values
      else
        afterString values

theorem foundAt_iff
    (front : List UInt8)
    (values : List TypedValue) :
    FoundAt (front ++ values.flatMap encode) front.length
        values ↔
      ∀ byte ∈ (afterString values).flatMap encode,
        byte = 255 := by
  induction values generalizing front with
  | nil => simp [afterString]
  | cons value values ih =>
      have hView :
          front ++ (value :: values).flatMap encode =
            front ++ value.encode ++ values.flatMap encode := by
        simp
      have hFirst :
          Padded.window 255
              (front ++ value.encode ++ values.flatMap encode)
              front.length value.encode.length =
            value.encode :=
        Padded.window_of_piece front value.encode _
      rw [foundAt_cons, hView, hFirst, ← List.length_append,
        afterString]
      by_cases hString : value.isString
      · rw [discarded_eq, if_pos hString, if_pos hString,
          foundAt_shifted_iff _ values (by decide)]
        simp
      · rw [discarded_eq, if_neg hString, if_neg hString,
          Nat.add_zero, ih]
        simp

theorem isString_eq_false_iff (values : List TypedValue) :
    values.countP isString = 0 ↔
      ∀ value ∈ values, value.isString = false := by
  rw [List.countP_eq_zero]
  simp

------------------------------------------------------------
-- Writing and Reading an Area
------------------------------------------------------------

/- What some buffers show of a memory. -/
def contents
    (mem : Nat → UInt8)
    (buffers : List MutableBuffer) : List (List UInt8) :=
  buffers.map fun b => (List.range' b.data b.size).map mem

theorem flatten_contents
    (mem : Nat → UInt8)
    (buffers : List MutableBuffer) :
    (contents mem buffers).flatten =
      (addresses buffers).map mem := by
  rw [contents, addresses, List.map_flatMap]
  rfl

/-
  Values are written through `writers` and read through
  `readers`, and what is read is what was written, with both
  cursors at the same position in the end.
-/
structure ComesBack
    (writers readers : List MutableBuffer)
    (mem : Nat → UInt8)
    (values : List TypedValue) : Prop where
  values_eq :
    (readAll
      (.ofBuffers
        (contents (writeAll (.ofBuffers writers mem) values).mem
          readers))
      values).1 = values
  current_eq :
    (readAll
      (.ofBuffers
        (contents (writeAll (.ofBuffers writers mem) values).mem
          readers))
      values).2.current =
        (writeAll (.ofBuffers writers mem) values).current

/-
  Either there are no strings, or the values fill the area to
  its end and all bytes after the first string are 0xFF.
-/
def Unharmed
    (values : List TypedValue)
    (area : Nat) : Prop :=
  (∀ value ∈ values, value.isString = false) ∨
    ((values.flatMap encode).length = area ∧
      ∀ byte ∈ (afterString values).flatMap encode,
        byte = 255)

/- What comes back, by what is found in the bytes of the area:
   the values, then what was there before. -/
theorem comesBack_iff_foundAt
    {writers readers : List MutableBuffer}
    (mem : Nat → UInt8)
    {values : List TypedValue}
    (hArea : addresses readers = addresses writers)
    (hNodup : (addresses writers).Nodup)
    (hLength : (addresses writers).length < 2 ^ 31)
    (hFits :
      (values.flatMap encode).length ≤
        (addresses writers).length) :
    ComesBack writers readers mem values ↔
      FoundAt
          (values.flatMap encode ++
            ((addresses writers).map mem).drop
              (values.flatMap encode).length) 0 values ∧
        min ((values.flatMap encode).length +
            values.countP isString) (addresses writers).length =
          (values.flatMap encode).length := by
  rcases writeAll_ofBuffers mem rfl hLength hFits with
    ⟨hMem, hCurrent⟩
  have hView :
      (contents (writeAll (.ofBuffers writers mem) values).mem
          readers).flatten =
        values.flatMap encode ++
          ((addresses writers).map mem).drop
            (values.flatMap encode).length := by
    rw [flatten_contents, hMem, hArea,
      Memory.map_fill mem hNodup _ hFits]
  have hWhole :
      (values.flatMap encode ++
          ((addresses writers).map mem).drop
            (values.flatMap encode).length).length =
        (addresses writers).length := by
    rw [List.length_append, List.length_drop, List.length_map]
    omega
  have hViews :=
    ConstCharArrayBuffer.views_ofBuffers hView
      (by rw [hWhole]; exact hLength)
  rw [← Nat.zero_min (List.length _)] at hViews
  rcases readAll_eq hViews values with ⟨hValues, hEnd⟩
  rw [hWhole] at hEnd
  rw [← hValues]
  constructor
  · rintro ⟨hSame, hCursor⟩
    rw [hEnd.current_eq, hCurrent] at hCursor
    exact ⟨hSame, by omega⟩
  · rintro ⟨hSame, hCursor⟩
    refine ⟨hSame, ?_⟩
    rw [hEnd.current_eq, hCurrent]
    omega

/-
  Values that fit into an area come back exactly if the
  character that is discarded after a string does no harm.
-/
theorem comesBack_iff
    {writers readers : List MutableBuffer}
    (mem : Nat → UInt8)
    {values : List TypedValue}
    (hArea : addresses readers = addresses writers)
    (hNodup : (addresses writers).Nodup)
    (hLength : (addresses writers).length < 2 ^ 31)
    (hFits :
      (values.flatMap encode).length ≤
        (addresses writers).length) :
    ComesBack writers readers mem values ↔
      Unharmed values (addresses writers).length := by
  rw [comesBack_iff_foundAt mem hArea hNodup hLength hFits,
    Unharmed, ← isString_eq_false_iff]
  by_cases hNone : values.countP isString = 0
  · have hFound :=
      foundAt_of_no_string []
        (((addresses writers).map mem).drop
          (values.flatMap encode).length)
        ((isString_eq_false_iff values).mp hNone)
    rw [List.nil_append] at hFound
    exact iff_of_true ⟨hFound, by omega⟩ (Or.inl hNone)
  · have hFull :
        min ((values.flatMap encode).length +
              values.countP isString) (addresses writers).length =
            (values.flatMap encode).length ↔
          (values.flatMap encode).length =
            (addresses writers).length := by
      omega
    rw [hFull, and_comm, or_iff_right hNone]
    apply and_congr_right
    intro hEqual
    rw [List.drop_of_length_le
      (by rw [List.length_map, hEqual]), List.append_nil]
    exact foundAt_iff [] values

/- A number that crosses buffers, and a string up to the end
   of the area. -/
theorem comesBack_iff_of_string_last :
    ComesBack [⟨0, 3⟩, ⟨3, 4⟩] [⟨0, 1⟩, ⟨1, 6⟩] (fun _ => 0)
        [int32 (-2), string [104, 105, 33]] ↔
      Unharmed [int32 (-2), string [104, 105, 33]] 7 :=
  comesBack_iff (fun _ => 0) (by decide) (by decide)
    (by decide) (by decide)

/- Of a string and the number after it, the number comes back
   as another one. -/
theorem not_comesBack_of_string_first :
    (addresses [⟨0, 8⟩]).Nodup ∧
      ([string [97], uint32 1].flatMap encode).length ≤
        (addresses [⟨0, 8⟩]).length ∧
      ¬ ComesBack [⟨0, 8⟩] [⟨0, 8⟩] (fun _ => 0)
          [string [97], uint32 1] := by
  refine ⟨by decide, by decide, ?_⟩
  intro hBack
  have hValues := hBack.values_eq
  revert hValues
  decide

end TypedValue

end OefCore
