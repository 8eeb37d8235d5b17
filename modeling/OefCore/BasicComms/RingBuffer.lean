import OefCore.BasicComms.CharArrayBuffer
import OefCore.Library.Circular

/-
  `RingBuffer`: a circular store with a read and a write
  position.

  The store is memory from address 0 on.  Amounts are
  `size_t`s that callers keep within the free space or the
  available data, where no subtraction wraps.

  Main declarations:
    * `RingBuffer`, `RingBuffer.Valid`, `RingBuffer.contents`
    * `getSpaceBuffers`, `getDataBuffers`, `markSpaceUsed`,
      `markDataUsed`
    * `RingBuffer.flatten_getDataBuffers`
    * `RingBuffer.contents_fill_markSpaceUsed`
    * `RingBuffer.contents_markDataUsed`
-/

------------------------------------------------------------
-- Operations
------------------------------------------------------------

namespace OefCore

structure RingBuffer where
  size : Nat
  freeSpace : Nat
  readp : Nat
  writep : Nat
  store : Nat → UInt8

namespace RingBuffer

def ofSize (size : Nat) : RingBuffer :=
  { size := size
    freeSpace := size
    readp := 0
    writep := 0
    store := fun _ => 0 }

def getFreeSpace (b : RingBuffer) : Nat :=
  b.freeSpace

def getDataAvailable (b : RingBuffer) : Nat :=
  b.size - b.freeSpace

def getSpaceBuffers (b : RingBuffer) : List MutableBuffer :=
  if 0 < b.getFreeSpace then
    let buffer1size :=
      min (b.writep + b.getFreeSpace) b.size - b.writep
    let buffer2size := b.getFreeSpace - buffer1size
    { data := b.writep, size := buffer1size } ::
      (if buffer2size = 0 then
        []
      else
        [{ data := 0, size := buffer2size }])
  else
    []

/- The bytes of one buffer over the store. -/
def bytesAt
    (b : RingBuffer)
    (index size : Nat) : List UInt8 :=
  (List.range' index size).map b.store

/- The view of the data; of a full store it has no part. -/
def getDataBuffers (b : RingBuffer) : List (List UInt8) :=
  if b.getDataAvailable < b.size then
    let buffer1size :=
      min (b.readp + b.getDataAvailable) b.size - b.readp
    let buffer2size := b.getDataAvailable - buffer1size
    b.bytesAt b.readp buffer1size ::
      (if buffer2size = 0 then
        []
      else
        [b.bytesAt 0 buffer2size])
  else
    []

def markSpaceUsed
    (b : RingBuffer)
    (amount : Nat) : RingBuffer :=
  { b with
    writep := (b.writep + amount) % b.size
    freeSpace := b.freeSpace - amount }

def markDataUsed
    (b : RingBuffer)
    (amount : Nat) : RingBuffer :=
  { b with
    readp := (b.readp + amount) % b.size
    freeSpace := b.freeSpace + amount }

/- The store after somebody wrote into its space. -/
def withStore
    (b : RingBuffer)
    (store : Nat → UInt8) : RingBuffer :=
  { b with store := store }

------------------------------------------------------------
-- Invariant and Contents
------------------------------------------------------------

structure Valid (b : RingBuffer) : Prop where
  readp_lt : b.readp < b.size
  freeSpace_le : b.freeSpace ≤ b.size
  writep_eq :
    b.writep = (b.readp + b.getDataAvailable) % b.size

/- The data from the read position on. -/
def contents (b : RingBuffer) : List UInt8 :=
  (Circular.interval b.size b.readp b.getDataAvailable).map
    b.store

@[simp] theorem length_contents (b : RingBuffer) :
    b.contents.length = b.getDataAvailable := by
  simp [contents]

theorem valid_ofSize
    {size : Nat}
    (hSize : 0 < size) :
    (ofSize size).Valid where
  readp_lt := hSize
  freeSpace_le := Nat.le_refl _
  writep_eq := by
    simp [ofSize, getDataAvailable]

@[simp] theorem contents_ofSize (size : Nat) :
    (ofSize size).contents = [] := by
  apply List.eq_nil_of_length_eq_zero
  rw [length_contents, getDataAvailable, ofSize]
  exact Nat.sub_self size

namespace Valid

variable {b : RingBuffer}

theorem writep_lt (hValid : b.Valid) : b.writep < b.size := by
  rw [hValid.writep_eq]
  exact Nat.mod_lt _ (Nat.zero_lt_of_lt hValid.readp_lt)

theorem available_add_free (hValid : b.Valid) :
    b.getDataAvailable + b.getFreeSpace = b.size := by
  have hLe := hValid.freeSpace_le
  simp only [getDataAvailable, getFreeSpace]
  omega

/- The free cells follow the data around the circle. -/
theorem interval_writep
    (hValid : b.Valid)
    (count : Nat) :
    Circular.interval b.size b.writep count =
      Circular.interval b.size
        (b.readp + b.getDataAvailable) count := by
  rw [hValid.writep_eq, Circular.interval_mod]

end Valid

------------------------------------------------------------
-- Views
------------------------------------------------------------

/- The space buffers lie over the free cells in order. -/
theorem addresses_getSpaceBuffers
    {b : RingBuffer}
    (hValid : b.Valid) :
    addresses b.getSpaceBuffers =
      Circular.interval b.size b.writep b.getFreeSpace := by
  have hSegments := Circular.segments_eq hValid.writep_lt
    hValid.freeSpace_le
  unfold getSpaceBuffers
  split
  · rename_i hSome
    simp only
    split
    · rename_i hOne
      simp only [getFreeSpace] at hOne ⊢
      rw [hOne, List.range'_zero, List.append_nil]
        at hSegments
      simpa [addresses] using hSegments
    · simpa [addresses, getFreeSpace] using hSegments
  · rename_i hNone
    have hZero : b.getFreeSpace = 0 := by omega
    simp [hZero, addresses, Circular.interval]

/- While the store is not full, the view is its contents. -/
theorem flatten_getDataBuffers
    {b : RingBuffer}
    (hValid : b.Valid)
    (hNotFull : b.getDataAvailable < b.size) :
    b.getDataBuffers.flatten = b.contents := by
  have hSegments := Circular.segments_eq hValid.readp_lt
    (Nat.le_of_lt hNotFull)
  unfold getDataBuffers
  rw [if_pos hNotFull, contents, ← hSegments]
  simp only
  split
  · rename_i hOne
    rw [hOne]
    simp [bytesAt]
  · simp [bytesAt]

/- The view of a full store is empty. -/
theorem getDataBuffers_of_full
    {b : RingBuffer}
    (hFull : ¬ b.getDataAvailable < b.size) :
    b.getDataBuffers = [] := by
  rw [getDataBuffers, if_neg hFull]

------------------------------------------------------------
-- Filling and Draining
------------------------------------------------------------

section Filling

variable {b : RingBuffer}
variable {bytes : List UInt8}

/- The store after bytes were put into its space buffers and
   marked as used. -/
def filled
    (b : RingBuffer)
    (bytes : List UInt8) : RingBuffer :=
  (b.withStore (Memory.fill b.store
    (addresses b.getSpaceBuffers) bytes)).markSpaceUsed
      bytes.length

theorem getDataAvailable_filled
    (hValid : b.Valid)
    (hFits : bytes.length ≤ b.getFreeSpace) :
    (b.filled bytes).getDataAvailable =
      b.getDataAvailable + bytes.length := by
  have hLe := hValid.freeSpace_le
  simp only [getDataAvailable, filled, markSpaceUsed,
    withStore, getFreeSpace] at hFits ⊢
  omega

@[simp] theorem size_filled
    (b : RingBuffer)
    (bytes : List UInt8) :
    (b.filled bytes).size = b.size := rfl

theorem valid_filled
    (hValid : b.Valid)
    (hFits : bytes.length ≤ b.getFreeSpace) :
    (b.filled bytes).Valid where
  readp_lt := hValid.readp_lt
  freeSpace_le := by
    have hLe := hValid.freeSpace_le
    exact Nat.le_trans (Nat.sub_le _ _) hLe
  writep_eq := by
    rw [getDataAvailable_filled hValid hFits]
    simp only [filled, markSpaceUsed, withStore,
      hValid.writep_eq, Nat.mod_add_mod, Nat.add_assoc]

/- Filling appends to the contents. -/
theorem contents_filled
    (hValid : b.Valid)
    (hFits : bytes.length ≤ b.getFreeSpace) :
    (b.filled bytes).contents = b.contents ++ bytes := by
  have hAll := hValid.available_add_free
  have hCells := addresses_getSpaceBuffers hValid
  rw [hValid.interval_writep] at hCells
  have hNodup :
      (Circular.interval b.size b.readp
        (b.getDataAvailable + b.getFreeSpace)).Nodup :=
    Circular.nodup_interval (by omega)
  rw [Circular.interval_add] at hNodup
  rcases List.nodup_append.mp hNodup with
    ⟨-, hFree, hApart⟩
  -- the data is not among the cells that are filled
  have hData :
      (Circular.interval b.size b.readp
          b.getDataAvailable).map
            (Memory.fill b.store
              (addresses b.getSpaceBuffers) bytes) =
        b.contents := by
    apply List.map_congr_left
    intro cell hCell
    apply Memory.fill_of_notMem
    rw [hCells]
    intro hMem
    exact hApart cell hCell cell hMem rfl
  -- the filled cells read back the bytes
  have hNew :
      (Circular.interval b.size
          (b.readp + b.getDataAvailable) bytes.length).map
            (Memory.fill b.store
              (addresses b.getSpaceBuffers) bytes) =
        bytes := by
    have hMap := Memory.map_fill b.store hFree bytes
      (by rw [Circular.length_interval]; exact hFits)
    rw [hCells, ← Circular.take_interval _ _ hFits,
      List.map_take, hMap]
    exact List.take_left' rfl
  rw [contents, getDataAvailable_filled hValid hFits,
    size_filled]
  change
    (Circular.interval b.size b.readp
      (b.getDataAvailable + bytes.length)).map
        (Memory.fill b.store
          (addresses b.getSpaceBuffers) bytes) = _
  rw [Circular.interval_add, List.map_append, hData, hNew]

theorem valid_markDataUsed
    (hValid : b.Valid)
    {amount : Nat}
    (hLe : amount ≤ b.getDataAvailable) :
    (b.markDataUsed amount).Valid where
  readp_lt :=
    Nat.mod_lt _ (Nat.zero_lt_of_lt hValid.readp_lt)
  freeSpace_le := by
    have hAll := hValid.available_add_free
    simp only [markDataUsed, getFreeSpace] at hAll ⊢
    omega
  writep_eq := by
    have hSub :
        amount + (b.markDataUsed amount).getDataAvailable =
          b.getDataAvailable := by
      have hAll := hValid.available_add_free
      simp only [markDataUsed, getDataAvailable,
        getFreeSpace] at hAll hLe ⊢
      omega
    change b.writep =
      ((b.readp + amount) % b.size +
        (b.markDataUsed amount).getDataAvailable) % b.size
    rw [Nat.mod_add_mod, Nat.add_assoc, hSub,
      hValid.writep_eq]

/- Using data drops it from the contents. -/
theorem contents_markDataUsed
    {amount : Nat}
    (hLe : amount ≤ b.getDataAvailable) :
    (b.markDataUsed amount).contents =
      b.contents.drop amount := by
  have hSub :
      (b.markDataUsed amount).getDataAvailable =
        b.getDataAvailable - amount := by
    simp only [markDataUsed, getDataAvailable]
    omega
  rw [contents, hSub, contents, ← List.map_drop,
    Circular.drop_interval _ _ hLe]
  simp only [markDataUsed, Circular.interval_mod]

end Filling

end RingBuffer

end OefCore
