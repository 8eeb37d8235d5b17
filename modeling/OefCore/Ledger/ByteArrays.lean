import Mathlib.Algebra.Order.Ring.Nat
import OefCore.Library.SharedArrays

/-
  The byte arrays of the ledger.  Copies and parts of an array
  share its memory; an array that grows gets memory of its own
  if there is not enough of it.

  Main declarations:
    * `ConstByteArray`, `ByteStore`
    * `ConstByteArray.resize`, `ConstByteArray.subArray`
    * `ByteStore.append`, `ByteStore.plus`
    * `ConstCall`, `ByteStore.run`
-/

namespace OefCore

open SharedArrays (Heap cells)

/- The array that it shares, and its part of it. -/
abbrev ConstByteArray := SharedArrays.View

------------------------------------------------------------
-- Arrays
------------------------------------------------------------

inductive ResizeParadigm where
  | relative
  | absolute
deriving DecidableEq, Repr

namespace ConstByteArray

/- Every array has memory of its own at first. -/
def construct
    (heap : Heap UInt8) : Heap UInt8 × ConstByteArray :=
  (heap ++ [[]], ⟨heap.length, 0, 0⟩)

def capacity
    (heap : Heap UInt8)
    (arr : ConstByteArray) : Nat :=
  (cells heap arr.array).length

/- More memory is filled with zeros. -/
def reserve
    (heap : Heap UInt8)
    (arr : ConstByteArray)
    (n : Nat)
    (paradigm : ResizeParadigm) :
    Heap UInt8 × ConstByteArray :=
  let newCapacityForReserve :=
    match paradigm with
    | .relative => capacity heap arr + n
    | .absolute => n
  if newCapacityForReserve ≤ capacity heap arr then
    (heap, arr)
  else
    (heap ++
      [cells heap arr.array ++
        List.replicate
          (newCapacityForReserve - capacity heap arr) 0],
      { arr with array := heap.length })

def resize
    (heap : Heap UInt8)
    (arr : ConstByteArray)
    (n : Nat)
    (paradigm : ResizeParadigm) :
    Heap UInt8 × ConstByteArray :=
  let newLength :=
    match paradigm with
    | .relative => arr.length + n
    | .absolute => n
  let reserved :=
    reserve heap arr (arr.start + newLength) .absolute
  (reserved.1, { reserved.2 with length := newLength })

/- The assertion keeps what is written within the array. -/
def writeBytes
    (heap : Heap UInt8)
    (arr : ConstByteArray)
    (src : List UInt8)
    (destOffset : Nat) : Option (Heap UInt8) :=
  if destOffset + src.length ≤ arr.length then
    SharedArrays.write heap arr.array (arr.start + destOffset)
      src
  else
    none

def fromBytes
    (heap : Heap UInt8)
    (data : List UInt8) :
    Option (Heap UInt8 × ConstByteArray) :=
  let made := construct heap
  if data.length > 0 then do
    let reserved :=
      reserve made.1 made.2 data.length .absolute
    let resized :=
      resize reserved.1 reserved.2 data.length .absolute
    let heap ← writeBytes resized.1 resized.2 data 0
    some (heap, resized.2)
  else
    some made

/- A copy has memory of its own. -/
def copy
    (heap : Heap UInt8)
    (arr : ConstByteArray) :
    Option (Heap UInt8 × ConstByteArray) :=
  if arr.length ≠ 0 ∧
      capacity heap arr < arr.start + arr.length then
    none
  else
    fromBytes heap (SharedArrays.read heap arr)

/- The part of another array, which has to reach so far. -/
def part
    (heap : Heap UInt8)
    (other : ConstByteArray)
    (start length : Nat) : Option ConstByteArray :=
  if (start + length) % 2 ^ 64 ≤ capacity heap other then
    some ⟨other.array, start, length⟩
  else
    none

/- All sums and differences are taken in 64 bits. -/
def subArray
    (heap : Heap UInt8)
    (arr : ConstByteArray)
    (start length : Nat) : Option ConstByteArray :=
  let length :=
    min length ((arr.length + 2 ^ 64 - start) % 2 ^ 64)
  if (start + length) % 2 ^ 64 ≤
      (arr.start + arr.length) % 2 ^ 64 then
    part heap arr ((start + arr.start) % 2 ^ 64) length
  else
    none

end ConstByteArray

------------------------------------------------------------
-- Objects
------------------------------------------------------------

/- The memory, and the arrays that the program has. -/
structure ByteStore where
  memory : Heap UInt8
  objects : List ConstByteArray

/- What is appended: an array of the program, or a byte. -/
inductive Appended where
  | array (object : Nat)
  | byte (value : UInt8)
deriving DecidableEq, Repr

namespace ByteStore

def init : ByteStore where
  memory := []
  objects := []

def sizeOf
    (store : ByteStore) : Appended → Option Nat
  | .array object => (store.objects[object]?).map (·.length)
  | .byte _ => some 1

/- The copying is done from the object as it is by then. -/
def copyAppended
    (store : ByteStore)
    (arr : ConstByteArray)
    (accSize : Nat) : Appended → Option ByteStore
  | .array object => do
      let other ← store.objects[object]?
      let memory ←
        SharedArrays.copy store.memory arr.array
          (arr.start + accSize) other
      some { store with memory := memory }
  | .byte value => do
      let memory ←
        SharedArrays.write store.memory arr.array
          (arr.start + accSize) [value]
      some { store with memory := memory }

/- The sizes are summed up on the way in, and what is appended
   is copied on the way out. -/
def appendInternal
    (store : ByteStore)
    (object accSize : Nat) :
    List Appended → Option ByteStore
  | [] => do
      let arr ← store.objects[object]?
      let resized :=
        ConstByteArray.resize store.memory arr accSize .absolute
      some
        { memory := resized.1,
          objects := store.objects.set object resized.2 }
  | other :: others => do
      let size ← store.sizeOf other
      let grown ←
        store.appendInternal object (accSize + size) others
      let arr ← grown.objects[object]?
      grown.copyAppended arr accSize other

def append
    (store : ByteStore)
    (object : Nat)
    (others : List Appended) : Option ByteStore := do
  let arr ← store.objects[object]?
  store.appendInternal object arr.length others

/- Both are appended to an array that is made for it. -/
def plus
    (store : ByteStore)
    (object other : Nat) : Option ByteStore :=
  let made := ConstByteArray.construct store.memory
  let ret : ByteStore :=
    { memory := made.1, objects := store.objects ++ [made.2] }
  ret.append store.objects.length [.array object, .array other]

end ByteStore

------------------------------------------------------------
-- Constant Arrays
------------------------------------------------------------

/- What can be done with arrays that are constant: they are
   made from bytes, copied with or without their memory,
   assigned, cut and added. -/
inductive ConstCall where
  | literal (data : List UInt8)
  | copyConstruct (other : Nat)
  | assign (object other : Nat)
  | copy (object : Nat)
  | subArray (object start length : Nat)
  | plus (object other : Nat)
deriving DecidableEq, Repr

namespace ByteStore

def push
    (store : ByteStore)
    (arr : ConstByteArray) : ByteStore :=
  { store with objects := store.objects ++ [arr] }

def step
    (store : ByteStore) : ConstCall → Option ByteStore
  | .literal data => do
      let made ← ConstByteArray.fromBytes store.memory data
      some
        { memory := made.1,
          objects := store.objects ++ [made.2] }
  | .copyConstruct other => do
      let arr ← store.objects[other]?
      some (store.push arr)
  | .assign object other => do
      let arr ← store.objects[other]?
      if object < store.objects.length then
        some
          { store with objects := store.objects.set object arr }
      else
        none
  | .copy object => do
      let arr ← store.objects[object]?
      let made ← ConstByteArray.copy store.memory arr
      some
        { memory := made.1,
          objects := store.objects ++ [made.2] }
  | .subArray object start length => do
      let arr ← store.objects[object]?
      let sub ← arr.subArray store.memory start length
      some (store.push sub)
  | .plus object other => store.plus object other

def run : ByteStore → List ConstCall → Option ByteStore
  | store, [] => some store
  | store, call :: calls => do
      let next ← store.step call
      next.run calls

/- What the arrays read as. -/
def values (store : ByteStore) : List (List UInt8) :=
  store.objects.map (SharedArrays.read store.memory)

end ByteStore

end OefCore
