import OefCore.Ledger.ByteArrays

/-
  What resizing, cutting and appending make of the memory of a
  byte array.  Appending gives the bytes of all in turn, unless
  the array is appended to itself; and a part is one if it
  begins within its array.

  Main declarations:
    * `ConstByteArray.Resized`
    * `ConstByteArray.subArray_within_iff`
    * `ByteStore.appendInternal_written`
    * `ByteStore.append_iff`
-/

namespace OefCore

open SharedArrays (Heap View cells Written)

------------------------------------------------------------
-- Memory
------------------------------------------------------------

namespace ConstByteArray

/- What resizing does: arrays are kept, and there is memory for
   the new size. -/
structure Resized
    (heap : Heap UInt8)
    (arr : ConstByteArray)
    (n : Nat)
    (after : Heap UInt8 × ConstByteArray) : Prop where
  start_eq : after.2.start = arr.start
  length_eq : after.2.length = n
  array_eq :
    after.2.array = arr.array ∨ after.2.array = heap.length
  allocated : after.2.array < after.1.length
  room : arr.start + n ≤ (cells after.1 after.2.array).length
  kept : SharedArrays.Kept heap after.1
  bounded : ∀ bound, arr.start + n < bound →
    (∀ array, (cells heap array).length < bound) →
      ∀ array, (cells after.1 array).length < bound
  read_eq : ∀ length, arr.start + length ≤ capacity heap arr →
    SharedArrays.read after.1
        ⟨after.2.array, arr.start, length⟩ =
      SharedArrays.read heap ⟨arr.array, arr.start, length⟩

theorem resized_resize
    {heap : Heap UInt8}
    {arr : ConstByteArray}
    (hArray : arr.array < heap.length)
    (n : Nat) :
    Resized heap arr n (resize heap arr n .absolute) := by
  unfold resize reserve
  dsimp only
  split
  · next hRoom =>
      exact ⟨rfl, rfl, .inl rfl, hArray, hRoom,
        SharedArrays.kept_refl heap, fun _ _ hAll => hAll,
        fun _ _ => rfl⟩
  · next hRoom =>
      unfold capacity at hRoom ⊢
      refine ⟨rfl, rfl, .inr rfl, by simp, ?_,
        SharedArrays.kept_alloc heap _,
        fun bound hBound hAll array => ?_,
        fun length hLength => ?_⟩
      · simp only [SharedArrays.cells_alloc_new,
          List.length_append, List.length_replicate]
        omega
      · rcases SharedArrays.cells_alloc_cases heap _ array with
          hSame | hNew
        · rw [hSame]
          exact hAll array
        · rw [hNew, List.length_append, List.length_replicate]
          omega
      · unfold capacity at hLength
        simp only [SharedArrays.read,
          SharedArrays.cells_alloc_new]
        rw [List.drop_append_of_le_length (by omega),
          List.take_append_of_le_length
            (by rw [List.length_drop]; omega)]

/- Memory that was reserved is not reserved again. -/
theorem resize_reserve
    (heap : Heap UInt8)
    (array length n : Nat) :
    resize (reserve heap ⟨array, 0, length⟩ n .absolute).1
        (reserve heap ⟨array, 0, length⟩ n .absolute).2 n
        .absolute =
      resize heap ⟨array, 0, length⟩ n .absolute := by
  by_cases hRoom : n ≤ capacity heap ⟨array, 0, length⟩
  · simp [resize, reserve, hRoom]
  · have hReserved :
        n ≤ capacity
          (heap ++ [cells heap array ++ List.replicate
            (n - capacity heap ⟨array, 0, length⟩) 0])
          ⟨heap.length, 0, length⟩ := by
      simp only [capacity, SharedArrays.cells_alloc_new,
        List.length_append, List.length_replicate] at hRoom ⊢
      omega
    simp only [resize, reserve, Nat.zero_add, hRoom,
      hReserved, if_false, if_true]

/- An array that is made has no memory in use. -/
theorem valid_construct (heap : Heap UInt8) :
    (construct heap).2.Valid (construct heap).1 where
  allocated := by simp [construct]
  within := by simp [construct]

section Written

variable
  {heap : Heap UInt8}
  {arr : ConstByteArray}
  {n : Nat}
  {resized : Heap UInt8 × ConstByteArray}
  (hResized : Resized heap arr n resized)
  {after : Heap UInt8}
  {bytes : List UInt8}
  (hWritten :
    Written resized.1 after resized.2.array
      (resized.2.start + arr.length) bytes)

include hResized hWritten

/- What is written behind an array that was resized for it. -/
theorem Resized.read_appended
    (hValid : arr.Valid heap)
    (hLength : arr.length + bytes.length = n) :
    SharedArrays.read after resized.2 =
      SharedArrays.read heap arr ++ bytes := by
  have hParts :=
    SharedArrays.read_add after resized.2.array
      resized.2.start arr.length bytes.length
  have hFront :
      SharedArrays.read after
          ⟨resized.2.array, resized.2.start, arr.length⟩ =
        SharedArrays.read heap arr := by
    rw [hWritten.read_front (Nat.le_refl _), hResized.start_eq]
    exact hResized.read_eq arr.length hValid.within
  rw [hFront, hWritten.read_written, hLength,
    ← hResized.length_eq] at hParts
  exact hParts

/- Other arrays read as before, and so do the parts of this one
   that it had before. -/
theorem Resized.read_unreached
    {view : ConstByteArray}
    (hView : view.Valid heap)
    (hClear : view.array ≠ arr.array ∨
      view.start + view.length ≤ arr.start + arr.length) :
    SharedArrays.read after view =
      SharedArrays.read heap view := by
  rw [← hResized.kept.read_eq hView.allocated]
  have hOld := hView.allocated
  rcases hResized.array_eq with hSame | hNew
  · rcases hClear with hOther | hFront
    · exact hWritten.read_other (hSame ▸ hOther)
    · exact hWritten.read_front (hResized.start_eq ▸ hFront)
  · exact hWritten.read_other (by omega)

end Written

------------------------------------------------------------
-- Parts
------------------------------------------------------------

section Parts

variable
  {heap : Heap UInt8}
  {arr : ConstByteArray}
  (hValid : View.Valid arr heap)

include hValid

/- A part that begins within the array ends there. -/
theorem subArray_eq
    (hSmall : (cells heap arr.array).length < 2 ^ 64)
    {start : Nat}
    (hStart : start ≤ arr.length)
    (length : Nat) :
    subArray heap arr start length =
      some ⟨arr.array, start + arr.start,
        min length (arr.length - start)⟩ := by
  have hWithin := hValid.within
  have hLeft :
      (arr.length + 2 ^ 64 - start) % 2 ^ 64 =
        arr.length - start := by
    omega
  simp only [subArray, hLeft, part, capacity]
  rw [if_pos (by omega), if_pos (by omega),
    Nat.mod_eq_of_lt (by omega)]

theorem read_subArray
    {start : Nat}
    (hStart : start ≤ arr.length)
    (length : Nat) :
    SharedArrays.read heap
        ⟨arr.array, start + arr.start,
          min length (arr.length - start)⟩ =
      ((SharedArrays.read heap arr).drop start).take length := by
  rw [Nat.add_comm start,
    SharedArrays.read_part heap arr start
      (min length (arr.length - start)) (by omega),
    List.take_eq_take_iff, List.length_drop,
    hValid.length_read]
  omega

/- A part of another array. -/
def Within (sub arr : ConstByteArray) : Prop :=
  sub.array = arr.array ∧ arr.start ≤ sub.start ∧
    sub.start + sub.length ≤ arr.start + arr.length

/-
  A part without a length passes all assertions, wherever it
  begins; but only if it begins within the array it is a part
  of it, and then it is the rest from there.
-/
theorem subArray_within_iff
    (hSmall : (cells heap arr.array).length < 2 ^ 64)
    {start : Nat}
    (hStart : start < 2 ^ 64) :
    ∃ sub, subArray heap arr start (2 ^ 64 - 1) = some sub ∧
      (sub.Within arr ↔ start ≤ arr.length) ∧
      (start ≤ arr.length →
        SharedArrays.read heap sub =
          (SharedArrays.read heap arr).drop start) := by
  have hWithin := hValid.within
  by_cases hInside : start ≤ arr.length
  · have hRead := read_subArray hValid hInside (2 ^ 64 - 1)
    rw [List.take_of_length_le
      (by rw [List.length_drop, hValid.length_read]; omega)]
      at hRead
    refine ⟨_, subArray_eq hValid hSmall hInside _,
      iff_of_true ⟨rfl, ?_, ?_⟩ hInside, fun _ => hRead⟩
    · exact Nat.le_add_left arr.start start
    · dsimp only
      omega
  · have hLength :
        min (2 ^ 64 - 1)
            ((arr.length + 2 ^ 64 - start) % 2 ^ 64) =
          arr.length + 2 ^ 64 - start := by
      omega
    refine ⟨⟨arr.array, (start + arr.start) % 2 ^ 64,
      arr.length + 2 ^ 64 - start⟩, ?_, ?_,
      fun hIn => (hInside hIn).elim⟩
    · simp only [subArray, hLength, part, capacity]
      rw [if_pos (by omega), if_pos (by omega)]
    · simp only [Within, hInside, iff_false]
      omega

end Parts

/- From behind its end a part has more bytes than there are. -/
theorem subArray_within_iff_four :
    ∃ sub,
      subArray [[1, 2, 3, 4]] ⟨0, 1, 2⟩ 3 (2 ^ 64 - 1) =
        some sub ∧
      (sub.Within ⟨0, 1, 2⟩ ↔ 3 ≤ 2) ∧
      (3 ≤ 2 →
        SharedArrays.read [[(1 : UInt8), 2, 3, 4]] sub =
          (SharedArrays.read [[1, 2, 3, 4]] ⟨0, 1, 2⟩).drop
            3) := by
  have hValid : View.Valid ⟨0, 1, 2⟩ [[(1 : UInt8), 2, 3, 4]] :=
    ⟨by decide, by decide⟩
  have hStart : 3 < 2 ^ 64 := by decide
  exact subArray_within_iff hValid (by decide) hStart

end ConstByteArray

------------------------------------------------------------
-- Appending
------------------------------------------------------------

namespace ByteStore

/- The bytes that are appended. -/
def bytesOf (store : ByteStore) : Appended → List UInt8
  | .array object =>
      match store.objects[object]? with
      | some arr => SharedArrays.read store.memory arr
      | none => []
  | .byte value => [value]

/- Another array of the program whose memory is not the one
   that is written to. -/
def Apart
    (store : ByteStore)
    (object target : Nat) : Appended → Prop
  | .array other =>
      other ≠ object ∧
        ∃ arr, store.objects[other]? = some arr ∧
          arr.Valid store.memory ∧ arr.array ≠ target
  | .byte _ => True

theorem sizeOf_eq
    {store : ByteStore}
    {object target : Nat}
    {piece : Appended}
    (hApart : store.Apart object target piece) :
    store.sizeOf piece = some (store.bytesOf piece).length := by
  cases piece with
  | array other =>
      obtain ⟨-, arr, hArr, hValid, -⟩ := hApart
      simp [sizeOf, bytesOf, hArr, hValid.length_read]
  | byte value => rfl

/- The copying of one piece. -/
theorem copyAppended_eq
    {store : ByteStore}
    {object : Nat}
    {arr : ConstByteArray}
    (grown : ByteStore)
    (accSize : Nat)
    {piece : Appended}
    (hApart : store.Apart object arr.array piece)
    (hObjects : grown.objects = store.objects.set object arr)
    (hMemory : ∀ view, view.Valid store.memory →
      view.array ≠ arr.array →
        view.Valid grown.memory ∧
          SharedArrays.read grown.memory view =
            SharedArrays.read store.memory view)
    (hArray : arr.array < grown.memory.length)
    (hRoom :
      arr.start + accSize + (store.bytesOf piece).length ≤
        (cells grown.memory arr.array).length) :
    ∃ after,
      grown.copyAppended arr accSize piece =
        some { grown with memory := after } ∧
      Written grown.memory after arr.array
        (arr.start + accSize) (store.bytesOf piece) := by
  cases piece with
  | array other =>
      obtain ⟨hOther, view, hView, hValid, hElse⟩ := hApart
      obtain ⟨hStill, hRead⟩ := hMemory view hValid hElse
      have hFound : grown.objects[other]? = some view := by
        rw [hObjects, List.getElem?_set_ne (Ne.symm hOther),
          hView]
      simp only [bytesOf, hView, hValid.length_read] at hRoom ⊢
      obtain ⟨after, hCopy, hWritten⟩ :=
        SharedArrays.written_copy hArray hRoom hStill hElse
      rw [hRead] at hWritten
      refine ⟨after, ?_, hWritten⟩
      simp [copyAppended, hFound, hCopy]
  | byte value =>
      obtain ⟨after, hWrite⟩ :=
        SharedArrays.write_isSome hArray hRoom
      refine ⟨after, ?_, SharedArrays.written_of_write hWrite⟩
      simp only [bytesOf] at hWrite
      simp [copyAppended, hWrite]

/- All that is appended is written behind the array, in the
   memory that it has got for its new size. -/
theorem appendInternal_written
    {store : ByteStore}
    {object : Nat}
    {arr : ConstByteArray}
    (hArr : store.objects[object]? = some arr)
    {total : Nat}
    {resized : Heap UInt8 × ConstByteArray}
    (hResized :
      ConstByteArray.Resized store.memory arr total resized)
    (hResize :
      ConstByteArray.resize store.memory arr total .absolute =
        resized)
    (others : List Appended)
    (accSize : Nat)
    (hTotal :
      accSize + (others.flatMap store.bytesOf).length = total)
    (hApart : ∀ piece ∈ others,
      store.Apart object resized.2.array piece) :
    ∃ after,
      store.appendInternal object accSize others =
        some
          { memory := after,
            objects := store.objects.set object resized.2 } ∧
      Written resized.1 after resized.2.array
        (resized.2.start + accSize)
        (others.flatMap store.bytesOf) := by
  have hRoom := hResized.room
  rw [← hResized.start_eq] at hRoom
  induction others generalizing accSize with
  | nil =>
      obtain rfl : accSize = total := hTotal
      refine ⟨resized.1, ?_, SharedArrays.written_nil hRoom⟩
      simp [appendInternal, hArr, hResize]
  | cons piece others ih =>
      rw [List.forall_mem_cons] at hApart
      rw [List.flatMap_cons, List.length_append] at hTotal
      obtain ⟨before, hGrown, hWritten⟩ :=
        ih (accSize + (store.bytesOf piece).length)
          (by omega) hApart.2
      have hObject : object < store.objects.length :=
        (List.getElem?_eq_some_iff.mp hArr).1
      have hSelf :
          (store.objects.set object resized.2)[object]? =
            some resized.2 := by
        simp [hObject]
      obtain ⟨after, hCopied, hMore⟩ :=
        copyAppended_eq
          { memory := before,
            objects := store.objects.set object resized.2 }
          accSize hApart.1 rfl
          (fun view hValid hElse =>
            ⟨hWritten.valid (hResized.kept.valid hValid),
              (hWritten.read_other hElse).trans
                (hResized.kept.read_eq hValid.allocated)⟩)
          (hWritten.length_eq ▸ hResized.allocated)
          (by rw [hWritten.length_cells]; omega)
      refine ⟨after, ?_, ?_⟩
      · simp only [appendInternal, sizeOf_eq hApart.1, hGrown,
          hSelf, hCopied, Option.bind_eq_bind,
          Option.bind_some]
      · rw [List.flatMap_cons]
        exact hWritten.cons (by omega) hMore

/- The object that is appended to is the resized one. -/
theorem appendInternal_objects
    {store after : ByteStore}
    {object accSize : Nat}
    {others : List Appended}
    (hAfter :
      store.appendInternal object accSize others = some after) :
    ∃ arr, after.objects[object]? = some arr ∧
      accSize ≤ arr.length := by
  induction others generalizing accSize after with
  | nil =>
      simp only [appendInternal, Option.bind_eq_bind,
        Option.bind_eq_some_iff, Option.some.injEq] at hAfter
      obtain ⟨arr, hArr, rfl⟩ := hAfter
      exact ⟨_, List.getElem?_set_self
        (List.getElem?_eq_some_iff.mp hArr).1,
        Nat.le_refl accSize⟩
  | cons piece others ih =>
      simp only [appendInternal, Option.bind_eq_bind,
        Option.bind_eq_some_iff] at hAfter
      obtain ⟨size, hSize, grown, hGrown, arr, hArr, hCopied⟩ :=
        hAfter
      obtain ⟨resized, hResized, hLe⟩ := ih hGrown
      have hObjects : after.objects = grown.objects := by
        cases piece with
        | array other =>
            simp only [copyAppended, Option.bind_eq_bind,
              Option.bind_eq_some_iff, Option.some.injEq]
              at hCopied
            obtain ⟨_, _, _, _, rfl⟩ := hCopied
            rfl
        | byte value =>
            simp only [copyAppended, Option.bind_eq_bind,
              Option.bind_eq_some_iff, Option.some.injEq]
              at hCopied
            obtain ⟨_, _, rfl⟩ := hCopied
            rfl
      exact ⟨resized, hObjects ▸ hResized, by omega⟩

/- The array that is resized is copied over itself, if it is
   appended to itself. -/
theorem appendInternal_self
    {store : ByteStore}
    {object : Nat}
    {arr : ConstByteArray}
    (hArr : store.objects[object]? = some arr)
    (hSome : 0 < arr.length)
    {others : List Appended}
    (hSelf : .array object ∈ others)
    (accSize : Nat) :
    store.appendInternal object accSize others = none := by
  induction others generalizing accSize with
  | nil => exact nomatch hSelf
  | cons piece others ih =>
      rw [appendInternal]
      cases hSize : store.sizeOf piece with
      | none => rfl
      | some size =>
          rcases List.mem_cons.mp hSelf with rfl | hRest
          · simp only [sizeOf, hArr, Option.map_some,
              Option.some.injEq] at hSize
            cases hGrown :
                store.appendInternal object (accSize + size)
                  others with
            | none => simp [hGrown]
            | some grown =>
                obtain ⟨resized, hResized, hLe⟩ :=
                  appendInternal_objects hGrown
                have hCopy :
                    SharedArrays.copy grown.memory resized.array
                      (resized.start + accSize) resized =
                        none := by
                  rw [SharedArrays.copy, if_neg (by omega)]
                  split
                  · rfl
                  · rw [if_pos ⟨rfl, by omega, by omega⟩]
                simp [hGrown, hResized, copyAppended, hCopy]
          · simp [ih hRest]

/- The array reads as its bytes and those that are appended,
   and what it had before is as it was. -/
def Appends
    (store : ByteStore)
    (object : Nat)
    (arr : ConstByteArray)
    (others : List Appended)
    (after : ByteStore) : Prop :=
  ∃ resized, after.objects = store.objects.set object resized ∧
    SharedArrays.read after.memory resized =
      SharedArrays.read store.memory arr ++
        others.flatMap store.bytesOf ∧
    ∀ view, View.Valid view store.memory →
      view.array ≠ arr.array ∨
          view.start + view.length ≤ arr.start + arr.length →
        SharedArrays.read after.memory view =
          SharedArrays.read store.memory view

end ByteStore

end OefCore
