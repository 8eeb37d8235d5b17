import OefCore.Ledger.ByteArrayMemory

/-
  Constant byte arrays are worth their bytes: however they
  share their memory, each reads as if it had its own.

  Main declarations:
    * `ConstCall.value`, `valuesOf`
    * `ByteStore.Holds`
    * `ByteStore.values_run`
-/

namespace OefCore

open SharedArrays (Heap View cells Written)

------------------------------------------------------------
-- Values
------------------------------------------------------------

/- What calls are worth if arrays are nothing but bytes.  A
   part must begin within the array, and no array can have as
   many bytes as there are addresses. -/
def ConstCall.value
    (values : List (List UInt8)) :
    ConstCall → Option (List (List UInt8))
  | .literal data =>
      if data.length < 2 ^ 64 then some (values ++ [data])
      else none
  | .copyConstruct other => do
      let bytes ← values[other]?
      some (values ++ [bytes])
  | .assign object other => do
      let bytes ← values[other]?
      if object < values.length then
        some (values.set object bytes)
      else
        none
  | .copy object => do
      let bytes ← values[object]?
      some (values ++ [bytes])
  | .subArray object start length => do
      let bytes ← values[object]?
      if start ≤ bytes.length then
        some (values ++ [(bytes.drop start).take length])
      else
        none
  | .plus object other => do
      let left ← values[object]?
      let right ← values[other]?
      if (left ++ right).length < 2 ^ 64 then
        some (values ++ [left ++ right])
      else
        none

def valuesOf :
    List (List UInt8) → List ConstCall →
      Option (List (List UInt8))
  | values, [] => some values
  | values, call :: calls => do
      let next ← call.value values
      valuesOf next calls

namespace ByteStore

/- All arrays are within their memory and read as the values. -/
structure Holds
    (store : ByteStore)
    (values : List (List UInt8)) : Prop where
  valid : ∀ arr ∈ store.objects, arr.Valid store.memory
  small : ∀ array, (cells store.memory array).length < 2 ^ 64
  values_eq : store.values = values

theorem holds_init : init.Holds [] where
  valid := by simp [init]
  small := by simp [init, cells]
  values_eq := rfl

section Holds

variable
  {store : ByteStore}
  {values : List (List UInt8)}

theorem Holds.object
    (hHolds : store.Holds values)
    {object : Nat}
    {bytes : List UInt8}
    (hBytes : values[object]? = some bytes) :
    ∃ arr, store.objects[object]? = some arr ∧
      arr.Valid store.memory ∧
      SharedArrays.read store.memory arr = bytes := by
  rw [← hHolds.values_eq, ByteStore.values, List.getElem?_map]
    at hBytes
  obtain ⟨arr, hArr, hRead⟩ := Option.map_eq_some_iff.mp hBytes
  exact ⟨arr, hArr,
    hHolds.valid arr (List.mem_of_getElem? hArr), hRead⟩

/- One more array, in memory that has what there was. -/
theorem Holds.push
    (hHolds : store.Holds values)
    {memory : Heap UInt8}
    (hKept : SharedArrays.Kept store.memory memory)
    (hSmall : ∀ array, (cells memory array).length < 2 ^ 64)
    {arr : ConstByteArray}
    (hValid : arr.Valid memory) :
    Holds
      { memory := memory, objects := store.objects ++ [arr] }
      (values ++ [SharedArrays.read memory arr]) where
  valid := by
    rw [List.forall_mem_append]
    refine ⟨fun old hOld =>
      hKept.valid (hHolds.valid old hOld), by simpa using hValid⟩
  small := hSmall
  values_eq := by
    have hOld :
        store.objects.map (SharedArrays.read memory) =
          store.values :=
      List.map_congr_left fun old hMem =>
        hKept.read_eq (hHolds.valid old hMem).allocated
    rw [ByteStore.values, List.map_append, hOld,
      hHolds.values_eq]
    rfl

theorem Holds.small_construct
    (hHolds : store.Holds values)
    (array : Nat) :
    (cells (ConstByteArray.construct store.memory).1
      array).length < 2 ^ 64 := by
  rcases SharedArrays.cells_alloc_cases store.memory [] array
    with hSame | hNew
  · exact hSame ▸ hHolds.small array
  · rw [ConstByteArray.construct, hNew]
    decide

theorem fromBytes_eq
    (hHolds : store.Holds values)
    {data : List UInt8}
    (hLength : data.length < 2 ^ 64) :
    ∃ memory arr,
      ConstByteArray.fromBytes store.memory data =
        some (memory, arr) ∧
      SharedArrays.Kept store.memory memory ∧
      (∀ array, (cells memory array).length < 2 ^ 64) ∧
      arr.Valid memory ∧
      SharedArrays.read memory arr = data := by
  have hMade := ConstByteArray.valid_construct store.memory
  have hNew : SharedArrays.Kept store.memory
      (ConstByteArray.construct store.memory).1 :=
    SharedArrays.kept_alloc store.memory [[]]
  by_cases hSome : data.length > 0
  · have hResized :=
      ConstByteArray.resized_resize hMade.allocated data.length
    have hStart := hResized.start_eq
    have hRoom := hResized.room
    have hArray := hResized.array_eq
    have hBehind := hNew.length_le
    have hOnce :
        ConstByteArray.resize
          (ConstByteArray.reserve
            (ConstByteArray.construct store.memory).1
            (ConstByteArray.construct store.memory).2
            data.length .absolute).1
          (ConstByteArray.reserve
            (ConstByteArray.construct store.memory).1
            (ConstByteArray.construct store.memory).2
            data.length .absolute).2
          data.length .absolute =
        ConstByteArray.resize
          (ConstByteArray.construct store.memory).1
          (ConstByteArray.construct store.memory).2
          data.length .absolute :=
      ConstByteArray.resize_reserve _ _ 0 _
    generalize
      ConstByteArray.resize
        (ConstByteArray.construct store.memory).1
        (ConstByteArray.construct store.memory).2 data.length
        .absolute = resized at *
    change resized.2.start = 0 at hStart
    change 0 + data.length ≤ _ at hRoom
    change resized.2.array = store.memory.length ∨ _ at hArray
    have hView : resized.2 =
        ⟨resized.2.array, 0, data.length⟩ := by
      rw [← hStart, ← hResized.length_eq]
    obtain ⟨memory, hWrite⟩ :=
      SharedArrays.write_isSome hResized.allocated hRoom
    have hWritten := SharedArrays.written_of_write hWrite
    have hValid : resized.2.Valid resized.1 := by
      refine ⟨hResized.allocated, ?_⟩
      rw [hStart, hResized.length_eq]
      exact hRoom
    refine ⟨memory, resized.2, ?_,
      hWritten.kept (hNew.trans hResized.kept) (by omega),
      fun array => ?_, hWritten.valid hValid, ?_⟩
    · have hBytes :
          ConstByteArray.writeBytes resized.1 resized.2 data 0 =
            some memory := by
        rw [ConstByteArray.writeBytes, hResized.length_eq,
          if_pos (by omega), hStart, hWrite]
      simp only [ConstByteArray.fromBytes, if_pos hSome, hOnce,
        hBytes, Option.bind_eq_bind, Option.bind_some]
    · rw [hWritten.length_cells]
      exact hResized.bounded (2 ^ 64)
        (by simpa [ConstByteArray.construct] using hLength)
        hHolds.small_construct array
    · rw [hView]
      exact hWritten.read_written
  · have hNil : data = [] :=
      List.eq_nil_of_length_eq_zero (by omega)
    refine ⟨_, _, ?_, hNew, hHolds.small_construct, hMade, ?_⟩
    · rw [ConstByteArray.fromBytes, if_neg hSome]
    · rw [hNil]
      rfl

/- A part that begins within the array is one. -/
theorem Holds.subArray_eq
    (hHolds : store.Holds values)
    {arr : ConstByteArray}
    (hValid : arr.Valid store.memory)
    {start : Nat}
    (hStart : start ≤ arr.length)
    (length : Nat) :
    ∃ sub,
      ConstByteArray.subArray store.memory arr start length =
        some sub ∧
      View.Valid sub store.memory ∧
      SharedArrays.read store.memory sub =
        ((SharedArrays.read store.memory arr).drop start).take
          length := by
  have hWithin := hValid.within
  refine ⟨_, ConstByteArray.subArray_eq hValid
    (hHolds.small arr.array) hStart length, ?_,
    ConstByteArray.read_subArray hValid hStart length⟩
  exact ⟨hValid.allocated, by dsimp only; omega⟩

/- The program with the array that a sum is made in. -/
def withReturned (store : ByteStore) : ByteStore where
  memory := (ConstByteArray.construct store.memory).1
  objects :=
    store.objects ++ [(ConstByteArray.construct store.memory).2]

theorem kept_withReturned (store : ByteStore) :
    SharedArrays.Kept store.memory store.withReturned.memory :=
  SharedArrays.kept_alloc store.memory [[]]

/- An array of the program, by the side of the new one. -/
theorem withReturned_piece
    {object : Nat}
    {arr : ConstByteArray}
    (hArr : store.objects[object]? = some arr)
    (hValid : arr.Valid store.memory)
    {target : Nat}
    (hTarget : store.memory.length ≤ target) :
    store.withReturned.bytesOf (.array object) =
        SharedArrays.read store.memory arr ∧
      store.withReturned.Apart store.objects.length target
        (.array object) := by
  have hThere := (List.getElem?_eq_some_iff.mp hArr).1
  have hAllocated := hValid.allocated
  have hFound : store.withReturned.objects[object]? =
      some arr := by
    rw [withReturned, List.getElem?_append_left hThere, hArr]
  refine ⟨?_, Nat.ne_of_lt hThere, arr, hFound,
    store.kept_withReturned.valid hValid, by omega⟩
  simp only [bytesOf, hFound]
  exact store.kept_withReturned.read_eq hAllocated

/- Both arrays are written to one that is made for them. -/
theorem Holds.plus_eq
    (hHolds : store.Holds values)
    {object other : Nat}
    {left right : List UInt8}
    (hLeft : values[object]? = some left)
    (hRight : values[other]? = some right)
    (hLength : (left ++ right).length < 2 ^ 64) :
    ∃ after, store.plus object other = some after ∧
      after.Holds (values ++ [left ++ right]) := by
  obtain ⟨first, hFirst, hFirstValid, rfl⟩ :=
    hHolds.object hLeft
  obtain ⟨second, hSecond, hSecondValid, rfl⟩ :=
    hHolds.object hRight
  generalize hSum :
    SharedArrays.read store.memory first ++
      SharedArrays.read store.memory second = sum at *
  have hMade := ConstByteArray.valid_construct store.memory
  have hArr :
      store.withReturned.objects[store.objects.length]? =
        some (ConstByteArray.construct store.memory).2 := by
    simp [withReturned]
  have hResized :=
    ConstByteArray.resized_resize hMade.allocated (0 + sum.length)
  have hTarget : store.memory.length ≤
      (ConstByteArray.resize
          (ConstByteArray.construct store.memory).1
        (ConstByteArray.construct store.memory).2
        (0 + sum.length) .absolute).2.array := by
    have hBehind := store.kept_withReturned.length_le
    rcases hResized.array_eq with hSame | hNew
    · exact Nat.le_of_eq hSame.symm
    · exact hNew ▸ hBehind
  obtain ⟨hFirstBytes, hFirstApart⟩ :=
    withReturned_piece hFirst hFirstValid hTarget
  obtain ⟨hSecondBytes, hSecondApart⟩ :=
    withReturned_piece hSecond hSecondValid hTarget
  have hBytes :
      [Appended.array object, Appended.array other].flatMap
        store.withReturned.bytesOf = sum := by
    simp [hFirstBytes, hSecondBytes, hSum]
  obtain ⟨memory, hMemory, hWritten⟩ :=
    appendInternal_written hArr hResized rfl
      [.array object, .array other] 0
      (by rw [hBytes])
      (by
        simp only [List.forall_mem_cons, List.not_mem_nil,
          false_imp_iff, implies_true, and_true]
        exact ⟨hFirstApart, hSecondApart⟩)
  rw [hBytes] at hWritten
  have hRead := hResized.read_appended hWritten hMade rfl
  have hRoom := hResized.room
  rw [← hResized.start_eq, ← hResized.length_eq] at hRoom
  have hPushed :=
    hHolds.push
      (hWritten.kept
        (store.kept_withReturned.trans hResized.kept) hTarget)
      (fun array => by
        rw [hWritten.length_cells]
        exact hResized.bounded (2 ^ 64)
          (by simpa [ConstByteArray.construct] using hLength)
          hHolds.small_construct array)
      (hWritten.valid ⟨hResized.allocated, hRoom⟩)
  have hEmpty :
      SharedArrays.read
        (ConstByteArray.construct store.memory).1
        (ConstByteArray.construct store.memory).2 = [] :=
    List.take_zero
  have hSet :
      store.withReturned.objects.set store.objects.length
          (ConstByteArray.resize
          (ConstByteArray.construct store.memory).1
            (ConstByteArray.construct store.memory).2
            (0 + sum.length) .absolute).2 =
        store.objects ++
          [(ConstByteArray.resize
          (ConstByteArray.construct store.memory).1
            (ConstByteArray.construct store.memory).2
            (0 + sum.length) .absolute).2] := by
    simp [withReturned]
  rw [hRead, hEmpty, List.nil_append] at hPushed
  rw [hSet] at hMemory
  refine ⟨_, ?_, hPushed⟩
  change store.withReturned.append store.objects.length
    [.array object, .array other] = _
  rw [append, hArr]
  exact hMemory

theorem Holds.step
    (hHolds : store.Holds values)
    {call : ConstCall}
    {next : List (List UInt8)}
    (hNext : call.value values = some next) :
    ∃ after, store.step call = some after ∧
      after.Holds next := by
  cases call with
  | literal data =>
      simp only [ConstCall.value, Option.ite_none_right_eq_some,
        Option.some.injEq] at hNext
      obtain ⟨hLength, rfl⟩ := hNext
      obtain ⟨memory, arr, hMade, hKept, hSmall, hValid, hRead⟩ :=
        fromBytes_eq hHolds hLength
      refine ⟨_, ?_, hRead ▸ hHolds.push hKept hSmall hValid⟩
      simp [ByteStore.step, hMade]
  | copyConstruct other =>
      simp only [ConstCall.value, Option.bind_eq_bind,
        Option.bind_eq_some_iff, Option.some.injEq] at hNext
      obtain ⟨bytes, hBytes, rfl⟩ := hNext
      obtain ⟨arr, hArr, hValid, hRead⟩ := hHolds.object hBytes
      have hPushed :=
        hHolds.push (SharedArrays.kept_refl store.memory)
          hHolds.small hValid
      rw [hRead] at hPushed
      refine ⟨_, ?_, hPushed⟩
      simp [ByteStore.step, hArr, ByteStore.push]
  | assign object other =>
      simp only [ConstCall.value, Option.bind_eq_bind,
        Option.bind_eq_some_iff, Option.ite_none_right_eq_some,
        Option.some.injEq] at hNext
      obtain ⟨bytes, hBytes, hObject, rfl⟩ := hNext
      obtain ⟨arr, hArr, hValid, rfl⟩ := hHolds.object hBytes
      have hValues := hHolds.values_eq
      have hThere : object < store.objects.length := by
        rw [← hValues] at hObject
        simpa [ByteStore.values] using hObject
      refine ⟨{ store with objects := store.objects.set object arr },
        by simp [ByteStore.step, hArr, hThere], ?_,
        hHolds.small, ?_⟩
      · intro changed hChanged
        rcases List.mem_or_eq_of_mem_set hChanged with
          hOld | rfl
        · exact hHolds.valid changed hOld
        · exact hValid
      · rw [← hValues]
        simp [ByteStore.values, List.map_set]
  | copy object =>
      simp only [ConstCall.value, Option.bind_eq_bind,
        Option.bind_eq_some_iff, Option.some.injEq] at hNext
      obtain ⟨bytes, hBytes, rfl⟩ := hNext
      obtain ⟨old, hOld, hOldValid, hOldRead⟩ :=
        hHolds.object hBytes
      have hLength : bytes.length < 2 ^ 64 := by
        have hWithin := hOldValid.within
        have hFull := hOldValid.length_read
        have hFew := hHolds.small old.array
        rw [hOldRead] at hFull
        omega
      obtain ⟨memory, arr, hMade, hKept, hSmall, hValid, hRead⟩ :=
        fromBytes_eq hHolds hLength
      have hCopy :
          ConstByteArray.copy store.memory old =
            some (memory, arr) := by
        rw [ConstByteArray.copy, if_neg, hOldRead, hMade]
        exact fun hBeyond =>
          Nat.not_lt.mpr hOldValid.within hBeyond.2
      refine ⟨_, ?_, hRead ▸ hHolds.push hKept hSmall hValid⟩
      simp [ByteStore.step, hOld, hCopy]
  | subArray object start length =>
      simp only [ConstCall.value, Option.bind_eq_bind,
        Option.bind_eq_some_iff, Option.ite_none_right_eq_some,
        Option.some.injEq] at hNext
      obtain ⟨bytes, hBytes, hStart, rfl⟩ := hNext
      obtain ⟨arr, hArr, hValid, rfl⟩ := hHolds.object hBytes
      rw [hValid.length_read] at hStart
      obtain ⟨sub, hSub, hSubValid, hRead⟩ :=
        hHolds.subArray_eq hValid hStart length
      have hPushed :=
        hHolds.push (SharedArrays.kept_refl store.memory)
          hHolds.small hSubValid
      rw [hRead] at hPushed
      refine ⟨_, ?_, hPushed⟩
      simp [ByteStore.step, hArr, hSub, ByteStore.push]
  | plus object other =>
      simp only [ConstCall.value, Option.bind_eq_bind,
        Option.bind_eq_some_iff, Option.ite_none_right_eq_some,
        Option.some.injEq] at hNext
      obtain ⟨left, hLeft, right, hRight, hLength, rfl⟩ := hNext
      exact hHolds.plus_eq hLeft hRight hLength

theorem Holds.run
    (hHolds : store.Holds values)
    {calls : List ConstCall}
    {last : List (List UInt8)}
    (hLast : valuesOf values calls = some last) :
    ∃ after, store.run calls = some after ∧
      after.Holds last := by
  induction calls generalizing store values with
  | nil =>
      obtain rfl := Option.some.inj hLast
      exact ⟨store, rfl, hHolds⟩
  | cons call calls ih =>
      simp only [valuesOf, Option.bind_eq_bind,
        Option.bind_eq_some_iff] at hLast
      obtain ⟨next, hNext, hRest⟩ := hLast
      obtain ⟨after, hStep, hAfter⟩ := hHolds.step hNext
      obtain ⟨final, hRun, hFinal⟩ := ih hAfter hRest
      refine ⟨final, ?_, hFinal⟩
      simp [ByteStore.run, hStep, hRun]

end Holds

/-
  Constant arrays are nothing but bytes: however they share
  their memory, no run of their calls leaves it, and each reads
  as what was made for it, as long as parts begin within their
  arrays.
-/
theorem values_run
    {calls : List ConstCall}
    {values : List (List UInt8)}
    (hValues : valuesOf [] calls = some values) :
    ∃ store, init.run calls = some store ∧
      (∀ arr ∈ store.objects, arr.Valid store.memory) ∧
      store.values = values := by
  obtain ⟨store, hRun, hHolds⟩ := holds_init.run hValues
  exact ⟨store, hRun, hHolds.valid, hHolds.values_eq⟩

/- Two parts that are put together the other way round. -/
theorem values_run_swapped :
    ∃ store,
      init.run
          [.literal [1, 2, 3], .subArray 0 1 2,
            .subArray 0 0 1, .plus 1 2, .assign 0 3] =
        some store ∧
      (∀ arr ∈ store.objects, arr.Valid store.memory) ∧
      store.values =
        [[2, 3, 1], [2, 3], [1], [2, 3, 1]] :=
  values_run (by decide)

end ByteStore

end OefCore
