import OefCore.BasicComms.EndpointBase
import OefCore.Library.PartialReads

/-
  What is expected of a read that waits for some bytes at
  least, and that the read of a plain socket does it.

  Main declarations:
    * `ReadSome`, `ReadingCall`
    * `ReadsAtLeast`
    * `Endpoint.readsAtLeast_asyncRead`
    * `Endpoint.perform_asyncRead`
-/

namespace OefCore

open PartialReads (Progress)

------------------------------------------------------------
-- Reads in Parts
------------------------------------------------------------

/- What an `async_read_some` comes back with. -/
structure ReadSome where
  ec : ErrorCode
  bytes : List UInt8
  deriving DecidableEq, Repr

namespace ReadSome

def fails (result : ReadSome) : Bool :=
  result.ec ≠ .success

@[simp]
theorem fails_eq_true
    (result : ReadSome) :
    result.fails = true ↔ result.ec ≠ .success := by
  simp [fails]

/- How far a read is after some results. -/
def progress
    (bytesNeeded : Nat)
    (results : List ReadSome) : Progress ReadSome UInt8 :=
  PartialReads.progress bytes fails bytesNeeded results

section Steps

variable
  {bytesNeeded : Nat}
  {results : List ReadSome}
  (hNone : (progress bytesNeeded results).last = none)
  (result : ReadSome)

include hNone

theorem received_snoc :
    (progress bytesNeeded (results ++ [result])).received =
      (progress bytesNeeded results).received ++
        result.bytes := by
  unfold progress
  rw [PartialReads.progress_snoc]
  exact Progress.received_next hNone result

theorem last_snoc :
    (progress bytesNeeded (results ++ [result])).last =
      if result.ec ≠ .success ∨
          bytesNeeded ≤
            (progress bytesNeeded results).received.length +
              result.bytes.length
      then
        some result
      else
        none := by
  unfold progress at hNone ⊢
  rw [PartialReads.progress_snoc, Progress.last_next hNone]
  simp only [fails_eq_true]

end Steps

end ReadSome

/- A call of `complete_reading`, with the read buffer as it
   is then. -/
structure ReadingCall where
  ec : ErrorCode
  bytes : Nat
  readBuffer : RingBuffer

def ReadingCall.perform
    {P TX σ : Type}
    [IMessageReader P σ]
    (call : ReadingCall)
    (ep : EndpointBase P TX σ) : EndpointBase P TX σ :=
  { ep with
    readBuffer := call.readBuffer }.completeReading call.ec
      call.bytes

/-
  `complete_reading` is called once, when the read has come to
  its end: with the error, or with the count of all the bytes
  received, which are at the front of the space.
-/
def ReadsAtLeast
    (space : List MutableBuffer)
    (read : Progress ReadSome UInt8)
    (calls : List ReadingCall) : Prop :=
  match read.last with
  | none => calls = []
  | some last =>
      ∃ call, calls = [call] ∧
        call.ec = last.ec ∧
        (last.ec = .success →
          call.bytes = read.received.length ∧
          read.received <+:
            (addresses space).map call.readBuffer.store)

/- What was put at the front of the free space is there. -/
theorem RingBuffer.prefix_map_fill
    {b : RingBuffer}
    (hValid : b.Valid)
    (memory : Nat → UInt8)
    {bytes : List UInt8}
    (hFits : bytes.length ≤ b.getFreeSpace) :
    bytes <+:
      (addresses b.getSpaceBuffers).map
        (Memory.fill memory (addresses b.getSpaceBuffers)
          bytes) := by
  have hCells := addresses_getSpaceBuffers hValid
  have hAll := hValid.available_add_free
  have hNodup : (addresses b.getSpaceBuffers).Nodup := by
    rw [hCells]
    exact Circular.nodup_interval (by omega)
  rw [Memory.map_fill memory hNodup bytes
    (by simpa [hCells] using hFits)]
  exact List.prefix_append _ _

------------------------------------------------------------
-- Plain Sockets
------------------------------------------------------------

namespace Endpoint

/-
  The calls that `Endpoint::async_read` leads to: asio goes
  on reading into what is left of the space until the bytes
  needed have come.
-/
def asyncRead
    (readBuffer : RingBuffer)
    (bytesNeeded : Nat)
    (results : List ReadSome) : List ReadingCall :=
  let read :=
    PartialReads.transfer ReadSome.bytes ReadSome.fails
      bytesNeeded readBuffer.store
      (addresses readBuffer.getSpaceBuffers) results
  match read.last with
  | none => []
  | some last =>
      [{ ec := last.ec
         bytes := read.total
         readBuffer := readBuffer.withStore read.memory }]

section Reads

variable
  {readBuffer : RingBuffer}
  (hValid : readBuffer.Valid)
  {bytesNeeded : Nat}
  (hNeeded : bytesNeeded ≤ readBuffer.getFreeSpace)

include hValid hNeeded

/- The read that `run_reading` starts asks for no more than
   there is space for. -/
theorem transfer_eq (results : List ReadSome) :
    PartialReads.transfer ReadSome.bytes ReadSome.fails
        bytesNeeded readBuffer.store
        (addresses readBuffer.getSpaceBuffers) results =
      .reaching readBuffer.store
        (addresses readBuffer.getSpaceBuffers)
        (ReadSome.progress bytesNeeded results) := by
  apply PartialReads.transfer_eq
  simpa [RingBuffer.addresses_getSpaceBuffers hValid]
    using hNeeded

/- A plain socket reads as it is asked. -/
theorem readsAtLeast_asyncRead
    {results : List ReadSome}
    (hFits :
      (ReadSome.progress bytesNeeded results).received.length ≤
        readBuffer.getFreeSpace) :
    ReadsAtLeast readBuffer.getSpaceBuffers
      (ReadSome.progress bytesNeeded results)
      (asyncRead readBuffer bytesNeeded results) := by
  unfold ReadsAtLeast asyncRead
  rw [transfer_eq hValid hNeeded]
  simp only [PartialReads.Transfer.reaching]
  cases (ReadSome.progress bytesNeeded results).last with
  | none => rfl
  | some last =>
      refine ⟨_, rfl, rfl, fun _ => ⟨rfl, ?_⟩⟩
      exact RingBuffer.prefix_map_fill hValid _ hFits

/- The parts of such a read come to one completion of it. -/
theorem perform_asyncRead
    {P TX σ : Type}
    [IMessageReader P σ]
    {ep : EndpointBase P TX σ}
    (hBuffer : ep.readBuffer = readBuffer)
    {results : List ReadSome}
    {last : ReadSome}
    (hLast :
      (ReadSome.progress bytesNeeded results).last =
        some last) :
    (asyncRead readBuffer bytesNeeded results).map
        (·.perform ep) =
      [{ ep with
          reads :=
            { needed := bytesNeeded
              space := readBuffer.getSpaceBuffers } ::
                ep.reads }.readCompletes last.ec
            (ReadSome.progress bytesNeeded
              results).received] := by
  subst hBuffer
  unfold asyncRead
  rw [transfer_eq hValid hNeeded]
  simp only [PartialReads.Transfer.reaching, hLast]
  rfl

end Reads

end Endpoint

end OefCore
