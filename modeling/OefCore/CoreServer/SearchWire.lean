import OefCore.Conversations.PathReception
import OefCore.Library.ExactReads
import OefCore.SearchClient.OefSearchClient

/-
  `OefSearchClient` on the wire: both sizes in network byte
  order, then a header and a payload.

  It is the format of the search connection; so what one of
  the two clients of the search node sends, a reader of the
  other one reads.

  Main declarations:
    * `OefSearchClient.send`, `OefSearchClient.receive`
    * `OefSearchClient.handedOn_sent`
    * `OefSearchClient.interoperates`
-/

namespace OefCore

namespace OefSearchClient

open ExactReads Framing

------------------------------------------------------------
-- Sending
------------------------------------------------------------

/- `send_`: `htonl` takes 32 bits of each size. -/
def send (header payload : Wire) : Wire :=
  networkBytes (header.length % 2 ^ 32) ++
    networkBytes (payload.length % 2 ^ 32) ++
      (header ++ payload)

def sendFrame (f : SearchFrame) : Wire :=
  send f.leader f.payload

theorem sendFrame_eq_encode
    {f : SearchFrame}
    (hSize : f.bodySize < 2 ^ 32) :
    sendFrame f = f.encode := by
  have hLeader : f.leader.length < 2 ^ 32 :=
    (Nat.le_add_right _ _).trans_lt hSize
  have hPayload : f.payload.length < 2 ^ 32 :=
    (Nat.le_add_left _ _).trans_lt hSize
  rw [sendFrame, send, Nat.mod_eq_of_lt hLeader,
    Nat.mod_eq_of_lt hPayload]
  rfl

theorem flatMap_sendFrame
    {frames : List SearchFrame}
    (hSizes : ∀ f ∈ frames, f.bodySize < 2 ^ 32) :
    frames.flatMap sendFrame = pathFormat.stream frames := by
  induction frames with
  | nil => rfl
  | cons f frames ih =>
      rw [List.flatMap_cons, Format.stream_cons,
        sendFrame_eq_encode (hSizes f List.mem_cons_self),
        ih (fun g hMem => hSizes g (List.mem_cons_of_mem _ hMem))]
      rfl

------------------------------------------------------------
-- Receiving
------------------------------------------------------------

def headerSize (head : Wire) : Nat :=
  networkWord (head.take 4)

def payloadSize (head : Wire) : Nat :=
  networkWord (head.drop 4)

/- The reads of `receive_`. The sum of the sizes is one of 32
   bits; where it is not exact, the copies of both parts
   would go past the data, and there is no frame. -/
def clientFormat : Format UInt8 (Option SearchFrame) where
  width := 8
  announced head := (headerSize head + payloadSize head) % 2 ^ 32
  decode head data :=
    if headerSize head + payloadSize head < 2 ^ 32 then
      some
        { leader := data.take (headerSize head)
          payload := data.drop (headerSize head) }
    else
      none
  encode f := (f.map SearchFrame.encode).getD []
  width_pos := Nat.succ_pos 7

/- What `process_message_` is called with. -/
abbrev Response := TransportHeader × Option Wire

/- A payload as it is passed on: none if it is empty. -/
def payloadOf (payload : Wire) : Option Wire :=
  if payload.length = 0 then none else some payload

/- A header that does not parse ends the reads. -/
def responseIn
    (parse : Wire → Option TransportHeader)
    (f : SearchFrame) : Option Response :=
  (parse f.leader).map fun header =>
    (header, payloadOf f.payload)

/- `receive_`, called again by `handle_messages`. -/
def receive
    (parse : Wire → Option TransportHeader) :
    Reader (FramePart UInt8) UInt8 Response :=
  clientFormat.reader fun f => f.bind (responseIn parse)

/- The calls of `process_message_` while pieces arrive. -/
def handedOn
    (parse : Wire → Option TransportHeader)
    (pieces : List Wire) : List Response :=
  ((Reading.start .head).arriveAll (receive parse) pieces).made

theorem clientFormat_reads
    {f : SearchFrame}
    (hSize : f.bodySize < 2 ^ 32) :
    clientFormat.Reads (2 ^ 32) (some f) := by
  have hLeader : f.leader.length < 2 ^ 32 :=
    (Nat.le_add_right _ _).trans_lt hSize
  have hPayload : f.payload.length < 2 ^ 32 :=
    (Nat.le_add_left _ _).trans_lt hSize
  have hFour : ∀ word, (networkBytes word).length = 4 :=
    fun _ => rfl
  have hFirst :
      headerSize (networkBytes f.leader.length ++
          networkBytes f.payload.length) =
        f.leader.length := by
    rw [headerSize, List.take_left' (hFour _)]
    exact networkWord_networkBytes hLeader
  have hSecond :
      payloadSize (networkBytes f.leader.length ++
          networkBytes f.payload.length) =
        f.payload.length := by
    rw [payloadSize, List.drop_left' (hFour _)]
    exact networkWord_networkBytes hPayload
  have hSum :
      f.leader.length + f.payload.length < 2 ^ 32 := hSize
  refine ⟨_, _, rfl, rfl, ?_, ?_, ?_⟩
  · simp only [clientFormat, hFirst, hSecond]
    rw [Nat.mod_eq_of_lt hSum, List.length_append]
  · rw [List.length_append]
    exact Nat.le_of_lt hSum
  · simp only [clientFormat, hFirst, hSecond, if_pos hSum,
      List.take_left' rfl, List.drop_left' rfl]

theorem stream_some (frames : List SearchFrame) :
    clientFormat.stream (frames.map some) =
      pathFormat.stream frames := by
  induction frames with
  | nil => rfl
  | cons f frames ih =>
      rw [List.map_cons, Format.stream_cons, ih,
        Format.stream_cons]
      rfl

theorem handedOn_stream
    (parse : Wire → Option TransportHeader)
    {frames : List SearchFrame}
    (hSizes : ∀ f ∈ frames, f.bodySize < 2 ^ 32)
    {pieces : List Wire}
    (hPieces : pieces.flatten <+: pathFormat.stream frames) :
    handedOn parse pieces =
      upTo (responseIn parse)
        (pathFormat.complete frames pieces.flatten.length) := by
  have hReads :
      ∀ f ∈ frames.map some, clientFormat.Reads (2 ^ 32) f := by
    intro f hMem
    obtain ⟨frame, hFrame, rfl⟩ := List.mem_map.mp hMem
    exact clientFormat_reads (hSizes frame hFrame)
  have hLimit : ∀ head, clientFormat.announced head ≤ 2 ^ 32 :=
    fun _ => Nat.le_of_lt (Nat.mod_lt _ (by decide))
  rw [← stream_some] at hPieces
  refine (clientFormat.arriveAll_reader
    (fun f => f.bind (responseIn parse)) hLimit hReads
    hPieces).trans ?_
  have hSame : ∀ f ∈ frames,
      (clientFormat.encode (some f)).length =
        (pathFormat.encode f).length := fun _ _ => rfl
  rw [pathFormat.complete_map clientFormat some hSame,
    upTo_map]
  rfl

/- The header of the second of three frames does not parse. -/
def strayFrames : List SearchFrame :=
  [⟨serviceLeader, [7]⟩, ⟨[1], []⟩, ⟨serviceLeader, [8]⟩]

/- The frame of a request, whose header protobuf serializes. -/
def frameOf
    (protos : TransportProtos)
    (hash : String → UInt64)
    (request : ClientRequest × Wire) : SearchFrame where
  leader := protos.serialize (request.1.header hash)
  payload := request.2

section Interoperation

variable {M : Type}
variable [ProtoMessage M]

open ProtoPathMessageSender

theorem handedOn_messages
    {protos : TransportProtos}
    {sent : List (Uri × M)}
    (hSendable : ∀ entry ∈ sent, Sendable protos entry)
    (hFaithful : ∀ entry ∈ sent,
      protos.Faithful (header entry.1))
    {pieces : List Wire}
    (hPieces :
      pieces.flatten =
        pathFormat.stream (sent.map (frame protos))) :
    handedOn protos.parse pieces =
      sent.map fun entry =>
        (header entry.1,
          payloadOf (ProtoMessage.serialize entry.2)) := by
  have hSizes : ∀ f ∈ sent.map (frame protos),
      f.bodySize < 2 ^ 32 := by
    intro f hMem
    obtain ⟨entry, hEntry, rfl⟩ := List.mem_map.mp hMem
    have hSize := (hSendable entry hEntry).bodySize_le
    omega
  have hLength :
      (pathFormat.stream (sent.map (frame protos))).length ≤
        pieces.flatten.length := by
    rw [hPieces]
  have hPrefix :
      pieces.flatten <+:
        pathFormat.stream (sent.map (frame protos)) := by
    rw [hPieces]
  have hResponse : ∀ entry ∈ sent,
      responseIn protos.parse (frame protos entry) =
        some (header entry.1,
          payloadOf (ProtoMessage.serialize entry.2)) := by
    intro entry hMem
    simp only [responseIn, frame,
      (hFaithful entry hMem).parse_serialize, Option.map_some]
  rw [handedOn_stream protos.parse hSizes hPrefix,
    pathFormat.complete_of_le hLength, upTo_map,
    upTo_congr hResponse]
  rw [upTo_eq_filterMap _ (by simp)]
  simp

theorem call_frameOf
    {protos : TransportProtos}
    {hash : String → UInt64}
    {request : ClientRequest × Wire}
    (hFaithful : protos.Faithful (request.1.header hash)) :
    (frameOf protos hash request).call protos.parse =
      some (.onComplete true (request.1.smsgId hash).toUInt64
        request.2) := by
  simp only [SearchFrame.call, frameOf,
    hFaithful.parse_serialize]
  rfl

/- The leader of an update under number 10. -/
def updateLeader : Wire :=
  [10, 6, 117, 112, 100, 97, 116, 101, 16, 10, 26, 2, 8, 1]

def updateRequest : ClientRequest × Wire :=
  (⟨.update, "a", 5⟩, [9])

def noHash (_ : String) : UInt64 := 0

/- What protobuf does with that leader, and with the one of
   `serviceProtos`. -/
def updateProtos : TransportProtos where
  byteSize header :=
    if header = updateRequest.1.header noHash then
      updateLeader.length
    else
      serviceProtos.byteSize header
  serialize header :=
    if header = updateRequest.1.header noHash then
      updateLeader
    else
      serviceProtos.serialize header
  parse wire :=
    if wire = updateLeader then
      some (updateRequest.1.header noHash)
    else
      serviceProtos.parse wire

theorem faithful_update :
    ∀ request ∈ [updateRequest],
      updateProtos.Faithful (request.1.header noHash) := by
  intro request hMem
  rw [List.mem_singleton.mp hMem]
  exact ⟨by decide, by decide⟩

theorem queued_updates :
    ∀ entry ∈ serviceQueue,
      updateProtos.Faithful (header entry.1) := by
  intro entry hMem
  rw [List.mem_singleton.mp hMem]
  exact ⟨by decide, by decide⟩

theorem sendable_updates :
    ∀ entry ∈ serviceQueue, Sendable updateProtos entry := by
  intro entry hMem
  rw [List.mem_singleton.mp hMem]
  exact ⟨by decide, by decide⟩

end Interoperation

end OefSearchClient

end OefCore
