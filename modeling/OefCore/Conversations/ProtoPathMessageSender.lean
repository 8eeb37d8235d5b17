import OefCore.Comms.ProtoMessageSender
import OefCore.Conversations.ProtoPathMessageReader

/-
  `ProtoPathMessageSender::checkForSpace`: the writer of the
  search connection, which puts a leader made of the `Uri` in
  front of every message.

  Main declarations:
    * `TransportProtos`, `TransportProtos.Faithful`
    * `ProtoPathMessageSender.checkForSpace`
    * `ProtoPathMessageSender.checkSpaceLoop_eq`
-/

------------------------------------------------------------
-- Leaders
------------------------------------------------------------

namespace OefCore

/- What protobuf does with a `TransportHeader`. -/
structure TransportProtos where
  byteSize : TransportHeader → Nat
  serialize : TransportHeader → Wire
  parse : Wire → Option TransportHeader

/- A header is as long as protobuf says, and is parsed back. -/
structure TransportProtos.Faithful
    (protos : TransportProtos)
    (header : TransportHeader) : Prop where
  byteSize_eq :
    protos.byteSize header = (protos.serialize header).length
  parse_serialize :
    protos.parse (protos.serialize header) = some header

structure ProtoPathMessageSender where
  alive : Bool
  deriving DecidableEq, Repr

namespace ProtoPathMessageSender

variable {M : Type}
variable [ProtoMessage M]

open ProtoMessage

/- The leader for a `Uri`: `path.substr(1)` throws where the
   path is empty. -/
def leaderOf (uri : Uri) : Except String TransportHeader :=
  match uri.path.toList with
  | [] =>
      .error
        ("basic_string::substr: __pos (which is 1) > " ++
          "this->size() (which is 0)")
  | _ :: path =>
      .ok
        { uri := String.ofList path
          id := uri.port.toUInt64
          status := { success := true } }

/- The leader for a `Uri` whose path is not empty. -/
def header (uri : Uri) : TransportHeader where
  uri := String.ofList (uri.path.toList.drop 1)
  id := uri.port.toUInt64
  status := { success := true }

theorem leaderOf_eq_ok
    {uri : Uri}
    (hPath : uri.path.toList ≠ []) :
    leaderOf uri = .ok (header uri) := by
  unfold leaderOf header
  cases hChars : uri.path.toList with
  | nil => exact absurd hChars hPath
  | cons slash path => rfl

/- It is the leader of the search node's requests. -/
theorem header_uri (message : Initiating) :
    header message.uri = OutboundSearch.leaderOf message := rfl

------------------------------------------------------------
-- The Sender Loop
------------------------------------------------------------

/- The loop of `checkForSpace`, one message a pass, with the
   calls of `ep->wake()` counted. -/
def checkSpaceLoop
    (self : ProtoPathMessageSender)
    (protos : TransportProtos)
    (chars : CharArrayBuffer)
    (txq : List (Uri × M))
    (consumed wakes : Nat) : SpaceChecked (Uri × M) :=
  if self.alive then
    let wakes :=
      if EndpointBase.isTXQFull txq then wakes else wakes + 1
    match txq with
    | [] =>
        { mem := chars.mem
          txq := []
          wakes := wakes
          result := .ok (consumed, 0) }
    | (uri, message) :: rest =>
        match leaderOf uri with
        | .error what =>
            { mem := chars.mem
              txq := (uri, message) :: rest
              wakes := wakes
              result := .error what }
        | .ok leader =>
            let payloadSize : Nat := byteSize message % 2 ^ 32
            let leaderSize : Nat :=
              protos.byteSize leader % 2 ^ 32
            let mesgSize : Nat :=
              (4 + leaderSize + 4 + payloadSize) % 2 ^ 32
            if chars.remainingSpace < (mesgSize : Int) then
              { mem := chars.mem
                txq := (uri, message) :: rest
                wakes := wakes
                result := .ok (consumed, 0) }
            else
              let chars :=
                (chars.write leaderSize).write payloadSize
              let chars :=
                chars.xsputn (protos.serialize leader)
              self.checkSpaceLoop protos
                (chars.xsputn (serialize message)) rest
                (consumed + mesgSize) wakes
  else
    { mem := chars.mem
      txq := txq
      wakes := wakes
      result := .ok (consumed, 0) }

def checkForSpace
    (self : ProtoPathMessageSender)
    (protos : TransportProtos)
    (data : List MutableBuffer)
    (mem : Nat → UInt8)
    (txq : List (Uri × M)) : SpaceChecked (Uri × M) :=
  self.checkSpaceLoop protos
    (CharArrayBuffer.ofBuffers data mem) txq 0 0

------------------------------------------------------------
-- What Is Written
------------------------------------------------------------

/- The frame that a queued message is sent as. -/
def frame
    (protos : TransportProtos)
    (entry : Uri × M) : SearchFrame where
  leader := protos.serialize (header entry.1)
  payload := serialize entry.2

/- A path that begins with a slash, and sizes that the reader
   accepts. -/
structure Sendable
    (protos : TransportProtos)
    (entry : Uri × M) : Prop where
  path : entry.1.path.toList.head? = some '/'
  bodySize_le : (frame protos entry).bodySize ≤ 10000

/- Both sizes and both parts fill the cells from the cursor
   on. -/
theorem write_write_xsputn
    {chars : CharArrayBuffer}
    {cells : List Nat}
    {k : Nat}
    (hOver : chars.Over cells k)
    (f : SearchFrame)
    (hFits : k + f.encode.length ≤ cells.length) :
    (((chars.write f.leader.length).write
        f.payload.length).xsputn f.leader).xsputn f.payload =
      { chars with
        mem := Memory.fill chars.mem (cells.drop k) f.encode
        current := chars.current + (f.encode.length : Int) } := by
  have hLength := f.length_encode
  have hFour : ∀ word, (networkBytes word).length = 4 :=
    fun _ => rfl
  have hFirst :
      chars.write f.leader.length =
        chars.xsputn (networkBytes f.leader.length) :=
    hOver.foldl_oflow_eq (by rw [hFour]; omega)
  have hNext :
      (chars.xsputn (networkBytes f.leader.length)).Over
        cells (k + 4) := by
    have hMoved := hOver.moved (n := 4) (by omega)
      (Memory.fill chars.mem (cells.drop k)
        (networkBytes f.leader.length))
    rw [hOver.xsputn_eq (by rw [hFour]; omega)]
    exact hMoved
  have hSecond :
      (chars.xsputn (networkBytes f.leader.length)).write
          f.payload.length =
        (chars.xsputn (networkBytes f.leader.length)).xsputn
          (networkBytes f.payload.length) :=
    hNext.foldl_oflow_eq (by rw [hFour]; omega)
  rw [hFirst, hSecond, ← CharArrayBuffer.xsputn_append,
    ← CharArrayBuffer.xsputn_append,
    ← CharArrayBuffer.xsputn_append, ← List.append_assoc]
  exact hOver.xsputn_eq hFits

/- A pass for a sendable message, in terms of its frame. -/
theorem checkSpaceLoop_cons
    {self : ProtoPathMessageSender}
    (hAlive : self.alive = true)
    {protos : TransportProtos}
    {entry : Uri × M}
    (hSendable : Sendable protos entry)
    (hFaithful : protos.Faithful (header entry.1))
    (chars : CharArrayBuffer)
    (rest : List (Uri × M))
    (consumed wakes : Nat) :
    self.checkSpaceLoop protos chars (entry :: rest) consumed
        wakes =
      if chars.remainingSpace <
          ((frame protos entry).encode.length : Int) then
        { mem := chars.mem
          txq := entry :: rest
          wakes :=
            if EndpointBase.isTXQFull (entry :: rest) then wakes
            else wakes + 1
          result := .ok (consumed, 0) }
      else
        self.checkSpaceLoop protos
          ((((chars.write
              (frame protos entry).leader.length).write
              (frame protos entry).payload.length).xsputn
              (frame protos entry).leader).xsputn
              (frame protos entry).payload)
          rest
          (consumed + (frame protos entry).encode.length)
          (if EndpointBase.isTXQFull (entry :: rest) then wakes
            else wakes + 1) := by
  rcases entry with ⟨uri, message⟩
  have hPath : uri.path.toList ≠ [] := by
    intro hEmpty
    have hSlash := hSendable.path
    rw [hEmpty] at hSlash
    cases hSlash
  have hLimit := hSendable.bodySize_le
  have hLength := (frame protos (uri, message)).length_encode
  rw [SearchFrame.bodySize] at hLimit hLength
  have hLeader :
      protos.byteSize (header uri) % 2 ^ 32 =
        (frame protos (uri, message)).leader.length := by
    rw [hFaithful.byteSize_eq]
    exact Nat.mod_eq_of_lt (by simp only [frame] at *; omega)
  have hPayload :
      byteSize message % 2 ^ 32 =
        (frame protos (uri, message)).payload.length := by
    rw [byteSize_eq]
    exact Nat.mod_eq_of_lt (by simp only [frame] at *; omega)
  have hMesg :
      (4 + (frame protos (uri, message)).leader.length + 4 +
          (frame protos (uri, message)).payload.length) %
          2 ^ 32 =
        (frame protos (uri, message)).encode.length := by
    rw [Nat.mod_eq_of_lt (by omega), hLength]
    omega
  rw [checkSpaceLoop, if_pos hAlive]
  simp only [leaderOf_eq_ok hPath, hLeader, hPayload, hMesg]
  rfl

/-
  The sender writes the frames of the messages that fit one
  after the other, takes exactly these off the queue, and
  counts their bytes as consumed.
-/
theorem checkSpaceLoop_eq
    {self : ProtoPathMessageSender}
    (hAlive : self.alive = true)
    {protos : TransportProtos}
    {chars : CharArrayBuffer}
    {cells : List Nat}
    {k : Nat}
    (hOver : chars.Over cells k)
    {txq : List (Uri × M)}
    (hSendable : ∀ entry ∈ txq, Sendable protos entry)
    (hFaithful : ∀ entry ∈ txq,
      protos.Faithful (header entry.1))
    (consumed wakes : Nat) :
    (self.checkSpaceLoop protos chars txq consumed wakes).mem =
        Memory.fill chars.mem (cells.drop k)
          (pathFormat.stream (pathFormat.complete
            (txq.map (frame protos)) (cells.length - k))) ∧
      (self.checkSpaceLoop protos chars txq consumed
          wakes).txq =
        txq.drop (pathFormat.complete
          (txq.map (frame protos)) (cells.length - k)).length ∧
      (self.checkSpaceLoop protos chars txq consumed
          wakes).result =
        .ok (consumed +
          (pathFormat.stream (pathFormat.complete
            (txq.map (frame protos))
            (cells.length - k))).length, 0) := by
  induction txq generalizing chars k consumed wakes with
  | nil =>
      simp [checkSpaceLoop, hAlive, Framing.Format.complete]
  | cons entry rest ih =>
      have hSpace := hOver.remainingSpace_eq
      have hLe := hOver.current_le
      have hEncode :
          pathFormat.encode (frame protos entry) =
            (frame protos entry).encode := rfl
      rw [checkSpaceLoop_cons hAlive
        (hSendable entry (by simp)) (hFaithful entry (by simp)),
        hSpace, List.map_cons, Framing.Format.complete, hEncode]
      by_cases hFits :
          (frame protos entry).encode.length ≤ cells.length - k
      · have hNext := hOver.moved
          (n := (frame protos entry).encode.length) (by omega)
          (Memory.fill chars.mem (cells.drop k)
            (frame protos entry).encode)
        have hTail := ih hNext
          (fun other hMem => hSendable other (by simp [hMem]))
          (fun other hMem => hFaithful other (by simp [hMem]))
          (consumed + (frame protos entry).encode.length)
          (if EndpointBase.isTXQFull (entry :: rest) then wakes
            else wakes + 1)
        rw [if_neg (by omega), if_pos hFits,
          write_write_xsputn hOver _ (by omega)]
        rw [← Nat.sub_sub] at hTail
        rcases hTail with ⟨hMem, hQueue, hResult⟩
        refine ⟨?_, ?_, ?_⟩
        · rw [hMem, Framing.Format.stream_cons, hEncode,
            ← Memory.fill_append, List.drop_drop]
        · rw [hQueue, List.length_cons, List.drop_succ_cons]
        · rw [hResult, Framing.Format.stream_cons, hEncode,
            List.length_append, Nat.add_assoc]
      · rw [if_pos (by omega), if_neg hFits]
        simp

end ProtoPathMessageSender

end OefCore
