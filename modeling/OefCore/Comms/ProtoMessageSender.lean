import OefCore.BasicComms.EndpointBase
import OefCore.Comms.ProtoMessageReader

/-
  `ProtoMessageSender::checkForSpace`: the writer that frames
  queued messages into the free space it is offered.

  Main declarations:
    * `ProtoMessage`
    * `ProtoMessageEndpoint.checkForSpace`
    * `ProtoMessageEndpoint.checkSpaceLoop_eq`
-/

------------------------------------------------------------
-- Messages
------------------------------------------------------------

namespace OefCore

/-
  A protobuf message as the sender sees it: `ByteSize()` is
  an `int` and the number of bytes that are serialized.
-/
class ProtoMessage (M : Type) where
  byteSize : M → Nat
  serialize : M → List UInt8
  byteSize_eq : ∀ message,
    byteSize message = (serialize message).length
  byteSize_lt : ∀ message, byteSize message < 2 ^ 31

/- Byte strings of bounded length are messages. -/
instance
    {bound : Nat}
    [hBound : Fact (bound < 2 ^ 31)] :
    ProtoMessage {body : List UInt8 // body.length ≤ bound}
    where
  byteSize body := body.1.length
  serialize body := body.1
  byteSize_eq _ := rfl
  byteSize_lt body :=
    Nat.lt_of_le_of_lt body.2 hBound.out

------------------------------------------------------------
-- The Sender Loop
------------------------------------------------------------

namespace ProtoMessageEndpoint

variable {σ M : Type}
variable [ProtoMessage M]

open ProtoMessage

/- The sender announces a body with its endianness, or
   throws. -/
def writeHead
    (ep : ProtoMessageEndpoint σ)
    (chars : CharArrayBuffer)
    (bodySize : Nat) : Except String CharArrayBuffer :=
  match ep.protoMessageSender.endianness with
  | .dunno =>
      .error "Refusing to send when endianness is DUNNO."
  | .little => .ok (chars.writeLittleEndian bodySize)
  | .network => .ok (chars.write bodySize)
  | .bad =>
      .error "Refusing to send when endianness is BAD."

/-
  The loop of `checkForSpace`, one message a pass.  `wakes`
  counts the calls of `ep->wake()`; a full queue is not
  woken, and an empty one ends the loop.
-/
def checkSpaceLoop
    (ep : ProtoMessageEndpoint σ)
    (chars : CharArrayBuffer)
    (txq : List M)
    (consumed wakes : Nat) : SpaceChecked M :=
  if ep.alive then
    let wakes :=
      if EndpointBase.isTXQFull txq then wakes else wakes + 1
    match txq with
    | [] =>
        { mem := chars.mem
          txq := []
          wakes := wakes
          result := .ok (consumed, 0) }
    | message :: rest =>
        let bodySize : Nat := byteSize message % 2 ^ 32
        let mesgSize : Nat := (bodySize + 4) % 2 ^ 32
        if chars.remainingSpace < (mesgSize : Int) then
          { mem := chars.mem
            txq := message :: rest
            wakes := wakes
            result := .ok (consumed, 0) }
        else
          match ep.writeHead chars bodySize with
          | .error what =>
              { mem := chars.mem
                txq := message :: rest
                wakes := wakes
                result := .error what }
          | .ok chars =>
              ep.checkSpaceLoop
                (chars.xsputn (serialize message)) rest
                (consumed + mesgSize) wakes
  else
    { mem := chars.mem
      txq := txq
      wakes := wakes
      result := .ok (consumed, 0) }

def checkForSpace
    (ep : ProtoMessageEndpoint σ)
    (data : List MutableBuffer)
    (mem : Nat → UInt8)
    (txq : List M) : SpaceChecked M :=
  ep.checkSpaceLoop (CharArrayBuffer.ofBuffers data mem)
    txq 0 0

------------------------------------------------------------
-- What Is Written
------------------------------------------------------------

/- The bodies that queued messages serialize to. -/
def bodies (txq : List M) : List (List UInt8) :=
  txq.map serialize

/- A header and a body fill the cells from the cursor on. -/
theorem writeHead_xsputn
    {ep : ProtoMessageEndpoint σ}
    {e : Endianness}
    (hEnd : ep.protoMessageSender.endianness = e)
    (hSettled : e.Settled)
    {chars : CharArrayBuffer}
    {cells : List Nat}
    {k : Nat}
    (hOver : chars.Over cells k)
    (body : List UInt8)
    (hFits : k + (4 + body.length) ≤ cells.length) :
    ∃ headed,
      ep.writeHead chars body.length = .ok headed ∧
        headed.xsputn body =
          { chars with
            mem := Memory.fill chars.mem (cells.drop k)
              (e.header.frame body)
            current := chars.current +
              ((4 + body.length : Nat) : Int) } := by
  have hHead :
      ∃ bytes : List UInt8,
        bytes.length = 4 ∧
          e.header.encode body.length = bytes ∧
          ep.writeHead chars body.length =
            .ok (bytes.foldl CharArrayBuffer.oflow chars) := by
    rcases hSettled with hLittle | hNetwork
    · subst hLittle
      refine ⟨littleBytes body.length, rfl, rfl, ?_⟩
      simp only [writeHead, hEnd]
      rfl
    · subst hNetwork
      refine ⟨networkBytes body.length, rfl, rfl, ?_⟩
      simp only [writeHead, hEnd]
      rfl
  rcases hHead with ⟨bytes, hLength, hEncode, hWrite⟩
  have hFour : k + bytes.length ≤ cells.length := by omega
  rw [hOver.foldl_oflow_eq hFour,
    hOver.xsputn_eq hFour] at hWrite
  have hNext := hOver.moved (n := bytes.length) hFour
    (Memory.fill chars.mem (cells.drop k) bytes)
  refine ⟨_, hWrite, ?_⟩
  rw [hNext.xsputn_eq (by omega)]
  have hDrop :
      cells.drop (k + bytes.length) =
        (cells.drop k).drop bytes.length := by
    rw [List.drop_drop]
  simp only [hDrop, Memory.fill_append,
    Framing.Header.frame, hEncode]
  congr 1
  omega

/-
  A settled sender writes the frames of the messages that
  fit one after the other, takes exactly these off the queue,
  and counts their bytes as consumed.
-/
theorem checkSpaceLoop_eq
    {ep : ProtoMessageEndpoint σ}
    {e : Endianness}
    (hAlive : ep.alive = true)
    (hEnd : ep.protoMessageSender.endianness = e)
    (hSettled : e.Settled)
    {chars : CharArrayBuffer}
    {cells : List Nat}
    {k : Nat}
    (hOver : chars.Over cells k)
    (txq : List M)
    (consumed wakes : Nat) :
    (ep.checkSpaceLoop chars txq consumed wakes).mem =
        Memory.fill chars.mem (cells.drop k)
          (e.header.stream (e.header.complete (bodies txq)
            (cells.length - k))) ∧
      (ep.checkSpaceLoop chars txq consumed wakes).txq =
        txq.drop (e.header.complete (bodies txq)
          (cells.length - k)).length ∧
      (ep.checkSpaceLoop chars txq consumed wakes).result =
        .ok (consumed +
          (e.header.stream (e.header.complete (bodies txq)
            (cells.length - k))).length, 0) := by
  induction txq generalizing chars k consumed wakes with
  | nil =>
      simp [checkSpaceLoop, hAlive, bodies,
        Framing.Header.complete]
  | cons message rest ih =>
      have hSpace := hOver.remainingSpace_eq
      have hSize := byteSize_eq message
      have hLt := byteSize_lt message
      have hBody :
          byteSize message % 2 ^ 32 =
            (serialize message).length := by
        rw [Nat.mod_eq_of_lt (by omega), hSize]
      have hMesg :
          ((serialize message).length + 4) % 2 ^ 32 =
            4 + (serialize message).length := by
        rw [Nat.mod_eq_of_lt (by omega)]
        omega
      rw [checkSpaceLoop, if_pos hAlive]
      simp only [hBody, hMesg, hSpace]
      by_cases hFits :
          4 + (serialize message).length ≤ cells.length - k
      · have hLe := hOver.current_le
        rcases writeHead_xsputn hEnd hSettled hOver
            (serialize message) (by omega) with
          ⟨headed, hWrite, hPut⟩
        have hNext := hOver.moved
          (n := 4 + (serialize message).length) (by omega)
          (Memory.fill chars.mem (cells.drop k)
            (e.header.frame (serialize message)))
        have hTail := ih hNext
          (consumed + (4 + (serialize message).length))
          (if EndpointBase.isTXQFull (message :: rest) then wakes
            else wakes + 1)
        rw [if_neg (by omega)]
        simp only [hWrite, hPut]
        have hWidth : e.header.width = 4 := by simp
        have hComplete :
            e.header.complete (bodies (message :: rest))
                (cells.length - k) =
              serialize message ::
                e.header.complete (bodies rest)
                  (cells.length -
                    (k + (4 + (serialize message).length))) := by
          rw [bodies, List.map_cons, Framing.Header.complete,
            hWidth, if_pos hFits, Nat.sub_sub]
          rfl
        have hLength :
            (e.header.frame (serialize message)).length =
              4 + (serialize message).length := by simp
        rcases hTail with ⟨hMem, hQueue, hResult⟩
        rw [hComplete]
        refine ⟨?_, ?_, ?_⟩
        · rw [hMem, Framing.Header.stream_cons,
            ← Memory.fill_append, List.drop_drop, hLength]
        · rw [hQueue, List.length_cons, List.drop_succ_cons]
        · rw [hResult, Framing.Header.stream_cons,
            List.length_append, hLength, Nat.add_assoc]
      · rw [if_pos (by omega)]
        simp [bodies, Framing.Header.complete, hFits]

end ProtoMessageEndpoint

instance {σ M : Type} [ProtoMessage M] :
    IMessageWriter (ProtoMessageEndpoint σ) M where
  checkForSpace ep data mem txq :=
    ep.checkForSpace data mem txq

end OefCore
