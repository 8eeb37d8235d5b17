import OefCore.BasicComms.IMessage

/-
  `ProtoMessageReader::checkForMessage` and the endpoint
  through which a detected endianness reaches the sender.

  One pass of the source's `while (true)` is `iterate`; the
  loop ends because every message takes its header off the
  data that remains.

  Main declarations:
    * `Endianness`, `ProtoMessageEndpoint`
    * `ProtoMessageEndpoint.iterate`, `checkForMessage`
    * `ProtoMessageEndpoint.checkLoop_eq_scan`
    * `ProtoMessageEndpoint.exists_delivered`
-/

------------------------------------------------------------
-- Endpoints
------------------------------------------------------------

namespace OefCore

inductive Endianness where
  | dunno
  | little
  | network
  | bad
  deriving DecidableEq, Repr

namespace Endianness

/- The endianness has been settled by detection. -/
def Settled (e : Endianness) : Prop :=
  e = little ∨ e = network

instance (e : Endianness) : Decidable e.Settled := by
  unfold Settled
  infer_instance

/- The length header used under a settled endianness. -/
def header : Endianness → Framing.Header UInt8
  | network => networkHeader
  | _ => littleHeader

@[simp] theorem header_width (e : Endianness) :
    e.header.width = 4 := by
  cases e <;> rfl

@[simp] theorem header_bound (e : Endianness) :
    e.header.bound = 2 ^ 32 := by
  cases e <;> rfl

theorem length_stream
    (e : Endianness)
    (bodies : List (List UInt8)) :
    (littleHeader.stream bodies).length =
      (e.header.stream bodies).length :=
  Framing.Header.length_stream_congr (by simp; rfl) bodies

end Endianness

structure ProtoMessageReader (σ : Type) where
  onComplete : Option (Callback σ ConstCharArrayBuffer)
  endianness : Endianness

structure ProtoMessageSender where
  endianness : Endianness
  deriving DecidableEq, Repr

/-
  The reader and the sender that `setup` hangs on one
  endpoint.  `alive` says whether their weak pointers to the
  endpoint still lock.
-/
structure ProtoMessageEndpoint (σ : Type) where
  protoMessageReader : ProtoMessageReader σ
  protoMessageSender : ProtoMessageSender
  alive : Bool

namespace ProtoMessageEndpoint

variable {σ : Type}

/- The endpoint after `setup` and `setOnCompleteHandler`. -/
def fresh
    (onComplete : Callback σ ConstCharArrayBuffer) :
    ProtoMessageEndpoint σ :=
  { protoMessageReader :=
      { onComplete := some onComplete
        endianness := .dunno }
    protoMessageSender := { endianness := .dunno }
    alive := true }

def setEndianness
    (ep : ProtoMessageEndpoint σ)
    (newstate : Endianness) : ProtoMessageEndpoint σ :=
  { ep with
    protoMessageReader :=
      { ep.protoMessageReader with endianness := newstate }
    protoMessageSender := { endianness := newstate } }

def setDetectedEndianness
    (ep : ProtoMessageEndpoint σ)
    (newstate : Endianness) : ProtoMessageEndpoint σ :=
  if ep.alive then ep.setEndianness newstate else ep

------------------------------------------------------------
-- The Reader Loop
------------------------------------------------------------

/- The exception text for a body that is refused. -/
def refuses (bodySize : Nat) : String :=
  "Proto deserialisation refuses incoming " ++
    toString bodySize ++ " bytes message header."

/-
  The `switch (endianness)`: the announced body size or the
  exception, the endpoint and the cursor afterwards.
-/
def readHead
    (ep : ProtoMessageEndpoint σ)
    (chars : ConstCharArrayBuffer) :
    Except String Nat ×
      ProtoMessageEndpoint σ × ConstCharArrayBuffer :=
  match ep.protoMessageReader.endianness with
  | .bad =>
      (.error "Read attempted while endianness determined to be BAD.",
        ep, chars)
  | .dunno =>
      let little := chars.readLittleEndian
      if little.1 < 65535 then
        (.ok little.1, ep.setDetectedEndianness .little,
          little.2)
      else
        -- the cursor is past the header already
        let network := little.2.read
        if network.1 < 65535 then
          (.ok network.1, ep.setDetectedEndianness .network,
            network.2)
        else
          (.error "Could not determine endianness.", ep,
            network.2)
  | .little =>
      let little := chars.readLittleEndian
      (.ok little.1, ep, little.2)
  | .network =>
      let network := chars.read
      (.ok network.1, ep, network.2)

/- What one pass of the loop comes to. -/
inductive Iteration (σ : Type) where
  | needs
      (needed : Nat)
      (ep : ProtoMessageEndpoint σ)
  | throws
      (what : String)
      (ep : ProtoMessageEndpoint σ)
  | message
      (buffer : ConstCharArrayBuffer)
      (bodySize : Nat)
      (ep : ProtoMessageEndpoint σ)
      (chars : ConstCharArrayBuffer)

/- One pass of `while (true)` up to the call of `onComplete`. -/
def iterate
    (ep : ProtoMessageEndpoint σ)
    (chars : ConstCharArrayBuffer) : Iteration σ :=
  if chars.remainingData < 4 then
    .needs (4 - chars.remainingData).toNat ep
  else
    match ep.readHead chars with
    | (.error what, ep, _) => .throws what ep
    | (.ok bodySize, ep, chars) =>
        if 10000 < bodySize then
          .throws (refuses bodySize) ep
        else if chars.remainingData < bodySize then
          .needs (bodySize - chars.remainingData).toNat ep
        else
          .message
            (chars.withLimit (chars.current + bodySize))
            bodySize ep (chars.advance bodySize)

/- What `checkForMessage` returns or throws, and leaves. -/
structure Checked (σ : Type) where
  endpoint : ProtoMessageEndpoint σ
  world : σ
  result : Except String (Nat × Nat)

/- A header that is read takes at least four bytes. -/
theorem readHead_follows
    (ep : ProtoMessageEndpoint σ)
    {chars : ConstCharArrayBuffer}
    (hMore : 4 ≤ chars.remainingData)
    {bodySize : Nat}
    (hHead : (ep.readHead chars).1 = .ok bodySize) :
    (ep.readHead chars).2.2.Follows (chars.advance 4) := by
  have hRead := ConstCharArrayBuffer.read_eq hMore
  have hLittle :=
    ConstCharArrayBuffer.readLittleEndian_eq hMore
  cases hEnd : ep.protoMessageReader.endianness with
  | bad => simp [readHead, hEnd] at hHead
  | little =>
      simp only [readHead, hEnd, hLittle]
      exact .refl _
  | network =>
      simp only [readHead, hEnd, hRead]
      exact .refl _
  | dunno =>
      simp only [readHead, hEnd, hLittle]
      split
      · exact .refl _
      · split <;>
          exact ConstCharArrayBuffer.read_follows _

/- What a pass that hands on a message has done. -/
theorem iterate_message_inv
    {ep ep' : ProtoMessageEndpoint σ}
    {chars chars' buffer : ConstCharArrayBuffer}
    {bodySize : Nat}
    (hMessage :
      ep.iterate chars = .message buffer bodySize ep' chars') :
    ∃ body : ConstCharArrayBuffer,
      ep.readHead chars = (.ok bodySize, ep', body) ∧
        body.Follows (chars.advance 4) ∧
        bodySize ≤ body.remainingData ∧
        buffer = body.withLimit (body.current + bodySize) ∧
        chars' = body.advance bodySize := by
  unfold iterate at hMessage
  split at hMessage
  · cases hMessage
  · rename_i hMore
    split at hMessage
    · cases hMessage
    · rename_i size ep1 body hHead
      have hFollows := ep.readHead_follows
        (by omega) (congrArg Prod.fst hHead)
      simp only [hHead] at hFollows
      split at hMessage
      · cases hMessage
      · split at hMessage
        · cases hMessage
        · cases hMessage
          exact ⟨body, hHead, hFollows, by omega, rfl, rfl⟩

/- Every message leaves the loop with less data. -/
theorem remainingData_of_message
    {ep ep' : ProtoMessageEndpoint σ}
    {chars chars' buffer : ConstCharArrayBuffer}
    {bodySize : Nat}
    (hMessage :
      ep.iterate chars = .message buffer bodySize ep' chars') :
    0 ≤ chars'.remainingData ∧
      chars'.remainingData + bodySize + 4 ≤
        chars.remainingData := by
  rcases iterate_message_inv hMessage with
    ⟨body, -, hFollows, hFits, -, rfl⟩
  have hLess := hFollows.remainingData_le
  simp only [ConstCharArrayBuffer.remainingData_advance]
    at hLess ⊢
  omega

/-
  The loop of `checkForMessage`, with the bytes consumed so
  far.  A throwing `onComplete` ends it by its exception.
-/
def checkLoop
    (ep : ProtoMessageEndpoint σ)
    (chars : ConstCharArrayBuffer)
    (consumed : Nat)
    (world : σ) : Checked σ :=
  match _hPass : ep.iterate chars with
  | .needs needed ep =>
      { endpoint := ep
        world := world
        result := .ok (consumed, needed) }
  | .throws what ep =>
      { endpoint := ep
        world := world
        result := .error what }
  | .message buffer bodySize ep chars =>
      match ep.protoMessageReader.onComplete with
      | none =>
          ep.checkLoop chars (consumed + 4 + bodySize) world
      | some onComplete =>
          match onComplete buffer world with
          | (.ok _, world) =>
              ep.checkLoop chars (consumed + 4 + bodySize) world
          | (.error what, world) =>
              { endpoint := ep
                world := world
                result := .error what }
termination_by chars.remainingData.toNat
decreasing_by
  all_goals
    have hLess := remainingData_of_message _hPass
    omega

def checkForMessage
    (ep : ProtoMessageEndpoint σ)
    (data : List (List UInt8))
    (world : σ) : Checked σ :=
  ep.checkLoop (ConstCharArrayBuffer.ofBuffers data) 0 world

------------------------------------------------------------
-- Loop Equations
------------------------------------------------------------

/- One pass, and then the rest of the loop. -/
theorem checkLoop_eq
    (ep : ProtoMessageEndpoint σ)
    (chars : ConstCharArrayBuffer)
    (consumed : Nat)
    (world : σ) :
    ep.checkLoop chars consumed world =
      match ep.iterate chars with
      | .needs needed ep =>
          { endpoint := ep
            world := world
            result := .ok (consumed, needed) }
      | .throws what ep =>
          { endpoint := ep
            world := world
            result := .error what }
      | .message buffer bodySize ep chars =>
          match ep.protoMessageReader.onComplete with
          | none =>
              ep.checkLoop chars (consumed + 4 + bodySize) world
          | some onComplete =>
              match onComplete buffer world with
              | (.ok _, world) =>
                  ep.checkLoop chars (consumed + 4 + bodySize)
                    world
              | (.error what, world) =>
                  { endpoint := ep
                    world := world
                    result := .error what } := by
  rw [checkLoop]
  split
  · rename_i hPass
    rw [hPass]
  · rename_i hPass
    rw [hPass]
  · rename_i hPass
    rw [hPass]

theorem checkLoop_needs
    {ep ep' : ProtoMessageEndpoint σ}
    {chars : ConstCharArrayBuffer}
    {needed : Nat}
    (hPass : ep.iterate chars = .needs needed ep')
    (consumed : Nat)
    (world : σ) :
    ep.checkLoop chars consumed world =
      { endpoint := ep'
        world := world
        result := .ok (consumed, needed) } := by
  rw [checkLoop_eq, hPass]

theorem checkLoop_throws
    {ep ep' : ProtoMessageEndpoint σ}
    {chars : ConstCharArrayBuffer}
    {what : String}
    (hPass : ep.iterate chars = .throws what ep')
    (consumed : Nat)
    (world : σ) :
    ep.checkLoop chars consumed world =
      { endpoint := ep'
        world := world
        result := .error what } := by
  rw [checkLoop_eq, hPass]

------------------------------------------------------------
-- Recording Endpoints
------------------------------------------------------------

/- The `onComplete` that logs every body it is given. -/
def record :
    Callback (List (List UInt8)) ConstCharArrayBuffer :=
  fun buffer log => (.ok (), log ++ [buffer.copyOut])

/- The endpoint logs its messages and never rejects one. -/
def Records
    (ep : ProtoMessageEndpoint (List (List UInt8))) : Prop :=
  ep.protoMessageReader.onComplete = some record

theorem checkLoop_message
    {ep ep' : ProtoMessageEndpoint (List (List UInt8))}
    {chars chars' buffer : ConstCharArrayBuffer}
    {bodySize : Nat}
    (hPass :
      ep.iterate chars = .message buffer bodySize ep' chars')
    (hRecords : ep'.Records)
    (consumed : Nat)
    (log : List (List UInt8)) :
    ep.checkLoop chars consumed log =
      ep'.checkLoop chars' (consumed + 4 + bodySize)
        (log ++ [buffer.copyOut]) := by
  rw [checkLoop_eq, hPass]
  simp only [show ep'.protoMessageReader.onComplete =
    some record from hRecords, record]

------------------------------------------------------------
-- Settled Readers
------------------------------------------------------------

/- A settled reader decodes the header at the cursor. -/
theorem readHead_settled
    {ep : ProtoMessageEndpoint σ}
    {e : Endianness}
    (hEnd : ep.protoMessageReader.endianness = e)
    (hSettled : e.Settled)
    {chars : ConstCharArrayBuffer}
    {view : List UInt8}
    {k : Nat}
    (hViews : chars.Views view k)
    (hMore : k + 4 ≤ view.length) :
    ep.readHead chars =
      (.ok (e.header.decode ((view.drop k).take 4)), ep,
        chars.advance 4) := by
  rcases hSettled with hLittle | hNetwork
  · subst hLittle
    simp only [readHead, hEnd,
      hViews.readLittleEndian_eq hMore]
    rfl
  · subst hNetwork
    simp only [readHead, hEnd, hViews.read_eq hMore]
    rfl

/- Fewer than four bytes left: the rest of the header. -/
theorem iterate_short_head
    (ep : ProtoMessageEndpoint σ)
    {chars : ConstCharArrayBuffer}
    {view : List UInt8}
    {k : Nat}
    (hViews : chars.Views view k)
    (hHead : view.length < k + 4) :
    ep.iterate chars =
      .needs (4 - (view.length - k)) ep := by
  have hRemaining := hViews.remainingData_eq
  have hLe := hViews.current_le
  rw [iterate, if_pos (by omega), hRemaining]
  congr 1
  omega

/- An announced body above the limit is refused. -/
theorem iterate_tooLong
    {ep ep' : ProtoMessageEndpoint σ}
    {chars chars' : ConstCharArrayBuffer}
    {bodySize : Nat}
    (hMore : 4 ≤ chars.remainingData)
    (hRead : ep.readHead chars = (.ok bodySize, ep', chars'))
    (hLong : 10000 < bodySize) :
    ep.iterate chars = .throws (refuses bodySize) ep' := by
  rw [iterate, if_neg (by omega), hRead]
  simp only [if_pos hLong]

/- A body that is not whole yet: the rest of it. -/
theorem iterate_short_body
    {ep ep' : ProtoMessageEndpoint σ}
    {chars chars' : ConstCharArrayBuffer}
    {view : List UInt8}
    {k bodySize : Nat}
    (hMore : 4 ≤ chars.remainingData)
    (hRead : ep.readHead chars = (.ok bodySize, ep', chars'))
    (hViews : chars'.Views view k)
    (hFits : bodySize ≤ 10000)
    (hShort : view.length - k < bodySize) :
    ep.iterate chars =
      .needs (bodySize - (view.length - k)) ep' := by
  have hRemaining := hViews.remainingData_eq
  rw [iterate, if_neg (by omega), hRead]
  simp only [if_neg (Nat.not_lt.mpr hFits)]
  rw [if_pos (by omega), hRemaining]
  congr 1
  omega

/- A whole body is handed on and skipped. -/
theorem iterate_whole
    {ep ep' : ProtoMessageEndpoint σ}
    {chars chars' : ConstCharArrayBuffer}
    {view : List UInt8}
    {k bodySize : Nat}
    (hMore : 4 ≤ chars.remainingData)
    (hRead : ep.readHead chars = (.ok bodySize, ep', chars'))
    (hViews : chars'.Views view k)
    (hFits : bodySize ≤ 10000)
    (hWhole : bodySize ≤ view.length - k) :
    ep.iterate chars =
      .message (chars'.withLimit (chars'.current + bodySize))
        bodySize ep' (chars'.advance bodySize) := by
  have hRemaining := hViews.remainingData_eq
  rw [iterate, if_neg (by omega), hRead]
  simp only [if_neg (Nat.not_lt.mpr hFits)]
  rw [if_neg (by omega)]

/- The answer of the reader for the end of a scan. -/
def ofStop (consumed : Nat) :
    Framing.Header.Stop → Except String (Nat × Nat)
  | .short needed => .ok (consumed, needed)
  | .tooLong length => .error (refuses length)

/-
  A settled reader hands on the bodies that a scan of the
  remaining view finds, counts the bytes of their frames as
  consumed, and ends as the scan ends.
-/
theorem checkLoop_eq_scan
    {ep : ProtoMessageEndpoint (List (List UInt8))}
    {e : Endianness}
    (hEnd : ep.protoMessageReader.endianness = e)
    (hSettled : e.Settled)
    (hRecords : ep.Records)
    {chars : ConstCharArrayBuffer}
    {view : List UInt8}
    {k : Nat}
    (hViews : chars.Views view k)
    (consumed : Nat)
    (log : List (List UInt8)) :
    ep.checkLoop chars consumed log =
      { endpoint := ep
        world := log ++ (e.header.scan 10000 (view.drop k)).1
        result := ofStop
          (consumed + (e.header.stream
            (e.header.scan 10000 (view.drop k)).1).length)
          (e.header.scan 10000 (view.drop k)).2 } := by
  -- induction on the data left of the view
  induction hLeft : view.length - k using
    Nat.strong_induction_on
    generalizing chars k consumed log with
  | _ left ih =>
      have hRemaining := hViews.remainingData_eq
      have hLe := hViews.current_le
      by_cases hHead : view.length < k + 4
      · rw [checkLoop_needs
            (ep.iterate_short_head hViews hHead),
          Framing.Header.scan, if_pos (by simp; omega)]
        simp [ofStop]
      · have hMore : 4 ≤ chars.remainingData := by omega
        have hRead := readHead_settled hEnd hSettled hViews
          (by omega)
        have hNext :
            (chars.advance 4).Views view (k + 4) :=
          hViews.advance 4 (by omega)
        rw [Framing.Header.scan, if_neg (by simp; omega)]
        simp only [Endianness.header_width, List.length_drop,
          List.drop_drop]
        generalize hBody :
          e.header.decode ((view.drop k).take 4) = bodySize
          at hRead ⊢
        by_cases hLong : 10000 < bodySize
        · rw [checkLoop_throws
            (iterate_tooLong hMore hRead hLong)]
          simp [hLong, ofStop]
        · by_cases hShort : view.length - (k + 4) < bodySize
          · rw [checkLoop_needs (iterate_short_body hMore
              hRead hNext (by omega) hShort)]
            simp [hLong, hShort, ofStop]
          · have hRest := hNext.advance bodySize
              (by omega)
            have hCopy := hNext.copyOut_withLimit
              bodySize (by omega)
            rw [checkLoop_message (iterate_whole hMore hRead
                hNext (by omega) (by omega)) hRecords,
              ih _ (by omega) hRest _ _ rfl, hCopy,
              if_neg hLong, if_neg hShort]
            simp only [List.append_assoc, List.cons_append,
              List.nil_append, Framing.Header.stream_cons,
              List.length_append, Framing.Header.length_frame,
              Endianness.header_width, List.length_take,
              List.length_drop]
            rw [Nat.min_eq_left (by omega)]
            congr 2
            omega

/- The header switch leaves the handler as it was. -/
theorem onComplete_readHead
    (ep : ProtoMessageEndpoint σ)
    (chars : ConstCharArrayBuffer) :
    (ep.readHead chars).2.1.protoMessageReader.onComplete =
      ep.protoMessageReader.onComplete := by
  cases hEnd : ep.protoMessageReader.endianness with
  | bad => simp [readHead, hEnd]
  | little => simp [readHead, hEnd]
  | network => simp [readHead, hEnd]
  | dunno =>
      simp only [readHead, hEnd]
      split
      · simp only [setDetectedEndianness, setEndianness]
        split <;> rfl
      · split
        · simp only [setDetectedEndianness, setEndianness]
          split <;> rfl
        · rfl

/- The endpoint as a pass leaves it. -/
def Iteration.endpoint :
    Iteration σ → ProtoMessageEndpoint σ
  | .needs _ ep => ep
  | .throws _ ep => ep
  | .message _ _ ep _ => ep

theorem onComplete_iterate
    (ep : ProtoMessageEndpoint σ)
    (chars : ConstCharArrayBuffer) :
    (ep.iterate chars).endpoint.protoMessageReader.onComplete =
      ep.protoMessageReader.onComplete := by
  have hHead := ep.onComplete_readHead chars
  unfold iterate
  split
  · rfl
  · split
    · rename_i hRead
      rw [hRead] at hHead
      exact hHead
    · rename_i hRead
      rw [hRead] at hHead
      split
      · exact hHead
      · split <;> exact hHead

theorem Records.iterate
    {ep : ProtoMessageEndpoint (List (List UInt8))}
    (hRecords : ep.Records)
    (chars : ConstCharArrayBuffer) :
    (ep.iterate chars).endpoint.Records :=
  (ep.onComplete_iterate chars).trans hRecords

/- A message that is handed on has the length that its header
   gives, and what follows it lies in the buffers. -/
theorem message_bounds
    {ep ep' : ProtoMessageEndpoint (List (List UInt8))}
    {chars chars' buffer : ConstCharArrayBuffer}
    {bodySize : Nat}
    (hPass : ep.iterate chars = .message buffer bodySize ep' chars')
    (hStart : 0 ≤ chars.current)
    (hSize : chars.size < 2 ^ 31) :
    buffer.copyOut.length = bodySize ∧
      0 ≤ chars'.current ∧ chars'.size < 2 ^ 31 := by
  rcases iterate_message_inv hPass with
    ⟨body, hHead, hFollows, hFits, hBuffer, hNext⟩
  have hCurrent := hFollows.current_le
  have hBody := hFollows.size_eq
  simp only [ConstCharArrayBuffer.advance_current,
    ConstCharArrayBuffer.advance_size] at hCurrent hBody
  have hRange : body.current + bodySize < 2 ^ 31 := by
    simp only [ConstCharArrayBuffer.remainingData] at hFits
    omega
  refine ⟨?_, ?_, ?_⟩
  · rw [hBuffer]
    exact ConstCharArrayBuffer.length_copyOut_withLimit
      (by omega) hRange
  · rw [hNext, ConstCharArrayBuffer.advance_current]
    omega
  · rw [hNext, ConstCharArrayBuffer.advance_size]
    omega

/-
  Whatever the buffers and the endianness, a call appends to
  the log bodies whose frames fit the data that remained,
  and counts exactly these frames as consumed.
-/
theorem exists_delivered
    {ep : ProtoMessageEndpoint (List (List UInt8))}
    (hRecords : ep.Records)
    (chars : ConstCharArrayBuffer)
    (hStart : 0 ≤ chars.current)
    (hSize : chars.size < 2 ^ 31)
    (consumed : Nat)
    (log : List (List UInt8)) :
    ∃ bodies : List (List UInt8),
      (ep.checkLoop chars consumed log).endpoint.Records ∧
        (ep.checkLoop chars consumed log).world =
          log ++ bodies ∧
        (littleHeader.stream bodies).length ≤
          chars.remainingData.toNat ∧
        ∀ answer : Nat × Nat,
          (ep.checkLoop chars consumed log).result =
              .ok answer →
            answer.1 =
              consumed + (littleHeader.stream bodies).length := by
  -- induction on the data that remains
  induction hLeft : chars.remainingData.toNat using
    Nat.strong_induction_on
    generalizing ep chars consumed log with
  | _ left ih =>
      have hKept := hRecords.iterate chars
      cases hPass : ep.iterate chars with
      | needs needed ep' =>
          rw [hPass] at hKept
          rw [checkLoop_needs hPass]
          refine ⟨[], hKept, by simp, by simp, ?_⟩
          intro answer hAnswer
          cases hAnswer
          simp
      | throws what ep' =>
          rw [hPass] at hKept
          rw [checkLoop_throws hPass]
          refine ⟨[], hKept, by simp, by simp, ?_⟩
          intro answer hAnswer
          cases hAnswer
      | message buffer bodySize ep' chars' =>
          rw [hPass] at hKept
          have hRecords' : ep'.Records := hKept
          have hLess := remainingData_of_message hPass
          rcases message_bounds hPass hStart hSize with
            ⟨hLength, hStart', hSize'⟩
          rcases ih chars'.remainingData.toNat (by omega)
              hRecords' chars' hStart' hSize'
              (consumed + 4 + bodySize)
              (log ++ [buffer.copyOut]) rfl with
            ⟨bodies, hLast, hWorld, hBound, hConsumed⟩
          rw [checkLoop_message hPass hRecords']
          have hWidth : littleHeader.width = 4 := rfl
          refine
            ⟨buffer.copyOut :: bodies, hLast, ?_, ?_, ?_⟩
          · rw [hWorld]
            simp
          · simp only [Framing.Header.stream_cons,
              List.length_append, Framing.Header.length_frame,
              hWidth, hLength]
            omega
          · intro answer hAnswer
            have hTail := hConsumed answer hAnswer
            simp only [Framing.Header.stream_cons,
              List.length_append, Framing.Header.length_frame,
              hWidth, hLength]
            omega

/- A whole call of a settled reader on a view. -/
theorem checkForMessage_eq_scan
    {ep : ProtoMessageEndpoint (List (List UInt8))}
    {e : Endianness}
    (hEnd : ep.protoMessageReader.endianness = e)
    (hSettled : e.Settled)
    (hRecords : ep.Records)
    {data : List (List UInt8)}
    {view : List UInt8}
    (hFlatten : data.flatten = view)
    (hLength : view.length < 2 ^ 31)
    (log : List (List UInt8)) :
    ep.checkForMessage data log =
      { endpoint := ep
        world := log ++ (e.header.scan 10000 view).1
        result := ofStop
          (e.header.stream
            (e.header.scan 10000 view).1).length
          (e.header.scan 10000 view).2 } := by
  have hViews :=
    ConstCharArrayBuffer.views_ofBuffers hFlatten hLength
  rw [checkForMessage,
    checkLoop_eq_scan hEnd hSettled hRecords hViews]
  simp

end ProtoMessageEndpoint

instance {σ : Type} :
    IMessageReader (ProtoMessageEndpoint σ) σ where
  checkForMessage ep data world :=
    let checked := ep.checkForMessage data world
    { protocol := checked.endpoint
      world := checked.world
      result := checked.result.mapError Thrown.exception }

end OefCore
