import OefCore.Comms.ProtoMessageReader
import OefCore.Conversations.OutboundSearchConversation
import OefCore.Library.FrameFormat

/-
  `ProtoPathMessageReader`: what the reader of the search
  connection does with a frame, and with the bytes that the
  connection has received.

  Main declarations:
    * `SearchFrame`, `ProtoPathCall`
    * `SearchFrame.take`, `pathFormat`
    * `ProtoPathMessageReader.checkForMessage`
    * `ProtoPathMessageReader.checkLoop_eq_scan`
-/

namespace OefCore

/- A frame: a serialized `TransportHeader` and a payload. -/
structure SearchFrame where
  leader : Wire
  payload : Wire
  deriving DecidableEq, Repr

/- A call of one of the handlers of the reader. -/
inductive ProtoPathCall where
  | onComplete (success : Bool) (id : UInt64) (buffer : Wire)
  | onError (id : UInt64) (statusCode : Int) (message : String)
  deriving DecidableEq, Repr

namespace SearchFrame

def bodySize (self : SearchFrame) : Nat :=
  self.leader.length + self.payload.length

/- Which handler a frame is passed to. -/
def callFor
    (leader : TransportHeader)
    (payload : Wire) : ProtoPathCall :=
  if leader.status.success then
    .onComplete leader.status.success leader.id payload
  else
    .onError leader.id
      (OutboundSearch.errorCodeOf leader.status)
      (String.join leader.status.narrative)

/- The part of `checkForMessage` for a frame that is there as a
   whole; `header` is protobuf's parser. -/
def take
    (header : Wire → Option TransportHeader)
    (self : SearchFrame) : Except Exception ProtoPathCall :=
  if 10000 < self.bodySize then
    .error
      (.invalidArgument
        (ProtoMessageEndpoint.refuses self.bodySize))
  else
    match header self.leader with
    | none =>
        .error
          (.invalidArgument
            ("Proto deserialization refuses incoming " ++
              "invalid leader message!"))
    | some leader => .ok (callFor leader self.payload)

/- The handler call for a frame whose leader parses. -/
def call
    (parse : Wire → Option TransportHeader)
    (self : SearchFrame) : Option ProtoPathCall :=
  (parse self.leader).map
    (fun leader => callFor leader self.payload)

theorem take_eq_ok_iff
    (parse : Wire → Option TransportHeader)
    (self : SearchFrame)
    (call : ProtoPathCall) :
    self.take parse = .ok call ↔
      self.bodySize ≤ 10000 ∧
        self.call parse = some call := by
  unfold take SearchFrame.call
  by_cases hLong : 10000 < self.bodySize
  · simp [hLong]
  · cases hParse : parse self.leader with
    | none => simp [hLong]
    | some leader => simp [hLong]; omega

------------------------------------------------------------
-- Frames in a Stream
------------------------------------------------------------

/- Both sizes in network byte order, then both parts. -/
def encode (self : SearchFrame) : Wire :=
  networkBytes self.leader.length ++
    networkBytes self.payload.length ++
      (self.leader ++ self.payload)

theorem length_encode (self : SearchFrame) :
    self.encode.length = 8 + self.bodySize := by
  simp [encode, networkBytes, bodySize]
  omega

end SearchFrame

/- The frames of the search connection. -/
def pathFormat : Framing.Format UInt8 SearchFrame where
  width := 8
  announced head :=
    networkWord (head.take 4) + networkWord (head.drop 4)
  decode head body :=
    { leader := body.take (networkWord (head.take 4))
      payload := body.drop (networkWord (head.take 4)) }
  encode := SearchFrame.encode
  width_pos := by decide

theorem networkWord_networkBytes
    {word : Nat}
    (hWord : word < 2 ^ 32) :
    networkWord (networkBytes word) = word :=
  networkHeader.decode_encode word hWord

/- The reader takes back every frame that is not too long. -/
theorem pathFormat_reads
    {f : SearchFrame}
    (hLimit : f.bodySize ≤ 10000) :
    pathFormat.Reads 10000 f := by
  have hLeader : f.leader.length ≤ 10000 :=
    (Nat.le_add_right _ _).trans hLimit
  have hPayload : f.payload.length ≤ 10000 :=
    (Nat.le_add_left _ _).trans hLimit
  have hFour : ∀ word, (networkBytes word).length = 4 :=
    fun _ => rfl
  have hFirst :
      networkWord ((networkBytes f.leader.length ++
          networkBytes f.payload.length).take 4) =
        f.leader.length := by
    rw [List.take_left' (hFour _)]
    exact networkWord_networkBytes (by omega)
  have hSecond :
      networkWord ((networkBytes f.leader.length ++
          networkBytes f.payload.length).drop 4) =
        f.payload.length := by
    rw [List.drop_left' (hFour _)]
    exact networkWord_networkBytes (by omega)
  refine ⟨_, _, rfl, rfl, ?_, ?_, ?_⟩
  · simp only [pathFormat, hFirst, hSecond, List.length_append]
  · rw [List.length_append]
    exact hLimit
  · simp only [pathFormat, hFirst, List.take_left' rfl,
      List.drop_left' rfl]

------------------------------------------------------------
-- The Reader Loop
------------------------------------------------------------

structure ProtoPathMessageReader (σ : Type) where
  onComplete :
    Option (Callback σ (Bool × UInt64 × ConstCharArrayBuffer))
  onError : Option (Callback σ (UInt64 × Int × String))

namespace ProtoPathMessageReader

variable {σ : Type}

/- What one pass of the loop comes to; the cursor of a frame
   is past its leader. -/
inductive Pass where
  | needs (needed : Nat)
  | throws (what : String)
  | frame
      (leader : TransportHeader)
      (leaderSize payloadSize : Nat)
      (chars : ConstCharArrayBuffer)

/- One pass of `while (true)` up to the call of a handler;
   `parse` is protobuf's parser for leaders. -/
def iterate
    (parse : Wire → Option TransportHeader)
    (chars : ConstCharArrayBuffer) : Pass :=
  if chars.remainingData < 8 then
    .needs (8 - chars.remainingData).toNat
  else
    let leaderSize := chars.read
    let payloadSize := leaderSize.2.read
    let bodySize := leaderSize.1 + payloadSize.1
    let chars := payloadSize.2
    if 10000 < bodySize then
      .throws (ProtoMessageEndpoint.refuses bodySize)
    else if chars.remainingData < bodySize then
      .needs (bodySize - chars.remainingData).toNat
    else
      let headerChars :=
        chars.withLimit (chars.current + leaderSize.1)
      match parse headerChars.copyOut with
      | none =>
          .throws
            ("Proto deserialization refuses incoming " ++
              "invalid leader message!")
      | some leader =>
          .frame leader leaderSize.1 payloadSize.1
            (chars.advance leaderSize.1)

/- The call of `onError` or `onComplete`, where it is set. -/
def handOn
    (self : ProtoPathMessageReader σ)
    (leader : TransportHeader)
    (buffer : ConstCharArrayBuffer)
    (world : σ) : Except String Unit × σ :=
  if leader.status.success then
    match self.onComplete with
    | none => (.ok (), world)
    | some onComplete =>
        onComplete (leader.status.success, leader.id, buffer)
          world
  else
    match self.onError with
    | none => (.ok (), world)
    | some onError =>
        onError
          (leader.id, OutboundSearch.errorCodeOf leader.status,
            String.join leader.status.narrative)
          world

/- What `checkForMessage` returns or throws, and what the
   handlers have acted on. -/
structure Checked (σ : Type) where
  world : σ
  result : Except String (Nat × Nat)

/- Every frame leaves the loop with less data. -/
theorem remainingData_of_frame
    {parse : Wire → Option TransportHeader}
    {chars chars' : ConstCharArrayBuffer}
    {leader : TransportHeader}
    {leaderSize payloadSize : Nat}
    (hFrame :
      iterate parse chars =
        .frame leader leaderSize payloadSize chars') :
    8 ≤ chars.remainingData ∧
      chars'.remainingData + 8 ≤ chars.remainingData := by
  unfold iterate at hFrame
  split at hFrame
  · cases hFrame
  · rename_i hMore
    have hMore : 4 ≤ (chars.advance 4).remainingData := by
      rw [ConstCharArrayBuffer.remainingData_advance]
      omega
    have hFirst : chars.read = (_, chars.advance 4) :=
      ConstCharArrayBuffer.read_eq (by omega)
    have hSecond := ConstCharArrayBuffer.read_eq hMore
    simp only [hFirst, hSecond] at hFrame
    split at hFrame
    · cases hFrame
    · split at hFrame
      · cases hFrame
      · split at hFrame
        · cases hFrame
        · cases hFrame
          simp only [ConstCharArrayBuffer.remainingData_advance]
          omega

/- The loop of `checkForMessage`, with the bytes consumed so
   far.  A handler that throws ends it by its exception. -/
def checkLoop
    (self : ProtoPathMessageReader σ)
    (parse : Wire → Option TransportHeader)
    (chars : ConstCharArrayBuffer)
    (consumed : Nat)
    (world : σ) : Checked σ :=
  match _hPass : iterate parse chars with
  | .needs needed =>
      { world := world
        result := .ok (consumed, needed) }
  | .throws what =>
      { world := world
        result := .error what }
  | .frame leader leaderSize payloadSize chars =>
      let buffer :=
        chars.withLimit (chars.current + payloadSize)
      match self.handOn leader buffer world with
      | (.ok _, world) =>
          self.checkLoop parse (chars.advance payloadSize)
            (consumed + 8 + (leaderSize + payloadSize)) world
      | (.error what, world) =>
          { world := world
            result := .error what }
termination_by chars.remainingData.toNat
decreasing_by
  have hLess := remainingData_of_frame _hPass
  simp only [ConstCharArrayBuffer.remainingData_advance]
  omega

def checkForMessage
    (self : ProtoPathMessageReader σ)
    (parse : Wire → Option TransportHeader)
    (data : List (List UInt8))
    (world : σ) : Checked σ :=
  self.checkLoop parse (ConstCharArrayBuffer.ofBuffers data)
    0 world

------------------------------------------------------------
-- Passes over a View
------------------------------------------------------------

section Passes

variable {chars : ConstCharArrayBuffer}
variable {view : List UInt8}
variable {k : Nat}
variable {head rest : List UInt8}

/- Both sizes come from the head at the cursor. -/
theorem read_sizes
    (hViews : chars.Views view k)
    (hHead : head.length = 8)
    (hRest : view.drop k = head ++ rest) :
    chars.read =
        (networkWord (head.take 4), chars.advance 4) ∧
      (chars.advance 4).read =
          (networkWord (head.drop 4), chars.advance 8) ∧
        (chars.advance 8).Views view (k + 8) ∧
          view.length = k + 8 + rest.length := by
  have hLength : view.length = k + 8 + rest.length := by
    have hBoth := congrArg List.length hRest
    have hLe := hViews.current_le
    rw [List.length_drop, List.length_append] at hBoth
    omega
  have hNext := hViews.advance 4 (by omega)
  have hLast := hNext.advance 4 (by omega)
  rw [Nat.cast_ofNat, ConstCharArrayBuffer.advance_advance]
    at hLast
  refine ⟨?_, ?_, hLast, hLength⟩
  · rw [hViews.read_eq (by omega), hRest,
      List.take_append_of_le_length (by omega)]
  · have hSecond :
        (view.drop (k + 4)).take 4 = head.drop 4 := by
      rw [← List.drop_drop, hRest,
        List.drop_append_of_le_length (by omega)]
      exact List.take_left'
        (by rw [List.length_drop, hHead])
    rw [Nat.cast_ofNat] at hNext
    rw [hNext.read_eq (by omega), hSecond,
      ConstCharArrayBuffer.advance_advance]
    rfl

theorem iterate_short_head
    (parse : Wire → Option TransportHeader)
    (hViews : chars.Views view k)
    (hShort : view.length < k + 8) :
    iterate parse chars = .needs (8 - (view.length - k)) := by
  have hRemaining := hViews.remainingData_eq
  have hLe := hViews.current_le
  rw [iterate, if_pos (by omega), hRemaining]
  congr 1
  omega

theorem iterate_tooLong
    (parse : Wire → Option TransportHeader)
    (hViews : chars.Views view k)
    (hHead : head.length = 8)
    (hRest : view.drop k = head ++ rest)
    (hLong : 10000 < pathFormat.announced head) :
    iterate parse chars =
      .throws (ProtoMessageEndpoint.refuses
        (pathFormat.announced head)) := by
  rcases read_sizes hViews hHead hRest with
    ⟨hFirst, hSecond, -, hLength⟩
  have hRemaining := hViews.remainingData_eq
  simp only [pathFormat] at hLong ⊢
  rw [iterate, if_neg (by omega), hFirst]
  simp only [hSecond]
  rw [if_pos hLong]

theorem iterate_short_body
    (parse : Wire → Option TransportHeader)
    (hViews : chars.Views view k)
    (hHead : head.length = 8)
    (hRest : view.drop k = head ++ rest)
    (hLimit : pathFormat.announced head ≤ 10000)
    (hShort : rest.length < pathFormat.announced head) :
    iterate parse chars =
      .needs (pathFormat.announced head - rest.length) := by
  rcases read_sizes hViews hHead hRest with
    ⟨hFirst, hSecond, hNext, hLength⟩
  have hRemaining := hViews.remainingData_eq
  have hLeft := hNext.remainingData_eq
  simp only [pathFormat] at hLimit hShort ⊢
  rw [iterate, if_neg (by omega), hFirst]
  simp only [hSecond]
  rw [if_neg (by omega), if_pos (by omega), hLeft]
  congr 1
  omega

/- Where the parts of a whole frame lie. -/
theorem drop_parts
    {body : List UInt8}
    (hHead : head.length = 8)
    (hRest : view.drop k = head ++ (body ++ rest))
    (hBody : pathFormat.announced head = body.length) :
    (view.drop (k + 8)).take (networkWord (head.take 4)) =
        (pathFormat.decode head body).leader ∧
      (view.drop (k + 8 + networkWord (head.take 4))).take
          (networkWord (head.drop 4)) =
        (pathFormat.decode head body).payload ∧
      view.drop (k + 8 + networkWord (head.take 4) +
          networkWord (head.drop 4)) =
        rest := by
  simp only [pathFormat] at hBody ⊢
  have hBehind : view.drop (k + 8) = body ++ rest := by
    rw [← List.drop_drop, hRest, List.drop_left' hHead]
  have hPayload :
      view.drop (k + 8 + networkWord (head.take 4)) =
        body.drop (networkWord (head.take 4)) ++ rest := by
    rw [← List.drop_drop, hBehind,
      List.drop_append_of_le_length (by omega)]
  have hLength :
      (body.drop (networkWord (head.take 4))).length =
        networkWord (head.drop 4) := by
    rw [List.length_drop]
    omega
  refine ⟨?_, ?_, ?_⟩
  · rw [hBehind, List.take_append_of_le_length (by omega)]
  · rw [hPayload, List.take_left' hLength]
  · rw [← List.drop_drop, hPayload, List.drop_left' hLength]

/- The leader of a whole frame is parsed from its own part of
   the body, and the cursor moves behind it. -/
theorem iterate_whole
    {parse : Wire → Option TransportHeader}
    {body later : List UInt8}
    (hViews : chars.Views view k)
    (hHead : head.length = 8)
    (hRest : view.drop k = head ++ (body ++ later))
    (hBody : pathFormat.announced head = body.length)
    (hLimit : body.length ≤ 10000)
    {leader : TransportHeader}
    (hParse :
      parse (pathFormat.decode head body).leader =
        some leader) :
    iterate parse chars =
      .frame leader (networkWord (head.take 4))
        (networkWord (head.drop 4))
        ((chars.advance 8).advance
          (networkWord (head.take 4))) := by
  rcases read_sizes hViews hHead hRest with
    ⟨hFirst, hSecond, hNext, hLength⟩
  have hRemaining := hViews.remainingData_eq
  have hLeft := hNext.remainingData_eq
  rw [List.length_append] at hLength
  have hLeader := (drop_parts hHead hRest hBody).1
  simp only [pathFormat] at hBody
  have hCopy := hNext.copyOut_withLimit
    (networkWord (head.take 4)) (by omega)
  rw [iterate, if_neg (by omega), hFirst]
  simp only [hSecond]
  rw [if_neg (by omega), if_neg (by omega), hCopy, hLeader,
    hParse]

end Passes

------------------------------------------------------------
-- Loop Equations
------------------------------------------------------------

section Equations

variable {self : ProtoPathMessageReader σ}
variable {parse : Wire → Option TransportHeader}
variable {chars : ConstCharArrayBuffer}

/- One pass, and then the rest of the loop. -/
theorem checkLoop_eq
    (self : ProtoPathMessageReader σ)
    (parse : Wire → Option TransportHeader)
    (chars : ConstCharArrayBuffer)
    (consumed : Nat)
    (world : σ) :
    self.checkLoop parse chars consumed world =
      match iterate parse chars with
      | .needs needed =>
          { world := world
            result := .ok (consumed, needed) }
      | .throws what =>
          { world := world
            result := .error what }
      | .frame leader leaderSize payloadSize chars =>
          match self.handOn leader
              (chars.withLimit (chars.current + payloadSize))
              world with
          | (.ok _, world) =>
              self.checkLoop parse (chars.advance payloadSize)
                (consumed + 8 + (leaderSize + payloadSize))
                world
          | (.error what, world) =>
              { world := world
                result := .error what } := by
  rw [checkLoop]
  split
  · rename_i hPass
    rw [hPass]
  · rename_i hPass
    rw [hPass]
  · rename_i hPass
    rw [hPass]

theorem checkLoop_needs
    {needed : Nat}
    (hPass : iterate parse chars = .needs needed)
    (consumed : Nat)
    (world : σ) :
    self.checkLoop parse chars consumed world =
      { world := world
        result := .ok (consumed, needed) } := by
  rw [checkLoop_eq, hPass]

theorem checkLoop_throws
    {what : String}
    (hPass : iterate parse chars = .throws what)
    (consumed : Nat)
    (world : σ) :
    self.checkLoop parse chars consumed world =
      { world := world
        result := .error what } := by
  rw [checkLoop_eq, hPass]

theorem checkLoop_frame
    {leader : TransportHeader}
    {leaderSize payloadSize : Nat}
    {chars' : ConstCharArrayBuffer}
    (hPass :
      iterate parse chars =
        .frame leader leaderSize payloadSize chars')
    {world world' : σ}
    (hHand :
      self.handOn leader
          (chars'.withLimit (chars'.current + payloadSize))
          world =
        (.ok (), world'))
    (consumed : Nat) :
    self.checkLoop parse chars consumed world =
      self.checkLoop parse (chars'.advance payloadSize)
        (consumed + 8 + (leaderSize + payloadSize)) world' := by
  rw [checkLoop_eq, hPass]
  simp only [hHand]

end Equations

------------------------------------------------------------
-- Recording Readers
------------------------------------------------------------

/- The reader whose handlers log how they are called. -/
def record : ProtoPathMessageReader (List ProtoPathCall) where
  onComplete := some fun (success, id, buffer) log =>
    (.ok (),
      log ++ [.onComplete success id buffer.copyOut])
  onError := some fun (id, statusCode, message) log =>
    (.ok (), log ++ [.onError id statusCode message])

theorem handOn_record
    (leader : TransportHeader)
    (buffer : ConstCharArrayBuffer)
    (log : List ProtoPathCall) :
    record.handOn leader buffer log =
      (.ok (),
        log ++ [SearchFrame.callFor leader buffer.copyOut]) := by
  unfold handOn SearchFrame.callFor
  cases leader.status.success with
  | false => rfl
  | true => rfl

/- The pass for a whole frame: its handler is called, and the
   cursor goes on behind it. -/
theorem exists_checkLoop_whole
    {parse : Wire → Option TransportHeader}
    {chars : ConstCharArrayBuffer}
    {view : List UInt8}
    {k : Nat}
    (hViews : chars.Views view k)
    {head body rest : List UInt8}
    (hHead : head.length = 8)
    (hRest : view.drop k = head ++ (body ++ rest))
    (hBody : pathFormat.announced head = body.length)
    (hLimit : body.length ≤ 10000)
    {call : ProtoPathCall}
    (hCall :
      (pathFormat.decode head body).call parse = some call) :
    ∃ chars' : ConstCharArrayBuffer,
      chars'.Views view (k + 8 + body.length) ∧
        ∀ consumed log,
          record.checkLoop parse chars consumed log =
            record.checkLoop parse chars'
              (consumed + 8 + body.length)
              (log ++ [call]) := by
  rcases Option.map_eq_some_iff.mp hCall with
    ⟨leader, hParse, rfl⟩
  rcases read_sizes hViews hHead hRest with
    ⟨-, -, hNext, hLength⟩
  rcases drop_parts hHead hRest hBody with ⟨-, hPayload, -⟩
  rw [List.length_append] at hLength
  have hSizes :
      networkWord (head.take 4) + networkWord (head.drop 4) =
        body.length := hBody
  have hMoved := hNext.advance (networkWord (head.take 4))
    (by omega)
  have hLast := hMoved.advance (networkWord (head.drop 4))
    (by omega)
  have hCopy := hMoved.copyOut_withLimit
    (networkWord (head.drop 4)) (by omega)
  rw [Nat.add_assoc (k + 8), hSizes] at hLast
  refine ⟨_, hLast, ?_⟩
  intro consumed log
  rw [checkLoop_frame
    (iterate_whole hViews hHead hRest hBody hLimit hParse)
    (handOn_record _ _ _), hCopy, hPayload, hSizes]

/- What is left of a view behind a whole frame. -/
theorem drop_whole
    {view head body rest : List UInt8}
    {k : Nat}
    (hHead : head.length = 8)
    (hRest : view.drop k = head ++ body ++ rest) :
    view.drop (k + 8 + body.length) = rest ∧
      view.length = k + 8 + body.length + rest.length := by
  constructor
  · rw [Nat.add_assoc, ← List.drop_drop, hRest]
    exact List.drop_left'
      (by rw [List.length_append, hHead])
  · have hBoth := congrArg List.length hRest
    rw [List.length_drop, List.length_append,
      List.length_append, hHead] at hBoth
    omega

/- A frame whose leader parses is handed on in one call. -/
theorem exists_call
    {parse : Wire → Option TransportHeader}
    {f : SearchFrame}
    (hParses : parse f.leader ≠ none) :
    ∃ call, f.call parse = some call := by
  rcases Option.ne_none_iff_exists'.mp hParses with
    ⟨leader, hParse⟩
  exact ⟨SearchFrame.callFor leader f.payload, by
    rw [SearchFrame.call, hParse]
    rfl⟩

/-
  On a view whose whole frames have leaders that parse, the
  reader calls one handler for each of the frames that a scan
  of the view finds, counts their bytes as consumed, and ends
  as the scan ends.
-/
theorem checkLoop_eq_scan
    (parse : Wire → Option TransportHeader)
    {chars : ConstCharArrayBuffer}
    {view : List UInt8}
    {k : Nat}
    (hViews : chars.Views view k)
    (hParses :
      ∀ f ∈ (pathFormat.scan 10000 (view.drop k)).frames,
        parse f.leader ≠ none)
    (consumed : Nat)
    (log : List ProtoPathCall) :
    record.checkLoop parse chars consumed log =
      { world := log ++
          (pathFormat.scan 10000 (view.drop k)).frames.filterMap
            (SearchFrame.call parse)
        result := ProtoMessageEndpoint.ofStop
          (consumed +
            (pathFormat.scan 10000 (view.drop k)).consumed)
          (pathFormat.scan 10000 (view.drop k)).stop } := by
  -- induction on the data left of the view
  induction hLeft : view.length - k using
    Nat.strong_induction_on
    generalizing chars k consumed log with
  | _ left ih =>
      have hLe := hViews.current_le
      have hWidth : pathFormat.width = 8 := rfl
      rcases pathFormat.scan_cases 10000 (view.drop k) with
        hHead | ⟨head, rest, hRest, hHead, hLong⟩ |
        ⟨head, rest, hRest, hHead, hLimit, hBody⟩ |
        ⟨head, body, rest, hRest, hHead, hBody, hLimit⟩
      · have hShort : view.length < k + 8 := by
          rw [List.length_drop] at hHead
          omega
        rw [checkLoop_needs
            (iterate_short_head parse hViews hShort),
          pathFormat.scan_short_head 10000 hHead,
          List.length_drop]
        simp [ProtoMessageEndpoint.ofStop, pathFormat]
      · rw [checkLoop_throws
            (iterate_tooLong parse hViews hHead hRest hLong),
          hRest, pathFormat.scan_tooLong hHead hLong]
        simp [ProtoMessageEndpoint.ofStop]
      · rw [checkLoop_needs (iterate_short_body parse hViews
            hHead hRest hLimit hBody),
          hRest, pathFormat.scan_short_body hHead hLimit hBody]
        simp [ProtoMessageEndpoint.ofStop]
      · have hScan :=
          pathFormat.scan_whole hHead hBody hLimit rest
        rcases drop_whole (hHead.trans hWidth) hRest with
          ⟨hDrop, hLength⟩
        have hFrames :
            (pathFormat.scan 10000 (view.drop k)).frames =
              pathFormat.decode head body ::
                (pathFormat.scan 10000 rest).frames := by
          rw [hRest, hScan]
        have hLeader :
            parse (pathFormat.decode head body).leader ≠
              none := by
          refine hParses _ ?_
          rw [hFrames]
          exact List.mem_cons_self
        rcases exists_call hLeader with ⟨call, hCall⟩
        rcases exists_checkLoop_whole hViews hHead
            (hRest.trans (List.append_assoc _ _ _)) hBody
            hLimit hCall with ⟨next, hNext, hLoop⟩
        have hTail := ih rest.length (by omega) hNext
          (by
            rw [hDrop]
            intro f hMem
            refine hParses f ?_
            rw [hFrames]
            exact List.mem_cons_of_mem _ hMem)
          (consumed + 8 + body.length) (log ++ [call])
          (by omega)
        rw [hLoop, hTail, hDrop, hRest, hScan,
          List.filterMap_cons_some hCall, hWidth,
          List.append_assoc, Nat.add_assoc, Nat.add_assoc,
          ← Nat.add_assoc 8]
        rfl

/- A whole call on a view. -/
theorem checkForMessage_eq_scan
    (parse : Wire → Option TransportHeader)
    {data : List (List UInt8)}
    {view : List UInt8}
    (hFlatten : data.flatten = view)
    (hLength : view.length < 2 ^ 31)
    (hParses :
      ∀ f ∈ (pathFormat.scan 10000 view).frames,
        parse f.leader ≠ none)
    (log : List ProtoPathCall) :
    record.checkForMessage parse data log =
      { world := log ++
          (pathFormat.scan 10000 view).frames.filterMap
            (SearchFrame.call parse)
        result := ProtoMessageEndpoint.ofStop
          (pathFormat.scan 10000 view).consumed
          (pathFormat.scan 10000 view).stop } := by
  have hViews :=
    ConstCharArrayBuffer.views_ofBuffers hFlatten hLength
  have hLoop := checkLoop_eq_scan parse hViews
    (by rwa [List.drop_zero]) 0 log
  rwa [List.drop_zero, Nat.zero_add] at hLoop

/- Given just one whole frame, the reader does what
   `SearchFrame.take` says. -/
theorem checkForMessage_encode
    {parse : Wire → Option TransportHeader}
    {f : SearchFrame}
    {call : ProtoPathCall}
    (hTake : f.take parse = .ok call)
    {data : List (List UInt8)}
    (hFlatten : data.flatten = f.encode)
    (log : List ProtoPathCall) :
    record.checkForMessage parse data log =
      { world := log ++ [call]
        result := .ok (8 + f.bodySize, 8) } := by
  rcases (f.take_eq_ok_iff parse call).mp hTake with
    ⟨hLimit, hCall⟩
  have hStream : pathFormat.stream [f] = f.encode :=
    List.append_nil _
  have hReads : ∀ g ∈ [f], pathFormat.Reads 10000 g := by
    intro g hMem
    rw [List.mem_singleton.mp hMem]
    exact pathFormat_reads hLimit
  have hScan := pathFormat.scan_of_prefix hReads
    (List.prefix_refl (pathFormat.stream [f]))
  have hWhole := pathFormat.complete_of_le
    (Nat.le_refl (pathFormat.stream [f]).length)
  have hWidth : pathFormat.width = 8 := rfl
  rw [hWhole, pathFormat.missing_length_stream, hWidth,
    hStream, f.length_encode] at hScan
  have hParse : parse f.leader ≠ none := by
    intro hNone
    rw [SearchFrame.call, hNone] at hCall
    cases hCall
  rw [checkForMessage_eq_scan parse hFlatten
    (by rw [f.length_encode]; omega)
    (by
      intro g hMem
      rw [hScan] at hMem
      rw [List.mem_singleton.mp hMem]
      exact hParse), hScan]
  simp [hCall, ProtoMessageEndpoint.ofStop]

end ProtoPathMessageReader

end OefCore
