import OefCore.Comms.Reception

/-
  The detection of a peer's endianness by a fresh reader.

  In the state DUNNO a header is read little-endian first;
  where that gives no length, the next four bytes are read
  in network order.  A peer in network order is therefore
  read from its fifth byte on until the next call.

  Main declarations:
    * `skipped`
    * `ProtoMessageEndpoint.checkLoop_dunno_little`
    * `ProtoMessageEndpoint.checkForMessage_dunno_network`
    * `Detects`, `Detectable`, `detects_iff`
-/

------------------------------------------------------------
-- Reading while Undecided
------------------------------------------------------------

namespace OefCore

/-
  What is read in network order by the detecting call: the
  view without its first four bytes, filled up with the
  `0xFF`s that a read past the end gives.
-/
def skipped (view : List UInt8) : List UInt8 :=
  view.drop 4 ++ List.replicate (8 - view.length) 255

namespace ProtoMessageEndpoint

variable {σ : Type}

/- Loops whose passes agree come to the same. -/
theorem checkLoop_congr
    {ep ep' : ProtoMessageEndpoint (List (List UInt8))}
    (hRecords : ep.Records)
    {chars chars' : ConstCharArrayBuffer}
    (hPass : ep.iterate chars = ep'.iterate chars')
    (consumed : Nat)
    (log : List (List UInt8)) :
    ep.checkLoop chars consumed log =
      ep'.checkLoop chars' consumed log := by
  cases hOut : ep.iterate chars with
  | needs needed next =>
      rw [checkLoop_needs hOut,
        checkLoop_needs (hPass.symm.trans hOut)]
  | throws what next =>
      rw [checkLoop_throws hOut,
        checkLoop_throws (hPass.symm.trans hOut)]
  | message buffer bodySize next body =>
      have hNext : next.Records := by
        have hKept := hRecords.iterate chars
        rwa [hOut] at hKept
      rw [checkLoop_message hOut hNext,
        checkLoop_message (hPass.symm.trans hOut) hNext]

/- The endpoint is undecided and can still be told. -/
structure Undecided
    (ep : ProtoMessageEndpoint (List (List UInt8))) :
    Prop where
  endianness_eq : ep.protoMessageReader.endianness = .dunno
  alive : ep.alive = true
  records : ep.Records

namespace Undecided

variable {ep : ProtoMessageEndpoint (List (List UInt8))}

theorem setDetected_eq
    (hEp : ep.Undecided)
    (e : Endianness) :
    ep.setDetectedEndianness e = ep.setEndianness e := by
  rw [setDetectedEndianness, if_pos hEp.alive]

/- A header that reads as a small little-endian number is
   read as it will be from then on. -/
theorem iterate_little
    (hEp : ep.Undecided)
    {chars : ConstCharArrayBuffer}
    (hMore : 4 ≤ chars.remainingData)
    (hLittle : chars.readLittleEndian.1 < 65535) :
    ep.iterate chars =
      (ep.setEndianness .little).iterate chars := by
  have hHead :
      ep.readHead chars =
        (ep.setEndianness .little).readHead chars := by
    simp only [readHead, hEp.endianness_eq, if_pos hLittle,
      hEp.setDetected_eq]
    rfl
  rw [iterate, iterate, if_neg (by omega), if_neg (by omega),
    hHead]

/- Otherwise the next four bytes decide. -/
theorem readHead_network
    (hEp : ep.Undecided)
    {chars second : ConstCharArrayBuffer}
    (hLittle : ¬ chars.readLittleEndian.1 < 65535)
    (hSecond : chars.readLittleEndian.2 = second)
    {bodySize : Nat}
    (hSize : second.read.1 = bodySize)
    (hNetwork : bodySize < 65535) :
    ep.readHead chars =
      (.ok bodySize, ep.setEndianness .network,
        second.read.2) := by
  subst hSecond hSize
  simp only [readHead, hEp.endianness_eq, if_neg hLittle,
    if_pos hNetwork, hEp.setDetected_eq]

theorem iterate_neither
    (hEp : ep.Undecided)
    {chars : ConstCharArrayBuffer}
    (hMore : 4 ≤ chars.remainingData)
    (hLittle : ¬ chars.readLittleEndian.1 < 65535)
    (hNetwork : ¬ chars.readLittleEndian.2.read.1 < 65535) :
    ep.iterate chars =
      .throws "Could not determine endianness." ep := by
  rw [iterate, if_neg (by omega)]
  simp only [readHead, hEp.endianness_eq, if_neg hLittle,
    if_neg hNetwork]

/- A small little-endian header settles the reader before
   anything else is read. -/
theorem checkForMessage_little
    (hEp : ep.Undecided)
    {data : List (List UInt8)}
    {view : List UInt8}
    (hFlatten : data.flatten = view)
    (hLength : view.length < 2 ^ 31)
    (hHead : 4 ≤ view.length)
    (hLittle : littleWord (view.take 4) < 65535)
    (log : List (List UInt8)) :
    ep.checkForMessage data log =
      (ep.setEndianness .little).checkForMessage data log := by
  have hViews :=
    ConstCharArrayBuffer.views_ofBuffers hFlatten hLength
  have hRemaining := hViews.remainingData_eq
  have hRead := hViews.readLittleEndian_eq (by omega)
  rw [List.drop_zero] at hRead
  have hMore :
      4 ≤ (ConstCharArrayBuffer.ofBuffers data).remainingData
      := by omega
  have hPass := hEp.iterate_little hMore
    (by rw [hRead]; exact hLittle)
  exact checkLoop_congr hEp.records hPass 0 log

/- The header that is read in network order. -/
theorem take_skipped
    {view : List UInt8}
    (hHead : 4 ≤ view.length) :
    (skipped view).take 4 =
      [view.getD 4 255, view.getD 5 255, view.getD 6 255,
        view.getD 7 255] := by
  match view, hHead with
  | [_, _, _, _], _ => rfl
  | [_, _, _, _, _], _ => rfl
  | [_, _, _, _, _, _], _ => rfl
  | [_, _, _, _, _, _, _], _ => rfl
  | _ :: _ :: _ :: _ :: _ :: _ :: _ :: _ :: _, _ => rfl

theorem length_skipped
    {view : List UInt8}
    (hHead : 4 ≤ view.length) :
    (skipped view).length = max view.length 8 - 4 := by
  simp only [skipped, List.length_append, List.length_drop,
    List.length_replicate]
  omega

/- A view of which the second four bytes are read as the
   header, as the first four give no length. -/
structure SecondHeader
    (chars : ConstCharArrayBuffer)
    (view : List UInt8)
    (bodySize : Nat) : Prop where
  head : 4 ≤ view.length
  remaining : 4 ≤ chars.remainingData
  not_little : ¬ chars.readLittleEndian.1 < 65535
  after_little : chars.readLittleEndian.2 = chars.advance 4
  views : (chars.advance 4).Views view 4
  size_eq : (chars.advance 4).read.1 = bodySize
  after :
    (chars.advance 4).read.2.Views view
      (min (4 + 4) view.length)
  word_eq :
    bodySize =
      ntohl (view.getD 4 255) (view.getD 5 255)
        (view.getD 6 255) (view.getD 7 255)

theorem secondHeader_of_views
    {chars : ConstCharArrayBuffer}
    {view : List UInt8}
    (hViews : chars.Views view 0)
    (hHead : 4 ≤ view.length)
    (hLittle : ¬ littleWord (view.take 4) < 65535) :
    SecondHeader chars view (chars.advance 4).read.1 := by
  have hRemaining := hViews.remainingData_eq
  have hRead := hViews.readLittleEndian_eq (by omega)
  rw [List.drop_zero] at hRead
  have hSecond : (chars.advance 4).Views view 4 := by
    have hNext := hViews.advance 4 (by omega)
    rwa [Nat.zero_add] at hNext
  rcases hSecond.read_getD with ⟨hWord, hAfter⟩
  exact
    { head := hHead
      remaining := by omega
      not_little := by
        rw [hRead]
        exact hLittle
      after_little := by rw [hRead]
      views := hSecond
      size_eq := rfl
      after := hAfter
      word_eq := hWord }

namespace SecondHeader

variable {chars : ConstCharArrayBuffer} {view : List UInt8}
variable {bodySize : Nat}

theorem decode_eq
    (hSecond : SecondHeader chars view bodySize) :
    networkHeader.decode
        ((skipped view).take networkHeader.width) =
      bodySize := by
  change networkHeader.decode ((skipped view).take 4) = _
  rw [take_skipped hSecond.head, hSecond.word_eq]
  rfl

theorem width_le
    (hSecond : SecondHeader chars view bodySize) :
    networkHeader.width ≤ (skipped view).length := by
  have hHead := hSecond.head
  rw [length_skipped hHead]
  change 4 ≤ _
  omega

/- A length that is refused: the pass throws, one way or the
   other. -/
theorem refused
    (hSecond : SecondHeader chars view bodySize)
    (hEp : ep.Undecided)
    (hLong : 10000 < bodySize)
    (log : List (List UInt8)) :
    (networkHeader.scan 10000 (skipped view)).2 =
        .tooLong bodySize ∧
      ∃ what,
        (ep.checkLoop chars 0 log).result = .error what := by
  constructor
  · rw [Framing.Header.scan,
      if_neg (Nat.not_lt.mpr hSecond.width_le)]
    simp only [hSecond.decode_eq, if_pos hLong]
  · by_cases hNetwork : bodySize < 65535
    · have hRefuse := iterate_tooLong hSecond.remaining
        (hEp.readHead_network hSecond.not_little
          hSecond.after_little hSecond.size_eq hNetwork) hLong
      exact ⟨_, by rw [checkLoop_throws hRefuse]⟩
    · have hThrow := hEp.iterate_neither hSecond.remaining
        hSecond.not_little
        (by
          rw [hSecond.after_little, hSecond.size_eq]
          exact hNetwork)
      exact ⟨_, by rw [checkLoop_throws hThrow]⟩

/- A header that is not whole: the word read ends in `0xFF`s,
   and no body can follow. -/
theorem short
    (hSecond : SecondHeader chars view bodySize)
    (hEp : ep.Undecided)
    (hFits : ¬ 10000 < bodySize)
    (hShort : view.length < 8)
    (log : List (List UInt8)) :
    networkHeader.scan 10000 (skipped view) =
        ([], .short bodySize) ∧
      ep.checkLoop chars 0 log =
        { endpoint := ep.setEndianness .network
          world := log
          result := .ok (0, bodySize) } := by
  have hHead := hSecond.head
  have hLast : 255 ≤ bodySize := by
    rw [hSecond.word_eq, ntohl,
      List.getD_eq_default (n := 7) _ _ (by omega)]
    simp
  have hEnd : view.length - min (4 + 4) view.length = 0 := by
    omega
  have hSwitch :=
    hEp.readHead_network hSecond.not_little
      hSecond.after_little hSecond.size_eq (by omega)
  have hNeeds := iterate_short_body hSecond.remaining hSwitch
    hSecond.after (by omega) (by omega)
  rw [hEnd] at hNeeds
  constructor
  · have hRest :
        ((skipped view).drop networkHeader.width).length =
          0 := by
      rw [List.length_drop, length_skipped hHead]
      change max view.length 8 - 4 - 4 = 0
      omega
    rw [Framing.Header.scan,
      if_neg (Nat.not_lt.mpr hSecond.width_le)]
    simp only [hSecond.decode_eq, if_neg hFits, hRest]
    rw [if_pos (by omega)]
    rfl
  · rw [checkLoop_needs hNeeds]
    rfl

/- A whole header: from there on it is a settled reader. -/
theorem settled
    (hSecond : SecondHeader chars view bodySize)
    (hEp : ep.Undecided)
    (hFits : ¬ 10000 < bodySize)
    (hWhole : 8 ≤ view.length)
    (log : List (List UInt8)) :
    ep.checkLoop chars 0 log =
      (ep.setEndianness .network).checkLoop
        (chars.advance 4) 0 log := by
  have hSwitch :=
    hEp.readHead_network hSecond.not_little
      hSecond.after_little hSecond.size_eq (by omega)
  have hSame :
      (ep.setEndianness .network).readHead
          (chars.advance 4) =
        (.ok bodySize, ep.setEndianness .network,
          (chars.advance 4).read.2) := by
    simp only [readHead, setEndianness, hSecond.size_eq]
  have hMore := hSecond.remaining
  have hNext := hSecond.views.remainingData_eq
  have hPass :
      ep.iterate chars =
        (ep.setEndianness .network).iterate
          (chars.advance 4) := by
    rw [iterate, iterate, if_neg (by omega),
      if_neg (by omega), hSwitch, hSame]
  exact checkLoop_congr hEp.records hPass 0 log

end SecondHeader

/-
  Otherwise the call scans what is skipped to, in network
  order: it settles on that order, or throws where the scan
  meets a length that is refused.
-/
theorem checkForMessage_network
    (hEp : ep.Undecided)
    {data : List (List UInt8)}
    {view : List UInt8}
    (hFlatten : data.flatten = view)
    (hLength : view.length < 2 ^ 31)
    (hHead : 4 ≤ view.length)
    (hLittle : ¬ littleWord (view.take 4) < 65535)
    (log : List (List UInt8)) :
    (∃ needed,
      (networkHeader.scan 10000 (skipped view)).2 =
          .short needed ∧
        ep.checkForMessage data log =
          { endpoint := ep.setEndianness .network
            world := log ++
              (networkHeader.scan 10000 (skipped view)).1
            result := .ok
              ((networkHeader.stream (networkHeader.scan 10000
                (skipped view)).1).length, needed) }) ∨
      (∃ length what,
        (networkHeader.scan 10000 (skipped view)).2 =
            .tooLong length ∧
          (ep.checkForMessage data log).result =
            .error what) := by
  have hSecond :=
    secondHeader_of_views
      (ConstCharArrayBuffer.views_ofBuffers hFlatten hLength)
      hHead hLittle
  rw [ProtoMessageEndpoint.checkForMessage]
  generalize ConstCharArrayBuffer.ofBuffers data = chars
    at hSecond ⊢
  generalize (chars.advance 4).read.1 = bodySize at hSecond
  by_cases hLong : 10000 < bodySize
  · right
    rcases hSecond.refused hEp hLong log with
      ⟨hScan, what, hThrows⟩
    exact ⟨_, what, hScan, hThrows⟩
  · by_cases hShort : view.length < 8
    · left
      rcases hSecond.short hEp hLong hShort log with
        ⟨hScan, hLoop⟩
      refine ⟨bodySize, by rw [hScan], ?_⟩
      rw [hLoop, hScan]
      simp
    · have hZero : 8 - view.length = 0 := by omega
      have hSkip : skipped view = view.drop 4 := by
        simp [skipped, hZero]
      have hEnd :
          (ep.setEndianness .network).protoMessageReader.endianness
            = .network := rfl
      have hScan := checkLoop_eq_scan hEnd (Or.inr rfl)
        hEp.records hSecond.views 0 log
      have hHeader :
          Endianness.network.header = networkHeader := rfl
      rw [hHeader, Nat.zero_add] at hScan
      rw [hSecond.settled hEp hLong (by omega) log, hScan,
        hSkip]
      cases hStop :
          (networkHeader.scan 10000 (view.drop 4)).2 with
      | short needed => exact Or.inl ⟨needed, rfl, rfl⟩
      | tooLong length =>
          exact Or.inr ⟨length, _, rfl, rfl⟩

end Undecided

end ProtoMessageEndpoint

------------------------------------------------------------
-- Before the First Header
------------------------------------------------------------

/- The endpoint of a connection before anything arrived. -/
def freshEndpoint : ProtoMessageEndpoint (List (List UInt8)) :=
  .fresh ProtoMessageEndpoint.record

theorem undecided_fresh : freshEndpoint.Undecided where
  endianness_eq := rfl
  alive := rfl
  records := rfl

namespace Reception

/- Nothing has been consumed yet and nothing is decided. -/
structure Waiting
    (r : Reception)
    (bytes : List UInt8) : Prop where
  endpoint_eq : r.endpoint = freshEndpoint
  rest_eq : r.rest = bytes
  log_eq : r.log = []
  consumed_eq : r.consumed = 0

theorem waiting_start :
    (start freshEndpoint).Waiting [] where
  endpoint_eq := rfl
  rest_eq := rfl
  log_eq := rfl
  consumed_eq := rfl

/- Fewer than four bytes decide nothing. -/
theorem Waiting.arrive
    {r : Reception}
    {bytes : List UInt8}
    (hWaiting : r.Waiting bytes)
    {arrival : Arrival}
    (hShort : (bytes ++ arrival.bytes).length < 4) :
    ∃ r',
      r.arrive arrival = .ok r' ∧
        r'.Waiting (bytes ++ arrival.bytes) := by
  have hView : r.view arrival = bytes ++ arrival.bytes := by
    rw [view, hWaiting.rest_eq]
  have hFlat := arrival.flatten_cut (r.view arrival)
  rw [hView] at hFlat
  have hViews := ConstCharArrayBuffer.views_ofBuffers hFlat
    (by omega)
  have hPass := ProtoMessageEndpoint.iterate_short_head
    r.endpoint hViews (by omega)
  have hCheck :=
    ProtoMessageEndpoint.checkLoop_needs hPass 0 r.log
  have hArrive :
      r.arrive arrival =
        .ok
          { endpoint := r.endpoint
            rest := bytes ++ arrival.bytes
            log := r.log
            answers := r.answers ++
              [(0, 4 - ((bytes ++ arrival.bytes).length - 0))]
          } := by
    simp only [Reception.arrive, hView,
      ProtoMessageEndpoint.checkForMessage, hCheck,
      List.drop_zero]
  refine ⟨_, hArrive, ?_⟩
  exact
    { endpoint_eq := hWaiting.endpoint_eq
      rest_eq := rfl
      log_eq := hWaiting.log_eq
      consumed_eq := by
        have hZero := hWaiting.consumed_eq
        simp only [consumed] at hZero
        simp [consumed, hZero] }

theorem Waiting.arriveAll
    {r : Reception}
    {bytes : List UInt8}
    (hWaiting : r.Waiting bytes)
    (arrivals : List Arrival)
    (hShort : (bytes ++ received arrivals).length < 4) :
    ∃ r',
      r.arriveAll arrivals = .ok r' ∧
        r'.Waiting (bytes ++ received arrivals) := by
  induction arrivals generalizing r bytes with
  | nil => exact ⟨r, rfl, by simpa [received] using hWaiting⟩
  | cons arrival arrivals ih =>
      have hAll :
          received (arrival :: arrivals) =
            arrival.bytes ++ received arrivals := rfl
      rw [hAll, ← List.append_assoc] at hShort ⊢
      have hFirst :
          (bytes ++ arrival.bytes).length < 4 := by
        rw [List.length_append] at hShort
        omega
      rcases hWaiting.arrive hFirst with
        ⟨next, hArrive, hNext⟩
      rcases ih hNext hShort with ⟨last, hLast, hEnd⟩
      refine ⟨last, ?_, hEnd⟩
      rw [arriveAll_cons, hArrive]
      exact hLast

end Reception

/- The arrival that completes the first four bytes. -/
theorem exists_first_header
    {arrivals : List Arrival}
    (hMore : 4 ≤ (received arrivals).length) :
    ∃ front arrival back,
      arrivals = front ++ arrival :: back ∧
        (received front).length < 4 ∧
        4 ≤ (received (front ++ [arrival])).length := by
  -- the shortest part in front that has four bytes
  induction arrivals using List.reverseRecOn with
  | nil => simp [received] at hMore
  | append_singleton most last ih =>
      by_cases hMost : 4 ≤ (received most).length
      · rcases ih hMost with
          ⟨front, arrival, back, rfl, hFront, hFirst⟩
        exact ⟨front, arrival, back ++ [last], by simp,
          hFront, hFirst⟩
      · exact ⟨most, last, [], rfl, by omega, hMore⟩

------------------------------------------------------------
-- Detection
------------------------------------------------------------

/-
  The whole stream of a peer has arrived: the reader and the
  sender have the peer's endianness and exactly the peer's
  messages have been handed on.
-/
def Detects
    (e : Endianness)
    (bodies : List (List UInt8))
    (arrivals : List Arrival) : Prop :=
  ∃ r,
    (Reception.start freshEndpoint).arriveAll arrivals =
        .ok r ∧
      r.endpoint.protoMessageReader.endianness = e ∧
      r.endpoint.protoMessageSender.endianness = e ∧
      r.log = bodies

/-
  No view outgrows an `int`: every arrival ends less than
  `2 ^ 31` bytes after the frames complete before it.
-/
def ViewsFit
    (e : Endianness)
    (bodies : List (List UInt8))
    (arrivals : List Arrival) : Prop :=
  ∀ front arrival back,
    arrivals = front ++ arrival :: back →
      (received (front ++ [arrival])).length <
        (e.header.stream (e.header.complete bodies
          (received front).length)).length + 2 ^ 31

/-
  A peer in network order survives the detecting call: that
  call has a successor, and reading its view from the fifth
  byte on meets no length that is refused and no message
  but the peer's first ones.
-/
def SkipHarmless
    (bodies : List (List UInt8))
    (arrivals : List Arrival) : Prop :=
  ∃ front arrival next back needed,
    arrivals = front ++ arrival :: next :: back ∧
      (received front).length < 4 ∧
      4 ≤ (received (front ++ [arrival])).length ∧
      (networkHeader.scan 10000
          (skipped (received (front ++ [arrival])))).2 =
        .short needed ∧
      (networkHeader.scan 10000
          (skipped (received (front ++ [arrival])))).1 <+:
        bodies ∧
      (received (front ++ [arrival, next])).length <
        (networkHeader.stream (networkHeader.scan 10000
          (skipped (received (front ++ [arrival])))).1).length +
          2 ^ 31

/- The streams and arrivals for which detection works. -/
def Detectable
    (e : Endianness)
    (bodies : List (List UInt8))
    (arrivals : List Arrival) : Prop :=
  ViewsFit e bodies arrivals ∧
    (e = .network → SkipHarmless bodies arrivals)

/- A run through three stretches of arrivals. -/
theorem Reception.exists_split
    {r last : Reception}
    {front back : List Arrival}
    {arrival : Arrival}
    (hRun :
      r.arriveAll (front ++ arrival :: back) = .ok last) :
    ∃ before after,
      r.arriveAll front = .ok before ∧
        before.arrive arrival = .ok after ∧
        after.arriveAll back = .ok last := by
  rw [arriveAll_append] at hRun
  cases hFront : r.arriveAll front with
  | error what =>
      rw [hFront] at hRun
      cases hRun
  | ok before =>
      rw [hFront] at hRun
      have hRest :
          before.arriveAll (arrival :: back) = .ok last :=
        hRun
      rw [arriveAll_cons] at hRest
      cases hHere : before.arrive arrival with
      | error what =>
          rw [hHere] at hRest
          cases hRest
      | ok after =>
          rw [hHere] at hRest
          exact ⟨before, after, rfl, hHere, hRest⟩

/-
  In a run that hands on the whole stream, every view is
  shorter than an `int` can count, and what has been handed
  on before it comes first in the stream.
-/
theorem view_lt_of_delivered
    {e : Endianness}
    {bodies : List (List UInt8)}
    {front back : List Arrival}
    {arrival : Arrival}
    (hBytes :
      received (front ++ arrival :: back) =
        e.header.stream bodies)
    {last before : Reception}
    (hRun :
      (Reception.start freshEndpoint).arriveAll
          (front ++ arrival :: back) = .ok last)
    (hLog : last.log = bodies)
    (hBefore :
      (Reception.start freshEndpoint).arriveAll front =
        .ok before) :
    (before.view arrival).length < 2 ^ 31 ∧
      before.log <+: bodies ∧
      (e.header.stream before.log).length +
          before.rest.length =
        (received front).length := by
  rcases Reception.exists_split hRun with
    ⟨before', after, hFront, hHere, hBack⟩
  cases hBefore.symm.trans hFront
  have hStart := undecided_fresh.records
  have hFirst := Reception.arriveAll_later hStart hBefore
  rcases Reception.arrive_later hFirst.records hHere with
    ⟨hSecond, hOverflow⟩
  have hThird := Reception.arriveAll_later hSecond.records
    hBack
  rcases hFirst.further with ⟨early, hEarly, hHeld⟩
  rcases (hFirst.trans (hSecond.trans hThird)).further with
    ⟨all, hAll, hTotal⟩
  rcases (hSecond.trans hThird).further with
    ⟨late, hLate, -⟩
  have hNone :
      (Reception.start freshEndpoint).rest.length = 0 := rfl
  have hEmpty : (Reception.start freshEndpoint).log = [] := rfl
  rw [hEmpty, List.nil_append] at hEarly hAll
  rw [hNone] at hHeld hTotal
  have hWhole :
      (received front).length +
          (arrival.bytes.length + (received back).length) =
        (e.header.stream bodies).length := by
    rw [← hBytes, received_append, List.length_append]
    exact congrArg _ List.length_append.symm
  rw [← hAll, hLog, e.length_stream] at hTotal
  refine ⟨?_, ?_, ?_⟩
  · by_contra hFull
    have hStuck := hThird.stuck (hOverflow (by omega))
    omega
  · rw [← hLog, hLate]
    exact List.prefix_append _ _
  · rw [hEarly, ← e.length_stream]
    omega

theorem viewsFit_of_detects
    {e : Endianness}
    {bodies : List (List UInt8)}
    {arrivals : List Arrival}
    (hBytes : received arrivals = e.header.stream bodies)
    (hDetects : Detects e bodies arrivals) :
    ViewsFit e bodies arrivals := by
  intro front arrival back hSplit
  subst hSplit
  rcases hDetects with ⟨last, hRun, -, -, hLog⟩
  rcases Reception.exists_split hRun with
    ⟨before, after, hFront, -, -⟩
  rcases view_lt_of_delivered hBytes hRun hLog hFront with
    ⟨hView, hPrefix, hHeld⟩
  have hBehind := e.header.length_stream_le_complete
    (n := (received front).length) hPrefix (by omega)
  have hOne : received [arrival] = arrival.bytes := by
    simp [received]
  rw [Reception.view, List.length_append] at hView
  rw [received_append, List.length_append, hOne]
  omega

/- From a synced receiver on, everything is delivered. -/
theorem detects_of_synced
    {e : Endianness}
    {bodies : List (List UInt8)}
    {front back : List Arrival}
    (hLimit : ∀ body ∈ bodies, body.length ≤ 10000)
    (hBytes :
      received (front ++ back) = e.header.stream bodies)
    (hFit : ViewsFit e bodies (front ++ back))
    {r : Reception}
    (hRun :
      (Reception.start freshEndpoint).arriveAll front = .ok r)
    (hEndpoint : r.endpoint = freshEndpoint.setEndianness e)
    (hSynced : r.Synced e bodies (received front).length) :
    Detects e bodies (front ++ back) := by
  rw [received_append] at hBytes
  have hTake :
      (e.header.stream bodies).take (received front).length =
        received front := by
    rw [← hBytes]
    exact List.take_left' rfl
  have hViews :
      ∀ most arrival others,
        back = most ++ arrival :: others →
          (received front).length +
              (received (most ++ [arrival])).length <
            (e.header.stream (e.header.complete bodies
              ((received front).length +
                (received most).length))).length + 2 ^ 31 := by
    intro most arrival others hSplit
    have hHere := hFit (front ++ most) arrival others
      (by rw [hSplit, List.append_assoc])
    simp only [List.append_assoc, received_append,
      List.length_append] at hHere ⊢
    exact hHere
  rcases hSynced.arriveAll hLimit back
      (by rw [hTake, hBytes]) hViews with
    ⟨last, hBack, hKept, hLast⟩
  have hAll :
      e.header.complete bodies
          ((received front).length + (received back).length) =
        bodies := by
    apply e.header.complete_of_le
    rw [← hBytes, List.length_append]
  refine ⟨last, ?_, ?_, ?_, ?_⟩
  · rw [Reception.arriveAll_append, hRun]
    exact hBack
  · rw [hKept, hEndpoint]
    rfl
  · rw [hKept, hEndpoint]
    rfl
  · rw [hLast.log_eq, hAll]

/- The receiver before the first header is complete. -/
theorem exists_waiting
    (front : List Arrival)
    (arrival : Arrival)
    (hFront : (received front).length < 4) :
    ∃ r,
      (Reception.start freshEndpoint).arriveAll front = .ok r ∧
        r.Waiting (received front) ∧
        r.view arrival = received (front ++ [arrival]) := by
  rcases Reception.waiting_start.arriveAll front
      (by simpa using hFront) with ⟨r, hRun, hWaiting⟩
  rw [List.nil_append] at hWaiting
  refine ⟨r, hRun, hWaiting, ?_⟩
  rw [Reception.view, hWaiting.rest_eq, received_append]
  simp [received]

/- The first view with a header fits an `int`. -/
theorem ViewsFit.first
    {e : Endianness}
    {bodies : List (List UInt8)}
    {front back : List Arrival}
    {arrival : Arrival}
    (hFit : ViewsFit e bodies (front ++ arrival :: back))
    (hFront : (received front).length < 4) :
    (received (front ++ [arrival])).length < 2 ^ 31 := by
  have hHere := hFit front arrival back rfl
  have hNone :
      e.header.complete bodies (received front).length =
        [] := by
    cases bodies with
    | nil => rfl
    | cons body bodies =>
        apply e.header.complete_eq_nil_cons
        rw [e.header_width]
        omega
  rw [hNone] at hHere
  simpa using hHere

/- A first header in little-endian order reads as the length
   of the first body. -/
theorem small_of_little
    {bodies : List (List UInt8)}
    (hNe : bodies ≠ [])
    (hLimit : ∀ body ∈ bodies, body.length ≤ 10000)
    {view : List UInt8}
    (hPrefix :
      view <+: Endianness.little.header.stream bodies)
    (hHead : 4 ≤ view.length) :
    littleWord (view.take 4) < 65535 := by
  cases bodies with
  | nil => exact absurd rfl hNe
  | cons body bodies =>
      have hBody := hLimit body (by simp)
      have hDecode :=
        Framing.Header.decode_take_of_prefix
          Endianness.little.header hPrefix
          (by simpa using hHead) (by simp; omega)
      rw [Endianness.header_width] at hDecode
      have hWord :
          littleWord (view.take 4) = body.length := hDecode
      omega

/- A receiver that waits is aligned with the peer once the
   order is settled. -/
theorem Reception.Waiting.aligned_little
    {r : Reception}
    {bytes : List UInt8}
    (hWaiting : r.Waiting bytes)
    {bodies : List (List UInt8)}
    (hPrefix :
      bytes <+: Endianness.little.header.stream bodies) :
    ({ r with
        endpoint := freshEndpoint.setEndianness .little } :
      Reception).Aligned .little bodies bytes.length :=
  { settled := Or.inl rfl
    endianness_eq := rfl
    records := rfl
    within := hPrefix.length_le
    log_prefix := by
      rw [hWaiting.log_eq]
      exact List.nil_prefix
    fits := by
      rw [hWaiting.log_eq]
      exact Nat.zero_le _
    rest_eq := by
      rw [hWaiting.log_eq, ← List.prefix_iff_eq_take.mp hPrefix]
      exact hWaiting.rest_eq
    consumed_eq := by
      have hZero := hWaiting.consumed_eq
      rw [hWaiting.log_eq]
      exact hZero }

/- A peer in little-endian order is always detected. -/
theorem detects_little
    {bodies : List (List UInt8)}
    (hNe : bodies ≠ [])
    (hLimit : ∀ body ∈ bodies, body.length ≤ 10000)
    {arrivals : List Arrival}
    (hBytes :
      received arrivals =
        Endianness.little.header.stream bodies)
    (hFit : ViewsFit .little bodies arrivals) :
    Detects .little bodies arrivals := by
  have hMore : 4 ≤ (received arrivals).length := by
    have hLength := Framing.Header.width_mul_le_length_stream
      Endianness.little.header bodies
    rw [Endianness.header_width] at hLength
    have hPos := List.length_pos_iff.mpr hNe
    rw [hBytes]
    omega
  rcases exists_first_header hMore with
    ⟨front, arrival, back, rfl, hFront, hFirst⟩
  rcases exists_waiting front arrival hFront with
    ⟨r, hRun, hWaiting, hView⟩
  have hInt := hFit.first hFront
  rw [List.append_cons front arrival back] at hBytes hFit ⊢
  have hPrefix :
      received (front ++ [arrival]) <+:
        Endianness.little.header.stream bodies := by
    rw [← hBytes, received_append _ back]
    exact List.prefix_append _ _
  have hFrontTake :
      (Endianness.little.header.stream bodies).take
          (received front).length =
        received front := by
    rw [← hBytes, List.append_assoc, received_append]
    exact List.take_left' rfl
  have hSmall := small_of_little hNe hLimit hPrefix hFirst
  -- so the call is that of a settled reader
  have hSettled :
      r.arrive arrival =
        ({ r with
            endpoint := freshEndpoint.setEndianness .little } :
          Reception).arrive arrival := by
    have hSame :=
      undecided_fresh.checkForMessage_little
        ((arrival.flatten_cut _).trans hView) hInt hFirst
        hSmall r.log
    simp only [Reception.arrive, hWaiting.endpoint_eq, hSame]
    rfl
  have hFrontPrefix :
      received front <+:
        Endianness.little.header.stream bodies := by
    rw [received_append] at hPrefix
    exact (List.prefix_append _ _).trans hPrefix
  have hAligned := hWaiting.aligned_little hFrontPrefix
  have hOne : received [arrival] = arrival.bytes := by
    simp [received]
  rcases hAligned.arrive hLimit
      (by rwa [hFrontTake, ← hOne, ← received_append])
      (hView ▸ hInt) with
    ⟨next, hArrive, hEndpoint, hSynced⟩
  rw [← hOne, ← List.length_append, ← received_append]
    at hSynced
  exact detects_of_synced hLimit hBytes hFit
    (Reception.arriveAll_snoc hRun (hSettled.trans hArrive))
    hEndpoint hSynced

/- A first header in network order gives no little-endian
   length. -/
theorem not_small_of_network
    {bodies : List (List UInt8)}
    (hNe : bodies ≠ [])
    (hPos : ∀ body ∈ bodies, 1 ≤ body.length)
    (hLimit : ∀ body ∈ bodies, body.length ≤ 10000)
    {view : List UInt8}
    (hPrefix :
      view <+: Endianness.network.header.stream bodies)
    (hHead : 4 ≤ view.length) :
    ¬ littleWord (view.take 4) < 65535 := by
  cases bodies with
  | nil => exact absurd rfl hNe
  | cons body bodies =>
      have hFirst := hPos body (by simp)
      have hBody := hLimit body (by simp)
      have hDecode :=
        Framing.Header.decode_take_of_prefix
          Endianness.network.header hPrefix
          (by simpa using hHead) (by simp; omega)
      rw [Endianness.header_width] at hDecode
      have hWord :
          networkWord (view.take 4) = body.length := hDecode
      have hLarge := littleWord_ge_of_networkWord
        (by omega : 0 < networkWord (view.take 4))
        (by omega)
      omega

/-
  The call on the first header of a peer in network order:
  it goes on only where what it skips to is no refused
  length, and then hands on what it finds there.
-/
theorem Reception.Waiting.arrive_network
    {r : Reception}
    {bytes view : List UInt8}
    (hWaiting : r.Waiting bytes)
    {arrival : Arrival}
    (hView : r.view arrival = view)
    (hInt : view.length < 2 ^ 31)
    (hHead : 4 ≤ view.length)
    (hLittle : ¬ littleWord (view.take 4) < 65535) :
    (∃ needed,
      (networkHeader.scan 10000 (skipped view)).2 =
          .short needed ∧
        r.arrive arrival =
          .ok
            { endpoint := freshEndpoint.setEndianness .network
              rest := view.drop (networkHeader.stream
                (networkHeader.scan 10000
                  (skipped view)).1).length
              log :=
                (networkHeader.scan 10000 (skipped view)).1
              answers := r.answers ++
                [((networkHeader.stream (networkHeader.scan
                  10000 (skipped view)).1).length,
                  needed)] }) ∨
      ∃ length what,
        (networkHeader.scan 10000 (skipped view)).2 =
            .tooLong length ∧
          r.arrive arrival = .error what := by
  have hFlat := (arrival.flatten_cut _).trans hView
  rcases undecided_fresh.checkForMessage_network hFlat hInt
      hHead hLittle r.log with hGoesOn | hThrows
  · left
    rcases hGoesOn with ⟨needed, hStop, hCheck⟩
    refine ⟨needed, hStop, ?_⟩
    rw [hWaiting.log_eq, List.nil_append] at hCheck
    simp only [Reception.arrive, hWaiting.endpoint_eq,
      hWaiting.log_eq, hCheck]
    rw [hView]
  · right
    rcases hThrows with ⟨length, what, hStop, hCheck⟩
    refine ⟨length, what, hStop, ?_⟩
    simp only [Reception.arrive, hWaiting.endpoint_eq, hCheck]

/- What the detecting call skips to is shorter than what it
   is given. -/
theorem length_stream_skipped_le
    {view : List UInt8}
    (hHead : 4 ≤ view.length) :
    (networkHeader.stream (networkHeader.scan 10000
        (skipped view)).1).length ≤
      max (view.length - 4) 4 := by
  have hScan := networkHeader.length_stream_scan_le 10000
    (skipped view)
  rw [ProtoMessageEndpoint.Undecided.length_skipped hHead]
    at hScan
  omega

/- What a reception is after the detecting call, if what that
   call handed on are bodies of the peer. -/
theorem Reception.Waiting.aligned_network
    {r : Reception}
    {bytes view : List UInt8}
    (hWaiting : r.Waiting bytes)
    {bodies seen : List (List UInt8)}
    (hView :
      view <+: Endianness.network.header.stream bodies)
    (hSeen : seen <+: bodies)
    (hFits : (networkHeader.stream seen).length ≤ view.length)
    (needed : Nat) :
    ({ endpoint := freshEndpoint.setEndianness .network
       rest := view.drop (networkHeader.stream seen).length
       log := seen
       answers := r.answers ++
         [((networkHeader.stream seen).length, needed)] } :
      Reception).Aligned .network bodies view.length :=
  { settled := Or.inr rfl
    endianness_eq := rfl
    records := rfl
    within := hView.length_le
    log_prefix := hSeen
    fits := hFits
    rest_eq := by
      rw [← List.prefix_iff_eq_take.mp hView]
      rfl
    consumed_eq := by
      have hZero := hWaiting.consumed_eq
      simp only [Reception.consumed] at hZero ⊢
      simp [hZero]
      rfl }

theorem detects_network
    {bodies : List (List UInt8)}
    (hNe : bodies ≠ [])
    (hPos : ∀ body ∈ bodies, 1 ≤ body.length)
    (hLimit : ∀ body ∈ bodies, body.length ≤ 10000)
    {arrivals : List Arrival}
    (hBytes :
      received arrivals =
        Endianness.network.header.stream bodies)
    (hFit : ViewsFit .network bodies arrivals)
    (hSkip : SkipHarmless bodies arrivals) :
    Detects .network bodies arrivals := by
  rcases hSkip with
    ⟨front, arrival, next, back, needed, rfl, hFront, hFirst,
      hStop, hPrefix, hNextFit⟩
  rcases exists_waiting front arrival hFront with
    ⟨r, hRun, hWaiting, hView⟩
  have hInt := hFit.first hFront
  have hTwo :
      front ++ arrival :: next :: back =
        (front ++ [arrival, next]) ++ back := by simp
  have hOne :
      front ++ [arrival, next] =
        (front ++ [arrival]) ++ [next] := by simp
  have hFirstPrefix :
      received (front ++ [arrival]) <+:
        Endianness.network.header.stream bodies := by
    rw [← hBytes, hTwo, hOne, List.append_assoc,
      received_append _ ([next] ++ back)]
    exact List.prefix_append _ _
  have hLittle :=
    not_small_of_network hNe hPos hLimit hFirstPrefix hFirst
  rcases hWaiting.arrive_network hView hInt hFirst hLittle with
    hGoesOn | hThrows
  · rcases hGoesOn with ⟨needed', -, hArrive⟩
    generalize hSeen :
      (networkHeader.scan 10000
        (skipped (received (front ++ [arrival])))).1 = seen
      at hPrefix hNextFit hArrive
    have hTake := (List.prefix_iff_eq_take.mp hFirstPrefix).symm
    have hSeenFits :
        (networkHeader.stream seen).length ≤
          (received (front ++ [arrival])).length := by
      have hShort := length_stream_skipped_le hFirst
      rw [hSeen] at hShort
      omega
    have hAligned :=
      hWaiting.aligned_network hFirstPrefix hPrefix hSeenFits
        needed'
    have hNextOne : received [next] = next.bytes := by
      simp [received]
    rw [hOne, received_append, List.length_append, hNextOne]
      at hNextFit
    rw [hTwo] at hBytes hFit ⊢
    rcases hAligned.arrive hLimit
        (by
          rw [hTake, ← hNextOne, ← received_append, ← hOne,
            ← hBytes, received_append _ back]
          exact List.prefix_append _ _)
        (by
          simp only [Reception.view, List.length_append,
            List.length_drop]
          omega) with
      ⟨last, hNextArrive, hEndpoint, hSynced⟩
    rw [← hNextOne, ← List.length_append, ← received_append,
      ← hOne] at hSynced
    refine detects_of_synced hLimit hBytes hFit ?_ hEndpoint
      hSynced
    rw [hOne]
    exact Reception.arriveAll_snoc
      (Reception.arriveAll_snoc hRun hArrive) hNextArrive
  · rcases hThrows with ⟨length, what, hLong, -⟩
    rw [hStop] at hLong
    cases hLong

theorem skipHarmless_of_detects
    {bodies : List (List UInt8)}
    (hNe : bodies ≠ [])
    (hPos : ∀ body ∈ bodies, 1 ≤ body.length)
    (hLimit : ∀ body ∈ bodies, body.length ≤ 10000)
    {arrivals : List Arrival}
    (hBytes :
      received arrivals =
        Endianness.network.header.stream bodies)
    (hDetects : Detects .network bodies arrivals) :
    SkipHarmless bodies arrivals := by
  have hFit := viewsFit_of_detects hBytes hDetects
  -- the stream has a first body, so at least five bytes
  have hMore : 5 ≤ (received arrivals).length := by
    cases bodies with
    | nil => exact absurd rfl hNe
    | cons body bodies =>
        have hFirst := hPos body (by simp)
        rw [hBytes, Framing.Header.stream_cons,
          List.length_append, Framing.Header.length_frame,
          Endianness.header_width]
        omega
  rcases exists_first_header (Nat.le_of_succ_le hMore) with
    ⟨front, arrival, back, rfl, hFront, hFirst⟩
  rcases exists_waiting front arrival hFront with
    ⟨r, hRun, hWaiting, hView⟩
  have hInt := hFit.first hFront
  have hFirstPrefix :
      received (front ++ [arrival]) <+:
        Endianness.network.header.stream bodies := by
    rw [← hBytes, List.append_cons front arrival back,
      received_append _ back]
    exact List.prefix_append _ _
  have hLittle :=
    not_small_of_network hNe hPos hLimit hFirstPrefix hFirst
  rcases hDetects with ⟨last, hAll, -, -, hLog⟩
  rcases Reception.exists_split hAll with
    ⟨before, after, hBefore, hHere, hAfter⟩
  cases hRun.symm.trans hBefore
  rcases hWaiting.arrive_network hView hInt hFirst hLittle with
    hGoesOn | hThrows
  · rcases hGoesOn with ⟨needed, hStop, hArrive⟩
    cases hArrive.symm.trans hHere
    cases back with
    | nil =>
        -- the skipped part cannot hold all messages
        cases hAfter
        have hShort := length_stream_skipped_le hFirst
        have hHeader :
            Endianness.network.header = networkHeader := rfl
        simp only at hLog
        rw [hLog, ← hHeader, ← hBytes] at hShort
        omega
    | cons next back =>
        rw [List.append_cons front arrival (next :: back)]
          at hAll hBytes
        rcases view_lt_of_delivered hBytes hAll hLog
            (Reception.arriveAll_snoc hRun hHere) with
          ⟨hNext, hPrefix, hHeld⟩
        have hOne :
            front ++ [arrival, next] =
              (front ++ [arrival]) ++ [next] := by simp
        refine ⟨front, arrival, next, back, needed, rfl,
          hFront, hFirst, hStop, hPrefix, ?_⟩
        have hHeader :
            Endianness.network.header = networkHeader := rfl
        rw [hHeader] at hHeld
        rw [Reception.view, List.length_append] at hNext
        rw [hOne, received_append, List.length_append]
        simp only [received, List.flatMap_singleton] at *
        omega
  · rcases hThrows with ⟨length, what, -, hArrive⟩
    rw [hArrive] at hHere
    cases hHere

/-
  Detection works for exactly the detectable streams: a peer
  in little-endian order is always understood, a peer in
  network order only where the four bytes that are skipped
  do no harm.
-/
theorem detects_iff
    {e : Endianness}
    (hSettled : e.Settled)
    {bodies : List (List UInt8)}
    (hNe : bodies ≠ [])
    (hPos : ∀ body ∈ bodies, 1 ≤ body.length)
    (hLimit : ∀ body ∈ bodies, body.length ≤ 10000)
    {arrivals : List Arrival}
    (hBytes : received arrivals = e.header.stream bodies) :
    Detects e bodies arrivals ↔
      Detectable e bodies arrivals := by
  rcases hSettled with hLittle | hNetwork
  · subst hLittle
    constructor
    · intro hDetects
      exact ⟨viewsFit_of_detects hBytes hDetects,
        fun hOther => by cases hOther⟩
    · intro hDetectable
      exact detects_little hNe hLimit hBytes hDetectable.1
  · subst hNetwork
    constructor
    · intro hDetects
      exact ⟨viewsFit_of_detects hBytes hDetects, fun _ =>
        skipHarmless_of_detects hNe hPos hLimit hBytes
          hDetects⟩
    · intro hDetectable
      exact detects_network hNe hPos hLimit hBytes
        hDetectable.1 (hDetectable.2 rfl)

theorem detects_iff_one_message :
    Detects .little [[7]] [wholeArrival [1, 0, 0, 0, 7]] ↔
      Detectable .little [[7]]
        [wholeArrival [1, 0, 0, 0, 7]] :=
  detects_iff (Or.inl rfl) (by decide) (by decide) (by decide)
    (by decide)

/-
  A peer in network order sends one message of one byte: the
  fifth byte is taken for the start of a header.
-/
theorem not_detects_network :
    ¬ Detects .network [[7]]
        [wholeArrival [0, 0, 0, 1, 7]] := by
  have hThrows :
      ((Reception.start freshEndpoint).arriveAll
          [wholeArrival [0, 0, 0, 1, 7]]).isOk = false := by
    decide +kernel
  rintro ⟨r, hRun, -⟩
  rw [hRun] at hThrows
  cases hThrows

end OefCore
