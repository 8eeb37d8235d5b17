import OefCore.Comms.ProtoMessageSender

/-
  A connection's byte stream reaching a reader in arrivals,
  and the round trip of framing through both sides.

  Main declarations:
    * `Arrival`, `Reception`, `Reception.arriveAll`
    * `Reception.Synced` and `Reception.arriveAll_synced`
    * `RoundTrips`
    * `roundTrips_of_space_lt`
-/

------------------------------------------------------------
-- Arrivals
------------------------------------------------------------

namespace OefCore

/-
  Some bytes arriving, and how the view that holds them is
  cut into the buffers of one `checkForMessage` call.
-/
structure Arrival where
  bytes : List UInt8
  cut : List UInt8 → List (List UInt8)
  flatten_cut : ∀ view, (cut view).flatten = view

/- Some bytes that arrive in one buffer. -/
def wholeArrival (bytes : List UInt8) : Arrival where
  bytes := bytes
  cut := fun view => [view]
  flatten_cut := fun _ => List.append_nil _

/- All bytes of some arrivals. -/
def received (arrivals : List Arrival) : List UInt8 :=
  arrivals.flatMap Arrival.bytes

theorem received_append
    (front back : List Arrival) :
    received (front ++ back) =
      received front ++ received back :=
  List.flatMap_append

/-
  A receiving side between two arrivals: the bytes it has
  not consumed, the bodies it has handed on, and the
  answers of its `checkForMessage` calls.
-/
structure Reception where
  endpoint : ProtoMessageEndpoint (List (List UInt8))
  rest : List UInt8
  log : List (List UInt8)
  answers : List (Nat × Nat)

namespace Reception

/- A receiving side before the first arrival. -/
def start
    (endpoint : ProtoMessageEndpoint (List (List UInt8))) :
    Reception :=
  { endpoint := endpoint
    rest := []
    log := []
    answers := [] }

/- The unconsumed bytes followed by those that arrive. -/
def view
    (r : Reception)
    (arrival : Arrival) : List UInt8 :=
  r.rest ++ arrival.bytes

/- One call of the reader on the new view. -/
def arrive
    (r : Reception)
    (arrival : Arrival) : Except String Reception :=
  let checked := r.endpoint.checkForMessage
    (arrival.cut (r.view arrival)) r.log
  match checked.result with
  | .error what => .error what
  | .ok (consumed, needed) =>
      .ok
        { endpoint := checked.endpoint
          rest := (r.view arrival).drop consumed
          log := checked.world
          answers := r.answers ++ [(consumed, needed)] }

/- The arrivals one after the other, until one throws. -/
def arriveAll
    (r : Reception)
    (arrivals : List Arrival) : Except String Reception :=
  arrivals.foldlM arrive r

theorem arriveAll_cons
    (r : Reception)
    (arrival : Arrival)
    (arrivals : List Arrival) :
    r.arriveAll (arrival :: arrivals) =
      (r.arrive arrival).bind (fun r => r.arriveAll arrivals)
    := rfl

theorem arriveAll_append
    (r : Reception)
    (front back : List Arrival) :
    r.arriveAll (front ++ back) =
      (r.arriveAll front).bind (fun r => r.arriveAll back) := by
  simp only [arriveAll, List.foldlM_append]
  rfl

theorem arriveAll_snoc
    {r before after : Reception}
    {front : List Arrival}
    (hFront : r.arriveAll front = .ok before)
    {arrival : Arrival}
    (hArrive : before.arrive arrival = .ok after) :
    r.arriveAll (front ++ [arrival]) = .ok after := by
  rw [arriveAll_append, hFront]
  change (before.arrive arrival).bind _ = _
  rw [hArrive]
  rfl

/- The bytes of all frames a receiving side has counted. -/
def consumed (r : Reception) : Nat :=
  (r.answers.map Prod.fst).sum

------------------------------------------------------------
-- Accounting
------------------------------------------------------------

/-
  `r'` is a later state of `r`, reached by `amount` further
  bytes: these are in the frames of what has been handed on
  or are still held.
-/
structure Later
    (r' r : Reception)
    (amount : Nat) : Prop where
  records : r'.endpoint.Records
  further :
    ∃ bodies,
      r'.log = r.log ++ bodies ∧
        (littleHeader.stream bodies).length + r'.rest.length =
          r.rest.length + amount
  stuck : 2 ^ 31 ≤ r.rest.length → 2 ^ 31 ≤ r'.rest.length

theorem Later.refl
    {r : Reception}
    (hRecords : r.endpoint.Records) :
    Later r r 0 where
  records := hRecords
  further := ⟨[], by simp, by simp⟩
  stuck := id

theorem Later.trans
    {r'' r' r : Reception}
    {first second : Nat}
    (hFirst : Later r' r first)
    (hSecond : Later r'' r' second) :
    Later r'' r (first + second) where
  records := hSecond.records
  further := by
    rcases hFirst.further with ⟨early, hEarly, hCount⟩
    rcases hSecond.further with ⟨late, hLate, hMore⟩
    refine ⟨early ++ late, ?_, ?_⟩
    · rw [hLate, hEarly, List.append_assoc]
    · rw [Framing.Header.stream_append, List.length_append]
      omega
  stuck := fun hFull => hSecond.stuck (hFirst.stuck hFull)

/- A view that no `int` can count is never used up. -/
theorem arrive_later
    {r r' : Reception}
    (hRecords : r.endpoint.Records)
    {arrival : Arrival}
    (hArrive : r.arrive arrival = .ok r') :
    Later r' r arrival.bytes.length ∧
      (2 ^ 31 ≤ (r.view arrival).length →
        2 ^ 31 ≤ r'.rest.length) := by
  have hFlat := arrival.flatten_cut (r.view arrival)
  have hSize := ConstCharArrayBuffer.size_ofBuffers
    (arrival.cut (r.view arrival))
  rw [hFlat] at hSize
  have hRemaining :
      (ConstCharArrayBuffer.ofBuffers
          (arrival.cut (r.view arrival))).remainingData =
        toInt32 (r.view arrival).length := by
    rw [ConstCharArrayBuffer.remainingData, hSize]
    exact Int.sub_zero _
  have hView :
      (r.view arrival).length =
        r.rest.length + arrival.bytes.length :=
    List.length_append
  have hNarrow := toNat_toInt32_le (r.view arrival).length
  rcases ProtoMessageEndpoint.exists_delivered hRecords
      (ConstCharArrayBuffer.ofBuffers
        (arrival.cut (r.view arrival)))
      (Int.le_refl 0) (by rw [hSize]; exact toInt32_lt _)
      0 r.log with
    ⟨bodies, hKept, hWorld, hBound, hConsumed⟩
  rw [hRemaining] at hBound
  simp only [arrive, ProtoMessageEndpoint.checkForMessage]
    at hArrive
  split at hArrive
  · cases hArrive
  · rename_i consumed needed hResult
    have hCount := hConsumed _ hResult
    simp only [Nat.zero_add] at hCount
    cases hArrive
    refine ⟨⟨hKept, ⟨bodies, hWorld, ?_⟩, ?_⟩, ?_⟩
    · simp only [List.length_drop]
      omega
    · intro hFull
      have hLoss := toNat_toInt32_add_le
        (by omega : 2 ^ 31 ≤ (r.view arrival).length)
      simp only [List.length_drop]
      omega
    · intro hFull
      have hLoss := toNat_toInt32_add_le hFull
      simp only [List.length_drop]
      omega

theorem arriveAll_later
    {r r' : Reception}
    (hRecords : r.endpoint.Records)
    {arrivals : List Arrival}
    (hRun : r.arriveAll arrivals = .ok r') :
    Later r' r (received arrivals).length := by
  induction arrivals generalizing r with
  | nil =>
      cases hRun
      exact .refl hRecords
  | cons arrival arrivals ih =>
      rw [arriveAll_cons] at hRun
      cases hFirst : r.arrive arrival with
      | error what =>
          rw [hFirst] at hRun
          cases hRun
      | ok next =>
          rw [hFirst] at hRun
          have hNext := (arrive_later hRecords hFirst).1
          have hAll :
              received (arrival :: arrivals) =
                arrival.bytes ++ received arrivals := rfl
          rw [hAll, List.length_append]
          exact hNext.trans (ih hNext.records hRun)

------------------------------------------------------------
-- Settled Receivers
------------------------------------------------------------

/-
  After `n` bytes of the frames of `bodies`, a receiver has
  handed on some bodies in front and holds what follows
  their frames.
-/
structure Aligned
    (r : Reception)
    (e : Endianness)
    (bodies : List (List UInt8))
    (n : Nat) : Prop where
  settled : e.Settled
  endianness_eq : r.endpoint.protoMessageReader.endianness = e
  records : r.endpoint.Records
  within : n ≤ (e.header.stream bodies).length
  log_prefix : r.log <+: bodies
  fits : (e.header.stream r.log).length ≤ n
  rest_eq :
    r.rest =
      ((e.header.stream bodies).take n).drop
        (e.header.stream r.log).length
  consumed_eq :
    r.consumed = (e.header.stream r.log).length

/- What has been handed on are the complete bodies. -/
structure Synced
    (r : Reception)
    (e : Endianness)
    (bodies : List (List UInt8))
    (n : Nat) : Prop extends Aligned r e bodies n where
  log_eq : r.log = e.header.complete bodies n
  needed_eq :
    ∀ answer ∈ r.answers.getLast?,
      answer.2 = e.header.missing bodies n

theorem synced_start
    {endpoint : ProtoMessageEndpoint (List (List UInt8))}
    {e : Endianness}
    (hSettled : e.Settled)
    (hEnd : endpoint.protoMessageReader.endianness = e)
    (hRecords : endpoint.Records)
    (bodies : List (List UInt8)) :
    (start endpoint).Synced e bodies 0 := by
  have hNone : e.header.complete bodies 0 = [] := by
    cases bodies with
    | nil => rfl
    | cons body bodies =>
        exact e.header.complete_eq_nil_cons
          (Nat.add_pos_left e.header.width_pos _)
  exact
    { settled := hSettled
      endianness_eq := hEnd
      records := hRecords
      within := Nat.zero_le _
      log_prefix := List.nil_prefix
      fits := Nat.le_refl _
      rest_eq := by simp [start]
      consumed_eq := rfl
      log_eq := hNone.symm
      needed_eq := by simp [start] }

/- The bytes a receiver holds at position `n`. -/
theorem Aligned.length_rest
    {r : Reception}
    {e : Endianness}
    {bodies : List (List UInt8)}
    {n : Nat}
    (hAligned : r.Aligned e bodies n) :
    r.rest.length = n - (e.header.stream r.log).length := by
  rw [hAligned.rest_eq, List.length_drop, List.length_take,
    Nat.min_eq_left hAligned.within]

/- What arrives next makes an aligned receiver synced. -/
theorem Aligned.arrive
    {r : Reception}
    {e : Endianness}
    {bodies : List (List UInt8)}
    {n : Nat}
    (hAligned : r.Aligned e bodies n)
    (hLimit : ∀ body ∈ bodies, body.length ≤ 10000)
    {arrival : Arrival}
    (hBytes :
      (e.header.stream bodies).take n ++ arrival.bytes <+:
        e.header.stream bodies)
    (hView : (r.view arrival).length < 2 ^ 31) :
    ∃ r',
      r.arrive arrival = .ok r' ∧
        r'.endpoint = r.endpoint ∧
        r'.Synced e bodies (n + arrival.bytes.length) := by
  have hWithin := hAligned.within
  have hFits := hAligned.fits
  have hLengths :
      ((e.header.stream bodies).take n).length = n := by
    rw [List.length_take, Nat.min_eq_left hWithin]
  rcases Framing.take_append_of_prefix hWithin hBytes with
    ⟨hUpTo, hTake⟩
  generalize hNext : n + arrival.bytes.length = m
    at hUpTo hTake ⊢
  have hSame :
      r.view arrival =
        ((e.header.stream bodies).take m).drop
          (e.header.stream r.log).length := by
    rw [view, hAligned.rest_eq, ← hTake,
      List.drop_append_of_le_length (by omega)]
  rcases e.header.scan_resume 10000
      (by simp) hLimit hAligned.log_prefix
      (by omega : (e.header.stream r.log).length ≤ m) hUpTo
    with ⟨further, hComplete, hScan⟩
  rw [← hSame] at hScan
  have hCheck := ProtoMessageEndpoint.checkForMessage_eq_scan
    hAligned.endianness_eq hAligned.settled hAligned.records
    (arrival.flatten_cut (r.view arrival)) hView r.log
  rw [hScan] at hCheck
  have hArrive :
      r.arrive arrival =
        .ok
          { endpoint := r.endpoint
            rest := (r.view arrival).drop
              (e.header.stream further).length
            log := r.log ++ further
            answers := r.answers ++
              [((e.header.stream further).length,
                e.header.missing bodies m)] } := by
    simp only [Reception.arrive, hCheck,
      ProtoMessageEndpoint.ofStop]
  refine ⟨_, hArrive, rfl, ?_⟩
  refine
    { settled := hAligned.settled
      endianness_eq := hAligned.endianness_eq
      records := hAligned.records
      within := hUpTo
      log_prefix := ?_
      fits := ?_
      rest_eq := ?_
      consumed_eq := ?_
      log_eq := hComplete.symm
      needed_eq := by simp }
  · rw [← hComplete]
    exact e.header.complete_prefix bodies m
  · rw [← hComplete]
    exact e.header.length_stream_complete_le bodies m
  · rw [hSame, List.drop_drop,
      Framing.Header.stream_append, List.length_append]
  · have hSum := hAligned.consumed_eq
    simp only [consumed] at hSum ⊢
    rw [Framing.Header.stream_append, List.length_append]
    simp [hSum]

/-
  All arrivals of a stream prefix, one after the other, while
  no view outgrows an `int`.
-/
theorem Synced.arriveAll
    {r : Reception}
    {e : Endianness}
    {bodies : List (List UInt8)}
    {n : Nat}
    (hSynced : r.Synced e bodies n)
    (hLimit : ∀ body ∈ bodies, body.length ≤ 10000)
    (arrivals : List Arrival)
    (hBytes :
      (e.header.stream bodies).take n ++ received arrivals <+:
        e.header.stream bodies)
    (hViews :
      ∀ front arrival back,
        arrivals = front ++ arrival :: back →
          n + (received (front ++ [arrival])).length <
            (e.header.stream (e.header.complete bodies
              (n + (received front).length))).length +
              2 ^ 31) :
    ∃ r',
      r.arriveAll arrivals = .ok r' ∧
        r'.endpoint = r.endpoint ∧
        r'.Synced e bodies (n + (received arrivals).length) := by
  induction arrivals generalizing r n with
  | nil => exact ⟨r, rfl, rfl, hSynced⟩
  | cons arrival arrivals ih =>
      have hAll :
          ∀ others, received (arrival :: others) =
            arrival.bytes ++ received others :=
        fun _ => rfl
      rw [hAll, ← List.append_assoc] at hBytes
      have hFirst := (List.prefix_append _ _).trans hBytes
      have hView : (r.view arrival).length < 2 ^ 31 := by
        have hHere := hViews [] arrival arrivals rfl
        have hOne : received [] = [] := rfl
        simp only [List.nil_append, hAll, hOne,
          List.append_nil, List.length_nil, Nat.add_zero,
          ← hSynced.log_eq] at hHere
        have hFits := hSynced.fits
        rw [view, List.length_append, hSynced.length_rest]
        omega
      rcases hSynced.arrive hLimit hFirst hView with
        ⟨next, hArrive, hEndpoint, hNext⟩
      have hTake :
          (e.header.stream bodies).take n ++ arrival.bytes =
            (e.header.stream bodies).take
              (n + arrival.bytes.length) := by
        have hEq := List.prefix_iff_eq_take.mp hFirst
        have hWithin := hSynced.within
        rw [hEq, List.length_append, List.length_take,
          Nat.min_eq_left hWithin]
      rw [hTake] at hBytes
      have hLater :
          ∀ front later back,
            arrivals = front ++ later :: back →
              n + arrival.bytes.length +
                  (received (front ++ [later])).length <
                (e.header.stream (e.header.complete bodies
                  (n + arrival.bytes.length +
                    (received front).length))).length +
                  2 ^ 31 := by
        intro front later back hSplit
        have hThere := hViews (arrival :: front) later back
          (by rw [hSplit, List.cons_append])
        rw [List.cons_append, hAll, hAll, List.length_append,
          List.length_append, ← Nat.add_assoc,
          ← Nat.add_assoc] at hThere
        exact hThere
      rcases ih hNext hBytes hLater with
        ⟨last, hLast, hKept, hEnd⟩
      refine ⟨last, ?_, hKept.trans hEndpoint, ?_⟩
      · rw [arriveAll_cons, hArrive]
        exact hLast
      · rw [hAll, List.length_append, ← Nat.add_assoc]
        exact hEnd

/- What arrives of a stream that an `int` can count keeps a
   reception in step, all along. -/
theorem Synced.arrive_prefix
    {r : Reception}
    {e : Endianness}
    {bodies : List (List UInt8)}
    (hSynced : r.Synced e bodies 0)
    (hLimit : ∀ body ∈ bodies, body.length ≤ 10000)
    (hLength : (e.header.stream bodies).length < 2 ^ 31)
    {arrivals : List Arrival}
    (hArrivals : received arrivals = e.header.stream bodies)
    {front : List Arrival}
    (hFront : front <+: arrivals) :
    ∃ r',
      r.arriveAll front = .ok r' ∧
        r'.Synced e bodies (received front).length := by
  have hPrefix : received front <+: received arrivals :=
    hFront.flatMap Arrival.bytes
  have hShort :
      ∀ most arrival back,
        front = most ++ arrival :: back →
          0 + (received (most ++ [arrival])).length <
            (e.header.stream (e.header.complete bodies
              (0 + (received most).length))).length +
              2 ^ 31 := by
    intro most arrival back hSplit
    have hLe := hPrefix.length_le
    rw [hSplit, received_append, hArrivals,
      List.length_append] at hLe
    have hCons :
        received (arrival :: back) =
          received [arrival] ++ received back := by
      simp [received]
    rw [hCons, List.length_append] at hLe
    rw [received_append, List.length_append]
    omega
  rcases hSynced.arriveAll hLimit front
      (by rwa [List.take_zero, List.nil_append, ← hArrivals])
      hShort with ⟨r', hOk, -, hAfter⟩
  rw [Nat.zero_add] at hAfter
  exact ⟨r', hOk, hAfter⟩

end Reception

------------------------------------------------------------
-- Round Trip
------------------------------------------------------------

section RoundTrip

variable {σ M : Type}
variable [ProtoMessage M]

/- The bytes a `checkForSpace` call counts as produced. -/
def produced
    (out : List MutableBuffer)
    (sent : SpaceChecked M) : List UInt8 :=
  match sent.result with
  | .ok (consumed, _) =>
      ((addresses out).take consumed).map sent.mem
  | .error _ => []

/-
  Whatever arrivals the produced bytes are split into, the
  receiver hands on exactly the bodies that were queued; on
  the way it has handed on and counted the complete frames,
  and asks for no more than is missing.
-/
def RoundTrips
    (e : Endianness)
    (sender : ProtoMessageEndpoint σ)
    (receiver : ProtoMessageEndpoint (List (List UInt8)))
    (out : List MutableBuffer)
    (mem : Nat → UInt8)
    (txq : List M) : Prop :=
  ∀ arrivals : List Arrival,
    received arrivals =
        produced out (sender.checkForSpace out mem txq) →
      (∃ r,
        (Reception.start receiver).arriveAll arrivals =
            .ok r ∧
          r.log = ProtoMessageEndpoint.bodies txq ∧
          r.consumed = (received arrivals).length) ∧
        ∀ front, front <+: arrivals →
          ∃ r,
            (Reception.start receiver).arriveAll front =
                .ok r ∧
              r.log =
                e.header.complete
                  (ProtoMessageEndpoint.bodies txq)
                  (received front).length ∧
              r.consumed = (e.header.stream r.log).length ∧
              ∀ answer ∈ r.answers.getLast?,
                1 ≤ answer.2 ∧
                  answer.2 ≤
                    e.header.missing
                      (ProtoMessageEndpoint.bodies txq)
                      (received front).length

/- With enough space of distinct cells, exactly the frames
   of the queued messages are produced. -/
theorem produced_eq_stream
    {e : Endianness}
    {sender : ProtoMessageEndpoint σ}
    (hAlive : sender.alive = true)
    (hEnd : sender.protoMessageSender.endianness = e)
    (hSettled : e.Settled)
    {out : List MutableBuffer}
    (hNodup : (addresses out).Nodup)
    (hSpace : (addresses out).length < 2 ^ 31)
    {txq : List M}
    (hFits :
      (e.header.stream
          (ProtoMessageEndpoint.bodies txq)).length ≤
        (addresses out).length)
    (mem : Nat → UInt8) :
    produced out (sender.checkForSpace out mem txq) =
      e.header.stream (ProtoMessageEndpoint.bodies txq) := by
  have hOver :=
    CharArrayBuffer.over_ofBuffers mem (rfl) hSpace
  rcases ProtoMessageEndpoint.checkSpaceLoop_eq hAlive hEnd
      hSettled hOver txq 0 0 with ⟨hMem, -, hResult⟩
  have hComplete :
      e.header.complete (ProtoMessageEndpoint.bodies txq)
          (addresses out).length =
        ProtoMessageEndpoint.bodies txq :=
    e.header.complete_of_le hFits
  rw [Nat.sub_zero, hComplete] at hMem hResult
  rw [List.drop_zero] at hMem
  rw [produced, ProtoMessageEndpoint.checkForSpace, hResult]
  simp only [hMem, Nat.zero_add]
  rw [List.map_take, Memory.map_fill _ hNodup _ hFits]
  exact List.take_left' rfl

/-
  Framing round trip: whatever the output buffers and the
  arrivals, while the output space is shorter than an `int`
  can count.
-/
theorem roundTrips_of_space_lt
    {e : Endianness}
    {sender : ProtoMessageEndpoint σ}
    {receiver : ProtoMessageEndpoint (List (List UInt8))}
    (hSettled : e.Settled)
    (hAlive : sender.alive = true)
    (hSender : sender.protoMessageSender.endianness = e)
    (hReceiver : receiver.protoMessageReader.endianness = e)
    (hRecords : receiver.Records)
    {out : List MutableBuffer}
    (mem : Nat → UInt8)
    {txq : List M}
    (hLimit : ∀ message ∈ txq,
      ProtoMessage.byteSize message ≤ 10000)
    (hNodup : (addresses out).Nodup)
    (hFits :
      (e.header.stream
          (ProtoMessageEndpoint.bodies txq)).length ≤
        (addresses out).length)
    (hSpace : (addresses out).length < 2 ^ 31) :
    RoundTrips e sender receiver out mem txq := by
  have hBodies :
      ∀ body ∈ ProtoMessageEndpoint.bodies txq,
        body.length ≤ 10000 := by
    intro body hBody
    rcases List.mem_map.mp hBody with ⟨message, hMem, rfl⟩
    rw [← ProtoMessage.byteSize_eq]
    exact hLimit message hMem
  have hStart :=
    Reception.synced_start hSettled hReceiver hRecords
      (ProtoMessageEndpoint.bodies txq)
  have hLength :
      (e.header.stream
          (ProtoMessageEndpoint.bodies txq)).length <
        2 ^ 31 := by omega
  intro arrivals hArrivals
  rw [produced_eq_stream hAlive hSender hSettled hNodup hSpace
    hFits mem] at hArrivals
  constructor
  · rcases hStart.arrive_prefix hBodies hLength hArrivals
        List.prefix_rfl with ⟨r, hRun, hSynced⟩
    have hAll :
        e.header.complete (ProtoMessageEndpoint.bodies txq)
            (received arrivals).length =
          ProtoMessageEndpoint.bodies txq :=
      e.header.complete_of_le (by rw [hArrivals])
    refine ⟨r, hRun, ?_, ?_⟩
    · rw [hSynced.log_eq, hAll]
    · rw [hSynced.consumed_eq, hSynced.log_eq, hAll,
        hArrivals]
  · intro front hFront
    rcases hStart.arrive_prefix hBodies hLength hArrivals
        hFront with ⟨r, hRun, hSynced⟩
    refine ⟨r, hRun, hSynced.log_eq, hSynced.consumed_eq, ?_⟩
    intro answer hAnswer
    rw [hSynced.needed_eq answer hAnswer]
    exact ⟨e.header.missing_pos hSynced.within,
      Nat.le_refl _⟩

end RoundTrip

/- A sender of an endpoint with a settled endianness. -/
def settledSender
    (e : Endianness) : ProtoMessageEndpoint Unit :=
  (ProtoMessageEndpoint.fresh
    (fun _ world => (.ok (), world))).setEndianness e

/- A recording receiver with a settled endianness. -/
def settledReceiver
    (e : Endianness) :
    ProtoMessageEndpoint (List (List UInt8)) :=
  (ProtoMessageEndpoint.fresh
    ProtoMessageEndpoint.record).setEndianness e

/- Bodies that a reader accepts. -/
abbrev ShortBody := {body : List UInt8 // body.length ≤ 10000}

instance fact_lt_int : Fact (10000 < 2 ^ 31) := ⟨by decide⟩

theorem roundTrips_two_buffers :
    RoundTrips .network (settledSender .network)
      (settledReceiver .network) [⟨0, 3⟩, ⟨8, 5⟩] (fun _ => 0)
      [(⟨[7, 9], by decide⟩ : ShortBody)] :=
  roundTrips_of_space_lt (Or.inr rfl) (by rfl) (by rfl)
    (by rfl) (by rfl) _ (by decide) (by decide) (by decide)
    (by decide)

/-
  One buffer of `2 ^ 31` bytes: `size` wraps below zero, the
  sender finds no space and produces nothing.
-/
theorem not_roundTrips_of_wrapped_space :
    (addresses [⟨0, 2 ^ 31⟩]).Nodup ∧
      (Endianness.little.header.stream [[]]).length ≤
        (addresses [⟨0, 2 ^ 31⟩]).length ∧
      ¬ RoundTrips .little (settledSender .little)
          (settledReceiver .little) [⟨0, 2 ^ 31⟩]
          (fun _ => 0)
          [(⟨[], by decide⟩ : ShortBody)] := by
  have hCells :
      addresses [⟨0, 2 ^ 31⟩] = List.range' 0 (2 ^ 31) := by
    simp [addresses]
  refine ⟨?_, ?_, ?_⟩
  · rw [hCells]
    exact List.nodup_range'
  · rw [hCells, List.length_range']
    decide
  · intro hAll
    have hSent :
        produced [⟨0, 2 ^ 31⟩]
            ((settledSender .little).checkForSpace
              [⟨0, 2 ^ 31⟩] (fun _ => 0)
              [(⟨[], by decide⟩ : ShortBody)]) =
          [] := by
      have hResult :
          ((settledSender .little).checkForSpace
              [⟨0, 2 ^ 31⟩] (fun _ => 0)
              [(⟨[], by decide⟩ : ShortBody)]).result =
            .ok (0, 0) := rfl
      rw [produced, hResult]
      rfl
    rcases (hAll [] hSent.symm).1 with ⟨r, hRun, hLog, -⟩
    cases hRun
    cases hLog

end OefCore
