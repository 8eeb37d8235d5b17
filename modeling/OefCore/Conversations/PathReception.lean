import OefCore.Comms.Reception
import OefCore.Conversations.ProtoPathMessageSender

/-
  The search connection's byte stream: what its sender puts
  into the spaces it is offered, and what its reader makes of
  the arrivals.

  Main declarations:
    * `PathReception`, `PathReception.arriveAll`
    * `PathReception.Matches.arriveAll`
    * `PathTransmission`, `PathTransmission.offerAll_eq`
    * `pathRoundTrips_of_space_lt`
-/

------------------------------------------------------------
-- Arrivals
------------------------------------------------------------

namespace OefCore

/-
  The receiving side of a search connection between two
  arrivals: the bytes it has not consumed, the calls of its
  handlers, and the answers of `checkForMessage`.
-/
structure PathReception where
  rest : Wire
  log : List ProtoPathCall
  answers : List (Nat × Nat)
  deriving DecidableEq, Repr

namespace PathReception

def start : PathReception :=
  { rest := []
    log := []
    answers := [] }

/- The unconsumed bytes followed by those that arrive. -/
def view
    (r : PathReception)
    (arrival : Arrival) : Wire :=
  r.rest ++ arrival.bytes

/- One call of the reader on the new view. -/
def arrive
    (parse : Wire → Option TransportHeader)
    (r : PathReception)
    (arrival : Arrival) : Except String PathReception :=
  let checked :=
    ProtoPathMessageReader.record.checkForMessage parse
      (arrival.cut (r.view arrival)) r.log
  match checked.result with
  | .error what => .error what
  | .ok (consumed, needed) =>
      .ok
        { rest := (r.view arrival).drop consumed
          log := checked.world
          answers := r.answers ++ [(consumed, needed)] }

/- The arrivals one after the other, until one throws. -/
def arriveAll
    (parse : Wire → Option TransportHeader)
    (r : PathReception)
    (arrivals : List Arrival) : Except String PathReception :=
  arrivals.foldlM (arrive parse) r

theorem arriveAll_snoc
    (parse : Wire → Option TransportHeader)
    (r : PathReception)
    (front : List Arrival)
    (arrival : Arrival) :
    r.arriveAll parse (front ++ [arrival]) =
      (r.arriveAll parse front).bind
        (fun r => r.arrive parse arrival) := by
  rw [arriveAll, List.foldlM_append]
  refine congrArg (Except.bind _) (funext fun before => ?_)
  exact bind_pure _

/- Something is held back of what was there. -/
theorem length_rest_of_arrive
    {parse : Wire → Option TransportHeader}
    {r r' : PathReception}
    {arrival : Arrival}
    (hArrive : r.arrive parse arrival = .ok r') :
    r'.rest.length ≤ (r.view arrival).length := by
  simp only [arrive] at hArrive
  split at hArrive
  · cases hArrive
  · cases hArrive
    rw [List.length_drop]
    exact Nat.sub_le _ _

/- The bytes of all frames that have been counted. -/
def consumed (r : PathReception) : Nat :=
  (r.answers.map Prod.fst).sum

------------------------------------------------------------
-- Simulation
------------------------------------------------------------

/- The reader has called a handler for every frame that an
   abstract receiver has got, and holds back as much. -/
structure Matches
    (parse : Wire → Option TransportHeader)
    (r : PathReception)
    (q : Framing.Receiver UInt8 SearchFrame) : Prop where
  rest_eq : r.rest = q.rest
  log_eq : r.log = q.got.filterMap (SearchFrame.call parse)
  answers_eq : r.answers = q.answers

theorem matches_start
    (parse : Wire → Option TransportHeader) :
    Matches parse start Framing.Receiver.start where
  rest_eq := rfl
  log_eq := rfl
  answers_eq := rfl

theorem Matches.arrive
    {parse : Wire → Option TransportHeader}
    {r : PathReception}
    {q q' : Framing.Receiver UInt8 SearchFrame}
    (hMatches : Matches parse r q)
    {arrival : Arrival}
    (hArrive :
      q.arrive pathFormat 10000 (2 ^ 31) arrival.bytes =
        some q')
    (hParses : ∀ f ∈ q'.got, parse f.leader ≠ none) :
    ∃ r',
      r.arrive parse arrival = .ok r' ∧
        Matches parse r' q' := by
  rcases Framing.Receiver.arrive_eq_some hArrive with
    ⟨hRoom, needed, hStop, rfl⟩
  rcases r with ⟨rest, log, answers⟩
  rcases q with ⟨held, got, given⟩
  rcases hMatches with ⟨hRest, hLog, hAnswers⟩
  simp only at hRest hLog hAnswers hRoom hStop hParses
  subst hRest hAnswers
  have hCheck :=
    ProtoPathMessageReader.checkForMessage_eq_scan parse
      (arrival.flatten_cut (rest ++ arrival.bytes)) hRoom
      (fun f hMem => hParses f (List.mem_append_right _ hMem))
      log
  rw [hStop] at hCheck
  have hOk :
      (PathReception.mk rest log answers).arrive parse
          arrival =
        .ok
          { rest := (rest ++ arrival.bytes).drop
              (pathFormat.scan 10000
                (rest ++ arrival.bytes)).consumed
            log := log ++
              (pathFormat.scan 10000
                (rest ++ arrival.bytes)).frames.filterMap
                  (SearchFrame.call parse)
            answers := answers ++
              [((pathFormat.scan 10000
                (rest ++ arrival.bytes)).consumed,
                needed)] } := by
    simp only [PathReception.arrive, view, hCheck,
      ProtoMessageEndpoint.ofStop]
  refine ⟨_, hOk, rfl, ?_, rfl⟩
  rw [List.filterMap_append, hLog]

/- A run of an abstract receiver is a run of the reader. -/
theorem matches_arriveAll
    {parse : Wire → Option TransportHeader}
    {arrivals : List Arrival}
    {q : Framing.Receiver UInt8 SearchFrame}
    (hRun :
      Framing.Receiver.start.arriveAll pathFormat 10000
          (2 ^ 31) (arrivals.map Arrival.bytes) =
        some q)
    (hParses : ∀ f ∈ q.got, parse f.leader ≠ none) :
    ∃ r,
      start.arriveAll parse arrivals = .ok r ∧
        Matches parse r q := by
  induction arrivals using List.reverseRecOn
    generalizing q with
  | nil =>
      cases hRun
      exact ⟨start, rfl, matches_start parse⟩
  | append_singleton front arrival ih =>
      rw [List.map_append, List.map_singleton,
        Framing.Receiver.arriveAll_snoc] at hRun
      rcases Option.bind_eq_some_iff.mp hRun with
        ⟨q', hFront, hArrive⟩
      have hKept : q'.got <+: q.got := by
        rcases Framing.Receiver.arrive_eq_some hArrive with
          ⟨-, needed, -, rfl⟩
        exact List.prefix_append _ _
      rcases ih hFront
          (fun f hMem => hParses f (hKept.subset hMem)) with
        ⟨r', hBefore, hMatches⟩
      rcases hMatches.arrive hArrive hParses with
        ⟨r, hAfter, hNext⟩
      refine ⟨r, ?_, hNext⟩
      rw [arriveAll_snoc, hBefore]
      exact hAfter

------------------------------------------------------------
-- Deliveries
------------------------------------------------------------

/- No view that the reader is given is too long for an
   `int`. -/
def ShortViews
    (parse : Wire → Option TransportHeader)
    (arrivals : List Arrival) : Prop :=
  ∀ front arrival back,
    arrivals = front ++ arrival :: back →
      ∀ r, start.arriveAll parse front = .ok r →
        (r.view arrival).length < 2 ^ 31

theorem ShortViews.front
    {parse : Wire → Option TransportHeader}
    {front back : List Arrival}
    (hViews : ShortViews parse (front ++ back)) :
    ShortViews parse front := by
  intro most arrival between hSplit
  exact hViews most arrival (between ++ back)
    (by rw [hSplit, List.append_assoc, List.cons_append])

theorem flatten_map_bytes (arrivals : List Arrival) :
    (arrivals.map Arrival.bytes).flatten =
      received arrivals := rfl

/-
  After every arrival one handler has been called for each
  complete frame, the bytes of these have been counted, and
  what is asked for is missing.
-/
def Delivers
    (parse : Wire → Option TransportHeader)
    (frames : List SearchFrame)
    (arrivals : List Arrival) : Prop :=
  ∀ front, front <+: arrivals →
    ∃ r,
      start.arriveAll parse front = .ok r ∧
        r.log =
          (pathFormat.complete frames
            (received front).length).filterMap
              (SearchFrame.call parse) ∧
        r.consumed =
          (pathFormat.stream (pathFormat.complete frames
            (received front).length)).length ∧
        ∀ answer ∈ r.answers.getLast?,
          1 ≤ answer.2 ∧
            answer.2 ≤
              pathFormat.missing frames
                (received front).length

section Deliveries

variable {parse : Wire → Option TransportHeader}
variable {frames : List SearchFrame}
variable {arrivals : List Arrival}

/- The reader keeps step with an abstract receiver while its
   arrivals fit. -/
theorem matches_of_fits
    (hLimit : ∀ f ∈ frames, f.bodySize ≤ 10000)
    (hParses : ∀ f ∈ frames, parse f.leader ≠ none)
    (hBytes : received arrivals <+: pathFormat.stream frames)
    (hFits :
      Framing.Receiver.Fits pathFormat (2 ^ 31) frames
        (arrivals.map Arrival.bytes)) :
    ∃ r q,
      start.arriveAll parse arrivals = .ok r ∧
        Matches parse r q ∧
          q.Synced pathFormat frames
            (received arrivals).length := by
  have hReads : ∀ f ∈ frames, pathFormat.Reads 10000 f :=
    fun f hMem => pathFormat_reads (hLimit f hMem)
  rcases Framing.Receiver.synced_arriveAll hReads hBytes
      hFits with ⟨q, hRun, hSynced⟩
  have hGot : ∀ f ∈ q.got, parse f.leader ≠ none := by
    intro f hMem
    rw [hSynced.got_eq] at hMem
    exact hParses f
      ((pathFormat.complete_prefix frames _).subset hMem)
  rcases matches_arriveAll hRun hGot with ⟨r, hOk, hMatches⟩
  exact ⟨r, q, hOk, hMatches, hSynced⟩

theorem fits_of_shortViews
    (hLimit : ∀ f ∈ frames, f.bodySize ≤ 10000)
    (hParses : ∀ f ∈ frames, parse f.leader ≠ none)
    (hBytes : received arrivals <+: pathFormat.stream frames)
    (hViews : ShortViews parse arrivals) :
    Framing.Receiver.Fits pathFormat (2 ^ 31) frames
      (arrivals.map Arrival.bytes) := by
  induction arrivals using List.reverseRecOn with
  | nil => exact Framing.Receiver.fits_nil _ _ _
  | append_singleton front arrival ih =>
      rw [received_append] at hBytes
      have hFront := (List.prefix_append _ _).trans hBytes
      have hFits := ih hFront hViews.front
      rcases matches_of_fits hLimit hParses hFront hFits with
        ⟨r, q, hOk, hMatches, hSynced⟩
      have hView := hViews front arrival [] rfl r hOk
      have hTake :=
        List.prefix_iff_eq_take.mp hFront
      rw [view, hMatches.rest_eq, hSynced.rest_eq, ← hTake,
        List.length_append, List.length_drop] at hView
      rw [List.map_append, List.map_singleton]
      refine hFits.snoc ?_
      rw [flatten_map_bytes]
      omega

/- While every view is short, whatever the arrivals, every
   complete frame is delivered. -/
theorem delivers
    (hLimit : ∀ f ∈ frames, f.bodySize ≤ 10000)
    (hParses : ∀ f ∈ frames, parse f.leader ≠ none)
    (hBytes : received arrivals <+: pathFormat.stream frames)
    (hViews : ShortViews parse arrivals) :
    Delivers parse frames arrivals := by
  intro front hFront
  have hPart : received front <+: pathFormat.stream frames :=
    (hFront.flatMap Arrival.bytes).trans hBytes
  have hShort : ShortViews parse front := by
    rcases hFront with ⟨back, rfl⟩
    exact hViews.front
  rcases matches_of_fits hLimit hParses hPart
      (fits_of_shortViews hLimit hParses hPart hShort) with
    ⟨r, q, hOk, hMatches, hSynced⟩
  refine ⟨r, hOk, ?_, ?_, ?_⟩
  · rw [hMatches.log_eq, hSynced.got_eq]
  · rw [consumed, hMatches.answers_eq, hSynced.consumed_eq]
  · intro answer hAnswer
    rw [hMatches.answers_eq] at hAnswer
    rw [hSynced.needed_eq answer hAnswer]
    exact ⟨pathFormat.missing_pos hPart.length_le,
      Nat.le_refl _⟩

/- What is held back has arrived. -/
theorem length_rest_le
    {r : PathReception}
    (hRun : start.arriveAll parse arrivals = .ok r) :
    r.rest.length ≤ (received arrivals).length := by
  induction arrivals using List.reverseRecOn generalizing r with
  | nil =>
      cases hRun
      exact Nat.le_refl _
  | append_singleton front arrival ih =>
      rw [arriveAll_snoc] at hRun
      cases hFront : start.arriveAll parse front with
      | error what =>
          rw [hFront] at hRun
          cases hRun
      | ok before =>
          rw [hFront] at hRun
          have hBefore := ih hFront
          have hHeld := length_rest_of_arrive hRun
          have hOne : received [arrival] = arrival.bytes :=
            List.append_nil _
          rw [view, List.length_append] at hHeld
          rw [received_append, hOne, List.length_append]
          omega

/- Few bytes make short views. -/
theorem shortViews_of_length_lt
    (parse : Wire → Option TransportHeader)
    {arrivals : List Arrival}
    (hLength : (received arrivals).length < 2 ^ 31) :
    ShortViews parse arrivals := by
  intro front arrival back hSplit r hRun
  have hRest := length_rest_le hRun
  have hAll :
      received (arrival :: back) =
        arrival.bytes ++ received back := rfl
  rw [hSplit, received_append, hAll, List.length_append,
    List.length_append] at hLength
  rw [view, List.length_append]
  omega

end Deliveries

end PathReception

------------------------------------------------------------
-- Transmissions
------------------------------------------------------------

/- Buffers over distinct cells, offered to a sender. -/
structure OutputSpace where
  buffers : List MutableBuffer
  mem : Nat → UInt8
  nodup : (addresses buffers).Nodup

/- What is queued and what has been produced. -/
structure PathTransmission (M : Type) where
  txq : List (Uri × M)
  bytes : List UInt8

namespace PathTransmission

variable {M : Type}
variable [ProtoMessage M]

open ProtoPathMessageSender

def start (txq : List (Uri × M)) : PathTransmission M :=
  { txq := txq
    bytes := [] }

/- One call of the sender. -/
def offer
    (protos : TransportProtos)
    (sender : ProtoPathMessageSender)
    (t : PathTransmission M)
    (space : OutputSpace) : PathTransmission M :=
  let sent :=
    sender.checkForSpace protos space.buffers space.mem t.txq
  { txq := sent.txq
    bytes := t.bytes ++ produced space.buffers sent }

def offerAll
    (protos : TransportProtos)
    (sender : ProtoPathMessageSender)
    (t : PathTransmission M)
    (spaces : List OutputSpace) : PathTransmission M :=
  spaces.foldl (offer protos sender) t

section Sending

variable {protos : TransportProtos}
variable {sender : ProtoPathMessageSender}

/- The queue's front that fits the space is sent. -/
theorem offer_eq
    (hAlive : sender.alive = true)
    {t : PathTransmission M}
    (hSendable : ∀ entry ∈ t.txq, Sendable protos entry)
    (hFaithful : ∀ entry ∈ t.txq,
      protos.Faithful (header entry.1))
    {space : OutputSpace}
    (hSpace : (addresses space.buffers).length < 2 ^ 31) :
    (t.offer protos sender space).txq =
        t.txq.drop (pathFormat.complete
          (t.txq.map (frame protos))
          (addresses space.buffers).length).length ∧
      (t.offer protos sender space).bytes =
        t.bytes ++ pathFormat.stream (pathFormat.complete
          (t.txq.map (frame protos))
          (addresses space.buffers).length) := by
  have hOver :=
    CharArrayBuffer.over_ofBuffers space.mem rfl hSpace
  rcases checkSpaceLoop_eq hAlive hOver hSendable hFaithful 0 0
    with ⟨hMem, hQueue, hResult⟩
  rw [Nat.sub_zero] at hMem hQueue hResult
  rw [List.drop_zero] at hMem
  have hShort := pathFormat.length_stream_complete_le
    (t.txq.map (frame protos)) (addresses space.buffers).length
  refine ⟨hQueue, ?_⟩
  simp only [offer]
  rw [produced, checkForSpace, hResult]
  simp only [hMem, Nat.zero_add]
  rw [List.map_take,
    Memory.map_fill _ space.nodup _ hShort,
    List.take_left' rfl]

/- Over any number of calls the frames of a front of the queue
   are sent, one after the other. -/
theorem offerAll_eq
    (hAlive : sender.alive = true)
    {t : PathTransmission M}
    (hSendable : ∀ entry ∈ t.txq, Sendable protos entry)
    (hFaithful : ∀ entry ∈ t.txq,
      protos.Faithful (header entry.1))
    {spaces : List OutputSpace}
    (hSpaces : ∀ space ∈ spaces,
      (addresses space.buffers).length < 2 ^ 31) :
    ∃ sent,
      t.txq = sent ++ (t.offerAll protos sender spaces).txq ∧
        (t.offerAll protos sender spaces).bytes =
          t.bytes ++
            pathFormat.stream (sent.map (frame protos)) ∧
          ((∃ space ∈ spaces,
              (pathFormat.stream
                (t.txq.map (frame protos))).length ≤
                  (addresses space.buffers).length) →
            (t.offerAll protos sender spaces).txq = []) := by
  induction spaces generalizing t with
  | nil => exact ⟨[], rfl, by simp [offerAll], by simp⟩
  | cons space spaces ih =>
      rcases offer_eq hAlive hSendable hFaithful
          (hSpaces space (by simp)) with ⟨hQueue, hBytes⟩
      have hPrefix := List.prefix_iff_eq_take.mp
        (pathFormat.complete_prefix (t.txq.map (frame protos))
          (addresses space.buffers).length)
      generalize hDone :
        pathFormat.complete (t.txq.map (frame protos))
          (addresses space.buffers).length = done
        at hQueue hBytes hPrefix
      rw [← List.map_take] at hPrefix
      have hLater :
          ∀ entry ∈ (t.offer protos sender space).txq,
            entry ∈ t.txq := by
        intro entry hMem
        rw [hQueue] at hMem
        exact List.mem_of_mem_drop hMem
      rcases ih
          (fun entry hMem => hSendable entry (hLater entry hMem))
          (fun entry hMem => hFaithful entry (hLater entry hMem))
          (fun other hMem => hSpaces other (by simp [hMem]))
        with ⟨sent, hSplit, hMore, hEnough⟩
      have hAll : t.txq =
          t.txq.take done.length ++
            (sent ++ ((t.offer protos sender space).offerAll
              protos sender spaces).txq) := by
        rw [← hSplit, hQueue, List.take_append_drop]
      refine ⟨t.txq.take done.length ++ sent, ?_, ?_, ?_⟩
      · rw [List.append_assoc]
        exact hAll
      · rw [List.map_append, Framing.Format.stream_append,
          ← hPrefix, ← List.append_assoc, ← hBytes]
        exact hMore
      · rintro ⟨other, hMem, hRoom⟩
        rcases List.mem_cons.mp hMem with rfl | hMem
        · rw [pathFormat.complete_of_le hRoom] at hDone
          have hNone :
              (t.offer protos sender other).txq = [] := by
            rw [hQueue, ← hDone, List.length_map,
              List.drop_length]
          rw [hNone] at hSplit
          exact (List.append_eq_nil_iff.mp hSplit.symm).2
        · refine hEnough ⟨other, hMem, ?_⟩
          have hLength := congrArg List.length
            (congrArg (fun txq =>
              pathFormat.stream (txq.map (frame protos)))
              hAll)
          simp only [List.map_append,
            Framing.Format.stream_append, List.length_append]
            at hLength
          rw [hSplit, List.map_append,
            Framing.Format.stream_append, List.length_append]
          omega

end Sending

end PathTransmission

------------------------------------------------------------
-- Round Trip
------------------------------------------------------------

section RoundTrip

variable {M : Type}
variable [ProtoMessage M]

open ProtoPathMessageSender

/- The call of `onComplete` that a queued message leads to. -/
def callOf (entry : Uri × M) : ProtoPathCall :=
  .onComplete true entry.1.port.toUInt64
    (ProtoMessage.serialize entry.2)

theorem call_frame
    {protos : TransportProtos}
    {entry : Uri × M}
    (hFaithful : protos.Faithful (header entry.1)) :
    (frame protos entry).call protos.parse =
      some (callOf entry) := by
  simp only [SearchFrame.call, frame,
    hFaithful.parse_serialize]
  rfl

/- Arrivals that bring the frames of some messages hand these
   messages to `onComplete`. -/
theorem delivers_sent
    {protos : TransportProtos}
    {sent : List (Uri × M)}
    (hSendable : ∀ entry ∈ sent, Sendable protos entry)
    (hFaithful : ∀ entry ∈ sent,
      protos.Faithful (header entry.1))
    {arrivals : List Arrival}
    (hArrived :
      received arrivals =
        pathFormat.stream (sent.map (frame protos)))
    (hViews :
      PathReception.ShortViews protos.parse arrivals) :
    (∃ r,
      PathReception.start.arriveAll protos.parse arrivals =
          .ok r ∧
        r.log = sent.map callOf ∧
        r.consumed = (received arrivals).length) ∧
      PathReception.Delivers protos.parse
        (sent.map (frame protos)) arrivals := by
  have hCalls :
      ∀ entry ∈ sent,
        (SearchFrame.call protos.parse ∘ frame protos) entry =
          some (callOf entry) :=
    fun entry hMem => call_frame (hFaithful entry hMem)
  have hDelivers :
      PathReception.Delivers protos.parse
        (sent.map (frame protos)) arrivals := by
    refine PathReception.delivers ?_ ?_ ?_ hViews
    · intro f hMem
      rcases List.mem_map.mp hMem with ⟨entry, hEntry, rfl⟩
      exact (hSendable entry hEntry).bodySize_le
    · intro f hMem
      rcases List.mem_map.mp hMem with ⟨entry, hEntry, rfl⟩
      simp [frame, (hFaithful entry hEntry).parse_serialize]
    · rw [hArrived]
  rcases hDelivers arrivals List.prefix_rfl with
    ⟨r, hRun, hLog, hConsumed, -⟩
  have hAll := pathFormat.complete_of_le
    (Nat.le_of_eq (congrArg List.length hArrived).symm)
  rw [hAll] at hLog hConsumed
  refine ⟨⟨r, hRun, ?_, ?_⟩, hDelivers⟩
  · rw [hLog, List.filterMap_map, List.filterMap_congr hCalls,
      List.filterMap_eq_map']
  · rw [hConsumed, hArrived]

/-
  If the arrivals bring the bytes that were produced, the
  messages that were sent are handed to `onComplete` one
  after the other.  A space with room for all frames sends
  all messages.
-/
def PathRoundTrips
    (protos : TransportProtos)
    (sender : ProtoPathMessageSender)
    (spaces : List OutputSpace)
    (txq : List (Uri × M))
    (arrivals : List Arrival) : Prop :=
  received arrivals =
      ((PathTransmission.start txq).offerAll protos sender
        spaces).bytes →
    ∃ sent,
      txq =
          sent ++
            ((PathTransmission.start txq).offerAll protos
              sender spaces).txq ∧
        ((∃ space ∈ spaces,
            (pathFormat.stream
              (txq.map (frame protos))).length ≤
                (addresses space.buffers).length) →
          sent = txq) ∧
        (∃ r,
          PathReception.start.arriveAll protos.parse arrivals =
              .ok r ∧
            r.log = sent.map callOf ∧
            r.consumed = (received arrivals).length) ∧
        PathReception.Delivers protos.parse
          (sent.map (frame protos)) arrivals

/-
  Framing round trip of the search connection, while no space
  and no view is too long for an `int`; the frames of another
  sender are delivered too, those without success to
  `onError`.
-/
theorem pathRoundTrips_of_short
    {protos : TransportProtos}
    {sender : ProtoPathMessageSender}
    (hAlive : sender.alive = true)
    {txq : List (Uri × M)}
    (hSendable : ∀ entry ∈ txq, Sendable protos entry)
    (hFaithful : ∀ entry ∈ txq,
      protos.Faithful (header entry.1))
    {spaces : List OutputSpace}
    (hSpaces : ∀ space ∈ spaces,
      (addresses space.buffers).length < 2 ^ 31)
    {arrivals : List Arrival}
    (hViews :
      PathReception.ShortViews protos.parse arrivals) :
    PathRoundTrips protos sender spaces txq arrivals ∧
      ∀ frames : List SearchFrame,
        (∀ f ∈ frames,
          f.bodySize ≤ 10000 ∧
            protos.parse f.leader ≠ none) →
        received arrivals <+: pathFormat.stream frames →
          PathReception.Delivers protos.parse frames
              arrivals ∧
            ∀ f ∈ frames,
              ∀ leader,
                protos.parse f.leader = some leader →
                leader.status.success = false →
                  f.call protos.parse =
                    some
                      (.onError leader.id
                        (if leader.status.errorCode = 0 then
                            132
                          else leader.status.errorCode)
                        (String.join
                          leader.status.narrative)) := by
  refine ⟨?_, ?_⟩
  · intro hBytes
    rcases PathTransmission.offerAll_eq
        (t := PathTransmission.start txq) hAlive hSendable
        hFaithful hSpaces with ⟨sent, hSplit, hStream, hEnough⟩
    have hSent : ∀ entry ∈ sent, entry ∈ txq := by
      intro entry hMem
      have hStart : txq = sent ++ _ := hSplit
      rw [hStart]
      exact List.mem_append_left _ hMem
    rcases delivers_sent
        (fun entry hMem => hSendable entry (hSent entry hMem))
        (fun entry hMem => hFaithful entry (hSent entry hMem))
        (hBytes.trans hStream) hViews with
      ⟨hReceived, hDelivers⟩
    refine ⟨sent, hSplit, ?_, hReceived, hDelivers⟩
    intro hRoom
    have hStart : txq = sent ++ _ := hSplit
    rw [hEnough hRoom, List.append_nil] at hStart
    exact hStart.symm
  · intro frames hFrames hBytes
    refine ⟨?_, ?_⟩
    · exact PathReception.delivers
        (fun f hMem => (hFrames f hMem).1)
        (fun f hMem => (hFrames f hMem).2) hBytes hViews
    · intro f hMem leader hParse hFailed
      simp only [SearchFrame.call, hParse, Option.map_some,
        SearchFrame.callFor, hFailed]
      rfl

end RoundTrip

/- The leader of a request to the path `/s` from port 10. -/
def serviceHeader : TransportHeader where
  uri := "s"
  id := 10
  status := { success := true }

def serviceLeader : Wire :=
  [10, 1, 115, 16, 10, 26, 2, 8, 1]

/- What protobuf does with that leader, and with the header
   that is left at its defaults. -/
def serviceProtos : TransportProtos where
  byteSize header :=
    if header = serviceHeader then serviceLeader.length else 0
  serialize header :=
    if header = serviceHeader then serviceLeader else []
  parse wire :=
    if wire = serviceLeader then
      some serviceHeader
    else if wire = [] then
      some
        { uri := ""
          id := 0
          status := { success := false } }
    else
      none

def serviceUri : Uri where
  proto := "tcp"
  host := ""
  path := "/s"
  port := 10
  valid := true

def serviceQueue : List (Uri × ShortBody) :=
  [(serviceUri, ⟨[7], by decide⟩)]

theorem faithful_service :
    ∀ entry ∈ serviceQueue,
      serviceProtos.Faithful
        (ProtoPathMessageSender.header entry.1) := by
  intro entry hMem
  rw [List.mem_singleton.mp hMem]
  exact ⟨by decide, by decide⟩

theorem sendable_service :
    ∀ entry ∈ serviceQueue,
      ProtoPathMessageSender.Sendable serviceProtos entry := by
  intro entry hMem
  rw [List.mem_singleton.mp hMem]
  exact ⟨by decide, by decide⟩

/- Two spaces; the first has no room for the frame. -/
def twoSpaces : List OutputSpace :=
  [⟨[⟨0, 3⟩], fun _ => 0, by decide⟩,
    ⟨[⟨0, 3⟩, ⟨8, 20⟩], fun _ => 0, by decide⟩]

theorem pathRoundTrips_two_spaces :
    PathRoundTrips serviceProtos ⟨true⟩ twoSpaces serviceQueue
      [wholeArrival ((serviceQueue.map
        (ProtoPathMessageSender.frame serviceProtos)).flatMap
          SearchFrame.encode)] :=
  (pathRoundTrips_of_short rfl sendable_service
    faithful_service (by decide)
    (PathReception.shortViews_of_length_lt
      serviceProtos.parse (by decide))).1

/- One buffer that is too long for an `int`. -/
def wrappedSpace : OutputSpace where
  buffers := [⟨0, 2 ^ 31⟩]
  mem := fun _ => 0
  nodup := by
    simp only [addresses, List.flatMap_cons,
      List.flatMap_nil, List.append_nil]
    exact List.nodup_range'

theorem length_addresses_wrappedSpace :
    (addresses wrappedSpace.buffers).length = 2 ^ 31 := by
  simp [addresses, wrappedSpace]

theorem offerAll_wrappedSpace :
    (PathTransmission.start serviceQueue).offerAll
        serviceProtos ⟨true⟩ [wrappedSpace] =
      PathTransmission.start serviceQueue := by
  rfl

/- Frames without a leader and without a payload. -/
def emptyFrames (count : Nat) : List SearchFrame :=
  List.replicate count { leader := [], payload := [] }

theorem length_stream_emptyFrames (count : Nat) :
    (pathFormat.stream (emptyFrames count)).length =
      8 * count := by
  induction count with
  | zero => rfl
  | succ count ih =>
      have hOne :
          (pathFormat.encode
            { leader := [], payload := [] }).length = 8 := rfl
      have hNext :
          emptyFrames (count + 1) =
            { leader := [], payload := [] } ::
              emptyFrames count := List.replicate_succ
      rw [hNext, Framing.Format.stream_cons,
        List.length_append, hOne, ih]
      omega

/- The reader takes a view of `2 ^ 31` bytes for less than
   nothing. -/
theorem arrive_wrapped
    (parse : Wire → Option TransportHeader)
    {arrival : Arrival}
    (hLength : arrival.bytes.length = 2 ^ 31) :
    PathReception.start.arrive parse arrival =
      .ok
        { rest := arrival.bytes
          log := []
          answers := [(0, 8 + 2 ^ 31)] } := by
  have hRemaining :
      (ConstCharArrayBuffer.ofBuffers
          (arrival.cut arrival.bytes)).remainingData =
        -(2 ^ 31) := by
    rw [ConstCharArrayBuffer.remainingData,
      ConstCharArrayBuffer.size_ofBuffers,
      arrival.flatten_cut, hLength]
    rfl
  have hNeeds :
      ProtoPathMessageReader.iterate parse
          (ConstCharArrayBuffer.ofBuffers
            (arrival.cut arrival.bytes)) =
        .needs (8 + 2 ^ 31) := by
    rw [ProtoPathMessageReader.iterate, hRemaining,
      if_pos (by decide)]
    rfl
  have hView :
      PathReception.start.view arrival = arrival.bytes := rfl
  simp only [PathReception.arrive, hView,
    ProtoPathMessageReader.checkForMessage,
    ProtoPathMessageReader.checkLoop_needs hNeeds]
  rfl

theorem not_delivers_of_wrapped
    (parse : Wire → Option TransportHeader)
    {frames : List SearchFrame}
    (hLength : (pathFormat.stream frames).length = 2 ^ 31) :
    ¬ PathReception.Delivers parse frames
        [wholeArrival (pathFormat.stream frames)] := by
  intro hDelivers
  have hArrived :
      received [wholeArrival (pathFormat.stream frames)] =
        pathFormat.stream frames := List.append_nil _
  have hOne :
      PathReception.start.arriveAll parse
          [wholeArrival (pathFormat.stream frames)] =
        .ok
          { rest := pathFormat.stream frames
            log := []
            answers := [(0, 8 + 2 ^ 31)] } := by
    have hNil :
        PathReception.start.arriveAll parse [] =
          .ok PathReception.start := rfl
    rw [← List.nil_append [wholeArrival _],
      PathReception.arriveAll_snoc, hNil, Except.bind,
      arrive_wrapped parse hLength]
    rfl
  rcases hDelivers _ List.prefix_rfl with
    ⟨r, hRun, -, hConsumed, -⟩
  have hLast := Except.ok.inj (hOne.symm.trans hRun)
  have hNone : r.consumed = 0 := by
    rw [← hLast]
    rfl
  rw [hNone, hArrived,
    pathFormat.complete_of_le (Nat.le_refl _), hLength]
    at hConsumed
  omega

/-
  A space of `2 ^ 31` bytes takes no frame, and a view of
  `2 ^ 31` bytes gives none.
-/
theorem not_pathRoundTrips_of_wrapped :
    ((∃ space ∈ [wrappedSpace],
        (pathFormat.stream (serviceQueue.map
          (ProtoPathMessageSender.frame
            serviceProtos))).length ≤
          (addresses space.buffers).length) ∧
      (∀ entry ∈ serviceQueue,
        ProtoPathMessageSender.Sendable serviceProtos entry ∧
          serviceProtos.Faithful
            (ProtoPathMessageSender.header entry.1)) ∧
      ¬ PathRoundTrips serviceProtos ⟨true⟩ [wrappedSpace]
          serviceQueue []) ∧
    ∃ arrival : Arrival,
      (∀ f ∈ emptyFrames (2 ^ 28),
        f.bodySize ≤ 10000 ∧
          serviceProtos.parse f.leader ≠ none) ∧
      received [arrival] =
        pathFormat.stream (emptyFrames (2 ^ 28)) ∧
      ¬ PathReception.Delivers serviceProtos.parse
          (emptyFrames (2 ^ 28)) [arrival] := by
  refine ⟨⟨?_, ?_, ?_⟩, ?_⟩
  · refine ⟨wrappedSpace, by simp, ?_⟩
    rw [length_addresses_wrappedSpace]
    decide
  · intro entry hMem
    exact ⟨sendable_service entry hMem,
      faithful_service entry hMem⟩
  · intro hTrips
    rcases hTrips (by rw [offerAll_wrappedSpace]; rfl) with
      ⟨sent, hSplit, hEnough, -⟩
    have hAll : sent = serviceQueue := by
      refine hEnough ⟨wrappedSpace, by simp, ?_⟩
      rw [length_addresses_wrappedSpace]
      decide
    rw [offerAll_wrappedSpace, hAll] at hSplit
    cases hSplit
  · refine ⟨wholeArrival
      (pathFormat.stream (emptyFrames (2 ^ 28))), ?_, ?_, ?_⟩
    · intro f hMem
      rw [List.eq_of_mem_replicate hMem]
      exact ⟨by decide, by decide⟩
    · exact List.append_nil _
    · exact not_delivers_of_wrapped serviceProtos.parse
        ((length_stream_emptyFrames (2 ^ 28)).trans (by decide))

end OefCore
