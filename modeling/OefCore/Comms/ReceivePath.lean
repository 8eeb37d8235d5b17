import OefCore.BasicComms.EndpointBase
import OefCore.Comms.Reception
import OefCore.Library.Runs

/-
  The receive path of an endpoint with a settled reader:
  asio, the ring buffer and `checkForMessage` together.

  Main declarations:
    * `Receiver`, `Receiver.readAll`
    * `Receiver.Admissible`, `Receiver.InStep`
    * `Receiver.Receives`, `Receiver.NeverOverfull`
    * `Receiver.receives_iff`
-/

------------------------------------------------------------
-- Runs of Completed Reads
------------------------------------------------------------

namespace OefCore

/- An endpoint whose reader logs the bodies it hands on. -/
abbrev Receiver (M : Type) :=
  EndpointBase
    (ProtoMessageEndpoint (List (List UInt8))) M
    (List (List UInt8))

namespace Receiver

variable {M : Type}

/- After `go`, each chunk completes the read before it. -/
def readAll
    (ep : Receiver M)
    (chunks : List (List UInt8)) : Receiver M :=
  chunks.foldl
    (fun ep chunk => ep.readCompletes .success chunk) ep.go

theorem readAll_snoc
    (ep : Receiver M)
    (chunks : List (List UInt8))
    (chunk : List UInt8) :
    ep.readAll (chunks ++ [chunk]) =
      (ep.readAll chunks).readCompletes .success chunk := by
  simp [readAll]

/- A read is outstanding that the chunk may complete. -/
def Offers
    (ep : Receiver M)
    (chunk : List UInt8) : Prop :=
  ∃ op reads,
    ep.reads = op :: reads ∧
      op.needed ≤ chunk.length ∧
      chunk.length ≤ (addresses op.space).length

/- The transport completes only reads that are outstanding,
   each with a number of bytes it was offered. -/
def Admissible
    (ep : Receiver M)
    (chunks : List (List UInt8)) : Prop :=
  ∀ front chunk back,
    chunks = front ++ chunk :: back →
      (ep.readAll front).Offers chunk

/- The handler for protocol errors delivers no messages. -/
def Quiet (ep : Receiver M) : Prop :=
  ∀ handler ∈ ep.onProtoError, ∀ message world,
    (handler message world).2 = world

/- A connected endpoint with a settled, recording reader,
   before `go`.  Its start handler does not throw and does
   not deliver messages. -/
structure Connected
    (ep : Receiver M)
    (e : Endianness)
    (capacity : Nat) : Prop where
  settled : e.Settled
  endianness_eq : ep.protocol.protoMessageReader.endianness = e
  records : ep.protocol.Records
  readBuffer_eq : ep.readBuffer = RingBuffer.ofSize capacity
  readNeeded_eq : ep.readNeeded = 0
  asioReading_eq : ep.asioReading = false
  alive : ep.state.dead = false
  world_eq : ep.world = []
  reads_eq : ep.reads = []
  starts : ∀ myStart ∈ ep.onStart, ∀ world,
    myStart () world = (.ok (), world)
  quiet : ep.Quiet

------------------------------------------------------------
-- The Invariant
------------------------------------------------------------

/-
  The endpoint has handed on the complete bodies after `n`
  bytes and its buffer holds the rest.
-/
structure Holds
    (ep : Receiver M)
    (e : Endianness)
    (capacity : Nat)
    (bodies : List (List UInt8))
    (n : Nat) : Prop where
  settled : e.Settled
  endianness_eq : ep.protocol.protoMessageReader.endianness = e
  records : ep.protocol.Records
  quiet : ep.Quiet
  valid : ep.readBuffer.Valid
  size_eq : ep.readBuffer.size = capacity
  isRunning : ep.state.isRunning = true
  within : n ≤ (e.header.stream bodies).length
  world_eq : ep.world = e.header.complete bodies n
  contents_eq :
    ep.readBuffer.contents =
      ((e.header.stream bodies).take n).drop
        (e.header.stream (e.header.complete bodies n)).length

/- One read is outstanding, with the space as it is now,
   and asks for no more than is missing. -/
structure InStep
    (ep : Receiver M)
    (e : Endianness)
    (capacity : Nat)
    (bodies : List (List UInt8))
    (n : Nat) : Prop extends Holds ep e capacity bodies n where
  asioReading_eq : ep.asioReading = true
  reads_eq :
    ∃ needed,
      1 ≤ needed ∧
        needed ≤ e.header.missing bodies n ∧
        ep.reads =
          [{ needed := needed
             space := ep.readBuffer.getSpaceBuffers }]

namespace Holds

variable {ep : Receiver M}
variable {e : Endianness}
variable {capacity n : Nat}
variable {bodies : List (List UInt8)}

/- The number of bytes held in the buffer. -/
theorem getDataAvailable_eq
    (hHolds : ep.Holds e capacity bodies n) :
    ep.readBuffer.getDataAvailable =
      n - (e.header.stream
        (e.header.complete bodies n)).length := by
  rw [← RingBuffer.length_contents, hHolds.contents_eq,
    List.length_drop, List.length_take,
    Nat.min_eq_left hHolds.within]

theorem alive
    (hHolds : ep.Holds e capacity bodies n) :
    ep.state.dead = false := by
  have hRunning := hHolds.isRunning
  simp only [EndpointState.isRunning, Bool.and_eq_true,
    Bool.not_eq_true'] at hRunning
  exact hRunning.2

/- An idle reader that needs bytes and has space asks for
   them. -/
theorem runReading
    (hHolds : ep.Holds e capacity bodies n)
    (hIdle : ep.asioReading = false)
    (hReads : ep.reads = [])
    (hNeeded : 0 < ep.readNeeded)
    (hMissing : ep.readNeeded ≤ e.header.missing bodies n)
    (hSpace : 0 < ep.readBuffer.getFreeSpace) :
    InStep ep.runReading e capacity bodies n := by
  have hAsks := EndpointBase.runReading_asks hIdle
    hHolds.isRunning hNeeded hSpace
  have hMin :
      1 ≤ min ep.readNeeded ep.readBuffer.getFreeSpace := by
    omega
  rw [hAsks]
  exact
    { settled := hHolds.settled
      endianness_eq := hHolds.endianness_eq
      records := hHolds.records
      quiet := hHolds.quiet
      valid := hHolds.valid
      size_eq := hHolds.size_eq
      isRunning := hHolds.isRunning
      within := hHolds.within
      world_eq := hHolds.world_eq
      contents_eq := hHolds.contents_eq
      asioReading_eq := rfl
      reads_eq := by
        refine ⟨_, hMin, by omega, ?_⟩
        simp only [EndpointBase.asyncRead, hReads,
          List.nil_append] }

end Holds

/- An endpoint that `go` has started, before it reads. -/
def started (ep : Receiver M) : Receiver M :=
  { ep with
    onStart := none
    state := { ep.state with running := true }
    readNeeded := ep.readNeeded + 1 }

theorem readAll_nil_eq
    {ep : Receiver M}
    {e : Endianness}
    {capacity : Nat}
    (hConnected : ep.Connected e capacity) :
    ep.readAll [] = ep.started.runReading := by
  change ep.go = _
  cases hStart : ep.onStart with
  | none => simp [EndpointBase.go, started, hStart]
  | some myStart =>
      have hCalm := hConnected.starts myStart hStart ep.world
      simp [EndpointBase.go, started, hStart, hCalm]

theorem holds_started
    {ep : Receiver M}
    {e : Endianness}
    {capacity : Nat}
    (hCapacity : 0 < capacity)
    (hConnected : ep.Connected e capacity)
    (bodies : List (List UInt8)) :
    Holds ep.started e capacity bodies 0 := by
  have hNone : e.header.complete bodies 0 = [] :=
    List.eq_nil_of_length_eq_zero (by
      have hLe := e.header.length_stream_complete_le bodies 0
      have hWidth := e.header.width_mul_le_length_stream
        (e.header.complete bodies 0)
      rw [e.header_width] at hWidth
      omega)
  have hAlive := hConnected.alive
  have hBuffer : ep.started.readBuffer = .ofSize capacity :=
    hConnected.readBuffer_eq
  exact
    { settled := hConnected.settled
      endianness_eq := hConnected.endianness_eq
      records := hConnected.records
      quiet := hConnected.quiet
      valid := by
        rw [hBuffer]
        exact RingBuffer.valid_ofSize hCapacity
      size_eq := by
        rw [hBuffer]
        rfl
      isRunning := by
        simp only [EndpointState.dead] at hAlive
        simp [started, EndpointState.isRunning,
          EndpointState.dead, hAlive]
      within := Nat.zero_le _
      world_eq := hConnected.world_eq.trans hNone.symm
      contents_eq := by
        rw [hBuffer]
        simp }

/- The first read asks for one byte. -/
theorem inStep_go
    {ep : Receiver M}
    {e : Endianness}
    {capacity : Nat}
    (hCapacity : 0 < capacity)
    (hConnected : ep.Connected e capacity)
    (bodies : List (List UInt8)) :
    InStep (ep.readAll []) e capacity bodies 0 := by
  rw [readAll_nil_eq hConnected]
  apply (holds_started hCapacity hConnected bodies).runReading
  · exact hConnected.asioReading_eq
  · exact hConnected.reads_eq
  · exact Nat.succ_pos _
  · simp only [started, hConnected.readNeeded_eq,
      Nat.zero_add]
    exact e.header.missing_pos (Nat.zero_le _)
  · change 0 < ep.readBuffer.getFreeSpace
    rw [hConnected.readBuffer_eq]
    exact hCapacity

/- The buffer when a chunk has arrived that leaves it short of
   full. -/
theorem InStep.contents_filled
    {ep : Receiver M}
    {e : Endianness}
    {capacity n m : Nat}
    {bodies : List (List UInt8)}
    (hStep : ep.InStep e capacity bodies n)
    {chunk : List UInt8}
    (hRoom : chunk.length < ep.readBuffer.getFreeSpace)
    (hTake :
      (e.header.stream bodies).take n ++ chunk =
        (e.header.stream bodies).take m) :
    (ep.readBuffer.filled chunk).contents =
        ((e.header.stream bodies).take m).drop
          (e.header.stream
            (e.header.complete bodies n)).length ∧
      (ep.readBuffer.filled chunk).getDataBuffers.flatten =
        (ep.readBuffer.filled chunk).contents := by
  have hWithin := hStep.within
  have hDone := e.header.length_stream_complete_le bodies n
  have hFree := hStep.valid.available_add_free
  have hFits := Nat.le_of_lt hRoom
  have hLengths :
      ((e.header.stream bodies).take n).length = n := by
    rw [List.length_take, Nat.min_eq_left hWithin]
  constructor
  · rw [RingBuffer.contents_filled hStep.valid hFits,
      hStep.contents_eq, ← hTake,
      List.drop_append_of_le_length (by omega)]
  · apply RingBuffer.flatten_getDataBuffers
      (RingBuffer.valid_filled hStep.valid hFits)
    rw [RingBuffer.getDataAvailable_filled hStep.valid hFits,
      RingBuffer.size_filled]
    omega

/- An endpoint that has read a chunk and handed on some bodies,
   before it reads on. -/
def taken
    (ep : Receiver M)
    (chunk : List UInt8)
    (handed : List (List UInt8))
    (used needed : Nat) : Receiver M :=
  { ep with
    reads := []
    world := ep.world ++ handed
    readBuffer := (ep.readBuffer.filled chunk).markDataUsed used
    readNeeded := needed
    asioReading := false }

section Chunks

variable {ep : Receiver M} {e : Endianness}
variable {capacity n m : Nat}
variable {bodies further : List (List UInt8)}
variable {chunk : List UInt8}

/- A read hands on the bodies that a chunk completes. -/
theorem InStep.takes
    (hStep : ep.InStep e capacity bodies n)
    (hLimit : ∀ body ∈ bodies, body.length ≤ 10000)
    (hRoom : chunk.length < ep.readBuffer.getFreeSpace)
    (hNext : n + chunk.length = m)
    (hUpTo : m ≤ (e.header.stream bodies).length)
    (hTake :
      (e.header.stream bodies).take n ++ chunk =
        (e.header.stream bodies).take m)
    (hInt :
      m <
        (e.header.stream (e.header.complete bodies n)).length +
          2 ^ 31) :
    ∃ further,
      e.header.complete bodies m =
          e.header.complete bodies n ++ further ∧
        ep.readCompletes .success chunk =
          (taken ep chunk further (e.header.stream further).length
            (e.header.missing bodies m)).runReading := by
  have hDone := e.header.length_stream_complete_le bodies n
  have hWithin := hStep.within
  have hAvailable := hStep.getDataAvailable_eq
  rcases hStep.contents_filled hRoom hTake with
    ⟨hContents, hView⟩
  rcases e.header.scan_resume 10000 (by simp) hLimit
      (e.header.complete_prefix bodies n)
      (by omega : (e.header.stream
        (e.header.complete bodies n)).length ≤ m) hUpTo with
    ⟨further, hComplete, hScan⟩
  rw [← hContents] at hScan
  have hAmount :=
    RingBuffer.getDataAvailable_filled hStep.valid
      (Nat.le_of_lt hRoom)
  have hCheck := ProtoMessageEndpoint.checkForMessage_eq_scan
    hStep.endianness_eq hStep.settled hStep.records hView
    (by rw [RingBuffer.length_contents, hAmount]; omega)
    ep.world
  rw [hScan] at hCheck
  rcases hStep.reads_eq with ⟨needed, -, -, hReads⟩
  refine ⟨further, hComplete, ?_⟩
  apply EndpointBase.readCompletes_ok hStep.alive hReads
  simp only [IMessageReader.checkForMessage, hCheck]
  rfl

/- What it holds is then what follows these bodies. -/
theorem InStep.holds_taken
    (hStep : ep.InStep e capacity bodies n)
    (hRoom : chunk.length < ep.readBuffer.getFreeSpace)
    (hNext : n + chunk.length = m)
    (hUpTo : m ≤ (e.header.stream bodies).length)
    (hTake :
      (e.header.stream bodies).take n ++ chunk =
        (e.header.stream bodies).take m)
    (hComplete :
      e.header.complete bodies m =
        e.header.complete bodies n ++ further)
    (needed : Nat) :
    Holds
      (taken ep chunk further (e.header.stream further).length
        needed) e capacity bodies m := by
  have hFits := Nat.le_of_lt hRoom
  have hAvailable := hStep.getDataAvailable_eq
  have hAmount :=
    RingBuffer.getDataAvailable_filled hStep.valid hFits
  have hWithin := hStep.within
  have hDone := e.header.length_stream_complete_le bodies n
  have hUsed := e.header.length_stream_complete_le bodies m
  have hConsumed :
      (e.header.stream (e.header.complete bodies m)).length =
        (e.header.stream
            (e.header.complete bodies n)).length +
          (e.header.stream further).length := by
    rw [hComplete, Framing.Header.stream_append,
      List.length_append]
  have hUse :
      (e.header.stream further).length ≤
        (ep.readBuffer.filled chunk).getDataAvailable := by
    omega
  exact
    { settled := hStep.settled
      endianness_eq := hStep.endianness_eq
      records := hStep.records
      quiet := hStep.quiet
      valid :=
        RingBuffer.valid_markDataUsed
          (RingBuffer.valid_filled hStep.valid hFits) hUse
      size_eq := hStep.size_eq
      isRunning := hStep.isRunning
      within := hUpTo
      world_eq := by
        rw [hComplete, ← hStep.world_eq]
        rfl
      contents_eq := by
        simp only [taken]
        rw [RingBuffer.contents_markDataUsed hUse,
          (hStep.contents_filled hRoom hTake).1,
          List.drop_drop, hConsumed] }

/-
  A chunk that leaves the buffer short of full, and short of
  what an `int` can count, keeps the endpoint in step.
-/
theorem InStep.readCompletes
    (hCapacity : 10004 ≤ capacity)
    (hLimit : ∀ body ∈ bodies, body.length ≤ 10000)
    (hStep : ep.InStep e capacity bodies n)
    (hBytes :
      (e.header.stream bodies).take n ++ chunk <+:
        e.header.stream bodies)
    (hNotFull :
      n + chunk.length <
        (e.header.stream (e.header.complete bodies n)).length +
          capacity)
    (hInt :
      n + chunk.length <
        (e.header.stream (e.header.complete bodies n)).length +
          2 ^ 31) :
    InStep (ep.readCompletes .success chunk) e capacity
      bodies (n + chunk.length) := by
  have hWithin := hStep.within
  have hAvailable := hStep.getDataAvailable_eq
  have hDone := e.header.length_stream_complete_le bodies n
  have hFree := hStep.valid.available_add_free
  rw [hStep.size_eq] at hFree
  have hRoom :
      chunk.length < ep.readBuffer.getFreeSpace := by omega
  rcases Framing.take_append_of_prefix hWithin hBytes with
    ⟨hUpTo, hTake⟩
  generalize hNext : n + chunk.length = m
    at hNotFull hInt hUpTo hTake ⊢
  rcases hStep.takes hLimit hRoom hNext hUpTo hTake hInt with
    ⟨further, hComplete, hRun⟩
  have hHolds :=
    hStep.holds_taken hRoom hNext hUpTo hTake hComplete
      (e.header.missing bodies m)
  have hMissing := e.header.missing_pos hUpTo
  rw [hRun]
  apply hHolds.runReading rfl rfl hMissing (Nat.le_refl _)
  have hHeld := e.header.held_add_missing_le hUpTo hLimit
  rw [e.header_width] at hHeld
  have hSpace := hHolds.valid.available_add_free
  rw [hHolds.getDataAvailable_eq, hHolds.size_eq] at hSpace
  omega

end Chunks

/- A read in step offers the free space of the buffer. -/
theorem InStep.length_le_free
    {ep : Receiver M}
    {e : Endianness}
    {capacity n : Nat}
    {bodies : List (List UInt8)}
    (hStep : ep.InStep e capacity bodies n)
    {chunk : List UInt8}
    (hOffers : ep.Offers chunk) :
    chunk.length ≤ ep.readBuffer.getFreeSpace := by
  rcases hStep.reads_eq with ⟨needed, -, -, hReads⟩
  rcases hOffers with ⟨op, reads, hOp, -, hSpace⟩
  rw [hReads] at hOp
  cases hOp
  rwa [RingBuffer.addresses_getSpaceBuffers hStep.valid,
    Circular.length_interval] at hSpace

/-
  What the reader hands on fits the view it is given: none
  of a full buffer, and less than an `int` can count of a
  buffer that holds more.
-/
theorem InStep.exists_further
    {ep : Receiver M}
    {e : Endianness}
    {capacity n : Nat}
    {bodies : List (List UInt8)}
    (hCapacity : 10004 ≤ capacity)
    (hStep : ep.InStep e capacity bodies n)
    {chunk : List UInt8}
    (hFits : chunk.length ≤ ep.readBuffer.getFreeSpace)
    {held : Nat}
    (hHeld :
      (ep.readBuffer.filled chunk).getDataAvailable = held)
    (hOver : held = capacity ∨ 2 ^ 31 ≤ held) :
    ∃ further,
      (ep.readCompletes .success chunk).world =
          ep.world ++ further ∧
        (e.header.stream further).length + 10004 ≤ held := by
  rcases hStep.reads_eq with ⟨needed, -, -, hReads⟩
  have hValid := RingBuffer.valid_filled hStep.valid hFits
  generalize hView :
    (ep.readBuffer.filled chunk).getDataBuffers = view
  have hSize := ConstCharArrayBuffer.size_ofBuffers view
  rcases ProtoMessageEndpoint.exists_delivered hStep.records
      (ConstCharArrayBuffer.ofBuffers view) (Int.le_refl 0)
      (by rw [hSize]; exact toInt32_lt _) 0 ep.world with
    ⟨further, -, hWorld, hBound, -⟩
  refine ⟨further, ?_, ?_⟩
  · rw [EndpointBase.world_readCompletes hStep.alive
      hStep.quiet hReads, hView]
    exact hWorld
  · rw [← e.length_stream]
    have hRemaining :
        (ConstCharArrayBuffer.ofBuffers view).remainingData =
          toInt32 view.flatten.length := by
      rw [ConstCharArrayBuffer.remainingData, hSize]
      exact Int.sub_zero _
    rw [hRemaining] at hBound
    by_cases hFull :
        (ep.readBuffer.filled chunk).getDataAvailable <
          (ep.readBuffer.filled chunk).size
    · have hFlat :=
        RingBuffer.flatten_getDataBuffers hValid hFull
      have hLength : view.flatten.length = held := by
        rw [← hView, hFlat, RingBuffer.length_contents, hHeld]
      rw [RingBuffer.size_filled, hStep.size_eq] at hFull
      have hLoss := toNat_toInt32_add_le
        (by omega : 2 ^ 31 ≤ view.flatten.length)
      omega
    · have hNone := RingBuffer.getDataBuffers_of_full hFull
      have hEmpty : view.flatten.length = 0 := by
        rw [← hView, hNone]
        rfl
      have hNarrow := toNat_toInt32_le view.flatten.length
      rw [RingBuffer.size_filled, hStep.size_eq] at hFull
      omega

------------------------------------------------------------
-- When the Receive Path Works
------------------------------------------------------------

/-
  After `n` bytes exactly the complete bodies have been
  handed on, and a running endpoint has exactly one read
  outstanding and knows it.
-/
def Receives
    (ep : Receiver M)
    (e : Endianness)
    (bodies : List (List UInt8))
    (n : Nat) : Prop :=
  ep.world = e.header.complete bodies n ∧
    (ep.state.isRunning = true →
      ep.asioReading = true ∧ ∃ op, ep.reads = [op])

/- The bytes behind the frames complete before a chunk, the
   chunk included. -/
def heldAfter
    (e : Endianness)
    (bodies : List (List UInt8))
    (front : List (List UInt8))
    (chunk : List UInt8) : Nat :=
  front.flatten.length + chunk.length -
    (e.header.stream (e.header.complete bodies
      front.flatten.length)).length

/- No chunk fills the buffer to the last byte, or beyond
   what an `int` can count. -/
def NeverOverfull
    (e : Endianness)
    (capacity : Nat)
    (bodies : List (List UInt8))
    (chunks : List (List UInt8)) : Prop :=
  ∀ front chunk back,
    chunks = front ++ chunk :: back →
      heldAfter e bodies front chunk ≠ capacity ∧
        heldAfter e bodies front chunk < 2 ^ 31

theorem InStep.receives
    {ep : Receiver M}
    {e : Endianness}
    {capacity n : Nat}
    {bodies : List (List UInt8)}
    (hStep : ep.InStep e capacity bodies n) :
    ep.Receives e bodies n := by
  rcases hStep.reads_eq with ⟨needed, -, -, hReads⟩
  exact ⟨hStep.world_eq,
    fun _ => ⟨hStep.asioReading_eq, _, hReads⟩⟩

section Runs

variable {ep : Receiver M}
variable {e : Endianness}
variable {capacity : Nat}
variable {bodies : List (List UInt8)}
variable {front : List (List UInt8)}
variable {chunk : List UInt8}

/- One chunk keeps the run in step, or breaks what is
   promised, as it overfills the buffer or does not. -/
theorem InStep.next
    (hCapacity : 10004 ≤ capacity)
    (hLimit : ∀ body ∈ bodies, body.length ≤ 10000)
    (hStep :
      InStep (ep.readAll front) e capacity bodies
        front.flatten.length)
    (hOffers : Offers (ep.readAll front) chunk)
    (hBytes :
      (front ++ [chunk]).flatten <+: e.header.stream bodies) :
    (heldAfter e bodies front chunk ≠ capacity ∧
        heldAfter e bodies front chunk < 2 ^ 31 →
      InStep (ep.readAll (front ++ [chunk])) e capacity bodies
        (front ++ [chunk]).flatten.length) ∧
      (Receives (ep.readAll (front ++ [chunk])) e bodies
          (front ++ [chunk]).flatten.length →
        heldAfter e bodies front chunk ≠ capacity ∧
          heldAfter e bodies front chunk < 2 ^ 31) := by
  have hFlat :
      (front ++ [chunk]).flatten =
        front.flatten ++ chunk := by simp
  rw [hFlat] at hBytes ⊢
  rw [readAll_snoc, List.length_append]
  have hFits := hStep.length_le_free hOffers
  have hFree := hStep.valid.available_add_free
  have hAvailable := hStep.getDataAvailable_eq
  rw [hStep.size_eq] at hFree
  have hDone := e.header.length_stream_complete_le bodies
    front.flatten.length
  have hHeldLe : heldAfter e bodies front chunk ≤ capacity := by
    rw [heldAfter]
    omega
  constructor
  · rintro ⟨hNotFull, hInt⟩
    rw [heldAfter] at hNotFull hInt hHeldLe
    have hFrontPrefix :=
      (List.prefix_append _ _).trans hBytes
    apply hStep.readCompletes hCapacity hLimit
    · rwa [← List.prefix_iff_eq_take.mp hFrontPrefix]
    · omega
    · omega
  · intro hReceives
    by_contra hOver
    have hHeld :
        ((ep.readAll front).readBuffer.filled
          chunk).getDataAvailable =
            heldAfter e bodies front chunk := by
      rw [RingBuffer.getDataAvailable_filled hStep.valid hFits,
        hAvailable, heldAfter]
      omega
    rcases hStep.exists_further hCapacity hFits hHeld
        (by omega) with ⟨further, hWorld, hLength⟩
    -- at least one complete body has not been handed on
    have hAll := hReceives.1
    rw [hWorld, hStep.world_eq] at hAll
    have hMost := e.header.held_add_missing_le
      (n := front.flatten.length + chunk.length)
      (by rw [← List.length_append]; exact hBytes.length_le)
      hLimit
    have hPos := e.header.missing_pos
      (n := front.flatten.length + chunk.length)
      (by rw [← List.length_append]; exact hBytes.length_le)
    rw [← hAll, Framing.Header.stream_append,
      List.length_append, e.header_width] at hMost
    rw [heldAfter] at hLength
    omega

/-
  The receive path works for exactly the runs in which no
  chunk overfills the read buffer.
-/
theorem receives_iff
    {chunks : List (List UInt8)}
    (hCapacity : 10004 ≤ capacity)
    (hConnected : Connected ep e capacity)
    (hLimit : ∀ body ∈ bodies, body.length ≤ 10000)
    (hBytes : chunks.flatten <+: e.header.stream bodies)
    (hAdmissible : Admissible ep chunks) :
    (∀ front, front <+: chunks →
      Receives (ep.readAll front) e bodies
        front.flatten.length) ↔
      NeverOverfull e capacity bodies chunks := by
  have hChunk :
      ∀ front chunk back,
        chunks = front ++ chunk :: back →
          (front ++ [chunk]).flatten <+:
            e.header.stream bodies := by
    intro front chunk back hSplit
    refine List.IsPrefix.trans ?_ hBytes
    rw [hSplit]
    exact ⟨back.flatten, by simp⟩
  apply Runs.forall_prefix_iff
    (fun front =>
      InStep (ep.readAll front) e capacity bodies
        front.flatten.length)
  · exact inStep_go (by omega) hConnected bodies
  · intro front hStep
    exact hStep.receives
  · intro front chunk back hSplit hStep hFits
    exact (hStep.next hCapacity hLimit
      (hAdmissible front chunk back hSplit)
      (hChunk front chunk back hSplit)).1 hFits
  · intro front chunk back hSplit hStep hReceives
    exact (hStep.next hCapacity hLimit
      (hAdmissible front chunk back hSplit)
      (hChunk front chunk back hSplit)).2 hReceives

end Runs

/- A constructed endpoint with a settled, recording reader. -/
def settledEndpoint
    (e : Endianness)
    (capacity : Nat) : Receiver Unit :=
  .construct (settledReceiver e) capacity capacity []

theorem connected_settledEndpoint
    {e : Endianness}
    (hSettled : e.Settled)
    (capacity : Nat) :
    Connected (settledEndpoint e capacity) e capacity where
  settled := hSettled
  endianness_eq := rfl
  records := rfl
  readBuffer_eq := rfl
  readNeeded_eq := rfl
  asioReading_eq := rfl
  alive := rfl
  world_eq := rfl
  reads_eq := rfl
  starts := fun _ hNone => by cases hNone
  quiet := fun _ hNone => by cases hNone

/- The first read can be completed by any header, up to the
   whole buffer. -/
theorem admissible_single
    {e : Endianness}
    (hSettled : e.Settled)
    {capacity : Nat}
    {chunk : List UInt8}
    (hHead : 4 ≤ chunk.length)
    (hFits : chunk.length ≤ capacity) :
    Admissible (settledEndpoint e capacity) [chunk] := by
  have hStep := inStep_go (by omega)
    (connected_settledEndpoint hSettled capacity) []
  rcases hStep.reads_eq with ⟨needed, -, hNeeded, hReads⟩
  have hHeader : e.header.missing [] 0 = 4 := by
    simp [Framing.Header.missing]
  have hFree := hStep.valid.available_add_free
  rw [hStep.getDataAvailable_eq, hStep.size_eq] at hFree
  intro front other back hSplit
  have hFront : front = [] := by
    cases front with
    | nil => rfl
    | cons first front => simp at hSplit
  subst hFront
  cases hSplit
  refine ⟨_, _, hReads, ?_, ?_⟩
  · simp only
    omega
  · rw [RingBuffer.addresses_getSpaceBuffers hStep.valid,
      Circular.length_interval]
    omega

theorem receives_iff_one_message :
    (∀ front, front <+: [[1, 0, 0, 0, 7]] →
      Receives
        (readAll (settledEndpoint .little 10004) front)
        .little [[7]] front.flatten.length) ↔
      NeverOverfull .little 10004 [[7]] [[1, 0, 0, 0, 7]] :=
  receives_iff (by decide)
    (connected_settledEndpoint (Or.inl rfl) 10004) (by decide)
    (by decide)
    (admissible_single (Or.inl rfl) (by decide) (by decide))

/-
  A frame that fills the buffer to the last byte is not
  handed on: the reader is shown an empty view.
-/
theorem not_receives_of_full
    {e : Endianness}
    (hSettled : e.Settled)
    {body : List UInt8}
    (hBody : body.length = 10000) :
    ¬ Receives
        (readAll (settledEndpoint e 10004) [e.header.frame body])
        e [body] [e.header.frame body].flatten.length := by
  have hLength : (e.header.frame body).length = 10004 := by
    rw [Framing.Header.length_frame, hBody, e.header_width]
  have hAdmissible := admissible_single hSettled
    (by omega : 4 ≤ (e.header.frame body).length)
    (Nat.le_of_eq hLength)
  have hLimit : ∀ b ∈ [body], b.length ≤ 10000 := by
    intro b hb
    rw [List.mem_singleton.mp hb, hBody]
  have hBytes :
      ([] ++ [e.header.frame body]).flatten <+:
        e.header.stream [body] := by
    simp
  have hStart := inStep_go (by decide)
    (connected_settledEndpoint hSettled 10004) [body]
  have hNext := InStep.next (by decide) hLimit hStart
    (hAdmissible [] _ [] rfl) hBytes
  intro hReceives
  apply (hNext.2 hReceives).1
  have hNone := e.header.length_stream_complete_le [body] 0
  rw [heldAfter, hLength]
  simp only [List.flatten_nil, List.length_nil]
  omega

/- The frame of the largest body and the smallest buffer. -/
theorem not_receives_full :
    Connected (settledEndpoint .little 10004) .little 10004 ∧
      Admissible (settledEndpoint .little 10004)
        [littleHeader.frame (List.replicate 10000 0)] ∧
      ¬ ∀ front,
          front <+:
              [littleHeader.frame (List.replicate 10000 0)] →
            Receives
              (readAll (settledEndpoint .little 10004) front)
              .little [List.replicate 10000 0]
              front.flatten.length := by
  have hSettled : Endianness.Settled .little := Or.inl rfl
  have hBody :
      (List.replicate 10000 (0 : UInt8)).length = 10000 :=
    List.length_replicate
  generalize List.replicate 10000 (0 : UInt8) = body at hBody ⊢
  have hLength : (littleHeader.frame body).length = 10004 := by
    rw [Framing.Header.length_frame, hBody]
    rfl
  refine ⟨connected_settledEndpoint hSettled 10004,
    admissible_single hSettled (by omega) (by omega), ?_⟩
  intro hReceives
  exact not_receives_of_full hSettled hBody
    (hReceives _ List.prefix_rfl)

end Receiver

end OefCore
