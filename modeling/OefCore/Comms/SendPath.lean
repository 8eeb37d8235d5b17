import OefCore.Comms.Reception
import OefCore.Library.Runs

/-
  The send path of an endpoint with a settled sender: the
  transmit queue, `checkForSpace`, the ring buffer and asio
  together.

  Main declarations:
    * `SendEvent`, `SendRun`, `SendRun.step`
    * `SendRun.InOrder`
    * `SendRun.Sends`, `SendRun.NeverExactlyFull`
    * `SendRun.sends_iff`
-/

------------------------------------------------------------
-- Runs
------------------------------------------------------------

namespace OefCore

variable {M σ : Type}
variable [ProtoMessage M]

/- What happens to the sending side of a connection; a write
   completes with all of the bytes it was given. -/
inductive SendEvent (M : Type) where
  | send (s : M)
  | runSending
  | writeCompletes

/- An endpoint and the messages pushed on its queue. -/
structure SendRun (M σ : Type) where
  endpoint : EndpointBase (ProtoMessageEndpoint σ) M σ
  pushed : List M

namespace SendRun

def step (r : SendRun M σ) : SendEvent M → SendRun M σ
  | .send s =>
      { endpoint := (r.endpoint.send s).2
        pushed :=
          if (r.endpoint.send s).1 then
            r.pushed ++ [s]
          else
            r.pushed }
  | .runSending =>
      { r with endpoint := r.endpoint.runSending.2 }
  | .writeCompletes =>
      match r.endpoint.writes with
      | [] => r
      | data :: _ =>
          { r with
            endpoint := r.endpoint.writeCompletes
              .success data.length }

/- A run from an endpoint with nothing queued yet. -/
def run
    (ep : EndpointBase (ProtoMessageEndpoint σ) M σ)
    (events : List (SendEvent M)) : SendRun M σ :=
  events.foldl step { endpoint := ep, pushed := [] }

theorem run_snoc
    (ep : EndpointBase (ProtoMessageEndpoint σ) M σ)
    (events : List (SendEvent M))
    (event : SendEvent M) :
    run ep (events ++ [event]) = (run ep events).step event := by
  simp [run]

/- A running endpoint with a settled sender whose queue and
   send buffer are empty. -/
structure Connected
    (ep : EndpointBase (ProtoMessageEndpoint σ) M σ)
    (e : Endianness)
    (capacity : Nat) : Prop where
  settled : e.Settled
  endianness_eq :
    ep.protocol.protoMessageSender.endianness = e
  alive : ep.protocol.alive = true
  isRunning : ep.state.isRunning = true
  sendBuffer_eq : ep.sendBuffer = RingBuffer.ofSize capacity
  asioSending_eq : ep.asioSending = false
  txq_eq : ep.txq = []
  writes_eq : ep.writes = []
  handedOver_eq : ep.handedOver = []

------------------------------------------------------------
-- Creating Messages
------------------------------------------------------------

/- The messages that fit an empty buffer. -/
def fitting
    (e : Endianness)
    (capacity : Nat)
    (txq : List M) : List (List UInt8) :=
  e.header.complete (ProtoMessageEndpoint.bodies txq) capacity

/-
  A settled sender moves the messages that fit the free space
  from the queue to the end of the buffer.
-/
theorem createMessages_eq
    {ep : EndpointBase (ProtoMessageEndpoint σ) M σ}
    {e : Endianness}
    (hSettled : e.Settled)
    (hEnd : ep.protocol.protoMessageSender.endianness = e)
    (hAlive : ep.protocol.alive = true)
    (hValid : ep.sendBuffer.Valid)
    (hInt : ep.sendBuffer.size < 2 ^ 31) :
    ∃ wakes,
      ep.createMessages =
        (.ok (),
          { ep with
            sendBuffer := ep.sendBuffer.filled
              (e.header.stream (fitting e
                ep.sendBuffer.getFreeSpace ep.txq))
            txq := ep.txq.drop (fitting e
              ep.sendBuffer.getFreeSpace ep.txq).length
            wakes := wakes }) := by
  have hCells :
      (addresses ep.sendBuffer.getSpaceBuffers).length =
        ep.sendBuffer.getFreeSpace := by
    rw [RingBuffer.addresses_getSpaceBuffers hValid,
      Circular.length_interval]
  have hSmall :
      (addresses ep.sendBuffer.getSpaceBuffers).length <
        2 ^ 31 := by
    have hAll := hValid.available_add_free
    omega
  have hOver := CharArrayBuffer.over_ofBuffers
    ep.sendBuffer.store rfl hSmall
  rcases ProtoMessageEndpoint.checkSpaceLoop_eq hAlive hEnd
      hSettled hOver ep.txq 0 0 with ⟨hMem, hQueue, hResult⟩
  rw [Nat.sub_zero, hCells] at hMem hQueue hResult
  refine
    ⟨ep.wakes +
      (ep.protocol.checkForSpace
        ep.sendBuffer.getSpaceBuffers ep.sendBuffer.store
        ep.txq).wakes, ?_⟩
  simp only [EndpointBase.createMessages,
    IMessageWriter.checkForSpace,
    ProtoMessageEndpoint.checkForSpace, hResult, hMem, hQueue,
    Nat.zero_add, List.drop_zero]
  rfl

------------------------------------------------------------
-- The Invariant
------------------------------------------------------------

/- What no step of a run changes. -/
structure Steady
    (ep : EndpointBase (ProtoMessageEndpoint σ) M σ)
    (e : Endianness)
    (capacity : Nat) : Prop where
  settled : e.Settled
  endianness_eq :
    ep.protocol.protoMessageSender.endianness = e
  alive : ep.protocol.alive = true
  isRunning : ep.state.isRunning = true
  valid : ep.sendBuffer.Valid
  size_eq : ep.sendBuffer.size = capacity

/-
  No write is outstanding; what has been handed over are the
  frames of messages in front, the buffer holds those of
  some more, and the queue has the rest.
-/
structure Loaded
    (ep : EndpointBase (ProtoMessageEndpoint σ) M σ)
    (pushed : List M)
    (e : Endianness)
    (capacity : Nat)
    (batch : List M) : Prop extends
    Steady ep e capacity where
  asioSending_eq : ep.asioSending = false
  writes_eq : ep.writes = []
  contents_eq :
    ep.sendBuffer.contents =
      e.header.stream (ProtoMessageEndpoint.bodies batch)
  order :
    ∃ popped,
      pushed = popped ++ (batch ++ ep.txq) ∧
        ep.handedOver.flatten =
          e.header.stream (ProtoMessageEndpoint.bodies popped)

/-
  One write is outstanding; it was given what the buffer
  holds, and with it the frames of messages in front have
  been handed over.
-/
structure Writing
    (ep : EndpointBase (ProtoMessageEndpoint σ) M σ)
    (pushed : List M)
    (e : Endianness)
    (capacity : Nat) : Prop extends
    Steady ep e capacity where
  asioSending_eq : ep.asioSending = true
  writes_eq : ep.writes = [ep.sendBuffer.contents]
  contents_ne : ep.sendBuffer.contents ≠ []
  order :
    ∃ popped,
      pushed = popped ++ ep.txq ∧
        ep.handedOver.flatten =
          e.header.stream (ProtoMessageEndpoint.bodies popped)

/- Between the steps of a run, a message is in the buffer
   only while it is being written. -/
def InOrder
    (r : SendRun M σ)
    (e : Endianness)
    (capacity : Nat) : Prop :=
  Loaded r.endpoint r.pushed e capacity [] ∨
    Writing r.endpoint r.pushed e capacity

/-
  What is promised of the send path: only whole frames in
  the order of the queue are handed over, and an outstanding
  write was given exactly the data, never nothing.
-/
def Sends
    (r : SendRun M σ)
    (e : Endianness) : Prop :=
  r.endpoint.handedOver.flatten <+:
      e.header.stream (ProtoMessageEndpoint.bodies r.pushed) ∧
    ∀ data ∈ r.endpoint.writes,
      data = r.endpoint.sendBuffer.contents ∧ data ≠ []

theorem stream_bodies_append
    (h : Framing.Header UInt8)
    (front back : List M) :
    h.stream (ProtoMessageEndpoint.bodies (front ++ back)) =
      h.stream (ProtoMessageEndpoint.bodies front) ++
        h.stream (ProtoMessageEndpoint.bodies back) := by
  rw [ProtoMessageEndpoint.bodies, List.map_append,
    Framing.Header.stream_append]
  rfl

theorem InOrder.sends
    {r : SendRun M σ}
    {e : Endianness}
    {capacity : Nat}
    (hInOrder : r.InOrder e capacity) :
    r.Sends e := by
  rcases hInOrder with hLoaded | hWriting
  · rcases hLoaded.order with ⟨popped, hPushed, hHanded⟩
    constructor
    · rw [hHanded, hPushed, stream_bodies_append]
      exact List.prefix_append _ _
    · rw [hLoaded.writes_eq]
      intro data hNone
      cases hNone
  · rcases hWriting.order with ⟨popped, hPushed, hHanded⟩
    constructor
    · rw [hHanded, hPushed, stream_bodies_append]
      exact List.prefix_append _ _
    · rw [hWriting.writes_eq]
      intro data hData
      rw [List.mem_singleton.mp hData]
      exact ⟨rfl, hWriting.contents_ne⟩

------------------------------------------------------------
-- Handing Over
------------------------------------------------------------

section Steps

variable {ep : EndpointBase (ProtoMessageEndpoint σ) M σ}
variable {pushed batch : List M}
variable {e : Endianness}
variable {capacity : Nat}

/- The messages of the bodies that fit. -/
theorem bodies_take_fitting
    (e : Endianness)
    (capacity : Nat)
    (txq : List M) :
    ProtoMessageEndpoint.bodies
        (txq.take (fitting e capacity txq).length) =
      fitting e capacity txq := by
  have hPrefix := e.header.complete_prefix
    (ProtoMessageEndpoint.bodies txq) capacity
  rw [ProtoMessageEndpoint.bodies, List.map_take]
  exact (List.prefix_iff_eq_take.mp hPrefix).symm

/- An empty buffer is loaded with the messages that fit. -/
theorem Loaded.createMessages
    (hInt : capacity < 2 ^ 31)
    (hLoaded : Loaded ep pushed e capacity []) :
    ∃ loaded,
      ep.createMessages = (.ok (), loaded) ∧
        Loaded loaded pushed e capacity
          (ep.txq.take (fitting e capacity ep.txq).length) ∧
        loaded.txq =
          ep.txq.drop (fitting e capacity ep.txq).length := by
  have hValid := hLoaded.valid
  have hEmpty : ep.sendBuffer.getDataAvailable = 0 := by
    rw [← RingBuffer.length_contents, hLoaded.contents_eq]
    rfl
  have hFree : ep.sendBuffer.getFreeSpace = capacity := by
    have hAll := hValid.available_add_free
    rw [hLoaded.size_eq] at hAll
    omega
  rcases createMessages_eq hLoaded.settled
      hLoaded.endianness_eq hLoaded.alive hValid
      (by rw [hLoaded.size_eq]; exact hInt) with
    ⟨wakes, hCreate⟩
  rw [hFree] at hCreate
  have hFits :
      (e.header.stream (fitting e capacity ep.txq)).length ≤
        ep.sendBuffer.getFreeSpace := by
    rw [hFree]
    exact e.header.length_stream_complete_le _ _
  refine ⟨_, hCreate, ?_, rfl⟩
  exact
    { settled := hLoaded.settled
      endianness_eq := hLoaded.endianness_eq
      alive := hLoaded.alive
      isRunning := hLoaded.isRunning
      valid := RingBuffer.valid_filled hValid hFits
      size_eq := hLoaded.size_eq
      asioSending_eq := hLoaded.asioSending_eq
      writes_eq := hLoaded.writes_eq
      contents_eq := by
        rw [bodies_take_fitting]
        simp only
        rw [RingBuffer.contents_filled hValid hFits,
          hLoaded.contents_eq]
        rfl
      order := by
        rcases hLoaded.order with ⟨popped, hPushed, hHanded⟩
        refine ⟨popped, ?_, hHanded⟩
        rw [hPushed, List.take_append_drop]
        rfl }

/- Handing over a batch that does not fill the buffer. -/
theorem Loaded.asyncWrite
    (hLoaded : Loaded ep pushed e capacity batch)
    (hSome : ep.sendBuffer.contents ≠ [])
    (hNotFull :
      ep.sendBuffer.getDataAvailable ≠ capacity) :
    Writing ({ ep with asioSending := true }.asyncWrite)
      pushed e capacity := by
  have hAll := hLoaded.valid.available_add_free
  rw [hLoaded.size_eq] at hAll
  have hView :
      ep.sendBuffer.getDataBuffers.flatten =
        ep.sendBuffer.contents := by
    apply RingBuffer.flatten_getDataBuffers hLoaded.valid
    rw [hLoaded.size_eq]
    omega
  exact
    { settled := hLoaded.settled
      endianness_eq := hLoaded.endianness_eq
      alive := hLoaded.alive
      isRunning := hLoaded.isRunning
      valid := hLoaded.valid
      size_eq := hLoaded.size_eq
      asioSending_eq := rfl
      writes_eq := by
        simp only [EndpointBase.asyncWrite, hView,
          hLoaded.writes_eq, List.nil_append]
      contents_ne := hSome
      order := by
        rcases hLoaded.order with ⟨popped, hPushed, hHanded⟩
        refine ⟨popped ++ batch, ?_, ?_⟩
        · rw [hPushed, List.append_assoc]
          rfl
        · simp only [EndpointBase.asyncWrite, hView,
            List.flatten_append, List.flatten_singleton,
            hHanded, hLoaded.contents_eq,
            stream_bodies_append] }

/- A full buffer is handed over as an empty range. -/
theorem Loaded.asyncWrite_full
    (hLoaded : Loaded ep pushed e capacity batch)
    (hFull : ep.sendBuffer.getDataAvailable = capacity) :
    ({ ep with asioSending := true }.asyncWrite).writes =
      [[]] := by
  have hNone :=
    RingBuffer.getDataBuffers_of_full (b := ep.sendBuffer)
      (by rw [hFull, hLoaded.size_eq]; exact Nat.lt_irrefl _)
  simp only [EndpointBase.asyncWrite, hNone,
    hLoaded.writes_eq]
  rfl

/- The bytes that are moved into an empty buffer. -/
def fillAmount
    (e : Endianness)
    (capacity : Nat)
    (txq : List M) : Nat :=
  (e.header.stream (fitting e capacity txq)).length

/- The amount of data decides what becomes of a flush. -/
def Flushed
    (ep : EndpointBase (ProtoMessageEndpoint σ) M σ)
    (pushed : List M)
    (e : Endianness)
    (capacity amount : Nat) : Prop :=
  (amount ≠ capacity →
      InOrder { endpoint := ep, pushed := pushed } e capacity) ∧
    (Sends { endpoint := ep, pushed := pushed } e →
      amount ≠ capacity)

theorem Loaded.flushed
    (hLoaded : Loaded ep pushed e capacity batch)
    (hSome : ep.sendBuffer.contents ≠ []) :
    Flushed ({ ep with asioSending := true }.asyncWrite)
      pushed e capacity ep.sendBuffer.getDataAvailable := by
  constructor
  · intro hNotFull
    exact Or.inr (hLoaded.asyncWrite hSome hNotFull)
  · intro hSends hFull
    have hWrites := hLoaded.asyncWrite_full hFull
    apply (hSends.2 [] ?_).2 rfl
    change [] ∈ ({ ep with asioSending := true }.asyncWrite).writes
    rw [hWrites]
    exact List.mem_singleton.mpr rfl

theorem Loaded.available_eq
    (hLoaded : Loaded ep pushed e capacity batch) :
    ep.sendBuffer.getDataAvailable =
      (e.header.stream
        (ProtoMessageEndpoint.bodies batch)).length := by
  rw [← RingBuffer.length_contents, hLoaded.contents_eq]

theorem Loaded.capacity_pos
    (hLoaded : Loaded ep pushed e capacity batch) :
    0 < capacity := by
  rw [← hLoaded.size_eq]
  exact Nat.zero_lt_of_lt hLoaded.valid.readp_lt

/- Sending what the buffer holds. -/
theorem Loaded.runSending_some
    (hLoaded : Loaded ep pushed e capacity batch)
    (hSome : ep.sendBuffer.getDataAvailable ≠ 0) :
    ep.runSending =
      (.ok (), { ep with asioSending := true }.asyncWrite) := by
  have hGo : ¬ (ep.asioSending || !ep.state.isRunning) := by
    simp [hLoaded.asioSending_eq, hLoaded.isRunning]
  rw [EndpointBase.runSending, if_neg hGo]
  simp only [if_neg hSome]

/- Sending from an empty buffer fills it first. -/
theorem Loaded.runSending_none
    (hInt : capacity < 2 ^ 31)
    (hLoaded : Loaded ep pushed e capacity []) :
    ∃ sent,
      ep.runSending = (.ok (), sent) ∧
        Flushed sent pushed e capacity
          (fillAmount e capacity ep.txq) := by
  have hGo : ¬ (ep.asioSending || !ep.state.isRunning) := by
    simp [hLoaded.asioSending_eq, hLoaded.isRunning]
  have hEmpty : ep.sendBuffer.getDataAvailable = 0 :=
    hLoaded.available_eq
  rcases hLoaded.createMessages hInt with
    ⟨loaded, hCreate, hNext, -⟩
  have hAmount := hNext.available_eq
  rw [bodies_take_fitting] at hAmount
  rw [EndpointBase.runSending, if_neg hGo]
  simp only [if_pos hEmpty, hCreate]
  by_cases hNone : loaded.sendBuffer.getDataAvailable = 0
  · rw [if_pos hNone]
    have hZero : fillAmount e capacity ep.txq = 0 := by
      rw [fillAmount, ← hAmount, hNone]
    have hNoBatch :
        ep.txq.take (fitting e capacity ep.txq).length = [] := by
      have hWidth := e.header.width_mul_le_length_stream
        (fitting e capacity ep.txq)
      rw [← hAmount, hNone, e.header_width] at hWidth
      apply List.eq_nil_of_length_eq_zero
      rw [List.length_take]
      omega
    rw [hNoBatch] at hNext
    refine ⟨loaded, rfl, ?_, ?_⟩
    · intro _
      exact Or.inl hNext
    · intro _
      have hPos := hLoaded.capacity_pos
      omega
  · rw [if_neg hNone]
    refine ⟨_, rfl, ?_⟩
    rw [fillAmount, ← hAmount]
    apply hNext.flushed
    intro hNil
    apply hNone
    rw [← RingBuffer.length_contents, hNil]
    rfl

end Steps

------------------------------------------------------------
-- Steps
------------------------------------------------------------

/- The step moves messages into an empty buffer. -/
def Fills
    (r : SendRun M σ) : SendEvent M → Prop
  | .send _ => False
  | .runSending => r.endpoint.asioSending = false
  | .writeCompletes => r.endpoint.writes ≠ []

/- The step does not fill the buffer to the last byte. -/
def LeavesRoom
    (e : Endianness)
    (capacity : Nat)
    (r : SendRun M σ)
    (event : SendEvent M) : Prop :=
  r.Fills event →
    fillAmount e capacity r.endpoint.txq ≠ capacity

section Steps

variable {r : SendRun M σ}
variable {e : Endianness}
variable {capacity : Nat}

/- A send only appends to the queue. -/
theorem InOrder.send
    (hInOrder : r.InOrder e capacity)
    (s : M) :
    (r.step (.send s)).InOrder e capacity := by
  by_cases hRoom :
      r.endpoint.txq.length < EndpointBase.bufferSizeLimit
  · have hStep :
        r.step (.send s) =
          { endpoint :=
              { r.endpoint with txq := r.endpoint.txq ++ [s] }
            pushed := r.pushed ++ [s] } := by
      simp only [step, EndpointBase.send, if_pos hRoom]
      rfl
    rw [hStep]
    rcases hInOrder with hLoaded | hWriting
    · refine Or.inl { hLoaded with order := ?_ }
      rcases hLoaded.order with ⟨popped, hPushed, hHanded⟩
      refine ⟨popped, ?_, hHanded⟩
      simp only [hPushed, List.append_assoc]
    · refine Or.inr { hWriting with order := ?_ }
      rcases hWriting.order with ⟨popped, hPushed, hHanded⟩
      refine ⟨popped, ?_, hHanded⟩
      simp only [hPushed, List.append_assoc]
  · have hStep : r.step (.send s) = r := by
      simp only [step, EndpointBase.send, if_neg hRoom]
      rfl
    rw [hStep]
    exact hInOrder

/- One flush, or none where a write is outstanding. -/
theorem InOrder.runSending
    (hInt : capacity < 2 ^ 31)
    (hInOrder : r.InOrder e capacity) :
    (LeavesRoom e capacity r .runSending →
        (r.step .runSending).InOrder e capacity) ∧
      ((r.step .runSending).Sends e →
        LeavesRoom e capacity r .runSending) := by
  rcases hInOrder with hLoaded | hWriting
  · rcases hLoaded.runSending_none hInt with
      ⟨sent, hSent, hFlushed⟩
    have hStep :
        r.step .runSending =
          { endpoint := sent, pushed := r.pushed } := by
      simp only [step, hSent]
    rw [hStep]
    constructor
    · intro hRoom
      exact hFlushed.1 (hRoom hLoaded.asioSending_eq)
    · intro hSends _
      exact hFlushed.2 hSends
  · have hStep : r.step .runSending = r := by
      simp only [step, EndpointBase.runSending,
        hWriting.asioSending_eq, Bool.true_or, if_true]
    rw [hStep]
    constructor
    · intro _
      exact Or.inr hWriting
    · intro _ hFills
      simp only [Fills] at hFills
      rw [hWriting.asioSending_eq] at hFills
      cases hFills

/- The flag of an outstanding write does not matter for the
   creation of messages. -/
theorem createMessages_asioSending
    (ep : EndpointBase (ProtoMessageEndpoint σ) M σ)
    (flag : Bool) :
    ({ ep with asioSending := flag }.createMessages) =
      (ep.createMessages.1,
        { ep.createMessages.2 with asioSending := flag }) := by
  simp only [EndpointBase.createMessages]
  split <;> rfl

/- Once the buffer is empty again, the next batch is
   handed over. -/
theorem Loaded.refill
    {ep : EndpointBase (ProtoMessageEndpoint σ) M σ}
    {pushed : List M}
    (hInt : capacity < 2 ^ 31)
    (hLoaded : Loaded ep pushed e capacity []) :
    ∃ loaded sent,
      ep.createMessages = (.ok (), loaded) ∧
        loaded.asioSending = false ∧
        loaded.runSending = (.ok (), sent) ∧
        Flushed sent pushed e capacity
          (fillAmount e capacity ep.txq) := by
  rcases hLoaded.createMessages hInt with
    ⟨loaded, hCreate, hNext, hQueue⟩
  have hAmount := hNext.available_eq
  rw [bodies_take_fitting] at hAmount
  by_cases hNone : loaded.sendBuffer.getDataAvailable = 0
  · have hNothing : (fitting e capacity ep.txq).length = 0 := by
      have hWidth := e.header.width_mul_le_length_stream
        (fitting e capacity ep.txq)
      rw [← hAmount, hNone, e.header_width] at hWidth
      omega
    rw [hNothing, List.take_zero] at hNext
    rw [hNothing, List.drop_zero] at hQueue
    rcases hNext.runSending_none hInt with
      ⟨sent, hSent, hFlushed⟩
    rw [hQueue] at hFlushed
    exact ⟨loaded, sent, hCreate, hNext.asioSending_eq, hSent,
      hFlushed⟩
  · have hSome : loaded.sendBuffer.contents ≠ [] := by
      intro hNil
      apply hNone
      rw [← RingBuffer.length_contents, hNil]
      rfl
    have hFlushed := hNext.flushed hSome
    rw [hAmount] at hFlushed
    exact ⟨loaded, _, hCreate, hNext.asioSending_eq,
      hNext.runSending_some hNone, hFlushed⟩

/- The endpoint once what it wrote is marked as used. -/
def emptied
    (ep : EndpointBase (ProtoMessageEndpoint σ) M σ) :
    EndpointBase (ProtoMessageEndpoint σ) M σ :=
  { ep with
    writes := []
    asioSending := false
    sendBuffer :=
      ep.sendBuffer.markDataUsed ep.sendBuffer.getDataAvailable }

theorem Writing.loaded_emptied
    (hWriting : Writing r.endpoint r.pushed e capacity) :
    Loaded (emptied r.endpoint) r.pushed e capacity [] :=
  { settled := hWriting.settled
    endianness_eq := hWriting.endianness_eq
    alive := hWriting.alive
    isRunning := hWriting.isRunning
    valid := RingBuffer.valid_markDataUsed
      hWriting.valid (Nat.le_refl _)
    size_eq := hWriting.size_eq
    asioSending_eq := rfl
    writes_eq := rfl
    contents_eq := by
      simp only [emptied]
      rw [RingBuffer.contents_markDataUsed (Nat.le_refl _),
        ← RingBuffer.length_contents, List.drop_length]
      rfl
    order := hWriting.order }

/- The completion of a write creates messages and writes on. -/
theorem Writing.step_writeCompletes
    (hWriting : Writing r.endpoint r.pushed e capacity)
    {loaded sent :
      EndpointBase (ProtoMessageEndpoint σ) M σ}
    (hCreate :
      (emptied r.endpoint).createMessages = (.ok (), loaded))
    (hIdle : loaded.asioSending = false)
    (hSent : loaded.runSending = (.ok (), sent)) :
    r.step .writeCompletes =
      { endpoint := sent, pushed := r.pushed } := by
  have hAlive : r.endpoint.state.dead = false := by
    have hRunning := hWriting.isRunning
    simp only [EndpointState.isRunning, Bool.and_eq_true,
      Bool.not_eq_true'] at hRunning
    exact hRunning.2
  have hBusy :
      ({ r.endpoint with
          writes := []
          sendBuffer := r.endpoint.sendBuffer.markDataUsed
            r.endpoint.sendBuffer.getDataAvailable } :
        EndpointBase (ProtoMessageEndpoint σ) M σ) =
        { emptied r.endpoint with asioSending := true } := by
    simp only [emptied, ← hWriting.asioSending_eq]
  have hReset :
      { loaded with asioSending := false } = loaded := by
    rw [← hIdle]
  simp only [step, hWriting.writes_eq,
    EndpointBase.writeCompletes,
    EndpointBase.completeSending, hAlive,
    RingBuffer.length_contents, List.drop_one,
    List.tail_cons, Bool.false_eq_true, if_false]
  rw [hBusy, createMessages_asioSending, hCreate]
  simp only [hReset, hSent]

/- What has been written makes room for the next batch. -/
theorem InOrder.writeCompletes
    (hInt : capacity < 2 ^ 31)
    (hInOrder : r.InOrder e capacity) :
    (LeavesRoom e capacity r .writeCompletes →
        (r.step .writeCompletes).InOrder e capacity) ∧
      ((r.step .writeCompletes).Sends e →
        LeavesRoom e capacity r .writeCompletes) := by
  rcases hInOrder with hLoaded | hWriting
  · have hStep : r.step .writeCompletes = r := by
      simp only [step, hLoaded.writes_eq]
    rw [hStep]
    constructor
    · intro _
      exact Or.inl hLoaded
    · intro _ hFills
      exact absurd hLoaded.writes_eq hFills
  · rcases hWriting.loaded_emptied.refill hInt with
      ⟨loaded, sent, hCreate, hIdle, hSent, hFlushed⟩
    rw [hWriting.step_writeCompletes hCreate hIdle hSent]
    constructor
    · intro hRoom
      apply hFlushed.1
      apply hRoom
      simp only [Fills, hWriting.writes_eq]
      exact List.cons_ne_nil _ _
    · intro hSends _
      exact hFlushed.2 hSends

/- Every step of a run. -/
theorem InOrder.step
    (hInt : capacity < 2 ^ 31)
    (hInOrder : r.InOrder e capacity)
    (event : SendEvent M) :
    (LeavesRoom e capacity r event →
        (r.step event).InOrder e capacity) ∧
      ((r.step event).Sends e →
        LeavesRoom e capacity r event) := by
  cases event with
  | send s =>
      constructor
      · intro _
        exact hInOrder.send s
      · intro _ hFills
        cases hFills
  | runSending => exact hInOrder.runSending hInt
  | writeCompletes => exact hInOrder.writeCompletes hInt

end Steps

/-
  The send path works for exactly the runs in which no step
  fills the empty send buffer to the last byte.
-/
theorem sends_iff
    {ep : EndpointBase (ProtoMessageEndpoint σ) M σ}
    {e : Endianness}
    {capacity : Nat}
    (hPos : 0 < capacity)
    (hInt : capacity < 2 ^ 31)
    (hConnected : Connected ep e capacity)
    (events : List (SendEvent M)) :
    (∀ front, front <+: events → (run ep front).Sends e) ↔
      ∀ front event back,
        events = front ++ event :: back →
          LeavesRoom e capacity (run ep front) event := by
  apply Runs.forall_prefix_iff
    (fun front => (run ep front).InOrder e capacity)
  · left
    have hBuffer := hConnected.sendBuffer_eq
    exact
      { settled := hConnected.settled
        endianness_eq := hConnected.endianness_eq
        alive := hConnected.alive
        isRunning := hConnected.isRunning
        valid := by
          simp only [run, List.foldl_nil, hBuffer]
          exact RingBuffer.valid_ofSize hPos
        size_eq := by
          simp only [run, List.foldl_nil, hBuffer]
          rfl
        asioSending_eq := hConnected.asioSending_eq
        writes_eq := hConnected.writes_eq
        contents_eq := by
          simp only [run, List.foldl_nil, hBuffer,
            RingBuffer.contents_ofSize]
          rfl
        order := by
          refine ⟨[], ?_, ?_⟩
          · exact hConnected.txq_eq.symm
          · simp only [run, List.foldl_nil,
              hConnected.handedOver_eq]
            rfl }
  · intro front hInOrder
    exact hInOrder.sends
  · intro front event back hSplit hInOrder hRoom
    rw [run_snoc]
    exact (hInOrder.step hInt event).1 hRoom
  · intro front event back hSplit hInOrder hSends
    rw [run_snoc] at hSends
    exact (hInOrder.step hInt event).2 hSends

/- A constructed endpoint that is running, with a settled
   sender. -/
def settledEndpoint
    (e : Endianness)
    (capacity : Nat) :
    EndpointBase (ProtoMessageEndpoint Unit) ShortBody Unit :=
  { EndpointBase.construct (settledSender e) capacity capacity
      () with
    state := { EndpointState.initial with running := true } }

theorem connected_settledEndpoint
    {e : Endianness}
    (hSettled : e.Settled)
    (capacity : Nat) :
    Connected (settledEndpoint e capacity) e capacity where
  settled := hSettled
  endianness_eq := rfl
  alive := rfl
  isRunning := rfl
  sendBuffer_eq := rfl
  asioSending_eq := rfl
  txq_eq := rfl
  writes_eq := rfl
  handedOver_eq := rfl

theorem sends_iff_one_message :
    (∀ front,
      front <+:
          [.send (⟨[7], by decide⟩ : ShortBody), .runSending,
            .writeCompletes] →
        (run (settledEndpoint .network 9) front).Sends
          .network) ↔
      ∀ front event back,
        [.send (⟨[7], by decide⟩ : ShortBody), .runSending,
            .writeCompletes] = front ++ event :: back →
          LeavesRoom .network 9
            (run (settledEndpoint .network 9) front) event :=
  sends_iff (by decide) (by decide)
    (connected_settledEndpoint (Or.inr rfl) 9) _

/- A frame as long as the buffer: the write that is to send
   it is given nothing. -/
theorem not_sends_full :
    ¬ ∀ front,
        front <+:
            [.send (⟨[7, 7, 7, 7], by decide⟩ : ShortBody),
              .runSending] →
          (run (settledEndpoint .little 8) front).Sends
            .little := by
  intro hSends
  have hWrites :
      (run (settledEndpoint .little 8)
          [.send (⟨[7, 7, 7, 7], by decide⟩ : ShortBody),
            .runSending]).endpoint.writes = [[]] := by
    decide +kernel
  apply ((hSends _ List.prefix_rfl).2 [] ?_).2 rfl
  rw [hWrites]
  exact List.mem_singleton.mpr rfl

end SendRun

end OefCore
