import OefCore.BasicComms.IMessage
import OefCore.BasicComms.RingBuffer

/-
  `EndpointBase`: the state machine behind one connection.

  The endpoint is generic in its reader and writer `P`, in
  the messages `TX` of its queue, and in the world `σ` that
  its handlers act on.  `reads`, `writes` and the log fields
  record what is asked of asio and who is notified.

  Main declarations:
    * `ErrorCode`, `EndpointState`, `EndpointBase`
    * `runSending`, `runReading`, `close`, `eof`, `error`,
      `protoError`, `go`, `send`
    * `completeSending`, `completeReading`
    * `Event`, `step`, `run`
-/

------------------------------------------------------------
-- States
------------------------------------------------------------

namespace OefCore

/- The codes a completion can report, as far as the endpoint
   tells them apart. -/
inductive ErrorCode where
  | success
  | eof
  | operationAborted
  | other (value : Nat)
  deriving DecidableEq, Repr

/- The bits of the endpoint state. -/
structure EndpointState where
  running : Bool
  closed : Bool
  eof : Bool
  errored : Bool
  deriving DecidableEq, Repr

namespace EndpointState

/- No bit is set. -/
def initial : EndpointState :=
  { running := false
    closed := false
    eof := false
    errored := false }

/- `*state > RUNNING_ENDPOINT`: one of the later bits. -/
def dead (s : EndpointState) : Bool :=
  s.closed || s.eof || s.errored

/- `*state == RUNNING_ENDPOINT`. -/
def isRunning (s : EndpointState) : Bool :=
  s.running && !s.dead

end EndpointState

/- An `async_read`: the bytes it waits for at least, and the
   space it was offered. -/
structure ReadOp where
  needed : Nat
  space : List MutableBuffer
  deriving DecidableEq, Repr

/- A handler that was invoked, with its argument. -/
inductive CloseNotice where
  | eof
  | error (ec : ErrorCode)
  | protoError (message : String)
  deriving DecidableEq, Repr

structure EndpointBase (P TX σ : Type) where
  protocol : P
  sendBuffer : RingBuffer
  readBuffer : RingBuffer
  readNeeded : Nat
  asioSending : Bool
  asioReading : Bool
  state : EndpointState
  txq : List TX
  onStart : Option (Callback σ Unit)
  onEof : Option (Callback σ Unit)
  onError : Option (Callback σ ErrorCode)
  onProtoError : Option (Callback σ String)
  world : σ
  -- asio operations that have not completed
  reads : List ReadOp
  writes : List (List UInt8)
  -- what was handed to `async_write`, and who was notified
  handedOver : List (List UInt8)
  notified : List CloseNotice
  wakes : Nat

namespace EndpointBase

variable {P TX σ : Type}

/- `EndpointBase::BUFFER_SIZE_LIMIT`. -/
def bufferSizeLimit : Nat := 50

/- `EndpointBase::IsTXQFull`. -/
def isTXQFull (txq : List TX) : Bool :=
  decide (bufferSizeLimit ≤ txq.length)

/- An endpoint as it is constructed. -/
def construct
    (protocol : P)
    (sendBufferSize readBufferSize : Nat)
    (world : σ) : EndpointBase P TX σ :=
  { protocol := protocol
    sendBuffer := RingBuffer.ofSize sendBufferSize
    readBuffer := RingBuffer.ofSize readBufferSize
    readNeeded := 0
    asioSending := false
    asioReading := false
    state := EndpointState.initial
    txq := []
    onStart := none
    onEof := none
    onError := none
    onProtoError := none
    world := world
    reads := []
    writes := []
    handedOver := []
    notified := []
    wakes := 0 }

------------------------------------------------------------
-- Sending and Reading
------------------------------------------------------------

/- `async_write` hands over the data as it is now. -/
def asyncWrite
    (ep : EndpointBase P TX σ) : EndpointBase P TX σ :=
  let data := ep.sendBuffer.getDataBuffers.flatten
  { ep with
    writes := ep.writes ++ [data]
    handedOver := ep.handedOver ++ [data] }

/- `async_read` offers the space as it is now. -/
def asyncRead
    (ep : EndpointBase P TX σ)
    (bytesNeeded : Nat) : EndpointBase P TX σ :=
  { ep with
    reads := ep.reads ++
      [{ needed := bytesNeeded
         space := ep.readBuffer.getSpaceBuffers }] }

/- What is written before an exception stays written. -/
def createMessages
    [IMessageWriter P TX]
    (ep : EndpointBase P TX σ) :
    Except String Unit × EndpointBase P TX σ :=
  let space := IMessageWriter.checkForSpace ep.protocol
    ep.sendBuffer.getSpaceBuffers ep.sendBuffer.store ep.txq
  let ep :=
    { ep with
      sendBuffer := ep.sendBuffer.withStore space.mem
      txq := space.txq
      wakes := ep.wakes + space.wakes }
  match space.result with
  | .error what => (.error what, ep)
  | .ok (consumed, _) =>
      (.ok (),
        { ep with
          sendBuffer :=
            ep.sendBuffer.markSpaceUsed consumed })

def runSending
    [IMessageWriter P TX]
    (ep : EndpointBase P TX σ) :
    Except String Unit × EndpointBase P TX σ :=
  if ep.asioSending || !ep.state.isRunning then
    (.ok (), ep)
  else
    let created :=
      if ep.sendBuffer.getDataAvailable = 0 then
        ep.createMessages
      else
        (.ok (), ep)
    match created with
    | (.error what, ep) => (.error what, ep)
    | (.ok _, ep) =>
        if ep.sendBuffer.getDataAvailable = 0 then
          (.ok (), ep)
        else
          (.ok (), { ep with asioSending := true }.asyncWrite)

def runReading
    (ep : EndpointBase P TX σ) : EndpointBase P TX σ :=
  if ep.asioReading || !ep.state.isRunning then
    ep
  else if ep.readNeeded = 0 then
    ep
  else
    -- a read buffer that is full leaves nothing to ask for
    let readNeededLocal :=
      min ep.readNeeded ep.readBuffer.getFreeSpace
    let ep := { ep with readNeeded := 0, asioReading := true }
    if readNeededLocal = 0 then
      ep
    else
      ep.asyncRead readNeededLocal

------------------------------------------------------------
-- Closing
------------------------------------------------------------

def close
    (ep : EndpointBase P TX σ) : EndpointBase P TX σ :=
  { ep with state := { ep.state with closed := true } }

def clearHandlers
    (ep : EndpointBase P TX σ) : EndpointBase P TX σ :=
  { ep with
    onEof := none
    onError := none
    onProtoError := none }

/- Invoke a handler copy, ignoring what it throws. -/
def notify
    {β : Type}
    (ep : EndpointBase P TX σ)
    (handler : Option (Callback σ β))
    (argument : β)
    (notice : CloseNotice) : EndpointBase P TX σ :=
  match handler with
  | none => ep
  | some handler =>
      { ep with
        world := (handler argument ep.world).2
        notified := ep.notified ++ [notice] }

def eof
    (ep : EndpointBase P TX σ) : EndpointBase P TX σ :=
  if ep.state.eof then
    ep
  else
    ({ ep with
        state :=
          { ep.state with eof := true, closed := true }
      }.clearHandlers).notify ep.onEof () .eof

def error
    (ep : EndpointBase P TX σ)
    (ec : ErrorCode) : EndpointBase P TX σ :=
  if ep.state.errored then
    ep
  else
    ({ ep with
        state :=
          { ep.state with errored := true, closed := true }
      }.clearHandlers).notify ep.onError ec (.error ec)

def protoError
    (ep : EndpointBase P TX σ)
    (message : String) : EndpointBase P TX σ :=
  if ep.state.errored then
    ep
  else
    ({ ep with
        state :=
          { ep.state with errored := true, closed := true }
      }.clearHandlers).notify ep.onProtoError message
        (.protoError message)

------------------------------------------------------------
-- Completions
------------------------------------------------------------

def completeSending
    [IMessageWriter P TX]
    (ep : EndpointBase P TX σ)
    (ec : ErrorCode)
    (bytes : Nat) : EndpointBase P TX σ :=
  if ep.state.dead then
    ep
  else
    match ec with
    | .eof | .operationAborted => ep.close.eof
    | .other value => ep.error (.other value)
    | .success =>
        let ep :=
          { ep with
            sendBuffer := ep.sendBuffer.markDataUsed bytes }
        match ep.createMessages with
        | (.error _, ep) => ep.close
        | (.ok _, ep) =>
            match { ep with asioSending := false }.runSending
            with
            | (.error _, ep) => ep.close
            | (.ok _, ep) => ep

/- The message a reader's exception is reported with. -/
def protoErrorMessage : Thrown → String
  | .exception what => what
  | .unknown => "unknown protocol error"

def completeReading
    [IMessageReader P σ]
    (ep : EndpointBase P TX σ)
    (ec : ErrorCode)
    (bytes : Nat) : EndpointBase P TX σ :=
  if ep.state.dead then
    ep
  else
    match ec with
    | .eof | .operationAborted => ep.close.eof
    | .other value =>
        -- the flag that `error` tests is set before it runs
        ({ ep with
            state := { ep.state with errored := true } }.error
          (.other value)).close
    | .success =>
        let ep :=
          { ep with
            readBuffer := ep.readBuffer.markSpaceUsed bytes }
        let checked := IMessageReader.checkForMessage
          ep.protocol ep.readBuffer.getDataBuffers ep.world
        let ep :=
          { ep with
            protocol := checked.protocol
            world := checked.world }
        match checked.result with
        | .error thrown =>
            ep.protoError (protoErrorMessage thrown)
        | .ok (consumed, needed) =>
            { ep with
              readBuffer :=
                ep.readBuffer.markDataUsed consumed
              readNeeded := needed
              asioReading := false }.runReading

/- A reader that is not done asks asio for more. -/
theorem runReading_asks
    {ep : EndpointBase P TX σ}
    (hIdle : ep.asioReading = false)
    (hRunning : ep.state.isRunning = true)
    (hNeeded : 0 < ep.readNeeded)
    (hSpace : 0 < ep.readBuffer.getFreeSpace) :
    ep.runReading =
      { ep with
        readNeeded := 0
        asioReading := true }.asyncRead
          (min ep.readNeeded ep.readBuffer.getFreeSpace) := by
  have hNot : ¬ (ep.asioReading || !ep.state.isRunning) := by
    simp [hIdle, hRunning]
  have hMin :
      ¬ min ep.readNeeded ep.readBuffer.getFreeSpace = 0 := by
    omega
  rw [runReading, if_neg hNot, if_neg (by omega)]
  simp only [if_neg hMin]

/- A full buffer is never read into. -/
theorem world_runReading
    (ep : EndpointBase P TX σ) :
    ep.runReading.world = ep.world := by
  unfold runReading
  split
  · rfl
  · split
    · rfl
    · simp only
      split <;> rfl

/- `go`, from the invocation of the start handler on. -/
def go
    (ep : EndpointBase P TX σ) : EndpointBase P TX σ :=
  let started :=
    match ep.onStart with
    | none => ep
    | some myStart =>
        match myStart () ep.world with
        | (.ok _, world) =>
            { ep with onStart := none, world := world }
        | (.error _, world) =>
            { ep with
              onStart := none
              world := world
              state :=
                { ep.state with
                  errored := true
                  closed := true } }
  { started with
    state := { started.state with running := true }
    readNeeded := started.readNeeded + 1 }.runReading

/- Queue a message; `false` where a notification is made. -/
def send
    (ep : EndpointBase P TX σ)
    (s : TX) : Bool × EndpointBase P TX σ :=
  if ep.txq.length < bufferSizeLimit then
    (true, { ep with txq := ep.txq ++ [s] })
  else
    (false, ep)

------------------------------------------------------------
-- Runs
------------------------------------------------------------

/- What can happen to an endpoint. -/
inductive Event (TX : Type) where
  | readCompletes (ec : ErrorCode) (bytes : List UInt8)
  | writeCompletes (ec : ErrorCode) (bytes : Nat)
  | runSending
  | runReading
  | close
  | send (s : TX)

/-
  A read completes: the bytes are in the space that was
  offered before the endpoint is told.
-/
def readCompletes
    [IMessageReader P σ]
    (ep : EndpointBase P TX σ)
    (ec : ErrorCode)
    (bytes : List UInt8) : EndpointBase P TX σ :=
  match ep.reads with
  | [] => ep.completeReading ec bytes.length
  | op :: reads =>
      { ep with
        reads := reads
        readBuffer := ep.readBuffer.withStore
          (Memory.fill ep.readBuffer.store
            (addresses op.space) bytes)
      }.completeReading ec bytes.length

/- The endpoint when asio has put down what it read. -/
def arrived
    (ep : EndpointBase P TX σ)
    (bytes : List UInt8) : EndpointBase P TX σ :=
  match ep.reads with
  | [] => ep
  | op :: reads =>
      { ep with
        reads := reads
        readBuffer := ep.readBuffer.withStore
          (Memory.fill ep.readBuffer.store
            (addresses op.space) bytes) }

theorem readCompletes_eq
    [IMessageReader P σ]
    (ep : EndpointBase P TX σ)
    (ec : ErrorCode)
    (bytes : List UInt8) :
    ep.readCompletes ec bytes =
      (ep.arrived bytes).completeReading ec bytes.length := by
  unfold readCompletes arrived
  cases ep.reads <;> rfl

/-
  A successful completion of the one outstanding read, by a
  reader that answers.
-/
theorem readCompletes_ok
    [IMessageReader P σ]
    {ep : EndpointBase P TX σ}
    (hAlive : ep.state.dead = false)
    {asked : Nat}
    (hReads :
      ep.reads =
        [{ needed := asked
           space := ep.readBuffer.getSpaceBuffers }])
    {bytes : List UInt8}
    {protocol : P}
    {world : σ}
    {consumed needed : Nat}
    (hCheck :
      IMessageReader.checkForMessage ep.protocol
          (ep.readBuffer.filled bytes).getDataBuffers
          ep.world =
        { protocol := protocol
          world := world
          result := .ok (consumed, needed) }) :
    ep.readCompletes .success bytes =
      { ep with
        protocol := protocol
        world := world
        reads := []
        readBuffer :=
          (ep.readBuffer.filled bytes).markDataUsed consumed
        readNeeded := needed
        asioReading := false }.runReading := by
  rw [RingBuffer.filled] at hCheck
  simp only [readCompletes, hReads, completeReading, hAlive,
    Bool.false_eq_true, if_false, hCheck]
  rfl

/- Where the handler for protocol errors leaves the world
   alone, it is what the reader made of it. -/
theorem world_readCompletes
    [IMessageReader P σ]
    {ep : EndpointBase P TX σ}
    (hAlive : ep.state.dead = false)
    (hQuiet : ∀ handler ∈ ep.onProtoError,
      ∀ message world, (handler message world).2 = world)
    {asked : Nat}
    (hReads :
      ep.reads =
        [{ needed := asked
           space := ep.readBuffer.getSpaceBuffers }])
    (bytes : List UInt8) :
    (ep.readCompletes .success bytes).world =
      (IMessageReader.checkForMessage ep.protocol
        (ep.readBuffer.filled bytes).getDataBuffers
        ep.world).world := by
  have hFresh : ep.state.errored = false := by
    simp only [EndpointState.dead, Bool.or_eq_false_iff]
      at hAlive
    exact hAlive.2
  rw [RingBuffer.filled]
  simp only [readCompletes, hReads, completeReading, hAlive,
    Bool.false_eq_true, if_false]
  split
  · simp only [protoError, hFresh, Bool.false_eq_true,
      if_false]
    cases hHandler : ep.onProtoError with
    | none => rfl
    | some handler =>
        exact hQuiet handler hHandler _ _
  · exact world_runReading _

def writeCompletes
    [IMessageWriter P TX]
    (ep : EndpointBase P TX σ)
    (ec : ErrorCode)
    (bytes : Nat) : EndpointBase P TX σ :=
  { ep with writes := ep.writes.drop 1 }.completeSending
    ec bytes

def step
    [IMessageReader P σ]
    [IMessageWriter P TX]
    (ep : EndpointBase P TX σ) :
    Event TX → EndpointBase P TX σ
  | .readCompletes ec bytes => ep.readCompletes ec bytes
  | .writeCompletes ec bytes => ep.writeCompletes ec bytes
  | .runSending => ep.runSending.2
  | .runReading => ep.runReading
  | .close => ep.close
  | .send s => (ep.send s).2

def run
    [IMessageReader P σ]
    [IMessageWriter P TX]
    (ep : EndpointBase P TX σ)
    (events : List (Event TX)) : EndpointBase P TX σ :=
  events.foldl step ep

theorem run_cons
    [IMessageReader P σ]
    [IMessageWriter P TX]
    (ep : EndpointBase P TX σ)
    (event : Event TX)
    (events : List (Event TX)) :
    ep.run (event :: events) = (ep.step event).run events :=
  rfl

theorem run_append
    [IMessageReader P σ]
    [IMessageWriter P TX]
    (ep : EndpointBase P TX σ)
    (front back : List (Event TX)) :
    ep.run (front ++ back) = (ep.run front).run back :=
  List.foldl_append

end EndpointBase

end OefCore
