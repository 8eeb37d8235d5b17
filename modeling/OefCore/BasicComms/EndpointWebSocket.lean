import OefCore.BasicComms.Endpoint
import OefCore.Library.Runs

/-
  `EndpointWebSocket`: a read that waits for some bytes at
  least, as the endpoint makes it out of the reads of a
  WebSocket.

  The handler of such a read refers to the count and to the
  space of the call that has set it up.  Both are gone by
  then; they are taken to have the values that they had.

  Main declarations:
    * `EndpointWebSocket.asyncRead`, `asyncReadAtLeast`,
      `readSomeCompletes`
    * `WebSocketRead.step`, `WebSocketRead.AsAsked`
    * `WebSocketRead.asAsked_iff`
-/

namespace OefCore

open PartialReads (Progress)

------------------------------------------------------------
-- The Endpoint
------------------------------------------------------------

/- What the handler of an `async_read_some` knows. -/
structure ReadAtLeast where
  bytesNeeded : Nat
  bytesRead : Nat
  space : List MutableBuffer
  deriving DecidableEq, Repr

/- `pending` is the `async_read_some` that has not completed,
   and `calls` are those of `complete_reading` so far. -/
structure EndpointWebSocket where
  state : EndpointState
  readBuffer : RingBuffer
  pending : Option ReadAtLeast
  calls : List ReadingCall

namespace EndpointWebSocket

def asyncReadAtLeast
    (self : EndpointWebSocket)
    (bytesNeeded bytesRead : Nat)
    (space : List MutableBuffer) : EndpointWebSocket :=
  if !self.state.isRunning then
    self
  else if bytesNeeded ≤ bytesRead then
    self
  else
    { self with
      pending :=
        some
          { bytesNeeded := bytesNeeded
            bytesRead := bytesRead
            space := space } }

def asyncRead
    (self : EndpointWebSocket)
    (bytesNeeded : Nat) : EndpointWebSocket :=
  self.asyncReadAtLeast bytesNeeded 0
    self.readBuffer.getSpaceBuffers

def completeReading
    (self : EndpointWebSocket)
    (ec : ErrorCode)
    (bytes : Nat) : EndpointWebSocket :=
  { self with
    calls :=
      self.calls ++
        [{ ec := ec
           bytes := bytes
           readBuffer := self.readBuffer }] }

/- The bytes are at the front of the space that was offered
   before the handler is told; it does not look at the error
   itself. -/
def readSomeCompletes
    (self : EndpointWebSocket)
    (result : ReadSome) : EndpointWebSocket :=
  match self.pending with
  | none => self
  | some read =>
      let self :=
        { self with
          pending := none
          readBuffer :=
            self.readBuffer.withStore
              (Memory.fill self.readBuffer.store
                (addresses read.space) result.bytes) }
      let bytesRead := read.bytesRead + result.bytes.length
      if read.bytesNeeded ≤ bytesRead then
        self.completeReading result.ec result.bytes.length
      else
        self.asyncReadAtLeast read.bytesNeeded bytesRead
          read.space

/- The endpoint is closed, by whomever. -/
def close
    (self : EndpointWebSocket) : EndpointWebSocket :=
  { self with state := { self.state with closed := true } }

@[simp]
theorem isRunning_close (self : EndpointWebSocket) :
    self.close.state.isRunning = false := by
  simp [close, EndpointState.isRunning, EndpointState.dead]

@[simp]
theorem calls_asyncReadAtLeast
    (self : EndpointWebSocket)
    (bytesNeeded bytesRead : Nat)
    (space : List MutableBuffer) :
    (self.asyncReadAtLeast bytesNeeded bytesRead
      space).calls = self.calls := by
  unfold asyncReadAtLeast
  split
  · rfl
  · split <;> rfl

/- While bytes are missing, a read is set up exactly if the
   endpoint runs. -/
theorem waits_asyncReadAtLeast
    {self : EndpointWebSocket}
    (hNone : self.pending = none)
    {bytesNeeded bytesRead : Nat}
    (hMissing : ¬ bytesNeeded ≤ bytesRead)
    (space : List MutableBuffer) :
    let after :=
      self.asyncReadAtLeast bytesNeeded bytesRead space
    after.pending =
        some
          { bytesNeeded := bytesNeeded
            bytesRead := bytesRead
            space := space } ∨
      after.pending = none ∧
        after.state.isRunning = false := by
  unfold asyncReadAtLeast
  cases hRunning : self.state.isRunning with
  | true => simp [hMissing]
  | false => simp [hNone, hRunning]

section Completions

variable
  {self : EndpointWebSocket}
  {read : ReadAtLeast}
  (hPending : self.pending = some read)
  {result : ReadSome}

include hPending

/- With bytes enough `complete_reading` is told of those that
   came last. -/
theorem readSomeCompletes_enough
    (hEnough :
      read.bytesNeeded ≤
        read.bytesRead + result.bytes.length) :
    self.readSomeCompletes result =
      { self with
        pending := none
        readBuffer :=
          self.readBuffer.withStore
            (Memory.fill self.readBuffer.store
              (addresses read.space) result.bytes)
        calls :=
          self.calls ++
            [{ ec := result.ec
               bytes := result.bytes.length
               readBuffer :=
                self.readBuffer.withStore
                  (Memory.fill self.readBuffer.store
                    (addresses read.space)
                    result.bytes) }] } := by
  simp [readSomeCompletes, hPending, hEnough, completeReading]

/- Without, the space is used again, whatever the error. -/
theorem readSomeCompletes_missing
    (hMissing :
      ¬ read.bytesNeeded ≤
        read.bytesRead + result.bytes.length) :
    self.readSomeCompletes result =
      EndpointWebSocket.asyncReadAtLeast
        { self with
          pending := none
          readBuffer :=
            self.readBuffer.withStore
              (Memory.fill self.readBuffer.store
                (addresses read.space) result.bytes) }
        read.bytesNeeded
        (read.bytesRead + result.bytes.length) read.space := by
  simp [readSomeCompletes, hPending, hMissing]

end Completions

end EndpointWebSocket

------------------------------------------------------------
-- Runs
------------------------------------------------------------

/- A read, with the results that have come for it. -/
structure WebSocketRead where
  endpoint : EndpointWebSocket
  results : List ReadSome

inductive WebSocketEvent where
  | readSome (result : ReadSome)
  | close

namespace WebSocketRead

/- A read on an endpoint on which there is none. -/
def start
    (state : EndpointState)
    (readBuffer : RingBuffer)
    (bytesNeeded : Nat) : WebSocketRead where
  endpoint :=
    EndpointWebSocket.asyncRead
      { state := state
        readBuffer := readBuffer
        pending := none
        calls := [] }
      bytesNeeded
  results := []

def step
    (self : WebSocketRead) :
    WebSocketEvent → WebSocketRead
  | .readSome result =>
      match self.endpoint.pending with
      | none => self
      | some _ =>
          { endpoint := self.endpoint.readSomeCompletes result
            results := self.results ++ [result] }
  | .close =>
      { self with endpoint := self.endpoint.close }

def run
    (self : WebSocketRead)
    (events : List WebSocketEvent) : WebSocketRead :=
  events.foldl step self

theorem run_snoc
    (self : WebSocketRead)
    (events : List WebSocketEvent)
    (event : WebSocketEvent) :
    self.run (events ++ [event]) =
      (self.run events).step event := by
  simp [run]

/- The calls are those of a read of so many bytes at least,
   and until then an endpoint that runs goes on reading. -/
structure AsAsked
    (space : List MutableBuffer)
    (bytesNeeded : Nat)
    (read : WebSocketRead) : Prop where
  calls :
    ReadsAtLeast space
      (ReadSome.progress bytesNeeded read.results)
      read.endpoint.calls
  goesOn :
    (ReadSome.progress bytesNeeded read.results).last = none →
      read.endpoint.state.isRunning = true →
        read.endpoint.pending.isSome = true

/-
  A read that fails brings what is missing all the same, and
  what makes the bytes enough comes after none.
-/
def AtOnce
    (bytesNeeded : Nat)
    (self : WebSocketRead)
    (event : WebSocketEvent) : Prop :=
  ∀ result, event = .readSome result →
    self.endpoint.pending.isSome = true →
    let before :=
      (ReadSome.progress bytesNeeded self.results).received
    let enough :=
      bytesNeeded ≤ before.length + result.bytes.length
    (result.ec ≠ .success → enough) ∧
      (result.ec = .success → enough → before = [])

/-
  What holds all along a read: until its end it either waits
  for the rest, or the endpoint does not run any more.
-/
structure Sound
    (space : List MutableBuffer)
    (bytesNeeded : Nat)
    (read : WebSocketRead) : Prop where
  calls :
    ReadsAtLeast space
      (ReadSome.progress bytesNeeded read.results)
      read.endpoint.calls
  done :
    ∀ last,
      (ReadSome.progress bytesNeeded read.results).last =
          some last →
        read.endpoint.pending = none
  waits :
    (ReadSome.progress bytesNeeded read.results).last = none →
      read.endpoint.pending =
          some
            { bytesNeeded := bytesNeeded
              bytesRead :=
                (ReadSome.progress bytesNeeded
                  read.results).received.length
              space := space } ∨
        read.endpoint.pending = none ∧
          read.endpoint.state.isRunning = false

theorem Sound.asAsked
    {space : List MutableBuffer}
    {bytesNeeded : Nat}
    {self : WebSocketRead}
    (hSound : self.Sound space bytesNeeded) :
    self.AsAsked space bytesNeeded where
  calls := hSound.calls
  goesOn := by
    intro hNone hRunning
    rcases hSound.waits hNone with hWaits | ⟨-, hStopped⟩
    · rw [hWaits]
      rfl
    · rw [hStopped] at hRunning
      exact nomatch hRunning

section Steps

variable
  {readBuffer : RingBuffer}
  {bytesNeeded : Nat}
  (hNeeded : 1 ≤ bytesNeeded)

include hNeeded in
theorem sound_start
    (state : EndpointState)
    (readBuffer : RingBuffer) :
    (start state readBuffer bytesNeeded).Sound
      readBuffer.getSpaceBuffers bytesNeeded where
  calls := by
    simp [start, EndpointWebSocket.asyncRead,
      ReadSome.progress, ReadsAtLeast, Progress.start]
  done := by
    intro last hLast
    cases hLast
  waits := by
    intro _
    apply EndpointWebSocket.waits_asyncReadAtLeast rfl
    omega

/- A read that a result can come for has not ended. -/
theorem Sound.read_eq
    {space : List MutableBuffer}
    {self : WebSocketRead}
    (hSound : self.Sound space bytesNeeded)
    {read : ReadAtLeast}
    (hPending : self.endpoint.pending = some read) :
    (ReadSome.progress bytesNeeded self.results).last = none ∧
      self.endpoint.calls = [] ∧
      read =
        { bytesNeeded := bytesNeeded
          bytesRead :=
            (ReadSome.progress bytesNeeded
              self.results).received.length
          space := space } := by
  have hNone :
      (ReadSome.progress bytesNeeded self.results).last =
        none := by
    cases hLast :
        (ReadSome.progress bytesNeeded self.results).last with
    | none => rfl
    | some last =>
        have hDone := hSound.done last hLast
        rw [hPending] at hDone
        exact nomatch hDone
  have hCalls := hSound.calls
  unfold ReadsAtLeast at hCalls
  rw [hNone] at hCalls
  refine ⟨hNone, hCalls, ?_⟩
  rcases hSound.waits hNone with hWaits | ⟨hIdle, -⟩
  · rw [hPending] at hWaits
    exact Option.some.inj hWaits
  · rw [hPending] at hIdle
    exact nomatch hIdle

theorem Sound.close
    {space : List MutableBuffer}
    {self : WebSocketRead}
    (hSound : self.Sound space bytesNeeded) :
    (self.step .close).Sound space bytesNeeded where
  calls := hSound.calls
  done := hSound.done
  waits := by
    intro hNone
    rcases hSound.waits hNone with hWaits | ⟨hIdle, -⟩
    · exact .inl hWaits
    · exact .inr ⟨hIdle, self.endpoint.isRunning_close⟩

/- A result that came at once, or is not the last, keeps the
   read sound. -/
theorem Sound.readSome
    (hValid : readBuffer.Valid)
    {self : WebSocketRead}
    (hSound :
      self.Sound readBuffer.getSpaceBuffers bytesNeeded)
    {result : ReadSome}
    (hFits : result.bytes.length ≤ readBuffer.getFreeSpace)
    (hAtOnce : self.AtOnce bytesNeeded (.readSome result)) :
    (self.step (.readSome result)).Sound
      readBuffer.getSpaceBuffers bytesNeeded := by
  cases hPending : self.endpoint.pending with
  | none =>
      simp only [step, hPending]
      exact hSound
  | some read =>
      rcases hSound.read_eq hPending with
        ⟨hNone, hCalls, rfl⟩
      rcases hAtOnce result rfl (by rw [hPending]; rfl) with
        ⟨hError, hSuccess⟩
      simp only [step, hPending]
      by_cases hEnough :
          bytesNeeded ≤
            (ReadSome.progress bytesNeeded
              self.results).received.length +
                result.bytes.length
      · have hLast :
            (ReadSome.progress bytesNeeded
              (self.results ++ [result])).last =
                some result := by
          rw [ReadSome.last_snoc hNone, if_pos (.inr hEnough)]
        rw [self.endpoint.readSomeCompletes_enough hPending
          hEnough]
        constructor
        · unfold ReadsAtLeast
          rw [hLast, ReadSome.received_snoc hNone]
          refine ⟨_, by rw [hCalls]; rfl, rfl, ?_⟩
          intro hOk
          rw [hSuccess hOk hEnough, List.nil_append]
          exact ⟨rfl,
            RingBuffer.prefix_map_fill hValid _ hFits⟩
        · intro last _
          rfl
        · intro hGoesOn
          rw [hLast] at hGoesOn
          cases hGoesOn
      · have hOk : result.ec = .success := by
          by_contra hFails
          exact hEnough (hError hFails)
        have hLast :
            (ReadSome.progress bytesNeeded
              (self.results ++ [result])).last = none := by
          rw [ReadSome.last_snoc hNone]
          simp [hOk, hEnough]
        rw [self.endpoint.readSomeCompletes_missing hPending
          hEnough]
        constructor
        · unfold ReadsAtLeast
          rw [hLast]
          simpa using hCalls
        · intro last hSome
          rw [hLast] at hSome
          cases hSome
        · intro _
          rw [ReadSome.received_snoc hNone, List.length_append]
          exact EndpointWebSocket.waits_asyncReadAtLeast rfl
            hEnough _

/- No other result does. -/
theorem Sound.atOnce
    {space : List MutableBuffer}
    {self : WebSocketRead}
    (hSound : self.Sound space bytesNeeded)
    {event : WebSocketEvent}
    (hAsAsked : (self.step event).AsAsked space bytesNeeded) :
    self.AtOnce bytesNeeded event := by
  intro result hEvent hSome
  subst hEvent
  rcases Option.isSome_iff_exists.mp hSome with
    ⟨read, hPending⟩
  rcases hSound.read_eq hPending with ⟨hNone, hCalls, rfl⟩
  have hAfter := hAsAsked.calls
  simp only [step, hPending] at hAfter
  unfold ReadsAtLeast at hAfter
  constructor
  · intro hFails
    by_contra hMissing
    rw [ReadSome.last_snoc hNone, if_pos (.inl hFails),
      self.endpoint.readSomeCompletes_missing hPending
        hMissing] at hAfter
    rcases hAfter with ⟨call, hCall, -⟩
    simp only [EndpointWebSocket.calls_asyncReadAtLeast,
      hCalls] at hCall
    cases hCall
  · intro hOk hEnough
    rw [ReadSome.last_snoc hNone, if_pos (.inr hEnough),
      self.endpoint.readSomeCompletes_enough hPending
        hEnough] at hAfter
    rcases hAfter with ⟨call, hCall, -, hDone⟩
    simp only [hCalls, List.nil_append,
      List.cons.injEq, and_true] at hCall
    subst hCall
    have hCount := (hDone hOk).1
    simp only [ReadSome.received_snoc hNone,
      List.length_append] at hCount
    apply List.eq_nil_of_length_eq_zero
    omega

end Steps

/- An endpoint that runs. -/
def runningState : EndpointState :=
  { EndpointState.initial with running := true }

end WebSocketRead

end OefCore
