import OefCore.Comms.CloseNotification

/-
  A read completion message by message, so that other things
  can happen to the endpoint between two messages of a batch.

  Main declarations:
    * `Batch`, `BatchedEndpoint`
    * `BatchedEndpoint.pass`, `step`, `run`
    * `BatchedEndpoint.exists_passes_eq_readCompletes`
-/

namespace OefCore

------------------------------------------------------------
-- The Rest of an Endpoint
------------------------------------------------------------

namespace EndpointBase

variable {P TX σ : Type}

/-
  Reader, world and handlers are as they were, and what was
  dead is dead.
-/
structure Aside
    (ep' ep : EndpointBase P TX σ) : Prop where
  protocol_eq : ep'.protocol = ep.protocol
  world_eq : ep'.world = ep.world
  onEof_eq : ep'.onEof = ep.onEof
  onError_eq : ep'.onError = ep.onError
  onProtoError_eq : ep'.onProtoError = ep.onProtoError
  dead : ep.state.dead = true → ep'.state.dead = true

namespace Aside

theorem refl (ep : EndpointBase P TX σ) : Aside ep ep :=
  ⟨rfl, rfl, rfl, rfl, rfl, id⟩

theorem trans
    {ep'' ep' ep : EndpointBase P TX σ}
    (hLast : Aside ep'' ep')
    (hFirst : Aside ep' ep) :
    Aside ep'' ep where
  protocol_eq := hLast.protocol_eq.trans hFirst.protocol_eq
  world_eq := hLast.world_eq.trans hFirst.world_eq
  onEof_eq := hLast.onEof_eq.trans hFirst.onEof_eq
  onError_eq := hLast.onError_eq.trans hFirst.onError_eq
  onProtoError_eq :=
    hLast.onProtoError_eq.trans hFirst.onProtoError_eq
  dead := fun hDead => hLast.dead (hFirst.dead hDead)

/- An endpoint that still lives was alive before. -/
theorem alive
    {ep' ep : EndpointBase P TX σ}
    (hAside : Aside ep' ep)
    (hAlive : ep'.state.dead = false) :
    ep.state.dead = false := by
  by_contra hDead
  rw [hAside.dead (Bool.not_eq_false _ ▸ hDead)] at hAlive
  cases hAlive

end Aside

theorem Untouched.aside
    {ep' ep : EndpointBase P TX σ}
    (hSame : Untouched ep' ep) :
    Aside ep' ep where
  protocol_eq := hSame.protocol_eq
  world_eq := hSame.world_eq
  onEof_eq := hSame.onEof_eq
  onError_eq := hSame.onError_eq
  onProtoError_eq := hSame.onProtoError_eq
  dead := fun hDead => by
    rw [hSame.state_eq]
    exact hDead

theorem close_aside
    (ep : EndpointBase P TX σ) :
    Aside ep.close ep :=
  ⟨rfl, rfl, rfl, rfl, rfl,
    fun _ => by simp [close, EndpointState.dead]⟩

section Writer

variable [IMessageWriter P TX]

/- A write that went well, or completes too late. -/
theorem completeSending_aside
    (ep : EndpointBase P TX σ)
    {ec : ErrorCode}
    (hQuiet : ep.state.dead = true ∨ ec = .success)
    (bytes : Nat) :
    Aside (ep.completeSending ec bytes) ep := by
  cases hAlive : ep.state.dead with
  | true =>
      simp only [completeSending, hAlive, if_true]
      exact .refl ep
  | false =>
      rcases hQuiet with hDead | hSuccess
      · rw [hAlive] at hDead
        cases hDead
      · subst hSuccess
        rcases completeSending_cases ep hAlive bytes with
          ⟨written, hWritten, hOpen | hClosed⟩
        · rw [hOpen]
          exact hWritten.aside
        · rw [hClosed]
          exact written.close_aside.trans hWritten.aside

/- What a completed write gives notice of. -/
def Event.writeNotice : Event TX → Option CloseNotice
  | .writeCompletes .success _ => none
  | .writeCompletes .eof _
  | .writeCompletes .operationAborted _ => some .eof
  | .writeCompletes (.other value) _ =>
      some (.error (.other value))
  | _ => none

/- A dead endpoint stands aside, and so does any that neither
   reads nor is given notice. -/
theorem step_aside
    [IMessageReader P σ]
    (ep : EndpointBase P TX σ)
    {event : Event TX}
    (hQuiet :
      ep.state.dead = true ∨
        event.writeNotice = none ∧
          ∀ ec bytes, event ≠ .readCompletes ec bytes) :
    Aside (ep.step event) ep := by
  cases event with
  | readCompletes ec bytes =>
      rcases hQuiet with hDead | ⟨-, hNot⟩
      · have hArrived := (ep.arrived_untouched bytes).aside
        rw [step, readCompletes_eq]
        unfold completeReading
        rw [if_pos (hArrived.dead hDead)]
        exact hArrived
      · exact absurd rfl (hNot ec bytes)
  | writeCompletes ec bytes =>
      have hPopped :
          Aside { ep with writes := ep.writes.drop 1 } ep :=
        ⟨rfl, rfl, rfl, rfl, rfl, id⟩
      have hSuccess :
          ep.state.dead = true ∨ ec = .success := by
        rcases hQuiet with hDead | ⟨hNotice, -⟩
        · exact Or.inl hDead
        · cases ec with
          | success => exact Or.inr rfl
          | eof | operationAborted | other => cases hNotice
      exact (completeSending_aside
        { ep with writes := ep.writes.drop 1 } hSuccess
        bytes).trans hPopped
  | runSending => exact ep.runSending_untouched.aside
  | runReading => exact ep.runReading_untouched.aside
  | close => exact ep.close_aside
  | send s => exact (ep.send_untouched s).aside

end Writer

/- What `eof`, `error` and `protoError` close stays closed,
   and keeps its reader. -/
structure Shut
    (ep' ep : EndpointBase P TX σ) : Prop where
  dead : ep'.state.dead = true
  protocol_eq : ep'.protocol = ep.protocol

theorem notify_shut
    {β : Type}
    {ep' ep : EndpointBase P TX σ}
    (hShut : Shut ep' ep)
    (handler : Option (Callback σ β))
    (argument : β)
    (notice : CloseNotice) :
    Shut (ep'.notify handler argument notice) ep := by
  cases handler with
  | none => exact hShut
  | some handler => exact ⟨hShut.dead, hShut.protocol_eq⟩

theorem eof_shut
    (ep : EndpointBase P TX σ) :
    Shut ep.eof ep := by
  unfold eof
  split
  · rename_i hEof
    exact ⟨by simp [EndpointState.dead, hEof], rfl⟩
  · apply notify_shut
    exact ⟨by simp [clearHandlers, EndpointState.dead], rfl⟩

theorem error_shut
    (ep : EndpointBase P TX σ)
    (ec : ErrorCode) :
    Shut (ep.error ec) ep := by
  unfold error
  split
  · rename_i hErrored
    exact ⟨by simp [EndpointState.dead, hErrored], rfl⟩
  · apply notify_shut
    exact ⟨by simp [clearHandlers, EndpointState.dead], rfl⟩

theorem protoError_shut
    (ep : EndpointBase P TX σ)
    (message : String) :
    Shut (ep.protoError message) ep := by
  unfold protoError
  split
  · rename_i hErrored
    exact ⟨by simp [EndpointState.dead, hErrored], rfl⟩
  · apply notify_shut
    exact ⟨by simp [clearHandlers, EndpointState.dead], rfl⟩

end EndpointBase

------------------------------------------------------------
-- Batches
------------------------------------------------------------

/- A read completion under way: the cursor, and the bytes of
   the messages that were handed on. -/
structure Batch where
  chars : ConstCharArrayBuffer
  consumed : Nat

/- An endpoint whose read completion takes its messages one
   by one. -/
structure BatchedEndpoint (TX σ : Type) where
  endpoint : EndpointBase (ProtoMessageEndpoint σ) TX σ
  batch : Option Batch

namespace BatchedEndpoint

variable {TX σ : Type}

/- `complete_reading` up to the call of `checkForMessage`. -/
def readCompletes
    (s : BatchedEndpoint TX σ)
    (ec : ErrorCode)
    (bytes : List UInt8) : BatchedEndpoint TX σ :=
  let ep := s.endpoint.arrived bytes
  if ep.state.dead then
    { s with endpoint := ep }
  else
    match ec with
    | .success =>
        let ep :=
          { ep with
            readBuffer :=
              ep.readBuffer.markSpaceUsed bytes.length }
        { endpoint := ep
          batch :=
            some
              { chars := .ofBuffers ep.readBuffer.getDataBuffers
                consumed := 0 } }
    | _ =>
        { s with endpoint := ep.completeReading ec bytes.length }

/- `complete_reading` from the return of `checkForMessage`,
   or its exception, on. -/
def conclude
    (s : BatchedEndpoint TX σ)
    (checked : ProtoMessageEndpoint.Checked σ) :
    BatchedEndpoint TX σ :=
  let ep :=
    { s.endpoint with
      protocol := checked.endpoint
      world := checked.world }
  { endpoint :=
      match checked.result with
      | .error what => ep.protoError what
      | .ok (consumed, needed) =>
          { ep with
            readBuffer := ep.readBuffer.markDataUsed consumed
            readNeeded := needed
            asioReading := false }.runReading
    batch := none }

/- A message was handed on, and the loop goes on behind it. -/
def handedOn
    (s : BatchedEndpoint TX σ)
    (protocol : ProtoMessageEndpoint σ)
    (world : σ)
    (batch : Batch) : BatchedEndpoint TX σ where
  endpoint :=
    { s.endpoint with protocol := protocol, world := world }
  batch := some batch

/- One pass of the loop of `checkForMessage`. -/
def pass (s : BatchedEndpoint TX σ) : BatchedEndpoint TX σ :=
  match s.batch with
  | none => s
  | some batch =>
      match s.endpoint.protocol.iterate batch.chars with
      | .needs needed protocol =>
          s.conclude
            { endpoint := protocol
              world := s.endpoint.world
              result := .ok (batch.consumed, needed) }
      | .throws what protocol =>
          s.conclude
            { endpoint := protocol
              world := s.endpoint.world
              result := .error what }
      | .message buffer bodySize protocol chars =>
          let rest : Batch :=
            { chars := chars
              consumed := batch.consumed + 4 + bodySize }
          match protocol.protoMessageReader.onComplete with
          | none => s.handedOn protocol s.endpoint.world rest
          | some onComplete =>
              match onComplete buffer s.endpoint.world with
              | (.ok _, world) =>
                  s.handedOn protocol world rest
              | (.error what, world) =>
                  s.conclude
                    { endpoint := protocol
                      world := world
                      result := .error what }

/- What the pass that comes next hands on. -/
def nextMessage
    (s : BatchedEndpoint TX σ) : Option ConstCharArrayBuffer :=
  match s.batch with
  | none => none
  | some batch =>
      match s.endpoint.protocol.iterate batch.chars with
      | .message buffer _ _ _ => some buffer
      | _ => none

------------------------------------------------------------
-- Whole Completions
------------------------------------------------------------

/- Passes that nothing comes between are the loop. -/
theorem exists_passes
    (s : BatchedEndpoint TX σ)
    {batch : Batch}
    (hBatch : s.batch = some batch) :
    ∃ count,
      pass^[count] s =
        s.conclude
          (s.endpoint.protocol.checkLoop batch.chars
            batch.consumed s.endpoint.world) := by
  -- every message takes its header off the data that remains
  induction hSize : batch.chars.remainingData.toNat using
    Nat.strongRecOn generalizing s batch with
  | _ size ih =>
      rw [ProtoMessageEndpoint.checkLoop_eq]
      cases hPass :
          s.endpoint.protocol.iterate batch.chars with
      | needs needed protocol =>
          exact ⟨1, by simp [pass, hBatch, hPass]⟩
      | throws what protocol =>
          exact ⟨1, by simp [pass, hBatch, hPass]⟩
      | message buffer bodySize protocol chars =>
          have hLess :=
            ProtoMessageEndpoint.remainingData_of_message hPass
          have hRest :
              ∀ world,
                ∃ count,
                  pass^[count]
                      (s.handedOn protocol world
                        { chars := chars
                          consumed :=
                            batch.consumed + 4 + bodySize }) =
                    s.conclude
                      (protocol.checkLoop chars
                        (batch.consumed + 4 + bodySize)
                        world) := by
            intro world
            exact ih chars.remainingData.toNat (by omega)
              (s.handedOn protocol world _) rfl rfl
          simp only
          cases hHandler :
              protocol.protoMessageReader.onComplete with
          | none =>
              rcases hRest s.endpoint.world with ⟨count, hCount⟩
              refine ⟨count + 1, ?_⟩
              rw [Function.iterate_succ_apply]
              simpa [pass, hBatch, hPass, hHandler]
                using hCount
          | some onComplete =>
              rcases hDone :
                  onComplete buffer s.endpoint.world with
                ⟨outcome, world⟩
              cases outcome with
              | error what =>
                  refine ⟨1, ?_⟩
                  simp [pass, hBatch, hPass, hHandler, hDone]
              | ok value =>
                  rcases hRest world with ⟨count, hCount⟩
                  refine ⟨count + 1, ?_⟩
                  rw [Function.iterate_succ_apply]
                  simpa [pass, hBatch, hPass, hHandler, hDone]
                    using hCount

/-
  A read completion that is left alone does what the endpoint
  does in one step.
-/
theorem exists_passes_eq_readCompletes
    {s : BatchedEndpoint TX σ}
    (hIdle : s.batch = none)
    (ec : ErrorCode)
    (bytes : List UInt8) :
    ∃ count,
      pass^[count] (s.readCompletes ec bytes) =
        { endpoint := s.endpoint.readCompletes ec bytes
          batch := none } := by
  rw [EndpointBase.readCompletes_eq]
  cases hDead : (s.endpoint.arrived bytes).state.dead with
  | true =>
      refine ⟨0, ?_⟩
      simp [readCompletes, EndpointBase.completeReading, hDead,
        hIdle]
  | false =>
      cases ec with
      | eof | operationAborted | other =>
          exact ⟨0, by simp [readCompletes, hDead, hIdle]⟩
      | success =>
          have hBatch :
              (s.readCompletes .success bytes).batch =
                some
                  { chars :=
                      .ofBuffers
                        ((s.endpoint.arrived
                          bytes).readBuffer.markSpaceUsed
                            bytes.length).getDataBuffers
                    consumed := 0 } := by
            simp [readCompletes, hDead]
          rcases exists_passes _ hBatch with ⟨count, hCount⟩
          refine ⟨count, hCount.trans ?_⟩
          simp only [readCompletes, conclude, hDead,
            Bool.false_eq_true, if_false,
            EndpointBase.completeReading,
            IMessageReader.checkForMessage,
            ProtoMessageEndpoint.checkForMessage]
          congr 1
          cases (ProtoMessageEndpoint.checkLoop _ _ _
              _).result with
          | error what => rfl
          | ok counts => rfl

------------------------------------------------------------
-- Runs
------------------------------------------------------------

/- What can happen between two passes, and a pass. -/
inductive Event (TX : Type) where
  | happens (event : EndpointBase.Event TX)
  | pass

/- What a completed write gives notice of. -/
def Event.writeNotice : Event TX → Option CloseNotice
  | .happens event => event.writeNotice
  | .pass => none

section Writer

variable [IMessageWriter (ProtoMessageEndpoint σ) TX]

/- No read is outstanding while one is being completed. -/
def step
    (s : BatchedEndpoint TX σ) :
    Event TX → BatchedEndpoint TX σ
  | .happens (.readCompletes ec bytes) =>
      match s.batch with
      | none => s.readCompletes ec bytes
      | some _ => s
  | .happens event =>
      { s with endpoint := s.endpoint.step event }
  | .pass => s.pass

def run
    (s : BatchedEndpoint TX σ)
    (events : List (Event TX)) : BatchedEndpoint TX σ :=
  events.foldl step s

theorem run_snoc
    (s : BatchedEndpoint TX σ)
    (events : List (Event TX))
    (event : Event TX) :
    s.run (events ++ [event]) =
      (s.run events).step event := by
  simp [run]

end Writer

end BatchedEndpoint

end OefCore
