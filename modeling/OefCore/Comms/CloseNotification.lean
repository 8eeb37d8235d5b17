import OefCore.BasicComms.EndpointBase
import OefCore.Comms.SendPath

/-
  Who is told that a connection is gone, in every order of
  completions, exceptions and calls of `close`.

  The result is about any reader, writer and handlers: what
  the handlers do, and whether they throw, is arbitrary.

  Main declarations:
    * `EndpointBase.Undisturbed`
    * `EndpointBase.Armed`, `EndpointBase.Reports`
    * `EndpointBase.notifiedOnce_iff`
-/

------------------------------------------------------------
-- Steps that Notify Nobody
------------------------------------------------------------

namespace OefCore

namespace EndpointBase

variable {P TX σ : Type}

/- State and handlers are as they were, and nobody has been
   notified. -/
structure Undisturbed
    (ep' ep : EndpointBase P TX σ) : Prop where
  state_eq : ep'.state = ep.state
  onEof_eq : ep'.onEof = ep.onEof
  onError_eq : ep'.onError = ep.onError
  onProtoError_eq : ep'.onProtoError = ep.onProtoError
  notified_eq : ep'.notified = ep.notified

namespace Undisturbed

theorem refl (ep : EndpointBase P TX σ) :
    Undisturbed ep ep :=
  ⟨rfl, rfl, rfl, rfl, rfl⟩

theorem trans
    {ep'' ep' ep : EndpointBase P TX σ}
    (hLast : Undisturbed ep'' ep')
    (hFirst : Undisturbed ep' ep) :
    Undisturbed ep'' ep where
  state_eq := hLast.state_eq.trans hFirst.state_eq
  onEof_eq := hLast.onEof_eq.trans hFirst.onEof_eq
  onError_eq := hLast.onError_eq.trans hFirst.onError_eq
  onProtoError_eq :=
    hLast.onProtoError_eq.trans hFirst.onProtoError_eq
  notified_eq := hLast.notified_eq.trans hFirst.notified_eq

end Undisturbed

/- Reader and world are as they were, too. -/
structure Untouched
    (ep' ep : EndpointBase P TX σ) : Prop
    extends Undisturbed ep' ep where
  protocol_eq : ep'.protocol = ep.protocol
  world_eq : ep'.world = ep.world

namespace Untouched

theorem refl (ep : EndpointBase P TX σ) :
    Untouched ep ep :=
  ⟨.refl ep, rfl, rfl⟩

theorem trans
    {ep'' ep' ep : EndpointBase P TX σ}
    (hLast : Untouched ep'' ep')
    (hFirst : Untouched ep' ep) :
    Untouched ep'' ep where
  toUndisturbed :=
    hLast.toUndisturbed.trans hFirst.toUndisturbed
  protocol_eq := hLast.protocol_eq.trans hFirst.protocol_eq
  world_eq := hLast.world_eq.trans hFirst.world_eq

end Untouched

theorem arrived_untouched
    (ep : EndpointBase P TX σ)
    (bytes : List UInt8) :
    Untouched (ep.arrived bytes) ep := by
  unfold arrived
  split
  · exact .refl ep
  · exact ⟨⟨rfl, rfl, rfl, rfl, rfl⟩, rfl, rfl⟩

theorem runReading_untouched
    (ep : EndpointBase P TX σ) :
    Untouched ep.runReading ep := by
  unfold runReading
  split
  · exact .refl ep
  · split
    · exact .refl ep
    · simp only
      split
      · exact ⟨⟨rfl, rfl, rfl, rfl, rfl⟩, rfl, rfl⟩
      · exact ⟨⟨rfl, rfl, rfl, rfl, rfl⟩, rfl, rfl⟩

theorem send_untouched
    (ep : EndpointBase P TX σ)
    (s : TX) :
    Untouched (ep.send s).2 ep := by
  unfold send
  split
  · exact ⟨⟨rfl, rfl, rfl, rfl, rfl⟩, rfl, rfl⟩
  · exact .refl ep

section Writer

variable [IMessageWriter P TX]

theorem createMessages_untouched
    (ep : EndpointBase P TX σ) :
    Untouched ep.createMessages.2 ep := by
  unfold createMessages
  simp only
  split
  · exact ⟨⟨rfl, rfl, rfl, rfl, rfl⟩, rfl, rfl⟩
  · exact ⟨⟨rfl, rfl, rfl, rfl, rfl⟩, rfl, rfl⟩

theorem runSending_untouched
    (ep : EndpointBase P TX σ) :
    Untouched ep.runSending.2 ep := by
  have hCreate := ep.createMessages_untouched
  unfold runSending
  split
  · exact .refl ep
  · by_cases hNone : ep.sendBuffer.getDataAvailable = 0
    · simp only [if_pos hNone]
      cases hCreated : ep.createMessages with
      | mk result created =>
          rw [hCreated] at hCreate
          cases result with
          | error what => exact hCreate
          | ok value =>
              simp only
              split
              · exact hCreate
              · have hWrite :
                    Untouched
                      ({ created with
                          asioSending := true }.asyncWrite)
                      created :=
                  ⟨⟨rfl, rfl, rfl, rfl, rfl⟩, rfl, rfl⟩
                exact hWrite.trans hCreate
    · simp only [if_neg hNone]
      exact ⟨⟨rfl, rfl, rfl, rfl, rfl⟩, rfl, rfl⟩

end Writer

------------------------------------------------------------
-- Dead Endpoints
------------------------------------------------------------

theorem isRunning_of_dead
    {ep : EndpointBase P TX σ}
    (hDead : ep.state.dead = true) :
    ep.state.isRunning = false := by
  simp [EndpointState.isRunning, hDead]

/- A dead endpoint notifies nobody and stays dead. -/
theorem step_of_dead
    [IMessageReader P σ]
    [IMessageWriter P TX]
    {ep : EndpointBase P TX σ}
    (hDead : ep.state.dead = true)
    (event : Event TX) :
    (ep.step event).state.dead = true ∧
      (ep.step event).notified = ep.notified := by
  have hIdle := isRunning_of_dead hDead
  cases event with
  | readCompletes ec bytes =>
      simp only [step, readCompletes]
      split
      · simp [completeReading, hDead]
      · simp [completeReading, hDead]
  | writeCompletes ec bytes =>
      simp [step, writeCompletes, completeSending, hDead]
  | runSending => simp [step, runSending, hIdle, hDead]
  | runReading => simp [step, runReading, hIdle, hDead]
  | close =>
      simp [step, close, EndpointState.dead]
  | send s =>
      have hSame := (ep.send_untouched s).toUndisturbed
      constructor
      · rw [step, hSame.state_eq]
        exact hDead
      · exact hSame.notified_eq

theorem run_of_dead
    [IMessageReader P σ]
    [IMessageWriter P TX]
    {ep : EndpointBase P TX σ}
    (hDead : ep.state.dead = true)
    (events : List (Event TX)) :
    (ep.run events).state.dead = true ∧
      (ep.run events).notified = ep.notified := by
  induction events generalizing ep with
  | nil => exact ⟨hDead, rfl⟩
  | cons event events ih =>
      rcases step_of_dead hDead event with ⟨hStep, hSame⟩
      rcases ih hStep with ⟨hLast, hLater⟩
      exact ⟨hLast, hLater.trans hSame⟩

------------------------------------------------------------
-- Armed Endpoints
------------------------------------------------------------

/- The endpoint is running, all three handlers are set and
   none has been invoked. -/
structure Armed (ep : EndpointBase P TX σ) : Prop where
  isRunning : ep.state.isRunning = true
  onEof_set : ep.onEof.isSome = true
  onError_set : ep.onError.isSome = true
  onProtoError_set : ep.onProtoError.isSome = true
  notified_eq : ep.notified = []

theorem Undisturbed.armed
    {ep' ep : EndpointBase P TX σ}
    (hSame : Undisturbed ep' ep)
    (hArmed : ep.Armed) :
    ep'.Armed where
  isRunning := by
    rw [hSame.state_eq]
    exact hArmed.isRunning
  onEof_set := by
    rw [hSame.onEof_eq]
    exact hArmed.onEof_set
  onError_set := by
    rw [hSame.onError_eq]
    exact hArmed.onError_set
  onProtoError_set := by
    rw [hSame.onProtoError_eq]
    exact hArmed.onProtoError_set
  notified_eq := by
    rw [hSame.notified_eq]
    exact hArmed.notified_eq

/- The endpoint is dead and `count` handlers have been
   invoked. -/
structure Closed
    (ep : EndpointBase P TX σ)
    (count : Nat) : Prop where
  dead : ep.state.dead = true
  notified_length : ep.notified.length = count

namespace Armed

variable {ep : EndpointBase P TX σ}

theorem flags
    (hArmed : ep.Armed) :
    ep.state.closed = false ∧ ep.state.eof = false ∧
      ep.state.errored = false := by
  have hRunning := hArmed.isRunning
  simp only [EndpointState.isRunning, EndpointState.dead,
    Bool.and_eq_true, Bool.not_eq_true', Bool.or_eq_false_iff]
    at hRunning
  exact ⟨hRunning.2.1.1, hRunning.2.1.2, hRunning.2.2⟩

theorem alive
    (hArmed : ep.Armed) :
    ep.state.dead = false := by
  rcases hArmed.flags with ⟨hClosed, hEof, hErrored⟩
  simp [EndpointState.dead, hClosed, hEof, hErrored]

/- `close` notifies nobody. -/
theorem close
    (hArmed : ep.Armed) :
    ep.close.Closed 0 where
  dead := by simp [EndpointBase.close, EndpointState.dead]
  notified_length := by
    simp [EndpointBase.close, hArmed.notified_eq]

/- End of file and an abort reach the EOF handler. -/
theorem close_eof
    (hArmed : ep.Armed) :
    ep.close.eof.Closed 1 := by
  rcases hArmed.flags with ⟨-, hEof, -⟩
  rcases Option.isSome_iff_exists.mp hArmed.onEof_set with
    ⟨handler, hHandler⟩
  have hFlag : ep.close.state.eof = false := hEof
  have hOnEof : ep.close.onEof = some handler := hHandler
  rw [EndpointBase.eof, if_neg (by simp [hFlag]), hOnEof]
  exact
    { dead := by
        simp [notify, clearHandlers, EndpointState.dead]
      notified_length := by
        simp [notify, clearHandlers, EndpointBase.close,
          hArmed.notified_eq] }

theorem error
    (hArmed : ep.Armed)
    (ec : ErrorCode) :
    (ep.error ec).Closed 1 := by
  rcases hArmed.flags with ⟨-, -, hErrored⟩
  rcases Option.isSome_iff_exists.mp hArmed.onError_set with
    ⟨handler, hHandler⟩
  rw [EndpointBase.error, if_neg (by simp [hErrored]),
    hHandler]
  exact
    { dead := by
        simp [notify, clearHandlers, EndpointState.dead]
      notified_length := by
        simp [notify, clearHandlers, hArmed.notified_eq] }

theorem protoError
    (hArmed : ep.Armed)
    (message : String) :
    (ep.protoError message).Closed 1 := by
  rcases hArmed.flags with ⟨-, -, hErrored⟩
  rcases Option.isSome_iff_exists.mp hArmed.onProtoError_set
    with ⟨handler, hHandler⟩
  rw [EndpointBase.protoError, if_neg (by simp [hErrored]),
    hHandler]
  exact
    { dead := by
        simp [notify, clearHandlers, EndpointState.dead]
      notified_length := by
        simp [notify, clearHandlers, hArmed.notified_eq] }

/-
  The error of a read sets the flag that `error` tests, so
  that `error` returns at once.
-/
theorem read_error
    (hArmed : ep.Armed)
    (ec : ErrorCode) :
    (({ ep with
        state := { ep.state with errored := true } }.error
      ec).close).Closed 0 := by
  rw [EndpointBase.error, if_pos rfl]
  exact
    { dead := by
        simp [EndpointBase.close, EndpointState.dead]
      notified_length := by
        simp [EndpointBase.close, hArmed.notified_eq] }

end Armed

------------------------------------------------------------
-- Events
------------------------------------------------------------

/- What the reader answers if a read of `bytes` completes
   with success now. -/
def answer
    [IMessageReader P σ]
    (ep : EndpointBase P TX σ)
    (bytes : List UInt8) : Except Thrown (Nat × Nat) :=
  let buffer :=
    match ep.reads with
    | [] => ep.readBuffer
    | op :: _ => ep.readBuffer.withStore
        (Memory.fill ep.readBuffer.store
          (addresses op.space) bytes)
  (IMessageReader.checkForMessage ep.protocol
    (buffer.markSpaceUsed bytes.length).getDataBuffers
    ep.world).result

/- The event reports that the connection is at its end, or
   that the peer breaks the protocol. -/
def Reports
    [IMessageReader P σ]
    (ep : EndpointBase P TX σ) : Event TX → Prop
  | .readCompletes .success bytes =>
      ∃ thrown, ep.answer bytes = .error thrown
  | .readCompletes _ _ => True
  | .writeCompletes .success _ => False
  | .writeCompletes _ _ => True
  | .runSending | .runReading | .close | .send _ => False

/- A read that fails with a transport error. -/
def ReadFails : Event TX → Prop
  | .readCompletes (.other _) _ => True
  | _ => False

section Completions

variable {ep : EndpointBase P TX σ}

/- A completed read, told apart by its code. -/
theorem Armed.completeReading
    [IMessageReader P σ]
    (hArmed : ep.Armed)
    (ec : ErrorCode)
    (bytes : Nat) :
    match ec with
    | .success =>
        (match (IMessageReader.checkForMessage ep.protocol
            (ep.readBuffer.markSpaceUsed bytes).getDataBuffers
            ep.world).result with
        | .ok _ => (ep.completeReading ec bytes).Armed
        | .error _ => (ep.completeReading ec bytes).Closed 1)
    | .eof | .operationAborted =>
        (ep.completeReading ec bytes).Closed 1
    | .other _ => (ep.completeReading ec bytes).Closed 0 := by
  have hAlive := hArmed.alive
  cases ec with
  | eof =>
      simp only [EndpointBase.completeReading, hAlive,
        Bool.false_eq_true, if_false]
      exact hArmed.close_eof
  | operationAborted =>
      simp only [EndpointBase.completeReading, hAlive,
        Bool.false_eq_true, if_false]
      exact hArmed.close_eof
  | other value =>
      simp only [EndpointBase.completeReading, hAlive,
        Bool.false_eq_true, if_false]
      exact hArmed.read_error (.other value)
  | success =>
      simp only [EndpointBase.completeReading, hAlive,
        Bool.false_eq_true, if_false]
      generalize IMessageReader.checkForMessage ep.protocol
        (ep.readBuffer.markSpaceUsed bytes).getDataBuffers
        ep.world = checked
      have hRead :
          Undisturbed
            { ep with
              readBuffer := ep.readBuffer.markSpaceUsed bytes
              protocol := checked.protocol
              world := checked.world } ep :=
        ⟨rfl, rfl, rfl, rfl, rfl⟩
      cases checked.result with
      | error thrown =>
          exact (hRead.armed hArmed).protoError _
      | ok counts =>
          have hAsk := runReading_untouched
            { ep with
              readBuffer :=
                (ep.readBuffer.markSpaceUsed
                  bytes).markDataUsed counts.1
              protocol := checked.protocol
              world := checked.world
              readNeeded := counts.2
              asioReading := false }
          have hIdle :
              Undisturbed
                { ep with
                  readBuffer :=
                    (ep.readBuffer.markSpaceUsed
                      bytes).markDataUsed counts.1
                  protocol := checked.protocol
                  world := checked.world
                  readNeeded := counts.2
                  asioReading := false } ep :=
            ⟨rfl, rfl, rfl, rfl, rfl⟩
          exact (hAsk.toUndisturbed.trans hIdle).armed hArmed

/- A write that went well: what it leaves has been given no
   notice, and is closed silently if the writer threw. -/
theorem completeSending_cases
    [IMessageWriter P TX]
    (ep : EndpointBase P TX σ)
    (hAlive : ep.state.dead = false)
    (bytes : Nat) :
    ∃ written,
      Untouched written ep ∧
        (ep.completeSending .success bytes = written ∨
          ep.completeSending .success bytes =
            written.close) := by
  have hUsed :
      Untouched
        { ep with
          sendBuffer := ep.sendBuffer.markDataUsed bytes } ep :=
    ⟨⟨rfl, rfl, rfl, rfl, rfl⟩, rfl, rfl⟩
  have hCreate := createMessages_untouched
    { ep with sendBuffer := ep.sendBuffer.markDataUsed bytes }
  simp only [EndpointBase.completeSending, hAlive,
    Bool.false_eq_true, if_false]
  cases hCreated :
      ({ ep with
          sendBuffer := ep.sendBuffer.markDataUsed bytes
        }.createMessages) with
  | mk result created =>
      rw [hCreated] at hCreate
      have hNext := hCreate.trans hUsed
      cases result with
      | error what => exact ⟨created, hNext, Or.inr rfl⟩
      | ok value =>
          have hIdle :
              Untouched { created with asioSending := false }
                created :=
            ⟨⟨rfl, rfl, rfl, rfl, rfl⟩, rfl, rfl⟩
          have hSend := runSending_untouched
            { created with asioSending := false }
          simp only
          cases hSent :
              ({ created with
                  asioSending := false }.runSending) with
          | mk outcome sent =>
              rw [hSent] at hSend
              have hLast := (hSend.trans hIdle).trans hNext
              cases outcome with
              | error what => exact ⟨sent, hLast, Or.inr rfl⟩
              | ok value => exact ⟨sent, hLast, Or.inl rfl⟩

/- A completed write, told apart by its code.  An exception
   of the writer closes the endpoint silently. -/
theorem Armed.completeSending
    [IMessageWriter P TX]
    (hArmed : ep.Armed)
    (ec : ErrorCode)
    (bytes : Nat) :
    match ec with
    | .success =>
        (ep.completeSending ec bytes).Armed ∨
          (ep.completeSending ec bytes).Closed 0
    | _ => (ep.completeSending ec bytes).Closed 1 := by
  have hAlive := hArmed.alive
  cases ec with
  | eof =>
      simp only [EndpointBase.completeSending, hAlive,
        Bool.false_eq_true, if_false]
      exact hArmed.close_eof
  | operationAborted =>
      simp only [EndpointBase.completeSending, hAlive,
        Bool.false_eq_true, if_false]
      exact hArmed.close_eof
  | other value =>
      simp only [EndpointBase.completeSending, hAlive,
        Bool.false_eq_true, if_false]
      exact hArmed.error (.other value)
  | success =>
      rcases completeSending_cases ep hAlive bytes with
        ⟨written, hWritten, hSent⟩
      have hNext := hWritten.toUndisturbed.armed hArmed
      rcases hSent with hOpen | hClosed
      · rw [hOpen]
        exact Or.inl hNext
      · rw [hClosed]
        exact Or.inr hNext.close

/- The answer is given when the bytes have arrived. -/
theorem answer_eq
    [IMessageReader P σ]
    (ep : EndpointBase P TX σ)
    (bytes : List UInt8) :
    ep.answer bytes =
      (IMessageReader.checkForMessage
        (ep.arrived bytes).protocol
        ((ep.arrived bytes).readBuffer.markSpaceUsed
          bytes.length).getDataBuffers
        (ep.arrived bytes).world).result := by
  unfold answer arrived
  cases ep.reads <;> rfl

/-
  What one event makes of an armed endpoint.  A report closes
  it and notifies one handler, unless it is the error of a
  read; any other event notifies nobody.
-/
theorem Armed.step
    [IMessageReader P σ]
    [IMessageWriter P TX]
    (hArmed : ep.Armed)
    (event : Event TX) :
    (ReadFails event → (ep.step event).Closed 0) ∧
      (ep.Reports event → ¬ ReadFails event →
        (ep.step event).Closed 1) ∧
      (¬ ep.Reports event →
        (ep.step event).Armed ∨
          (ep.step event).Closed 0) := by
  cases event with
  | readCompletes ec bytes =>
      have hSame := (ep.arrived_untouched bytes).toUndisturbed
      have hRead := (hSame.armed hArmed).completeReading ec
        bytes.length
      simp only [EndpointBase.step, readCompletes_eq]
      cases ec with
      | eof =>
          refine ⟨fun hFails => hFails.elim,
            fun _ _ => hRead, fun hNot => ?_⟩
          exact absurd trivial hNot
      | operationAborted =>
          refine ⟨fun hFails => hFails.elim,
            fun _ _ => hRead, fun hNot => ?_⟩
          exact absurd trivial hNot
      | other value =>
          refine ⟨fun _ => hRead, fun _ hNot => ?_,
            fun hNot => ?_⟩
          · exact absurd trivial hNot
          · exact absurd trivial hNot
      | success =>
          simp only [Reports, answer_eq]
          simp only at hRead
          refine ⟨fun hFails => hFails.elim, ?_, ?_⟩
          · rintro ⟨thrown, hThrown⟩ -
            rwa [hThrown] at hRead
          · intro hNot
            left
            split at hRead
            · exact hRead
            · rename_i thrown hThrown
              exact absurd ⟨thrown, hThrown⟩ hNot
  | writeCompletes ec bytes =>
      have hSame :
          Undisturbed { ep with writes := ep.writes.drop 1 }
            ep :=
        ⟨rfl, rfl, rfl, rfl, rfl⟩
      have hWrite := (hSame.armed hArmed).completeSending ec
        bytes
      refine ⟨fun hFails => hFails.elim, ?_, ?_⟩
      · intro hReports _
        cases ec with
        | success => exact hReports.elim
        | eof => exact hWrite
        | operationAborted => exact hWrite
        | other value => exact hWrite
      · intro hNot
        cases ec with
        | success => exact hWrite
        | eof => exact absurd trivial hNot
        | operationAborted => exact absurd trivial hNot
        | other value => exact absurd trivial hNot
  | runSending =>
      refine ⟨fun hFails => hFails.elim,
        fun hReports => hReports.elim, fun _ => Or.inl ?_⟩
      exact ep.runSending_untouched.toUndisturbed.armed hArmed
  | runReading =>
      refine ⟨fun hFails => hFails.elim,
        fun hReports => hReports.elim, fun _ => Or.inl ?_⟩
      exact ep.runReading_untouched.toUndisturbed.armed hArmed
  | close =>
      refine ⟨fun hFails => hFails.elim,
        fun hReports => hReports.elim, fun _ => Or.inr ?_⟩
      exact hArmed.close
  | send s =>
      refine ⟨fun hFails => hFails.elim,
        fun hReports => hReports.elim, fun _ => Or.inl ?_⟩
      exact (ep.send_untouched s).toUndisturbed.armed hArmed

end Completions

------------------------------------------------------------
-- Runs
------------------------------------------------------------

section Runs

variable [IMessageReader P σ] [IMessageWriter P TX]
variable {ep : EndpointBase P TX σ}

/- Along a run an armed endpoint stays armed until it is
   dead. -/
theorem Armed.run
    (hArmed : ep.Armed)
    (events : List (Event TX)) :
    (ep.run events).Armed ∨
      (ep.run events).state.dead = true := by
  induction events generalizing ep with
  | nil => exact Or.inl hArmed
  | cons event events ih =>
      rcases hArmed.step event with
        ⟨hFails, hReports, hOther⟩
      rw [run_cons]
      by_cases hRead : ReadFails event
      · exact Or.inr (run_of_dead (hFails hRead).dead events).1
      · by_cases hReport : ep.Reports event
        · exact Or.inr
            (run_of_dead (hReports hReport hRead).dead
              events).1
        · rcases hOther hReport with hNext | hClosed
          · exact ih hNext
          · exact Or.inr (run_of_dead hClosed.dead events).1

theorem Closed.run
    {count : Nat}
    (hClosed : ep.Closed count)
    (events : List (Event TX)) :
    (ep.run events).Closed count := by
  rcases run_of_dead hClosed.dead events with ⟨hDead, hSame⟩
  exact
    { dead := hDead
      notified_length := by
        rw [hSame]
        exact hClosed.notified_length }

/-
  Exactly one handler is invoked, once and for ever, for
  exactly the reports that are not the error of a read.
-/
theorem notifiedOnce_iff
    (hArmed : ep.Armed)
    (front : List (Event TX))
    {event : Event TX}
    (hRunning : (ep.run front).state.isRunning = true)
    (hReports : (ep.run front).Reports event)
    (back : List (Event TX)) :
    (∀ later, later <+: back →
      (ep.run (front ++ event :: later)).notified.length = 1)
      ↔ ¬ ReadFails event := by
  have hStill : (ep.run front).Armed := by
    rcases hArmed.run front with hStill | hDead
    · exact hStill
    · rw [isRunning_of_dead hDead] at hRunning
      cases hRunning
  rcases hStill.step event with ⟨hFails, hReported, -⟩
  have hSplit :
      ∀ later, ep.run (front ++ event :: later) =
        ((ep.run front).step event).run later := by
    intro later
    rw [run_append, run_cons]
  constructor
  · intro hOnce hRead
    have hNow := hOnce [] List.nil_prefix
    have hNone :=
      ((hFails hRead).run []).notified_length
    rw [hSplit, hNone] at hNow
    cases hNow
  · intro hRead later _
    rw [hSplit]
    exact ((hReported hReports hRead).run later).notified_length

end Runs

/- A running endpoint whose three handlers do nothing. -/
def watchedEndpoint :
    EndpointBase (ProtoMessageEndpoint Unit) ShortBody Unit :=
  { SendRun.settledEndpoint .little 16 with
    onEof := some (fun _ world => (.ok (), world))
    onError := some (fun _ world => (.ok (), world))
    onProtoError := some (fun _ world => (.ok (), world)) }

theorem armed_watchedEndpoint : watchedEndpoint.Armed where
  isRunning := rfl
  onEof_set := rfl
  onError_set := rfl
  onProtoError_set := rfl
  notified_eq := rfl

theorem notifiedOnce_iff_write_error :
    (∀ later,
      later <+: [.readCompletes .operationAborted []] →
        (watchedEndpoint.run
          ([] ++ .writeCompletes (.other 32) 0 :: later)
            ).notified.length = 1) ↔
      ¬ ReadFails
        (.writeCompletes (.other 32) 0 : Event ShortBody) :=
  notifiedOnce_iff armed_watchedEndpoint [] rfl
    (by trivial) _

/- The peer resets the connection while a read waits: the
   state is closed, but no handler is invoked. -/
theorem not_notified_of_reset :
    watchedEndpoint.Armed ∧
      watchedEndpoint.Reports
        (.readCompletes (.other 104) []) ∧
      (watchedEndpoint.run
        [.readCompletes (.other 104) []]).state.dead = true ∧
      ¬ (watchedEndpoint.run
        [.readCompletes (.other 104) []]).notified.length = 1
      := by
  refine ⟨armed_watchedEndpoint, trivial, rfl, ?_⟩
  intro hOne
  cases hOne

end EndpointBase

end OefCore
