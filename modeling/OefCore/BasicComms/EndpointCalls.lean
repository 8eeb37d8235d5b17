import OefCore.BasicComms.EndpointBase
import OefCore.Library.Interleaving

/-
  The functions of `EndpointBase` piece by piece: what one
  thread does between two points where another one may come
  in.

  A section under `mutex` is one piece, apart from the one of
  `run_sending`, which runs `create_messages` on the way.

  Main declarations:
    * `SendingPiece`, `ReadingPiece`, `ClosingPiece`,
      `StartingPiece`, `EndpointCall`
    * `EndpointBase.program`
    * `EndpointBase.exists_run_event`: without interruption
      the pieces are the functions
-/

------------------------------------------------------------
-- Pieces
------------------------------------------------------------

namespace OefCore

/- Who calls `create_messages`; what `run_sending` throws is
   caught only where `complete_sending` calls it. -/
inductive CreateSite where
  | runSending (caught : Bool)
  | completeSending
  deriving DecidableEq, Repr

/- How far `create_messages` is. -/
inductive CreatePhase where
  | getSpaceBuffers
  | checkForSpace (space : List MutableBuffer)
  | markSpaceUsed (consumed : Nat)
  deriving DecidableEq, Repr

/- `run_sending` and `complete_sending`. -/
inductive SendingPiece where
  | runSending (caught : Bool)
  | createMessages (site : CreateSite) (phase : CreatePhase)
  | checkData
  | asyncWrite
  | completeSending (ec : ErrorCode) (bytes : Nat)
  | markDataUsed (bytes : Nat)
  | clearSending
  deriving DecidableEq, Repr

/- `run_reading` and `complete_reading`. -/
inductive ReadingPiece where
  | runReading
  | asyncRead (needed : Nat)
  | completeReading (ec : ErrorCode) (bytes : Nat)
  | markSpaceUsed (bytes : Nat)
  | checkForMessage
  | markDataUsed (consumed needed : Nat)
  | setNeeded (needed : Nat)
  | clearReading
  deriving DecidableEq, Repr

/- `close`, and `eof`, `error` and `proto_error`, which tell
   whom they are about; one call of `error` is followed by
   `close`. -/
inductive ClosingPiece (σ : Type) where
  | close
  | notice (about : CloseNotice) (andClose : Bool)
  | shut (about : CloseNotice) (andClose : Bool)
  | notify
      (about : CloseNotice)
      (handler : Option (Callback σ Unit))
      (andClose : Bool)

/- `go`. -/
inductive StartingPiece where
  | onStart
  | fail
  | running
  | needOne
  deriving DecidableEq, Repr

inductive EndpointCall (σ : Type) where
  | sending (call : SendingPiece)
  | reading (call : ReadingPiece)
  | closing (call : ClosingPiece σ)
  | starting (call : StartingPiece)

namespace CreateSite

variable {σ : Type}

/- Where it goes on behind `create_messages`. -/
def returned : CreateSite → SendingPiece
  | .runSending _ => .checkData
  | .completeSending => .clearSending

/- A handler that catches everything closes the endpoint. -/
def thrown : CreateSite → Option (EndpointCall σ)
  | .runSending true => some (.closing .close)
  | .runSending false => none
  | .completeSending => some (.closing .close)

end CreateSite

section Pieces

variable {P TX σ : Type}

namespace CreatePhase

open EndpointBase

def next
    [IMessageWriter P TX]
    (ep : EndpointBase P TX σ)
    (site : CreateSite) :
    CreatePhase →
      EndpointBase P TX σ × Option (EndpointCall σ)
  | .getSpaceBuffers =>
      (ep,
        some (.sending (.createMessages site
          (.checkForSpace ep.sendBuffer.getSpaceBuffers))))
  | .checkForSpace space =>
      let checked := IMessageWriter.checkForSpace ep.protocol
        space ep.sendBuffer.store ep.txq
      let ep :=
        { ep with
          sendBuffer := ep.sendBuffer.withStore checked.mem
          txq := checked.txq
          wakes := ep.wakes + checked.wakes }
      match checked.result with
      | .error _ => (ep, site.thrown)
      | .ok (consumed, _) =>
          (ep,
            some (.sending (.createMessages site
              (.markSpaceUsed consumed))))
  | .markSpaceUsed consumed =>
      ({ ep with
          sendBuffer := ep.sendBuffer.markSpaceUsed consumed },
        some (.sending site.returned))

end CreatePhase

namespace SendingPiece

def next
    [IMessageWriter P TX]
    (ep : EndpointBase P TX σ) :
    SendingPiece →
      EndpointBase P TX σ × Option (EndpointCall σ)
  | .runSending caught =>
      if ep.asioSending || !ep.state.isRunning then
        (ep, none)
      else if ep.sendBuffer.getDataAvailable = 0 then
        (ep,
          some (.sending (.createMessages (.runSending caught)
            .getSpaceBuffers)))
      else
        (ep, some (.sending .checkData))
  | .createMessages site phase => phase.next ep site
  | .checkData =>
      if ep.sendBuffer.getDataAvailable = 0 then
        (ep, none)
      else
        ({ ep with asioSending := true },
          some (.sending .asyncWrite))
  | .asyncWrite => (ep.asyncWrite, none)
  | .completeSending ec bytes =>
      if ep.state.dead then
        (ep, none)
      else
        match ec with
        | .eof | .operationAborted =>
            (ep.close, some (.closing (.notice .eof false)))
        | .other value =>
            (ep,
              some (.closing
                (.notice (.error (.other value)) false)))
        | .success =>
            (ep, some (.sending (.markDataUsed bytes)))
  | .markDataUsed bytes =>
      ({ ep with
          sendBuffer := ep.sendBuffer.markDataUsed bytes },
        some (.sending (.createMessages .completeSending
          .getSpaceBuffers)))
  | .clearSending =>
      ({ ep with asioSending := false },
        some (.sending (.runSending true)))

end SendingPiece

namespace ReadingPiece

def next
    [IMessageReader P σ]
    (ep : EndpointBase P TX σ) :
    ReadingPiece →
      EndpointBase P TX σ × Option (EndpointCall σ)
  | .runReading =>
      if ep.asioReading || !ep.state.isRunning then
        (ep, none)
      else if ep.readNeeded = 0 then
        (ep, none)
      else
        ({ ep with readNeeded := 0, asioReading := true },
          some (.reading (.asyncRead
            (min ep.readNeeded ep.readBuffer.getFreeSpace))))
  | .asyncRead needed =>
      if needed = 0 then
        (ep, none)
      else
        (ep.asyncRead needed, none)
  | .completeReading ec bytes =>
      if ep.state.dead then
        (ep, none)
      else
        match ec with
        | .eof | .operationAborted =>
            (ep.close, some (.closing (.notice .eof false)))
        | .other value =>
            ({ ep with state := { ep.state with errored := true } },
              some (.closing
                (.notice (.error (.other value)) true)))
        | .success =>
            (ep, some (.reading (.markSpaceUsed bytes)))
  | .markSpaceUsed bytes =>
      ({ ep with
          readBuffer := ep.readBuffer.markSpaceUsed bytes },
        some (.reading .checkForMessage))
  | .checkForMessage =>
      let checked := IMessageReader.checkForMessage
        ep.protocol ep.readBuffer.getDataBuffers ep.world
      let ep :=
        { ep with
          protocol := checked.protocol
          world := checked.world }
      match checked.result with
      | .error thrown =>
          (ep,
            some (.closing
              (.notice
                (.protoError
                  (EndpointBase.protoErrorMessage thrown))
                false)))
      | .ok (consumed, needed) =>
          (ep, some (.reading (.markDataUsed consumed needed)))
  | .markDataUsed consumed needed =>
      ({ ep with
          readBuffer := ep.readBuffer.markDataUsed consumed },
        some (.reading (.setNeeded needed)))
  | .setNeeded needed =>
      ({ ep with readNeeded := needed },
        some (.reading .clearReading))
  | .clearReading =>
      ({ ep with asioReading := false },
        some (.reading .runReading))

end ReadingPiece

namespace ClosingPiece

/- The bit of the state that a notice tests, and sets. -/
def shutState
    (state : EndpointState) : CloseNotice → EndpointState
  | .eof => { state with eof := true, closed := true }
  | .error _ => { state with errored := true, closed := true }
  | .protoError _ =>
      { state with errored := true, closed := true }

def alreadyShut
    (state : EndpointState) : CloseNotice → Bool
  | .eof => state.eof
  | .error _ => state.errored
  | .protoError _ => state.errored

/- The copy of the handler, with what it is called on. -/
def handlerOf
    (ep : EndpointBase P TX σ) :
    CloseNotice → Option (Callback σ Unit)
  | .eof => ep.onEof
  | .error ec => ep.onError.map fun handler _ => handler ec
  | .protoError message =>
      ep.onProtoError.map fun handler _ => handler message

/- Where it goes on when the handler is done. -/
def afterwards (andClose : Bool) : Option (EndpointCall σ) :=
  if andClose then
    some (.closing .close)
  else
    none

def next
    (ep : EndpointBase P TX σ) :
    ClosingPiece σ →
      EndpointBase P TX σ × Option (EndpointCall σ)
  | .close => (ep.close, none)
  | .notice about andClose =>
      if alreadyShut ep.state about then
        (ep, afterwards andClose)
      else
        (ep, some (.closing (.shut about andClose)))
  | .shut about andClose =>
      ({ ep with
          state := shutState ep.state about }.clearHandlers,
        some (.closing
          (.notify about (handlerOf ep about) andClose)))
  | .notify about handler andClose =>
      (ep.notify handler () about, afterwards andClose)

end ClosingPiece

namespace StartingPiece

def next
    (ep : EndpointBase P TX σ) :
    StartingPiece →
      EndpointBase P TX σ × Option (EndpointCall σ)
  | .onStart =>
      match ep.onStart with
      | none => (ep, some (.starting .running))
      | some myStart =>
          match myStart () ep.world with
          | (.ok _, world) =>
              ({ ep with onStart := none, world := world },
                some (.starting .running))
          | (.error _, world) =>
              ({ ep with onStart := none, world := world },
                some (.starting .fail))
  | .fail =>
      ({ ep with
          state :=
            { ep.state with errored := true, closed := true } },
        some (.starting .running))
  | .running =>
      ({ ep with state := { ep.state with running := true } },
        some (.starting .needOne))
  | .needOne =>
      ({ ep with readNeeded := ep.readNeeded + 1 },
        some (.reading .runReading))

end StartingPiece

end Pieces

------------------------------------------------------------
-- Calls
------------------------------------------------------------

namespace EndpointCall

variable {P TX σ : Type}

def next
    [IMessageReader P σ]
    [IMessageWriter P TX]
    (ep : EndpointBase P TX σ) :
    EndpointCall σ →
      EndpointBase P TX σ × Option (EndpointCall σ)
  | .sending call => call.next ep
  | .reading call => call.next ep
  | .closing call => call.next ep
  | .starting call => call.next ep

/- The pieces that begin with `Lock lock(mutex)`. -/
def needsLock : EndpointCall σ → Bool
  | .sending (.runSending _) => true
  | .sending .clearSending => true
  | .reading .runReading => true
  | .reading (.setNeeded _) => true
  | .reading .clearReading => true
  | .closing .close => true
  | .closing (.shut _ _) => true
  | .starting .fail => true
  | .starting .needOne => true
  | _ => false

/- The pieces inside the section of `run_sending`. -/
def inLock : EndpointCall σ → Bool
  | .sending (.createMessages (.runSending _) _) => true
  | .sending .checkData => true
  | _ => false

/- `create_messages` is being executed. -/
def creates : EndpointCall σ → Bool
  | .sending (.createMessages _ _) => true
  | _ => false

/- The pieces between `asio_sending` being set and
   `async_write`, and from the completion on until it is
   cleared. -/
def sends : EndpointCall σ → Bool
  | .sending .asyncWrite => true
  | .sending (.completeSending _ _) => true
  | .sending (.markDataUsed _) => true
  | .sending (.createMessages .completeSending _) => true
  | .sending .clearSending => true
  | _ => false

/- The same for `asio_reading` and `async_read`. -/
def reads : EndpointCall σ → Bool
  | .reading .runReading => false
  | .reading _ => true
  | _ => false

end EndpointCall

/- What threads do with an endpoint, and asio. -/
inductive EndpointAction (TX : Type) where
  | event (e : EndpointBase.Event TX)
  | go

namespace EndpointBase

variable {P TX σ : Type}

/- How a call begins; nothing completes that is not
   outstanding. -/
def enter
    (ep : EndpointBase P TX σ) :
    EndpointAction TX →
      Option (EndpointBase P TX σ × Option (EndpointCall σ))
  | .event (.readCompletes ec bytes) =>
      match ep.reads with
      | [] => none
      | op :: reads =>
          some
            ({ ep with
                reads := reads
                readBuffer := ep.readBuffer.withStore
                  (Memory.fill ep.readBuffer.store
                    (addresses op.space) bytes) },
              some (.reading (.completeReading ec bytes.length)))
  | .event (.writeCompletes ec bytes) =>
      match ep.writes with
      | [] => none
      | _ :: writes =>
          some
            ({ ep with writes := writes },
              some (.sending (.completeSending ec bytes)))
  | .event .runSending =>
      some (ep, some (.sending (.runSending false)))
  | .event .runReading =>
      some (ep, some (.reading .runReading))
  | .event .close => some (ep, some (.closing .close))
  | .event (.send s) => some ((ep.send s).2, none)
  | .go => some (ep, some (.starting .onStart))

/- A completion takes what is outstanding; any other call
   begins without the lock and without a flag. -/
theorem enter_cases
    {ep ep' : EndpointBase P TX σ}
    {action : EndpointAction TX}
    {call : Option (EndpointCall σ)}
    (hEnter : ep.enter action = some (ep', call)) :
    (∃ ec bytes op reads,
      ep.reads = op :: reads ∧
        ep' =
          { ep with
            reads := reads
            readBuffer := ep.readBuffer.withStore
              (Memory.fill ep.readBuffer.store
                (addresses op.space) bytes) } ∧
          call =
            some (.reading (.completeReading ec
              bytes.length))) ∨
      (∃ ec bytes data writes,
        ep.writes = data :: writes ∧
          ep' = { ep with writes := writes } ∧
            call =
              some (.sending (.completeSending ec bytes))) ∨
        (ep' = ep ∨ ∃ s, ep' = (ep.send s).2) ∧
          call.any EndpointCall.inLock = false ∧
            call.any EndpointCall.sends = false ∧
              call.any EndpointCall.reads = false := by
  cases action with
  | go =>
      cases hEnter
      exact .inr (.inr ⟨.inl rfl, rfl, rfl, rfl⟩)
  | event e =>
      cases e with
      | readCompletes ec bytes =>
          unfold enter at hEnter
          cases hReads : ep.reads with
          | nil => simp [hReads] at hEnter
          | cons op reads =>
              simp only [hReads, Option.some.injEq,
                Prod.mk.injEq] at hEnter
              rcases hEnter with ⟨rfl, rfl⟩
              exact .inl ⟨ec, bytes, op, reads, rfl, rfl, rfl⟩
      | writeCompletes ec bytes =>
          unfold enter at hEnter
          cases hWrites : ep.writes with
          | nil => simp [hWrites] at hEnter
          | cons data writes =>
              simp only [hWrites, Option.some.injEq,
                Prod.mk.injEq] at hEnter
              rcases hEnter with ⟨rfl, rfl⟩
              exact .inr (.inl
                ⟨ec, bytes, data, writes, rfl, rfl, rfl⟩)
      | runSending | runReading | close =>
          cases hEnter
          exact .inr (.inr ⟨.inl rfl, rfl, rfl, rfl⟩)
      | send s =>
          cases hEnter
          exact .inr (.inr ⟨.inr ⟨s, rfl⟩, rfl, rfl, rfl⟩)

theorem enter_outside
    {ep ep' : EndpointBase P TX σ}
    {action : EndpointAction TX}
    {call : Option (EndpointCall σ)}
    (hEnter : ep.enter action = some (ep', call)) :
    call.any EndpointCall.inLock = false := by
  rcases enter_cases hEnter with
    ⟨ec, bytes, op, reads, -, -, rfl⟩ |
    ⟨ec, bytes, data, writes, -, -, rfl⟩ | ⟨-, hOut, -, -⟩
  · rfl
  · rfl
  · exact hOut

end EndpointBase

------------------------------------------------------------
-- Where Calls Go On
------------------------------------------------------------

section GoingOn

variable {P TX σ : Type}

/- A call that closes goes on with nothing but that. -/
theorem ClosingPiece.next_role
    (ep : EndpointBase P TX σ)
    (c : ClosingPiece σ) :
    (c.next ep).2.any EndpointCall.inLock = false ∧
      (c.next ep).2.any EndpointCall.sends = false ∧
        (c.next ep).2.any EndpointCall.reads = false := by
  cases c with
  | close => exact ⟨rfl, rfl, rfl⟩
  | notice about andClose =>
      simp only [ClosingPiece.next]
      split
      · cases andClose with
        | true => exact ⟨rfl, rfl, rfl⟩
        | false => exact ⟨rfl, rfl, rfl⟩
      · exact ⟨rfl, rfl, rfl⟩
  | shut about andClose => exact ⟨rfl, rfl, rfl⟩
  | notify about handler andClose =>
      cases andClose with
      | true => exact ⟨rfl, rfl, rfl⟩
      | false => exact ⟨rfl, rfl, rfl⟩

/- `go` ends in `run_reading`. -/
theorem StartingPiece.next_role
    (ep : EndpointBase P TX σ)
    (c : StartingPiece) :
    (c.next ep).2.any EndpointCall.inLock = false ∧
      (c.next ep).2.any EndpointCall.sends = false ∧
        (c.next ep).2.any EndpointCall.reads = false := by
  cases c with
  | onStart =>
      simp only [StartingPiece.next]
      split
      · exact ⟨rfl, rfl, rfl⟩
      · split
        · exact ⟨rfl, rfl, rfl⟩
        · exact ⟨rfl, rfl, rfl⟩
  | fail | running | needOne => exact ⟨rfl, rfl, rfl⟩

/- Nothing that reads goes on to send. -/
theorem ReadingPiece.next_role
    [IMessageReader P σ]
    (ep : EndpointBase P TX σ)
    (c : ReadingPiece) :
    (c.next ep).2.any EndpointCall.inLock = false ∧
      (c.next ep).2.any EndpointCall.sends = false := by
  cases c with
  | runReading =>
      simp only [ReadingPiece.next]
      split
      · exact ⟨rfl, rfl⟩
      · split
        · exact ⟨rfl, rfl⟩
        · exact ⟨rfl, rfl⟩
  | asyncRead needed =>
      simp only [ReadingPiece.next]
      split
      · exact ⟨rfl, rfl⟩
      · exact ⟨rfl, rfl⟩
  | completeReading ec bytes =>
      simp only [ReadingPiece.next]
      split
      · exact ⟨rfl, rfl⟩
      · cases ec with
        | eof | operationAborted | other value | success =>
            exact ⟨rfl, rfl⟩
  | checkForMessage =>
      simp only [ReadingPiece.next]
      split
      · exact ⟨rfl, rfl⟩
      · exact ⟨rfl, rfl⟩
  | markSpaceUsed bytes => exact ⟨rfl, rfl⟩
  | markDataUsed consumed needed => exact ⟨rfl, rfl⟩
  | setNeeded needed => exact ⟨rfl, rfl⟩
  | clearReading => exact ⟨rfl, rfl⟩

/- Nothing that sends goes on to read. -/
theorem SendingPiece.next_reads
    [IMessageWriter P TX]
    (ep : EndpointBase P TX σ)
    (c : SendingPiece) :
    (c.next ep).2.any (EndpointCall.reads (σ := σ)) =
      false := by
  cases c with
  | runSending caught =>
      simp only [SendingPiece.next]
      split
      · rfl
      · split
        · rfl
        · rfl
  | createMessages site phase =>
      cases phase with
      | getSpaceBuffers => rfl
      | checkForSpace space =>
          simp only [SendingPiece.next, CreatePhase.next]
          split
          · cases site with
            | runSending caught =>
                cases caught with
                | true => rfl
                | false => rfl
            | completeSending => rfl
          · rfl
      | markSpaceUsed consumed => rfl
  | checkData =>
      simp only [SendingPiece.next]
      split
      · rfl
      · rfl
  | asyncWrite => rfl
  | completeSending ec bytes =>
      simp only [SendingPiece.next]
      split
      · rfl
      · cases ec with
        | eof | operationAborted | other value | success =>
            rfl
  | markDataUsed bytes => rfl
  | clearSending => rfl

/- The section of `run_sending` is entered at its lock. -/
theorem SendingPiece.next_outside
    [IMessageWriter P TX]
    (ep : EndpointBase P TX σ)
    (c : SendingPiece)
    (hNeeds :
      (EndpointCall.sending c : EndpointCall σ).needsLock =
        false)
    (hOut :
      (EndpointCall.sending c : EndpointCall σ).inLock =
        false) :
    (c.next ep).2.any
      (EndpointCall.inLock (σ := σ)) = false := by
  cases c with
  | runSending caught => cases hNeeds
  | clearSending => cases hNeeds
  | checkData => cases hOut
  | createMessages site phase =>
      cases site with
      | runSending caught => cases hOut
      | completeSending =>
          cases phase with
          | getSpaceBuffers => rfl
          | checkForSpace space =>
              simp only [SendingPiece.next, CreatePhase.next]
              split
              · rfl
              · rfl
          | markSpaceUsed consumed => rfl
  | asyncWrite => rfl
  | completeSending ec bytes =>
      simp only [SendingPiece.next]
      split
      · rfl
      · cases ec with
        | eof | operationAborted | other value | success =>
            rfl
  | markDataUsed bytes => rfl

end GoingOn

namespace EndpointBase

/- An endpoint that threads share. -/
def program
    (P TX σ : Type)
    [IMessageReader P σ]
    [IMessageWriter P TX] :
    Program (EndpointAction TX) (EndpointCall σ)
      (EndpointBase P TX σ) where
  enter action ep := ep.enter action
  next c ep := c.next ep
  needsLock := EndpointCall.needsLock
  inLock := EndpointCall.inLock
  inLock_waits c hIn := by
    cases c with
    | sending call =>
        cases call with
        | createMessages site phase => rfl
        | checkData => rfl
        | runSending caught => cases hIn
        | asyncWrite => cases hIn
        | completeSending ec bytes => cases hIn
        | markDataUsed bytes => cases hIn
        | clearSending => cases hIn
    | reading call => cases hIn
    | closing call => cases hIn
    | starting call => cases hIn
  enter_outside := enter_outside
  next_outside c ep hNeeds hOut := by
    cases c with
    | sending call => exact call.next_outside ep hNeeds hOut
    | reading call => exact (call.next_role ep).1
    | closing call => exact (call.next_role ep).1
    | starting call => exact (call.next_role ep).1

------------------------------------------------------------
-- Calls Without a Break
------------------------------------------------------------

variable [IMessageReader P σ] [IMessageWriter P TX]

/- A call that is not interrupted leaves the endpoint so. -/
abbrev Finishes :
    EndpointBase P TX σ → Option (EndpointCall σ) →
      EndpointBase P TX σ → Prop :=
  (program P TX σ).Finishes

theorem finishes_close (ep : EndpointBase P TX σ) :
    Finishes ep (some (.closing .close)) ep.close :=
  .more (.done ep.close)

/- A notice is what `eof`, `error` and `proto_error` do. -/
def noticed
    (ep : EndpointBase P TX σ) :
    CloseNotice → EndpointBase P TX σ
  | .eof => ep.eof
  | .error ec => ep.error ec
  | .protoError message => ep.protoError message

theorem finishes_notice
    (ep : EndpointBase P TX σ)
    (about : CloseNotice)
    (andClose : Bool) :
    Finishes ep (some (.closing (.notice about andClose)))
      (if andClose then
        (ep.noticed about).close
      else
        ep.noticed about) := by
  have hAfterwards : ∀ last : EndpointBase P TX σ,
      Finishes last (ClosingPiece.afterwards andClose)
        (if andClose then last.close else last) := by
    intro last
    cases andClose with
    | true => exact finishes_close last
    | false => exact .done last
  apply Program.Finishes.more
  simp only [program, EndpointCall.next, ClosingPiece.next]
  by_cases hShut : ClosingPiece.alreadyShut ep.state about
  · rw [if_pos hShut]
    have hSame : ep.noticed about = ep := by
      cases about with
      | eof => exact if_pos hShut
      | error ec => exact if_pos hShut
      | protoError message => exact if_pos hShut
    rw [hSame]
    exact hAfterwards ep
  · rw [if_neg hShut]
    have hSame :
        ep.noticed about =
          { ep with
            state := ClosingPiece.shutState ep.state about
          }.clearHandlers.notify
            (ClosingPiece.handlerOf ep about) () about := by
      cases about with
      | eof => exact if_neg hShut
      | error ec =>
          refine (if_neg hShut).trans ?_
          cases hHandler : ep.onError with
          | none => simp [notify, hHandler,
              ClosingPiece.handlerOf, ClosingPiece.shutState]
          | some handler => simp [notify, hHandler,
              ClosingPiece.handlerOf, ClosingPiece.shutState]
      | protoError message =>
          refine (if_neg hShut).trans ?_
          cases hHandler : ep.onProtoError with
          | none => simp [notify, hHandler,
              ClosingPiece.handlerOf, ClosingPiece.shutState]
          | some handler => simp [notify, hHandler,
              ClosingPiece.handlerOf, ClosingPiece.shutState]
    rw [hSame]
    exact .more (.more (hAfterwards _))

/- `create_messages` on its way, and where it goes on. -/
theorem finishes_createMessages
    {ep last : EndpointBase P TX σ}
    (site : CreateSite)
    (hRest :
      match ep.createMessages with
      | (.error _, ep) => Finishes ep site.thrown last
      | (.ok _, ep) =>
          Finishes ep (some (.sending site.returned)) last) :
    Finishes ep
      (some (.sending (.createMessages site
        .getSpaceBuffers))) last := by
  apply Program.Finishes.more
  apply Program.Finishes.more
  simp only [program, EndpointCall.next, SendingPiece.next,
    CreatePhase.next]
  unfold createMessages at hRest
  cases hResult : (IMessageWriter.checkForSpace ep.protocol
      ep.sendBuffer.getSpaceBuffers ep.sendBuffer.store
      ep.txq).result with
  | error what =>
      simp only [hResult] at hRest ⊢
      exact hRest
  | ok counts =>
      simp only [hResult] at hRest ⊢
      exact .more hRest

/- What becomes of an exception of `run_sending`. -/
def caughtBy
    (caught : Bool) :
    Except String Unit × EndpointBase P TX σ →
      EndpointBase P TX σ
  | (.error _, ep) => if caught then ep.close else ep
  | (.ok _, ep) => ep

theorem finishes_runSending
    (ep : EndpointBase P TX σ)
    (caught : Bool) :
    Finishes ep (some (.sending (.runSending caught)))
      (caughtBy caught ep.runSending) := by
  have hCheck : ∀ ep : EndpointBase P TX σ,
      Finishes ep (some (.sending .checkData))
        (if ep.sendBuffer.getDataAvailable = 0 then
          ep
        else
          { ep with asioSending := true }.asyncWrite) := by
    intro ep
    apply Program.Finishes.more
    simp only [program, EndpointCall.next, SendingPiece.next]
    split
    · exact .done ep
    · exact .more (.done _)
  apply Program.Finishes.more
  simp only [program, EndpointCall.next, SendingPiece.next]
  unfold runSending
  by_cases hEarly : ep.asioSending || !ep.state.isRunning
  · simp only [if_pos hEarly]
    exact .done ep
  simp only [if_neg hEarly]
  by_cases hNone : ep.sendBuffer.getDataAvailable = 0
  · simp only [if_pos hNone]
    apply finishes_createMessages
    rcases ep.createMessages with ⟨result, created⟩
    cases result with
    | error what =>
        cases caught with
        | true => exact finishes_close created
        | false => exact .done created
    | ok _ =>
        simp only
        have hDone := hCheck created
        split at hDone
        · simp only [*, if_true]
          exact hDone
        · simp only [*, if_false]
          exact hDone
  · simp only [if_neg hNone]
    have hDone := hCheck ep
    rw [if_neg hNone] at hDone
    exact hDone

theorem finishes_completeSending
    (ep : EndpointBase P TX σ)
    (ec : ErrorCode)
    (bytes : Nat) :
    Finishes ep (some (.sending (.completeSending ec bytes)))
      (ep.completeSending ec bytes) := by
  apply Program.Finishes.more
  simp only [program, EndpointCall.next, SendingPiece.next]
  unfold completeSending
  by_cases hDead : ep.state.dead
  · simp only [if_pos hDead]
    exact .done ep
  simp only [if_neg hDead]
  cases ec with
  | eof | operationAborted =>
      exact finishes_notice ep.close .eof false
  | other value =>
      exact finishes_notice ep (.error (.other value)) false
  | success =>
      apply Program.Finishes.more
      apply finishes_createMessages
      generalize
        ({ ep with
            sendBuffer := ep.sendBuffer.markDataUsed bytes
          } : EndpointBase P TX σ).createMessages = created
      rcases created with ⟨result, created⟩
      cases result with
      | error what => exact finishes_close created
      | ok _ =>
          apply Program.Finishes.more
          have hRun := finishes_runSending
            { created with asioSending := false } true
          rcases hSent :
              ({ created with asioSending := false } :
                EndpointBase P TX σ).runSending with
            ⟨result, sent⟩
          rw [hSent] at hRun
          simp only [hSent]
          cases result with
          | error what => exact hRun
          | ok _ => exact hRun

theorem finishes_runReading
    (ep : EndpointBase P TX σ) :
    Finishes ep (some (.reading .runReading))
      ep.runReading := by
  apply Program.Finishes.more
  simp only [program, EndpointCall.next, ReadingPiece.next]
  unfold runReading
  split
  · exact .done ep
  · split
    · exact .done ep
    · apply Program.Finishes.more
      change Finishes _ (ReadingPiece.next _
        (.asyncRead _)).2 _
      simp only [ReadingPiece.next]
      split
      · exact .done _
      · exact .done _

theorem finishes_completeReading
    (ep : EndpointBase P TX σ)
    (ec : ErrorCode)
    (bytes : Nat) :
    Finishes ep (some (.reading (.completeReading ec bytes)))
      (ep.completeReading ec bytes) := by
  apply Program.Finishes.more
  simp only [program, EndpointCall.next, ReadingPiece.next]
  unfold completeReading
  by_cases hDead : ep.state.dead
  · simp only [if_pos hDead]
    exact .done ep
  simp only [if_neg hDead]
  cases ec with
  | eof | operationAborted =>
      exact finishes_notice ep.close .eof false
  | other value => exact finishes_notice _ _ true
  | success =>
      apply Program.Finishes.more
      apply Program.Finishes.more
      change Finishes
        (ReadingPiece.next _ .checkForMessage).1
        (ReadingPiece.next _ .checkForMessage).2 _
      simp only [ReadingPiece.next]
      cases hResult : (IMessageReader.checkForMessage
          ep.protocol
          (ep.readBuffer.markSpaceUsed bytes).getDataBuffers
          ep.world).result with
      | error thrown =>
          exact finishes_notice _ (.protoError _) false
      | ok counts =>
          apply Program.Finishes.more
          apply Program.Finishes.more
          apply Program.Finishes.more
          exact finishes_runReading _

theorem finishes_go
    (ep : EndpointBase P TX σ) :
    Finishes ep (some (.starting .onStart)) ep.go := by
  have hRunning : ∀ ep : EndpointBase P TX σ,
      Finishes ep (some (.starting .running))
        { ep with
          state := { ep.state with running := true }
          readNeeded := ep.readNeeded + 1 }.runReading :=
    fun ep => .more (.more (finishes_runReading _))
  apply Program.Finishes.more
  simp only [program, EndpointCall.next, StartingPiece.next]
  unfold go
  cases hStart : ep.onStart with
  | none => exact hRunning ep
  | some myStart =>
      simp only
      rcases myStart () ep.world with ⟨result, world⟩
      cases result with
      | error what => exact .more (hRunning _)
      | ok _ => exact hRunning _

/- What can begin, and is not interrupted, does what its
   function does. -/
theorem finishes_event
    {ep ep' : EndpointBase P TX σ}
    {event : Event TX}
    {call : Option (EndpointCall σ)}
    (hEnter : ep.enter (.event event) = some (ep', call)) :
    Finishes ep' call (ep.step event) := by
  cases event with
  | readCompletes ec bytes =>
      unfold enter at hEnter
      unfold step readCompletes
      cases hReads : ep.reads with
      | nil => simp [hReads] at hEnter
      | cons op reads =>
          simp only [hReads, Option.some.injEq,
            Prod.mk.injEq] at hEnter
          rw [← hEnter.1, ← hEnter.2]
          exact finishes_completeReading _ ec bytes.length
  | writeCompletes ec bytes =>
      unfold enter at hEnter
      unfold step writeCompletes
      cases hWrites : ep.writes with
      | nil => simp [hWrites] at hEnter
      | cons op writes =>
          simp only [hWrites, Option.some.injEq,
            Prod.mk.injEq] at hEnter
          rw [← hEnter.1, ← hEnter.2]
          exact finishes_completeSending _ ec bytes
  | runSending =>
      cases hEnter
      have hRun := finishes_runSending ep false
      unfold step
      generalize ep.runSending = sent at hRun ⊢
      rcases sent with ⟨result, sent⟩
      cases result with
      | error what => exact hRun
      | ok _ => exact hRun
  | runReading =>
      cases hEnter
      exact finishes_runReading ep
  | close =>
      cases hEnter
      exact finishes_close ep
  | send s =>
      cases hEnter
      exact .done _

/- The events of `step` are calls that are not interrupted. -/
theorem exists_run_event
    {ι : Type}
    [DecidableEq ι]
    {ep ep' : EndpointBase P TX σ}
    {event : Event TX}
    {call : Option (EndpointCall σ)}
    (hEnter : ep.enter (.event event) = some (ep', call))
    (i : ι) :
    ∃ count,
      (Interleaving.start ep).run (program P TX σ)
          (.begin i (.event event) ::
            List.replicate count (.resume i)) =
        Interleaving.start (ep.step event) := by
  have hBegin :
      (Interleaving.start ep).step (program P TX σ)
          (.begin i (.event event)) =
        { shared := ep'
          mutex := none
          calls := Function.update (fun _ => none) i call } := by
    simp [Interleaving.step, Interleaving.begin,
      Interleaving.start, program, hEnter]
  rcases Interleaving.exists_run_alone (p := program P TX σ)
      (s :=
        { shared := ep'
          mutex := none
          calls := Function.update (fun _ => none) i call })
      (i := i)
      (by simp)
      (by
        have hOutside := enter_outside hEnter
        simp [program, hOutside])
      (finishes_event hEnter) with
    ⟨count, hRun⟩
  refine ⟨count, ?_⟩
  change ((Interleaving.start ep).step _ _).run _ _ = _
  rw [hBegin, hRun]
  simp [Interleaving.start]

end EndpointBase

end OefCore
