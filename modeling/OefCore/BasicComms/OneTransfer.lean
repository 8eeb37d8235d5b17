import OefCore.BasicComms.EndpointCalls

/-
  However threads and completions take turns, an endpoint has
  one transfer in each direction at most, and what is being
  sent stays in place.

  Sending and reading are each under a permit: the flag, with
  the call that set it or that completes a transfer.

  Main declarations:
    * `permit_sending`, `permit_reading`
    * `Transferring`, `Transferring.run`, `Transferring.still`
    * `OneTransfer`, `one_transfer_per_direction`
-/

namespace OefCore

namespace EndpointBase

------------------------------------------------------------
-- What Pieces Leave Alone
------------------------------------------------------------

section Pieces

variable {P TX σ : Type}

/- What `run_sending` and `complete_sending` are about. -/
structure SameSending
    (before after : EndpointBase P TX σ) : Prop where
  asioSending_eq : after.asioSending = before.asioSending
  writes_eq : after.writes = before.writes
  sendBuffer_eq : after.sendBuffer = before.sendBuffer

/- What `run_reading` and `complete_reading` are about. -/
structure SameReading
    (before after : EndpointBase P TX σ) : Prop where
  asioReading_eq : after.asioReading = before.asioReading
  reads_eq : after.reads = before.reads

theorem same_send
    (ep : EndpointBase P TX σ)
    (s : TX) :
    SameSending ep (ep.send s).2 ∧
      SameReading ep (ep.send s).2 := by
  simp only [send]
  split
  · exact ⟨⟨rfl, rfl, rfl⟩, ⟨rfl, rfl⟩⟩
  · exact ⟨⟨rfl, rfl, rfl⟩, ⟨rfl, rfl⟩⟩

theorem same_closing
    (ep : EndpointBase P TX σ)
    (c : ClosingPiece σ) :
    SameSending ep (c.next ep).1 ∧
      SameReading ep (c.next ep).1 := by
  cases c with
  | close => exact ⟨⟨rfl, rfl, rfl⟩, ⟨rfl, rfl⟩⟩
  | notice about andClose =>
      simp only [ClosingPiece.next]
      split
      · exact ⟨⟨rfl, rfl, rfl⟩, ⟨rfl, rfl⟩⟩
      · exact ⟨⟨rfl, rfl, rfl⟩, ⟨rfl, rfl⟩⟩
  | shut about andClose =>
      exact ⟨⟨rfl, rfl, rfl⟩, ⟨rfl, rfl⟩⟩
  | notify about handler andClose =>
      cases handler with
      | none => exact ⟨⟨rfl, rfl, rfl⟩, ⟨rfl, rfl⟩⟩
      | some handler => exact ⟨⟨rfl, rfl, rfl⟩, ⟨rfl, rfl⟩⟩

theorem same_starting
    (ep : EndpointBase P TX σ)
    (c : StartingPiece) :
    SameSending ep (c.next ep).1 ∧
      SameReading ep (c.next ep).1 := by
  cases c with
  | onStart =>
      simp only [StartingPiece.next]
      split
      · exact ⟨⟨rfl, rfl, rfl⟩, ⟨rfl, rfl⟩⟩
      · split
        · exact ⟨⟨rfl, rfl, rfl⟩, ⟨rfl, rfl⟩⟩
        · exact ⟨⟨rfl, rfl, rfl⟩, ⟨rfl, rfl⟩⟩
  | fail | running | needOne =>
      exact ⟨⟨rfl, rfl, rfl⟩, ⟨rfl, rfl⟩⟩

theorem sameSending_reading
    [IMessageReader P σ]
    (ep : EndpointBase P TX σ)
    (c : ReadingPiece) :
    SameSending ep (c.next ep).1 := by
  cases c with
  | runReading =>
      simp only [ReadingPiece.next]
      split
      · exact ⟨rfl, rfl, rfl⟩
      · split
        · exact ⟨rfl, rfl, rfl⟩
        · exact ⟨rfl, rfl, rfl⟩
  | asyncRead needed =>
      simp only [ReadingPiece.next]
      split
      · exact ⟨rfl, rfl, rfl⟩
      · exact ⟨rfl, rfl, rfl⟩
  | completeReading ec bytes =>
      simp only [ReadingPiece.next]
      split
      · exact ⟨rfl, rfl, rfl⟩
      · cases ec with
        | eof | operationAborted | other value | success =>
            exact ⟨rfl, rfl, rfl⟩
  | checkForMessage =>
      simp only [ReadingPiece.next]
      split
      · exact ⟨rfl, rfl, rfl⟩
      · exact ⟨rfl, rfl, rfl⟩
  | markSpaceUsed bytes => exact ⟨rfl, rfl, rfl⟩
  | markDataUsed consumed needed => exact ⟨rfl, rfl, rfl⟩
  | setNeeded needed => exact ⟨rfl, rfl, rfl⟩
  | clearReading => exact ⟨rfl, rfl, rfl⟩

theorem sameReading_sending
    [IMessageWriter P TX]
    (ep : EndpointBase P TX σ)
    (c : SendingPiece) :
    SameReading ep (c.next (σ := σ) ep).1 := by
  cases c with
  | runSending caught =>
      simp only [SendingPiece.next]
      split
      · exact ⟨rfl, rfl⟩
      · split
        · exact ⟨rfl, rfl⟩
        · exact ⟨rfl, rfl⟩
  | createMessages site phase =>
      cases phase with
      | getSpaceBuffers => exact ⟨rfl, rfl⟩
      | checkForSpace space =>
          simp only [SendingPiece.next, CreatePhase.next]
          split
          · exact ⟨rfl, rfl⟩
          · exact ⟨rfl, rfl⟩
      | markSpaceUsed consumed => exact ⟨rfl, rfl⟩
  | checkData =>
      simp only [SendingPiece.next]
      split
      · exact ⟨rfl, rfl⟩
      · exact ⟨rfl, rfl⟩
  | asyncWrite => exact ⟨rfl, rfl⟩
  | completeSending ec bytes =>
      simp only [SendingPiece.next]
      split
      · exact ⟨rfl, rfl⟩
      · cases ec with
        | eof | operationAborted | other value | success =>
            exact ⟨rfl, rfl⟩
  | markDataUsed bytes => exact ⟨rfl, rfl⟩
  | clearSending => exact ⟨rfl, rfl⟩

theorem sending_or_same
    [IMessageReader P σ] [IMessageWriter P TX]
    (ep : EndpointBase P TX σ)
    (c : EndpointCall σ) :
    (∃ piece, c = .sending piece) ∨
      SameSending ep (c.next ep).1 := by
  cases c with
  | sending c => exact .inl ⟨c, rfl⟩
  | reading c => exact .inr (sameSending_reading ep c)
  | closing c => exact .inr (same_closing ep c).1
  | starting c => exact .inr (same_starting ep c).1

/- Outside its section and without the permit, a piece of
   `run_sending` does nothing to what is sent. -/
theorem still_sending
    [IMessageWriter P TX]
    (ep : EndpointBase P TX σ)
    (c : SendingPiece)
    (hOut :
      (EndpointCall.sending c : EndpointCall σ).inLock =
        false)
    (hNot :
      (EndpointCall.sending c : EndpointCall σ).sends =
        false) :
    (c.next (σ := σ) ep).1 = ep := by
  cases c with
  | runSending caught =>
      simp only [SendingPiece.next]
      split
      · rfl
      · split
        · rfl
        · rfl
  | createMessages site phase =>
      cases site with
      | runSending caught => cases hOut
      | completeSending => cases hNot
  | checkData => cases hOut
  | asyncWrite => cases hNot
  | completeSending ec bytes => cases hNot
  | markDataUsed bytes => cases hNot
  | clearSending => cases hNot

/- Writes are begun with `async_write` alone. -/
theorem writes_sending
    [IMessageWriter P TX]
    (ep : EndpointBase P TX σ)
    (c : SendingPiece) :
    (c.next (σ := σ) ep).1.writes = ep.writes ∨
      (c.next (σ := σ) ep).1 = ep.asyncWrite := by
  cases c with
  | runSending caught =>
      left
      simp only [SendingPiece.next]
      split
      · rfl
      · split
        · rfl
        · rfl
  | createMessages site phase =>
      left
      cases phase with
      | getSpaceBuffers => rfl
      | checkForSpace space =>
          simp only [SendingPiece.next, CreatePhase.next]
          split
          · rfl
          · rfl
      | markSpaceUsed consumed => rfl
  | checkData =>
      left
      simp only [SendingPiece.next]
      split
      · rfl
      · rfl
  | asyncWrite => exact .inr rfl
  | completeSending ec bytes =>
      left
      simp only [SendingPiece.next]
      split
      · rfl
      · cases ec with
        | eof | operationAborted | other value | success =>
            rfl
  | markDataUsed bytes => exact .inl rfl
  | clearSending => exact .inl rfl

------------------------------------------------------------
-- The Permits
------------------------------------------------------------

/- Under the lock the flag is clear, so that one who sets it
   is alone. -/
theorem permit_sending
    [IMessageWriter P TX]
    (ep : EndpointBase P TX σ)
    (c : SendingPiece)
    (hGuard :
      (EndpointCall.sending c : EndpointCall σ).inLock = true →
        ep.asioSending = false) :
    Permit.Turn ep.asioSending
      (EndpointCall.sending c : EndpointCall σ).sends
      ep.writes.length
      (c.next (σ := σ) ep).1.asioSending
      ((c.next ep).2.any (EndpointCall.sends (σ := σ)))
      (c.next (σ := σ) ep).1.writes.length := by
  cases c with
  | runSending caught =>
      simp only [SendingPiece.next]
      split
      · exact .stay _ _ _
      · split
        · exact .stay _ _ _
        · exact .stay _ _ _
  | createMessages site phase =>
      cases phase with
      | getSpaceBuffers =>
          cases site with
          | runSending caught => exact .stay _ _ _
          | completeSending => exact .stay _ _ _
      | checkForSpace space =>
          simp only [SendingPiece.next, CreatePhase.next]
          split
          · cases site with
            | runSending caught =>
                cases caught with
                | true => exact .stay _ _ _
                | false => exact .stay _ _ _
            | completeSending => exact .drop _ _
          · cases site with
            | runSending caught => exact .stay _ _ _
            | completeSending => exact .stay _ _ _
      | markSpaceUsed consumed =>
          cases site with
          | runSending caught => exact .stay _ _ _
          | completeSending => exact .stay _ _ _
  | checkData =>
      simp only [SendingPiece.next]
      split
      · exact .stay _ _ _
      · rw [hGuard rfl]
        exact .take _
  | asyncWrite =>
      have hLength : ep.asyncWrite.writes.length =
          ep.writes.length + 1 := by
        simp [asyncWrite]
      simp only [SendingPiece.next, hLength]
      exact .start _ _
  | completeSending ec bytes =>
      simp only [SendingPiece.next]
      split
      · exact .drop _ _
      · cases ec with
        | eof | operationAborted => exact .drop _ _
        | other value => exact .drop _ _
        | success => exact .stay _ _ _
  | markDataUsed bytes => exact .stay _ _ _
  | clearSending => exact .release _ _

theorem permit_reading
    [IMessageReader P σ]
    (ep : EndpointBase P TX σ)
    (c : ReadingPiece) :
    Permit.Turn ep.asioReading
      (EndpointCall.reading c : EndpointCall σ).reads
      ep.reads.length
      (c.next ep).1.asioReading
      ((c.next ep).2.any (EndpointCall.reads (σ := σ)))
      (c.next ep).1.reads.length := by
  cases c with
  | runReading =>
      simp only [ReadingPiece.next]
      split
      · exact .stay _ _ _
      · rename_i hFree
        split
        · exact .stay _ _ _
        · have hClear : ep.asioReading = false := by
            simp only [Bool.or_eq_true, not_or] at hFree
            exact Bool.eq_false_iff.mpr hFree.1
          rw [hClear]
          exact .take _
  | asyncRead needed =>
      simp only [ReadingPiece.next]
      split
      · exact .drop _ _
      · have hLength : (ep.asyncRead needed).reads.length =
            ep.reads.length + 1 := by
          simp [EndpointBase.asyncRead]
        simp only [hLength]
        exact .start _ _
  | completeReading ec bytes =>
      simp only [ReadingPiece.next]
      split
      · exact .drop _ _
      · cases ec with
        | eof | operationAborted => exact .drop _ _
        | other value => exact .drop _ _
        | success => exact .stay _ _ _
  | markSpaceUsed bytes => exact .stay _ _ _
  | checkForMessage =>
      simp only [ReadingPiece.next]
      split
      · exact .drop _ _
      · exact .stay _ _ _
  | markDataUsed consumed needed => exact .stay _ _ _
  | setNeeded needed => exact .stay _ _ _
  | clearReading => exact .release _ _

end Pieces

------------------------------------------------------------
-- All Interleavings
------------------------------------------------------------

section Interleavings

variable {ι P TX σ : Type} [DecidableEq ι]
variable [IMessageReader P σ] [IMessageWriter P TX]

/- An endpoint that nothing was asked of asio for yet. -/
def unused (ep : EndpointBase P TX σ) : EndpointBase P TX σ :=
  { ep with
    asioSending := false
    asioReading := false
    reads := []
    writes := [] }

/- Threads and completions on one endpoint. -/
abbrev Threads (ι P TX σ : Type) :=
  Interleaving ι (EndpointCall σ) (EndpointBase P TX σ)

/- What the flags allow is what there is. -/
structure Transferring
    (s : Threads ι P TX σ) : Prop where
  guarded :
    Interleaving.Guarded (program P TX σ)
      (fun ep => ep.asioSending = false) s
  sending :
    Permit.Sound s.shared.asioSending
      (fun i => (s.calls i).any EndpointCall.sends)
      s.shared.writes.length
  reading :
    Permit.Sound s.shared.asioReading
      (fun i => (s.calls i).any EndpointCall.reads)
      s.shared.reads.length

/- How a call begins. -/
omit [IMessageReader P σ] [IMessageWriter P TX] in
theorem permits_enter
    {ep ep' : EndpointBase P TX σ}
    {action : EndpointAction TX}
    {call : Option (EndpointCall σ)}
    (hEnter : ep.enter action = some (ep', call)) :
    Permit.Turn ep.asioSending false ep.writes.length
        ep'.asioSending (call.any EndpointCall.sends)
        ep'.writes.length ∧
      Permit.Turn ep.asioReading false ep.reads.length
        ep'.asioReading (call.any EndpointCall.reads)
        ep'.reads.length ∧
        ep'.asioSending = ep.asioSending := by
  rcases enter_cases hEnter with
    ⟨ec, bytes, op, reads, hReads, rfl, rfl⟩ |
    ⟨ec, bytes, data, writes, hWrites, rfl, rfl⟩ |
    ⟨hSame, -, hSends, hReads⟩
  · rw [hReads]
    exact ⟨.stay _ _ _, .complete _ _, rfl⟩
  · rw [hWrites]
    exact ⟨.complete _ _, .stay _ _ _, rfl⟩
  · rw [hSends, hReads]
    rcases hSame with rfl | ⟨s, rfl⟩
    · exact ⟨.stay _ _ _, .stay _ _ _, rfl⟩
    · rcases same_send ep s with ⟨hSending, hReading⟩
      rw [hSending.asioSending_eq, hSending.writes_eq,
        hReading.asioReading_eq, hReading.reads_eq]
      exact ⟨.stay _ _ _, .stay _ _ _, rfl⟩

theorem permit_sending_turn
    {ep ep' : EndpointBase P TX σ}
    {call call' : Option (EndpointCall σ)}
    (hTurn : (program P TX σ).Turn ep call ep' call')
    (hGuard :
      call.any EndpointCall.inLock = true →
        ep.asioSending = false) :
    Permit.Turn ep.asioSending
      (call.any EndpointCall.sends) ep.writes.length
      ep'.asioSending
      (call'.any EndpointCall.sends) ep'.writes.length := by
  cases hTurn with
  | enter hEnter => exact (permits_enter hEnter).1
  | next c =>
      cases c with
      | sending c => exact permit_sending ep c hGuard
      | reading c =>
          have hSame := sameSending_reading ep c
          exact .of_same hSame.asioSending_eq
            (c.next_role ep).2
            (congrArg List.length hSame.writes_eq)
      | closing c =>
          have hSame := (same_closing ep c).1
          exact .of_same hSame.asioSending_eq
            (c.next_role ep).2.1
            (congrArg List.length hSame.writes_eq)
      | starting c =>
          have hSame := (same_starting ep c).1
          exact .of_same hSame.asioSending_eq
            (c.next_role ep).2.1
            (congrArg List.length hSame.writes_eq)

theorem permit_reading_turn
    {ep ep' : EndpointBase P TX σ}
    {call call' : Option (EndpointCall σ)}
    (hTurn : (program P TX σ).Turn ep call ep' call') :
    Permit.Turn ep.asioReading
      (call.any EndpointCall.reads) ep.reads.length
      ep'.asioReading
      (call'.any EndpointCall.reads) ep'.reads.length := by
  cases hTurn with
  | enter hEnter => exact (permits_enter hEnter).2.1
  | next c =>
      cases c with
      | reading c => exact permit_reading ep c
      | sending c =>
          have hSame := sameReading_sending (σ := σ) ep c
          exact .of_same hSame.asioReading_eq
            (c.next_reads ep)
            (congrArg List.length hSame.reads_eq)
      | closing c =>
          have hSame := (same_closing ep c).2
          exact .of_same hSame.asioReading_eq
            (c.next_role ep).2.2
            (congrArg List.length hSame.reads_eq)
      | starting c =>
          have hSame := (same_starting ep c).2
          exact .of_same hSame.asioReading_eq
            (c.next_role ep).2.2
            (congrArg List.length hSame.reads_eq)

/- One gets into the section of `run_sending` only while
   nobody sends, and who sets the flag leaves it. -/
omit [IMessageReader P σ] in
theorem guard_sending
    {ep : EndpointBase P TX σ}
    {c : SendingPiece}
    (hIn :
      (c.next ep).2.any (EndpointCall.inLock (σ := σ)) = true)
    (hGuard :
      (EndpointCall.sending c : EndpointCall σ).inLock = true →
        ep.asioSending = false) :
    (c.next (σ := σ) ep).1.asioSending = false := by
  cases c with
  | runSending caught =>
      simp only [SendingPiece.next] at hIn ⊢
      by_cases hEarly : ep.asioSending || !ep.state.isRunning
      · rw [if_pos hEarly] at hIn
        cases hIn
      · have hClear : ep.asioSending = false := by
          simp only [Bool.or_eq_true, not_or] at hEarly
          exact Bool.eq_false_iff.mpr hEarly.1
        rw [if_neg hEarly]
        split
        · exact hClear
        · exact hClear
  | createMessages site phase =>
      cases site with
      | completeSending =>
          rw [SendingPiece.next_outside ep _ rfl rfl] at hIn
          cases hIn
      | runSending caught =>
          have hClear := hGuard rfl
          cases phase with
          | getSpaceBuffers => exact hClear
          | checkForSpace space =>
              simp only [SendingPiece.next, CreatePhase.next]
              split
              · exact hClear
              · exact hClear
          | markSpaceUsed consumed => exact hClear
  | checkData =>
      simp only [SendingPiece.next] at hIn
      split at hIn
      · cases hIn
      · cases hIn
  | clearSending => cases hIn
  | asyncWrite =>
      rw [SendingPiece.next_outside ep _ rfl rfl] at hIn
      cases hIn
  | completeSending ec bytes =>
      rw [SendingPiece.next_outside ep _ rfl rfl] at hIn
      cases hIn
  | markDataUsed bytes =>
      rw [SendingPiece.next_outside ep _ rfl rfl] at hIn
      cases hIn

theorem guard_inside
    {ep ep' : EndpointBase P TX σ}
    {call call' : Option (EndpointCall σ)}
    (hTurn : (program P TX σ).Turn ep call ep' call')
    (hIn : call'.any EndpointCall.inLock = true)
    (hGuard :
      call.any EndpointCall.inLock = true →
        ep.asioSending = false) :
    ep'.asioSending = false := by
  cases hTurn with
  | enter hEnter =>
      rw [enter_outside hEnter] at hIn
      cases hIn
  | next c =>
      cases c with
      | sending c => exact guard_sending hIn hGuard
      | reading c =>
          exact absurd hIn
            (Bool.eq_false_iff.mp (c.next_role ep).1)
      | closing c =>
          exact absurd hIn
            (Bool.eq_false_iff.mp (c.next_role ep).1)
      | starting c =>
          exact absurd hIn
            (Bool.eq_false_iff.mp (c.next_role ep).1)

/- Nobody sets the flag outside the section. -/
theorem guard_outside
    {ep ep' : EndpointBase P TX σ}
    {call call' : Option (EndpointCall σ)}
    (hTurn : (program P TX σ).Turn ep call ep' call')
    (hOut : call.any EndpointCall.inLock = false)
    (hGuard : ep.asioSending = false) :
    ep'.asioSending = false := by
  cases hTurn with
  | enter hEnter =>
      rw [(permits_enter hEnter).2.2]
      exact hGuard
  | next c =>
      rcases sending_or_same ep c with ⟨c, rfl⟩ | hSame
      · cases c with
          | checkData => cases hOut
          | clearSending => rfl
          | asyncWrite => exact hGuard
          | markDataUsed bytes => exact hGuard
          | runSending caught =>
              change (SendingPiece.next ep _).1.asioSending = _
              simp only [SendingPiece.next]
              split
              · exact hGuard
              · split
                · exact hGuard
                · exact hGuard
          | completeSending ec bytes =>
              change (SendingPiece.next ep _).1.asioSending = _
              simp only [SendingPiece.next]
              split
              · exact hGuard
              · cases ec with
                | eof | operationAborted | other value =>
                    exact hGuard
                | success => exact hGuard
          | createMessages site phase =>
              cases phase with
              | getSpaceBuffers => exact hGuard
              | markSpaceUsed consumed => exact hGuard
              | checkForSpace space =>
                  change (SendingPiece.next ep
                    _).1.asioSending = _
                  simp only [SendingPiece.next,
                    CreatePhase.next]
                  split
                  · exact hGuard
                  · exact hGuard
      · rw [← hGuard]
        exact hSame.asioSending_eq

omit [DecidableEq ι] in
theorem transferring_start
    (ep : EndpointBase P TX σ) :
    Transferring
      (Interleaving.start ep.unused : Threads ι P TX σ) where
  guarded := Interleaving.guarded_start _ _ _
  sending := .start
  reading := .start

/- However calls take turns. -/
theorem Transferring.run
    {s : Threads ι P TX σ}
    (hTransferring : Transferring s)
    (moves : List (Interleaving.Move ι (EndpointAction TX))) :
    Transferring (s.run (program P TX σ) moves) where
  guarded :=
    Interleaving.guarded_run guard_inside
      (fun hTurn _ hOut hGuard =>
        guard_outside hTurn hOut hGuard)
      hTransferring.guarded moves
  sending :=
    Interleaving.permit_run guard_inside
      (fun hTurn _ hOut hGuard =>
        guard_outside hTurn hOut hGuard)
      permit_sending_turn
      hTransferring.guarded hTransferring.sending moves
  reading :=
    Interleaving.permit_run guard_inside
      (fun hTurn _ hOut hGuard =>
        guard_outside hTurn hOut hGuard)
      (fun hTurn _ => permit_reading_turn hTurn)
      hTransferring.guarded hTransferring.reading moves

omit [DecidableEq ι] in
/- While a write is outstanding, nobody sends and nobody is
   in the section of `run_sending`. -/
theorem Transferring.quiet
    {s : Threads ι P TX σ}
    (hTransferring : Transferring s)
    (hWriting : s.shared.writes ≠ [])
    (i : ι) :
    (s.calls i).any EndpointCall.sends = false ∧
      (s.calls i).any EndpointCall.inLock = false := by
  have hSome : s.shared.writes.length ≠ 0 := by
    rw [Ne, List.length_eq_zero_iff]
    exact hWriting
  constructor
  · apply Bool.eq_false_iff.mpr
    intro hSends
    exact hSome (hTransferring.sending.apart i hSends)
  · apply Bool.eq_false_iff.mpr
    intro hIn
    have hClear := hTransferring.guarded.guard i hIn
    exact hSome (hTransferring.sending.free hClear).1

omit [DecidableEq ι] [IMessageReader P σ]
  [IMessageWriter P TX] in
/- `create_messages` is run under the lock or under the
   flag. -/
theorem creates_cases
    {call : Option (EndpointCall σ)}
    (hCreates : call.any EndpointCall.creates = true) :
    call.any EndpointCall.inLock = true ∨
      call.any EndpointCall.sends = true := by
  cases call with
  | none => cases hCreates
  | some c =>
      cases c with
      | reading c => cases hCreates
      | closing c => cases hCreates
      | starting c => cases hCreates
      | sending c =>
          cases c with
          | createMessages site phase =>
              cases site with
              | runSending caught => exact .inl rfl
              | completeSending => exact .inr rfl
          | runSending caught => cases hCreates
          | checkData => cases hCreates
          | asyncWrite => cases hCreates
          | completeSending ec bytes => cases hCreates
          | markDataUsed bytes => cases hCreates
          | clearSending => cases hCreates

omit [DecidableEq ι] in
/- The lock keeps `run_sending` apart from itself, and the
   flag keeps it apart from `complete_sending`. -/
theorem Transferring.creates_alone
    {s : Threads ι P TX σ}
    (hTransferring : Transferring s)
    {i j : ι}
    (hLeft : (s.calls i).any EndpointCall.creates = true)
    (hRight : (s.calls j).any EndpointCall.creates = true) :
    i = j := by
  have hApart : ∀ {i j},
      (s.calls i).any EndpointCall.inLock = true →
        (s.calls j).any EndpointCall.sends = true →
          False := by
    intro i j hIn hSends
    have hClear := hTransferring.guarded.guard i hIn
    have hNone := (hTransferring.sending.free hClear).2 j
    rw [hSends] at hNone
    cases hNone
  rcases creates_cases hLeft with hIn | hSends
  · rcases creates_cases hRight with hAlso | hOther
    · exact hTransferring.guarded.unique hIn hAlso
    · exact (hApart hIn hOther).elim
  · rcases creates_cases hRight with hIn | hAlso
    · exact (hApart hIn hSends).elim
    · exact hTransferring.sending.sole i j hSends hAlso

omit [IMessageReader P σ] [IMessageWriter P TX] in
theorem still_enter
    {ep ep' : EndpointBase P TX σ}
    {action : EndpointAction TX}
    {call : Option (EndpointCall σ)}
    (hEnter : ep.enter action = some (ep', call))
    (hOne : ep.writes.length ≤ 1)
    (hWriting : ep'.writes ≠ []) :
    ep'.writes = ep.writes ∧
      ep'.sendBuffer = ep.sendBuffer := by
  rcases enter_cases hEnter with
    ⟨ec, bytes, op, reads, -, rfl, -⟩ |
    ⟨ec, bytes, data, writes, hWrites, rfl, -⟩ |
    ⟨hSame, -, -, -⟩
  · exact ⟨rfl, rfl⟩
  · -- it was the only one
    rw [hWrites, List.length_cons] at hOne
    have hNone : writes.length = 0 := by omega
    exact absurd (List.length_eq_zero_iff.mp hNone) hWriting
  · rcases hSame with rfl | ⟨s, rfl⟩
    · exact ⟨rfl, rfl⟩
    · have hSending := (same_send ep s).1
      exact ⟨hSending.writes_eq, hSending.sendBuffer_eq⟩

/- As long as a write is outstanding, it is that one, and
   its bytes stay where they are. -/
theorem Transferring.still
    {s : Threads ι P TX σ}
    (hTransferring : Transferring s)
    (move : Interleaving.Move ι (EndpointAction TX))
    (hWriting : s.shared.writes ≠ [])
    (hStill :
      (s.step (program P TX σ) move).shared.writes ≠ []) :
    (s.step (program P TX σ) move).shared.writes =
        s.shared.writes ∧
      (s.step (program P TX σ) move).shared.sendBuffer =
        s.shared.sendBuffer := by
  rcases Interleaving.step_cases (program P TX σ) s move with
    hSame | ⟨i, call, hSteps⟩
  · rw [hSame]
    exact ⟨rfl, rfl⟩
  have hQuiet := hTransferring.quiet hWriting i
  have hTurn := hSteps.turn
  generalize s.calls i = mine at hTurn hQuiet
  generalize (s.step (program P TX σ) move).shared = after
    at hTurn hStill ⊢
  cases hTurn with
  | enter hEnter =>
      exact still_enter hEnter
        hTransferring.sending.outstanding_le hStill
  | next c =>
      rcases sending_or_same s.shared c with ⟨c, rfl⟩ | hSame
      · have hSame := still_sending (σ := σ) s.shared c
          hQuiet.2 hQuiet.1
        exact ⟨congrArg writes hSame,
          congrArg sendBuffer hSame⟩
      · exact ⟨hSame.writes_eq, hSame.sendBuffer_eq⟩

/- What is outstanding is the data as it is. -/
def Covered (ep : EndpointBase P TX σ) : Prop :=
  ∀ data ∈ ep.writes,
    ep.sendBuffer.getDataBuffers.flatten = data

theorem Transferring.covered_step
    {s : Threads ι P TX σ}
    (hTransferring : Transferring s)
    (hCovered : Covered s.shared)
    (move : Interleaving.Move ι (EndpointAction TX)) :
    Covered (s.step (program P TX σ) move).shared := by
  by_cases hAfter :
      (s.step (program P TX σ) move).shared.writes = []
  · intro data hData
    rw [hAfter] at hData
    cases hData
  by_cases hWriting : s.shared.writes = []
  · have hBegun : (s.step (program P TX σ) move).shared =
        s.shared.asyncWrite := by
      rcases Interleaving.step_cases (program P TX σ) s move
        with hSame | ⟨i, call, hSteps⟩
      · rw [hSame] at hAfter
        exact absurd hWriting hAfter
      have hTurn := hSteps.turn
      generalize s.calls i = mine at hTurn
      generalize (s.step (program P TX σ) move).shared = after
        at hTurn hAfter ⊢
      cases hTurn with
      | enter hEnter =>
          have hSame := (still_enter hEnter
            hTransferring.sending.outstanding_le hAfter).1
          exact absurd (hSame.trans hWriting) hAfter
      | next c =>
          rcases sending_or_same s.shared c with
            ⟨c, rfl⟩ | hSame
          · rcases writes_sending (σ := σ) s.shared c with
              hSame | hBegun
            · exact absurd (hSame.trans hWriting) hAfter
            · exact hBegun
          · exact absurd (hSame.writes_eq.trans hWriting)
              hAfter
    rw [hBegun]
    intro data hData
    simp only [asyncWrite, hWriting, List.nil_append,
      List.mem_singleton] at hData
    rw [hData]
    rfl
  · rcases hTransferring.still move hWriting hAfter with
      ⟨hWrites, hBuffer⟩
    intro data hData
    rw [hWrites] at hData
    rw [hBuffer]
    exact hCovered data hData

theorem Transferring.covered_run
    {s : Threads ι P TX σ}
    (hTransferring : Transferring s)
    (hCovered : Covered s.shared)
    (moves : List (Interleaving.Move ι (EndpointAction TX))) :
    Covered (s.run (program P TX σ) moves).shared := by
  induction moves generalizing s with
  | nil => exact hCovered
  | cons move moves ih =>
      exact ih (hTransferring.run [move])
        (hTransferring.covered_step hCovered move)

theorem Transferring.still_run
    {s : Threads ι P TX σ}
    (hTransferring : Transferring s)
    {moves : List (Interleaving.Move ι (EndpointAction TX))}
    (hWriting : ∀ front, front <+: moves →
      (s.run (program P TX σ) front).shared.writes ≠ []) :
    (s.run (program P TX σ) moves).shared.writes =
        s.shared.writes ∧
      (s.run (program P TX σ) moves).shared.sendBuffer =
        s.shared.sendBuffer := by
  induction moves generalizing s with
  | nil => exact ⟨rfl, rfl⟩
  | cons move moves ih =>
      have hFirst := hTransferring.still move
        (hWriting [] List.nil_prefix)
        (hWriting [move] ⟨moves, rfl⟩)
      have hRest := ih (hTransferring.run [move]) (by
        intro front hFront
        exact hWriting (move :: front)
          (List.cons_prefix_cons.mpr ⟨rfl, hFront⟩))
      exact ⟨hRest.1.trans hFirst.1, hRest.2.trans hFirst.2⟩

/-
  At most one write and one read are outstanding, and at most
  one call is in `create_messages`, none while a write is
  outstanding.  What it covers is still the data to be sent,
  and until it completes the send buffer stays as it is: no
  data is used, and none is written over.
-/
structure OneTransfer (s : Threads ι P TX σ) : Prop where
  writes_le : s.shared.writes.length ≤ 1
  reads_le : s.shared.reads.length ≤ 1
  creates_alone : ∀ i j,
    (s.calls i).any EndpointCall.creates = true →
      (s.calls j).any EndpointCall.creates = true →
        i = j
  creates_apart :
    s.shared.writes ≠ [] →
      ∀ i, (s.calls i).any EndpointCall.creates = false
  covered : Covered s.shared
  in_place : ∀ moves,
    (∀ front, front <+: moves →
      (s.run (program P TX σ) front).shared.writes ≠ []) →
      (s.run (program P TX σ) moves).shared.writes =
          s.shared.writes ∧
        (s.run (program P TX σ) moves).shared.sendBuffer =
          s.shared.sendBuffer

theorem one_transfer_per_direction
    (ep : EndpointBase P TX σ)
    (moves : List (Interleaving.Move ι (EndpointAction TX))) :
    OneTransfer
      ((Interleaving.start ep.unused).run
        (program P TX σ) moves) := by
  have hTransferring :=
    (transferring_start (ι := ι) ep).run moves
  constructor
  · exact hTransferring.sending.outstanding_le
  · exact hTransferring.reading.outstanding_le
  · intro i j hLeft hRight
    exact hTransferring.creates_alone hLeft hRight
  · intro hWriting i
    apply Bool.eq_false_iff.mpr
    intro hCreates
    rcases hTransferring.quiet hWriting i with
      ⟨hSends, hOut⟩
    rcases creates_cases hCreates with
      hIn | hAlso
    · rw [hOut] at hIn
      cases hIn
    · rw [hSends] at hAlso
      cases hAlso
  · apply (transferring_start (ι := ι) ep).covered_run
    intro data hData
    cases hData
  · intro back hWriting
    exact hTransferring.still_run hWriting

end Interleavings

end EndpointBase

end OefCore
