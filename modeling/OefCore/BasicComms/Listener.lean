import OefCore.BasicComms.EndpointBase
import OefCore.Library.Runs

/-
  The listener: connections are accepted one after the other,
  and each is set going before the next accept.

  What the socket of a connection answers is given with each
  accept.

  Main declarations:
    * `SocketAnswers`, `EndpointBase.goOn`
    * `Connection.go`, `Connection.go_ok_iff`
    * `Listener.startAccept`, `handleAccept`
    * `ListenerRun.Accepting`, `ListenerRun.accepting_iff`
-/

namespace OefCore

variable {P TX σ : Type}

------------------------------------------------------------
-- Going
------------------------------------------------------------

/- What `remote_endpoint`, `set_option` and `close` of a socket
   do: each may throw. -/
structure SocketAnswers where
  remoteEndpoint : Except String String
  setOption : Except String Unit
  close : Except String Unit

/- `EndpointBase::go`.  Only what the start handler throws is
   caught, and the socket is closed for it. -/
def EndpointBase.goOn
    (self : EndpointBase P TX σ)
    (socket : SocketAnswers) :
    Except String Unit × EndpointBase P TX σ :=
  match socket.remoteEndpoint, socket.setOption with
  | .error what, _ => (.error what, self)
  | .ok _, .error what => (.error what, self)
  | .ok _, .ok _ =>
      match self.onStart with
      | none => (.ok (), self.go)
      | some myStart =>
          match (myStart () self.world).1, socket.close with
          | .error _, .error what =>
              (.error what,
                { self with
                  onStart := none
                  world := (myStart () self.world).2
                  state :=
                    { self.state with
                      errored := true
                      closed := true } })
          | _, _ => (.ok (), self.go)

/- A connection, with the functions that are called when it is
   set going. -/
structure Connection (P TX σ : Type) where
  goFunctions : List (Callback σ Unit)
  endpoint : EndpointBase P TX σ

/- The loop over the functions. -/
def callAll :
    List (Callback σ Unit) → σ → Except String Unit × σ
  | [], world => (.ok (), world)
  | function :: functions, world =>
      match function () world with
      | (.ok _, world) => callAll functions world
      | (.error what, world) => (.error what, world)

namespace Connection

/- `OefAgentEndpoint::go`. -/
def go
    (self : Connection P TX σ)
    (socket : SocketAnswers) :
    Except String Unit × EndpointBase P TX σ :=
  match callAll self.goFunctions self.endpoint.world with
  | (.error what, world) =>
      (.error what, { self.endpoint with world := world })
  | (.ok _, world) =>
      { self.endpoint with world := world }.goOn socket

/- Where `go` returns: no function throws, the socket is still
   connected, and if the start handler throws, the socket can
   be closed. -/
structure Goes
    (c : Connection P TX σ)
    (socket : SocketAnswers) : Prop where
  functions :
    (callAll c.goFunctions c.endpoint.world).1 = .ok ()
  connected : ∃ remoteId, socket.remoteEndpoint = .ok remoteId
  lingers : socket.setOption = .ok ()
  started :
    ∀ myStart what,
      c.endpoint.onStart = some myStart →
        (myStart () (callAll c.goFunctions
          c.endpoint.world).2).1 = .error what →
          socket.close = .ok ()

end Connection

/- `go` of the endpoint returns unless a socket query throws, or
   the close after a start handler that threw. -/
theorem EndpointBase.goOn_ok_iff
    (self : EndpointBase P TX σ)
    (socket : SocketAnswers) :
    (self.goOn socket).1 = .ok () ↔
      (∃ remoteId, socket.remoteEndpoint = .ok remoteId) ∧
        socket.setOption = .ok () ∧
          ∀ myStart what,
            self.onStart = some myStart →
              (myStart () self.world).1 = .error what →
                socket.close = .ok () := by
  unfold goOn
  cases socket.remoteEndpoint with
  | error what => simp
  | ok remoteId =>
      cases socket.setOption with
      | error what => simp
      | ok option =>
          cases self.onStart with
          | none => simp
          | some myStart =>
              simp only [Option.some.injEq]
              cases hStart : (myStart () self.world).1 with
              | ok started =>
                  refine iff_of_true rfl
                    ⟨⟨remoteId, rfl⟩, trivial, ?_⟩
                  intro other what hSame hThrown
                  rw [← hSame, hStart] at hThrown
                  cases hThrown
              | error what =>
                  cases socket.close with
                  | error what =>
                      apply iff_of_false
                      · intro hOk
                        cases hOk
                      · rintro ⟨_, _, hStarted⟩
                        cases hStarted myStart _ rfl hStart
                  | ok closed =>
                      exact iff_of_true rfl
                        ⟨⟨remoteId, rfl⟩, trivial,
                          fun _ _ _ _ => rfl⟩

theorem Connection.go_ok_iff
    (self : Connection P TX σ)
    (socket : SocketAnswers) :
    (self.go socket).1 = .ok () ↔ self.Goes socket := by
  unfold go
  cases hCalls : callAll self.goFunctions self.endpoint.world with
  | mk called world =>
      cases called with
      | error what =>
          constructor
          · intro hOk
            cases hOk
          · intro hGoes
            have hFunctions := hGoes.functions
            rw [hCalls] at hFunctions
            cases hFunctions
      | ok called =>
          rw [EndpointBase.goOn_ok_iff]
          constructor
          · rintro ⟨hConnected, hLingers, hStarted⟩
            constructor
            · rw [hCalls]
            · exact hConnected
            · exact hLingers
            · rw [hCalls]
              exact hStarted
          · intro hGoes
            have hStarted := hGoes.started
            rw [hCalls] at hStarted
            exact ⟨hGoes.connected, hGoes.lingers, hStarted⟩

------------------------------------------------------------
-- Accepting
------------------------------------------------------------

/- `asyncAccepts` are the calls of `async_accept` that have not
   completed; the others are the counters. -/
structure Listener where
  asyncAccepts : Nat
  accepting : Nat
  accepted : Nat
  errored : Nat
  deriving DecidableEq, Repr

/- How an `async_accept` completes. -/
structure AcceptOutcome (P TX σ : Type) where
  error : ErrorCode
  connection : Connection P TX σ
  socket : SocketAnswers

namespace Listener

def construct : Listener where
  asyncAccepts := 0
  accepting := 0
  accepted := 0
  errored := 0

def startAccept (self : Listener) : Listener :=
  { self with
    accepting := self.accepting + 1
    asyncAccepts := self.asyncAccepts + 1 }

def handleAccept
    (self : Listener)
    (outcome : AcceptOutcome P TX σ) :
    Except String Unit × Listener :=
  let self := { self with accepted := self.accepted + 1 }
  if outcome.error = .success then
    match (outcome.connection.go outcome.socket).1 with
    | .ok _ => (.ok (), self.startAccept)
    | .error what => (.error what, self)
  else
    (.ok (), { self with errored := self.errored + 1 })

end Listener

/- `escaped` are the exceptions that came to `Core::run`. -/
structure ListenerRun where
  listener : Listener
  escaped : List String
  deriving DecidableEq, Repr

namespace ListenerRun

def start : ListenerRun where
  listener := Listener.construct.startAccept
  escaped := []

/- An `async_accept` completes, if there is one. -/
def step
    (r : ListenerRun)
    (outcome : AcceptOutcome P TX σ) : ListenerRun :=
  match r.listener.asyncAccepts with
  | 0 => r
  | asyncAccepts + 1 =>
      match { r.listener with
          asyncAccepts := asyncAccepts }.handleAccept outcome
        with
      | (.ok _, listener) => { r with listener := listener }
      | (.error what, listener) =>
          { listener := listener
            escaped := r.escaped ++ [what] }

def run
    (r : ListenerRun)
    (outcomes : List (AcceptOutcome P TX σ)) : ListenerRun :=
  outcomes.foldl step r

theorem run_snoc
    (r : ListenerRun)
    (outcomes : List (AcceptOutcome P TX σ))
    (outcome : AcceptOutcome P TX σ) :
    r.run (outcomes ++ [outcome]) =
      (r.run outcomes).step outcome := by
  simp [run]

------------------------------------------------------------
-- What Is Promised
------------------------------------------------------------

/- One accept is outstanding, and no exception has come to
   `Core::run`. -/
structure Accepting (r : ListenerRun) : Prop where
  outstanding : r.listener.asyncAccepts = 1
  contained : r.escaped = []

end ListenerRun

/- The accept is without an error, and the connection goes. -/
structure AcceptOutcome.Succeeds
    (outcome : AcceptOutcome P TX σ) : Prop where
  accepted : outcome.error = .success
  goes : outcome.connection.Goes outcome.socket

namespace ListenerRun

theorem accepting_start : start.Accepting where
  outstanding := rfl
  contained := rfl

variable {r : ListenerRun}

/- One accept is over, and what comes of it decides about the
   next. -/
theorem Accepting.step_eq
    (hAccepting : r.Accepting)
    (outcome : AcceptOutcome P TX σ) :
    r.step outcome =
      match { r.listener with
          asyncAccepts := 0 }.handleAccept outcome
        with
      | (.ok _, listener) => { r with listener := listener }
      | (.error what, listener) =>
          { listener := listener
            escaped := r.escaped ++ [what] } := by
  unfold step
  rw [hAccepting.outstanding]

theorem Accepting.step
    (hAccepting : r.Accepting)
    {outcome : AcceptOutcome P TX σ}
    (hSucceeds : outcome.Succeeds) :
    (r.step outcome).Accepting := by
  have hGo :=
    (Connection.go_ok_iff _ _).mpr hSucceeds.goes
  rw [hAccepting.step_eq]
  unfold Listener.handleAccept
  simp only [hSucceeds.accepted, if_true, hGo]
  exact
    { outstanding := rfl
      contained := hAccepting.contained }

/- After an error there is no accept, and what `go` throws
   escapes. -/
theorem succeeds_of_accepting
    (hAccepting : r.Accepting)
    {outcome : AcceptOutcome P TX σ}
    (hAfter : (r.step outcome).Accepting) :
    outcome.Succeeds := by
  rw [hAccepting.step_eq] at hAfter
  unfold Listener.handleAccept at hAfter
  have hAccepted : outcome.error = .success := by
    by_contra hError
    simp only [hError, if_false] at hAfter
    cases hAfter.outstanding
  refine ⟨hAccepted, ?_⟩
  apply (Connection.go_ok_iff _ _).mp
  simp only [hAccepted, if_true] at hAfter
  cases hGo :
      (outcome.connection.go outcome.socket).1 with
  | ok gone => rfl
  | error what =>
      rw [hGo] at hAfter
      have hContained := hAfter.contained
      simp at hContained

/-
  The listener keeps accepting exactly as long as every accept
  is without an error and every connection goes.
-/
theorem accepting_iff
    (outcomes : List (AcceptOutcome P TX σ)) :
    (∀ front, front <+: outcomes →
        (start.run front).Accepting) ↔
      ∀ outcome ∈ outcomes, outcome.Succeeds := by
  have hRuns :
      (∀ front, front <+: outcomes →
          (start.run front).Accepting) ↔
        ∀ front outcome back,
          outcomes = front ++ outcome :: back →
            outcome.Succeeds := by
    apply Runs.forall_prefix_iff
      (fun front => (start.run front).Accepting)
    · exact accepting_start
    · intro front hAccepting
      exact hAccepting
    · intro front outcome back _ hAccepting hSucceeds
      rw [run_snoc]
      exact hAccepting.step hSucceeds
    · intro front outcome back _ hAccepting hAfter
      rw [run_snoc] at hAfter
      exact succeeds_of_accepting hAccepting hAfter
  rw [hRuns]
  constructor
  · intro hAll outcome hMem
    rcases List.append_of_mem hMem with ⟨front, back, hSplit⟩
    exact hAll front outcome back hSplit
  · intro hAll front outcome back hSplit
    apply hAll
    rw [hSplit]
    exact List.mem_append_right _ List.mem_cons_self

/- One accept fails. -/
theorem not_accepting_error :
    ¬ ∀ outcomes : List (AcceptOutcome Unit Unit Unit),
      (start.run outcomes).Accepting := by
  intro hAll
  have hOutstanding :=
    (hAll
      [{ error := .other 103
         connection :=
           { goFunctions := []
             endpoint := .construct () 1 1 () }
         socket :=
           { remoteEndpoint := .ok "127.0.0.1"
             setOption := .ok ()
             close := .ok () } }]).outstanding
  cases hOutstanding

/- The peer has gone before its connection is set going. -/
example :
    (start.run
      [({ error := .success
          connection :=
            { goFunctions := []
              endpoint := .construct () 1 1 () }
          socket :=
            { remoteEndpoint := .error "not connected"
              setOption := .ok ()
              close := .ok () } } :
        AcceptOutcome Unit Unit Unit)]).escaped =
      ["not connected"] :=
  rfl

end ListenerRun

end OefCore
