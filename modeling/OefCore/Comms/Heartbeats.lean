import OefCore.Library.Runs
import OefCore.OefFunctions.OefFunctionsTaskFactory

/-
  Heartbeats of a connection: pings that its task submits, pongs
  that its agent sends, and the count of those outstanding.

  What `heartbeat` does up to the `submit` of the ping is one
  step, and that it counts the ping another; pongs come at any
  time.

  Main declarations:
    * `OefAgentEndpoint.heartbeat`, `pinged`, `heartbeatRecvd`
    * `HeartbeatRun`, `HeartbeatEvent`
    * `HeartbeatRun.Counted`, `Answers`
    * `HeartbeatRun.counted_iff`
-/

namespace OefCore

------------------------------------------------------------
-- Heartbeats
------------------------------------------------------------

namespace OefAgentEndpoint

/- What karma is asked for where heartbeats are outstanding. -/
def heartbeatAction
    (self : OefAgentEndpoint) : String :=
  "comms.outstanding_heartbeats." ++
    toString self.outstandingHeartbeats.toNat

/- `heartbeat` up to the `submit` of its ping. -/
def heartbeat
    (self : OefAgentEndpoint)
    (policy : KarmaPolicy) :
    Except Exception Bool × KarmaPolicy :=
  if self.outstandingHeartbeats > 0 then
    self.karma.perform policy self.heartbeatAction
  else
    (.ok true, policy)

/- `outstanding_heartbeats++`. -/
def pinged (self : OefAgentEndpoint) : OefAgentEndpoint :=
  { self with
    outstandingHeartbeats := self.outstandingHeartbeats + 1 }

/- `outstanding_heartbeats--`. -/
def heartbeatRecvd
    (self : OefAgentEndpoint) : OefAgentEndpoint :=
  { self with
    outstandingHeartbeats := self.outstandingHeartbeats - 1 }

end OefAgentEndpoint

/- A pong of a logged-in agent gets there, whether or not there
   was a ping. -/
theorem OefFunctionsTaskFactory.exec_processMessage_pong
    {E : Type}
    [DecidableEq E]
    (self : OefFunctionsTaskFactory)
    (protos : AgentProtos)
    (myself : E)
    {data : Wire}
    {envelope : Envelope}
    (hParse : protos.envelope data = some envelope)
    (hPong : envelope.payload = .pong)
    (core : MtCore E) :
    (self.processMessage protos myself data).exec core =
      (.ok (),
        { core with
          endpoints :=
            Function.update core.endpoints myself
              ((core.endpoints myself).map
                OefAgentEndpoint.heartbeatRecvd) }) := by
  unfold processMessage
  rw [Fallible.exec_bind_ok (CoreM.exec_read_some hParse core),
    Fallible.exec_tryCatch]
  unfold dispatch
  rw [hPong]
  rfl

------------------------------------------------------------
-- Runs
------------------------------------------------------------

/- `counting` are the calls of `heartbeat` that have submitted
   a ping and not counted it.  `pings` and `pongs` are all that
   there were, and `answering` the pongs that came when a ping
   was not answered. -/
structure HeartbeatRun where
  endpoint : OefAgentEndpoint
  policy : KarmaPolicy
  counting : Nat
  pings : Nat
  pongs : Nat
  answering : Nat
  closed : Bool
  wrapped : Bool

/- `karma` is for all that others do with the account. -/
inductive HeartbeatEvent where
  | karma (account : KarmaAccount) (policy : KarmaPolicy)
  | heartbeat
  | count
  | pong

namespace HeartbeatRun

def start
    (ident : Nat)
    (remoteId coreKey : String)
    (policy : KarmaPolicy) : HeartbeatRun where
  endpoint := .construct ident remoteId coreKey
  policy := policy
  counting := 0
  pings := 0
  pongs := 0
  answering := 0
  closed := false
  wrapped := false

def step
    (r : HeartbeatRun) : HeartbeatEvent → HeartbeatRun
  | .karma account policy =>
      { r with
        endpoint := { r.endpoint with karma := account }
        policy := policy }
  | .heartbeat =>
      match r.endpoint.heartbeat r.policy with
      | (.ok _, policy) =>
          { r with
            policy := policy
            counting := r.counting + 1
            pings := r.pings + 1 }
      | (.error (.karma _), policy) =>
          { r with
            policy := policy
            closed := true }
      -- other exceptions are not caught here
      | (.error _, policy) => { r with policy := policy }
  | .count =>
      match r.counting with
      | counting + 1 =>
          { r with
            endpoint := r.endpoint.pinged
            counting := counting }
      | 0 => r
  | .pong =>
      { r with
        endpoint := r.endpoint.heartbeatRecvd
        pongs := r.pongs + 1
        answering :=
          if r.answering < r.pings then
            r.answering + 1
          else
            r.answering
        wrapped :=
          r.wrapped || r.endpoint.outstandingHeartbeats == 0 }

def run
    (r : HeartbeatRun)
    (events : List HeartbeatEvent) : HeartbeatRun :=
  events.foldl step r

theorem run_snoc
    (r : HeartbeatRun)
    (events : List HeartbeatEvent)
    (event : HeartbeatEvent) :
    r.run (events ++ [event]) = (r.run events).step event := by
  simp [run]

------------------------------------------------------------
-- What Is Promised
------------------------------------------------------------

/- The count did not wrap, and it is that of the pings that
   were not answered, but for those about to be counted. -/
structure Counted (r : HeartbeatRun) : Prop where
  unwrapped : r.wrapped = false
  outstanding :
    r.endpoint.outstandingHeartbeats.toNat + r.counting =
      r.pings - r.answering

/- The calls of `heartbeat` with a ping that are through. -/
def through (r : HeartbeatRun) : Nat :=
  r.pings - r.counting

/- A pong comes when fewer pongs came before than calls with a
   ping are through; and such a call ends when fewer than
   `2 ^ 32 - 1` more are through than pongs came. -/
def Answers (r : HeartbeatRun) : HeartbeatEvent → Prop
  | .pong => r.pongs < r.through
  | .count =>
      0 < r.counting → r.through + 1 < r.pongs + 2 ^ 32
  | _ => True

------------------------------------------------------------
-- The Count
------------------------------------------------------------

/- Every pong so far answered a ping that was counted. -/
structure Steady (r : HeartbeatRun) : Prop where
  unwrapped : r.wrapped = false
  answering_eq : r.answering = r.pongs
  outstanding :
    r.endpoint.outstandingHeartbeats.toNat + r.counting +
      r.pongs = r.pings

theorem steady_start
    (ident : Nat)
    (remoteId coreKey : String)
    (policy : KarmaPolicy) :
    (start ident remoteId coreKey policy).Steady where
  unwrapped := rfl
  answering_eq := rfl
  outstanding := rfl

variable {r : HeartbeatRun}

theorem Steady.counted
    (hSteady : r.Steady) :
    r.Counted where
  unwrapped := hSteady.unwrapped
  outstanding := by
    have hAnswering := hSteady.answering_eq
    have hOutstanding := hSteady.outstanding
    omega

theorem Steady.heartbeat
    (hSteady : r.Steady) :
    (r.step .heartbeat).Steady := by
  have hOutstanding := hSteady.outstanding
  simp only [step]
  split
  · constructor
    · exact hSteady.unwrapped
    · exact hSteady.answering_eq
    · dsimp only
      omega
  · exact ⟨hSteady.unwrapped, hSteady.answering_eq, hOutstanding⟩
  · exact ⟨hSteady.unwrapped, hSteady.answering_eq, hOutstanding⟩

theorem Steady.count
    (hSteady : r.Steady)
    (hAnswers : r.Answers .count) :
    (r.step .count).Steady := by
  have hOutstanding := hSteady.outstanding
  unfold Answers through at hAnswers
  simp only [step]
  cases hCounting : r.counting with
  | zero => exact hSteady
  | succ counting =>
      have hBelow := hAnswers (by omega)
      constructor
      · exact hSteady.unwrapped
      · exact hSteady.answering_eq
      · simp only [OefAgentEndpoint.pinged, UInt32.toNat_add,
          UInt32.toNat_one]
        rw [Nat.mod_eq_of_lt] <;> omega

theorem Steady.pong
    (hSteady : r.Steady)
    (hAnswers : r.Answers .pong) :
    (r.step .pong).Steady := by
  have hOutstanding := hSteady.outstanding
  have hAnswering := hSteady.answering_eq
  unfold Answers through at hAnswers
  have hPos : 1 ≤ r.endpoint.outstandingHeartbeats := by
    rw [UInt32.le_iff_toNat_le, UInt32.toNat_one]
    omega
  have hNonzero : r.endpoint.outstandingHeartbeats ≠ 0 := by
    intro hZero
    rw [hZero] at hPos
    exact absurd hPos (by decide)
  constructor
  · simp [step, hSteady.unwrapped, hNonzero]
  · simp only [step]
    rw [if_pos (by omega)]
    omega
  · simp only [step, OefAgentEndpoint.heartbeatRecvd]
    rw [UInt32.toNat_sub_of_le _ _ hPos, UInt32.toNat_one]
    omega

theorem Steady.step
    (hSteady : r.Steady)
    {event : HeartbeatEvent}
    (hAnswers : r.Answers event) :
    (r.step event).Steady := by
  cases event with
  | karma account policy =>
      exact ⟨hSteady.unwrapped, hSteady.answering_eq,
        hSteady.outstanding⟩
  | heartbeat => exact hSteady.heartbeat
  | count => exact hSteady.count hAnswers
  | pong => exact hSteady.pong hAnswers

------------------------------------------------------------
-- Pongs That Answer Nothing
------------------------------------------------------------

theorem answers_of_counted
    (hSteady : r.Steady)
    {event : HeartbeatEvent}
    (hCounted : (r.step event).Counted) :
    r.Answers event := by
  have hOutstanding := hSteady.outstanding
  cases event with
  | karma account policy => exact trivial
  | heartbeat => exact trivial
  | count =>
      have hAnswering := hSteady.answering_eq
      intro hPos
      unfold through
      rcases Nat.exists_eq_succ_of_ne_zero
        (Nat.ne_of_gt hPos) with ⟨counting, hCounting⟩
      have hAfter := hCounted.outstanding
      simp only [HeartbeatRun.step, hCounting,
        OefAgentEndpoint.pinged, UInt32.toNat_add,
        UInt32.toNat_one] at hAfter
      have hBelow :=
        Nat.mod_lt
          (r.endpoint.outstandingHeartbeats.toNat + 1)
          (Nat.two_pow_pos 32)
      omega
  | pong =>
      have hUnwrapped := hCounted.unwrapped
      simp only [HeartbeatRun.step, hSteady.unwrapped,
        Bool.false_or, beq_eq_false_iff_ne] at hUnwrapped
      have hPos :
          0 < r.endpoint.outstandingHeartbeats.toNat := by
        apply Nat.pos_of_ne_zero
        intro hZero
        exact hUnwrapped (UInt32.toNat_inj.mp hZero)
      unfold Answers through
      omega

/-
  The count is right all along a run exactly if every pong in
  it answers a ping of a call that is through, and fewer than
  `2 ^ 32` such pings are not answered.
-/
theorem counted_iff
    (ident : Nat)
    (remoteId coreKey : String)
    (policy : KarmaPolicy)
    (events : List HeartbeatEvent) :
    (∀ front, front <+: events →
        ((start ident remoteId coreKey policy).run
          front).Counted) ↔
      ∀ front event back,
        events = front ++ event :: back →
          ((start ident remoteId coreKey policy).run
            front).Answers event := by
  apply Runs.forall_prefix_iff
    (fun front =>
      ((start ident remoteId coreKey policy).run front).Steady)
  · exact steady_start ident remoteId coreKey policy
  · intro front hSteady
    exact hSteady.counted
  · intro front event back _ hSteady hAnswers
    rw [run_snoc]
    exact hSteady.step hAnswers
  · intro front event back _ hSteady hCounted
    rw [run_snoc] at hCounted
    exact answers_of_counted hSteady hCounted

/- A pong that nobody asked for. -/
theorem not_counted_unasked :
    ¬ ∀ events : List HeartbeatEvent,
      ((start 1 "" "" .none).run events).Counted := by
  intro hAll
  have hUnwrapped := (hAll [.pong]).unwrapped
  exact absurd hUnwrapped (by decide)

end HeartbeatRun

end OefCore
