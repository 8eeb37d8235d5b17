import Mathlib.Data.List.Induction
import OefCore.Threading.Notification

/-
  The builders of a notification: callbacks are registered with
  a builder, and its destructor passes them on.

  One notification with all its builders, and every operation
  atomic.

  Main declarations:
    * `NotificationBuilder`, `NotificationBuilder.moved`,
      `attach`
    * `BuilderRun`, `BuilderEvent`
    * `BuilderRun.FiredOnce`, `DeliveredOnce`
    * `BuilderRun.firedOnce_iff`,
      `BuilderRun.deliveredOnce_of_unmoved`
-/

namespace OefCore

variable {K : Type}

------------------------------------------------------------
-- Builders
------------------------------------------------------------

/- What a callback is registered for: by `Then`, `Catch` and
   `Finally`. -/
inductive CallbackKind where
  | success
  | failure
  | complete
  deriving DecidableEq, Repr

/- `notification` is whether the builder has the
   notification. -/
structure NotificationBuilder (K : Type) where
  notification : Bool
  callbackSuccess : Option K
  callbackFailure : Option K
  callbackComplete : Option K
  deriving DecidableEq, Repr

namespace NotificationBuilder

def construct : NotificationBuilder K where
  notification := true
  callbackSuccess := none
  callbackFailure := none
  callbackComplete := none

def callback
    (self : NotificationBuilder K) : CallbackKind → Option K
  | .success => self.callbackSuccess
  | .failure => self.callbackFailure
  | .complete => self.callbackComplete

/- `Then`, `Catch` and `Finally`. -/
def register
    (self : NotificationBuilder K)
    (kind : CallbackKind)
    (cb : K) : NotificationBuilder K :=
  match kind with
  | .success => { self with callbackSuccess := some cb }
  | .failure => { self with callbackFailure := some cb }
  | .complete => { self with callbackComplete := some cb }

def cancel
    (self : NotificationBuilder K) : NotificationBuilder K :=
  { self with notification := false }

/- What is move-constructed from a builder.  The other one stays
   as it is. -/
def moved
    (other : NotificationBuilder K) : NotificationBuilder K where
  notification := other.notification
  callbackSuccess := other.callbackSuccess
  callbackFailure := other.callbackFailure
  callbackComplete := other.callbackComplete

/- The callbacks of the builder are set, each under what it was
   registered for. -/
def attach
    (self : NotificationBuilder K)
    (n : NotificationImplementation (CallbackKind × K)) :
    NotificationImplementation (CallbackKind × K) :=
  n.setCallbacks
    (self.callbackSuccess.map (Prod.mk .success))
    (self.callbackFailure.map (Prod.mk .failure))
    (self.callbackComplete.map (Prod.mk .complete))

end NotificationBuilder

------------------------------------------------------------
-- Runs
------------------------------------------------------------

/-
  `builders` are all that were constructed, with what they were
  at last.  `registered` is the callback that was registered
  last, and with which builder.

  `delivering` are the builders with the notification whose
  destructors count: of those destroyed before it is resolved
  the last, and all those destroyed after that.
-/
structure BuilderRun (K : Type) where
  notification : NotificationImplementation (CallbackKind × K)
  builders : List (NotificationBuilder K)
  destroyed : List Nat
  calls : List (CallbackKind × K)
  registered : CallbackKind → Option (Nat × K)
  delivering : List (NotificationBuilder K)

/- Builders are known by number, the first by 0. -/
inductive BuilderEvent (K : Type) where
  | register (builder : Nat) (kind : CallbackKind) (cb : K)
  | cancel (builder : Nat)
  | move (builder : Nat)
  | destroy (builder : Nat)
  | notify
  | fail
  deriving DecidableEq

namespace BuilderRun

/- After `makeNotification`. -/
def start : BuilderRun K where
  notification := .create
  builders := [.construct]
  destroyed := []
  calls := []
  registered := fun _ => none
  delivering := []

def live
    (r : BuilderRun K)
    (builder : Nat) : Option (NotificationBuilder K) :=
  if builder ∈ r.destroyed then
    none
  else
    r.builders[builder]?

def dispatchCallbacks (r : BuilderRun K) : BuilderRun K :=
  { r with
    calls := r.calls ++ r.notification.handlers
    notification := r.notification.invalidate }

/- The destructor of a builder. -/
def release
    (r : BuilderRun K)
    (b : NotificationBuilder K) : BuilderRun K :=
  if b.notification then
    let attached : BuilderRun K :=
      { r with
        notification := b.attach r.notification
        delivering :=
          if r.notification.isWaiting then
            [b]
          else
            r.delivering ++ [b] }
    if attached.notification.isWaiting then
      attached
    else
      attached.dispatchCallbacks
  else
    r

def updateState
    (r : BuilderRun K)
    (state : NotificationState) : BuilderRun K :=
  match r.notification.updateState state with
  | (true, n) => { r with notification := n }.dispatchCallbacks
  | (false, n) => { r with notification := n }

/- What a builder cannot do, since there is none or it was
   destroyed, does not happen. -/
def step
    (r : BuilderRun K) :
    BuilderEvent K → BuilderRun K
  | .register builder kind cb =>
      match r.live builder with
      | some b =>
          { r with
            builders :=
              r.builders.set builder (b.register kind cb)
            registered :=
              Function.update r.registered kind
                (some (builder, cb)) }
      | none => r
  | .cancel builder =>
      match r.live builder with
      | some b =>
          { r with
            builders := r.builders.set builder b.cancel }
      | none => r
  | .move builder =>
      match r.live builder with
      | some b => { r with builders := r.builders ++ [b.moved] }
      | none => r
  | .destroy builder =>
      match r.live builder with
      | some b =>
          { r with
            destroyed := builder :: r.destroyed }.release b
      | none => r
  | .notify => r.updateState .success
  | .fail => r.updateState .failed

def run
    (r : BuilderRun K)
    (events : List (BuilderEvent K)) : BuilderRun K :=
  events.foldl step r

theorem run_snoc
    (r : BuilderRun K)
    (events : List (BuilderEvent K))
    (event : BuilderEvent K) :
    r.run (events ++ [event]) = (r.run events).step event := by
  simp [run]

------------------------------------------------------------
-- What Is Promised
------------------------------------------------------------

/- The notification is resolved and no builder is left. -/
def Finished (r : BuilderRun K) : Prop :=
  r.notification.isWaiting = false ∧
    ∀ builder, builder < r.builders.length →
      builder ∈ r.destroyed

/- The callback was registered last, with a builder that has
   the notification to the end. -/
def RegisteredLast
    (r : BuilderRun K)
    (kind : CallbackKind)
    (cb : K) : Prop :=
  ∃ builder b,
    r.registered kind = some (builder, cb) ∧
      r.builders[builder]? = some b ∧
        b.notification = true

end BuilderRun

/- The callbacks that are for the state. -/
def NotificationState.isDue
    (state : NotificationState) : CallbackKind → Bool
  | .success => state == .success
  | .failure => state == .failed
  | .complete => state != .waiting

namespace BuilderRun

variable [DecidableEq K]

/- At the end, the callbacks that were registered last have been
   called once, if they are for the state, and otherwise not. -/
def FiredOnce (r : BuilderRun K) : Prop :=
  r.Finished →
    ∀ kind cb, r.RegisteredLast kind cb →
      r.calls.count (kind, cb) =
        if r.notification.state.isDue kind then 1 else 0

/- At the end, one of the builders that deliver has the callback
   that was registered last, if it is for the state. -/
def DeliveredOnce (r : BuilderRun K) : Prop :=
  r.Finished →
    ∀ kind cb, r.RegisteredLast kind cb →
      r.notification.state.isDue kind = true →
        (r.delivering.filter fun b =>
          b.callback kind = some cb).length = 1

------------------------------------------------------------
-- Calls
------------------------------------------------------------

end BuilderRun

/- What is called when the callbacks of a builder are dispatched
   in a state. -/
def NotificationBuilder.handlers
    (self : NotificationBuilder K)
    (state : NotificationState) : List (CallbackKind × K) :=
  (self.attach { NotificationImplementation.create with
    state := state }).handlers

theorem count_under
    [DecidableEq K]
    (under kind : CallbackKind)
    (callback : Option K)
    (cb : K) :
    (callback.map (Prod.mk under)).toList.count (kind, cb) =
      if under = kind ∧ callback = some cb then 1 else 0 := by
  rcases callback with _ | other
  · simp
  · simp [List.count_singleton]

/- A callback of the builder is called once if it is for the
   state. -/
theorem NotificationBuilder.count_handlers
    [DecidableEq K]
    (self : NotificationBuilder K)
    {state : NotificationState}
    (hResolved : state ≠ .waiting)
    (kind : CallbackKind)
    (cb : K) :
    (self.handlers state).count (kind, cb) =
      if state.isDue kind = true ∧
          self.callback kind = some cb then
        1
      else
        0 := by
  simp only [handlers, attach,
    NotificationImplementation.setCallbacks,
    NotificationImplementation.handlers, List.count_append]
  rw [count_under]
  cases state with
  | waiting => exact absurd rfl hResolved
  | success =>
      dsimp only
      rw [count_under]
      cases kind <;> simp [NotificationState.isDue, callback]
  | failed =>
      dsimp only
      rw [count_under]
      cases kind <;> simp [NotificationState.isDue, callback]
  | timedout =>
      cases kind <;> simp [NotificationState.isDue, callback]

theorem NotificationBuilder.count_flatMap_handlers
    [DecidableEq K]
    (delivering : List (NotificationBuilder K))
    {state : NotificationState}
    (hResolved : state ≠ .waiting)
    (kind : CallbackKind)
    (cb : K) :
    (delivering.flatMap fun b => b.handlers state).count
        (kind, cb) =
      if state.isDue kind then
        (delivering.filter fun b =>
          b.callback kind = some cb).length
      else
        0 := by
  induction delivering with
  | nil => simp
  | cons b delivering ih =>
      rw [List.flatMap_cons, List.count_append, ih,
        b.count_handlers hResolved]
      cases state.isDue kind with
      | false => simp
      | true =>
          by_cases hSame : b.callback kind = some cb
          · simp [hSame, Nat.add_comm]
          · simp [hSame]

namespace BuilderRun

/-
  Before the notification is resolved nothing is called, and it
  has the callbacks of the builder that delivers, if there is
  one.  After that, those of each that delivers have been
  called.
-/
structure Dispatched (r : BuilderRun K) : Prop where
  waiting :
    r.notification.isWaiting = true →
      r.calls = [] ∧
        ((r.delivering = [] ∧
            r.notification = NotificationImplementation.create) ∨
          ∃ b, r.delivering = [b] ∧
            r.notification =
              b.attach NotificationImplementation.create)
  resolved :
    r.notification.isWaiting = false →
      r.calls =
          r.delivering.flatMap
            (fun b => b.handlers r.notification.state) ∧
        r.notification =
          { NotificationImplementation.create with
            state := r.notification.state }

theorem dispatched_start :
    (start : BuilderRun K).Dispatched where
  waiting _ := ⟨rfl, Or.inl ⟨rfl, rfl⟩⟩
  resolved hResolved := by cases hResolved

variable {r : BuilderRun K}

theorem Dispatched.release
    (hDispatched : r.Dispatched)
    (b : NotificationBuilder K) :
    (r.release b).Dispatched := by
  unfold BuilderRun.release
  cases hNotification : b.notification with
  | false => exact hDispatched
  | true =>
      have hAttached :
          (b.attach r.notification).isWaiting =
            r.notification.isWaiting :=
        rfl
      simp only [if_true, hAttached]
      cases hWaiting : r.notification.isWaiting with
      | true =>
          rcases hDispatched.waiting hWaiting with
            ⟨hCalls, hSet⟩
          have hAgain :
              b.attach r.notification =
                b.attach NotificationImplementation.create := by
            rcases hSet with ⟨_, hCreate⟩ | ⟨other, _, hOther⟩
            · rw [hCreate]
            · rw [hOther]
              rfl
          simp only [if_true]
          constructor
          · intro _
            exact ⟨hCalls, Or.inr ⟨b, rfl, hAgain⟩⟩
          · intro hResolved
            rw [hAttached, hWaiting] at hResolved
            cases hResolved
      | false =>
          rcases hDispatched.resolved hWaiting with
            ⟨hCalls, hSet⟩
          have hHandlers :
              (b.attach r.notification).handlers =
                b.handlers r.notification.state := by
            rw [hSet]
            rfl
          simp only [Bool.false_eq_true, if_false]
          constructor
          · intro hAgain
            have hBefore : r.notification.isWaiting = true :=
              hAgain
            rw [hWaiting] at hBefore
            cases hBefore
          · intro _
            constructor
            · simp only [dispatchCallbacks, hHandlers, hCalls,
                List.flatMap_append, List.flatMap_cons,
                List.flatMap_nil, List.append_nil]
              rfl
            · rfl

/- The notification is resolved. -/
theorem Dispatched.updateState
    (hDispatched : r.Dispatched)
    {state : NotificationState}
    (hState : state ≠ .waiting) :
    (r.updateState state).Dispatched := by
  unfold BuilderRun.updateState
    NotificationImplementation.updateState
  cases hWaiting : r.notification.isWaiting with
  | false => exact hDispatched
  | true =>
      rcases hDispatched.waiting hWaiting with ⟨hCalls, hSet⟩
      simp only [if_true]
      constructor
      · intro hAgain
        have hSame : state = .waiting := by
          simpa [dispatchCallbacks,
            NotificationImplementation.invalidate,
            NotificationImplementation.setCallbacks,
            NotificationImplementation.isWaiting] using hAgain
        exact absurd hSame hState
      · intro _
        constructor
        · rcases hSet with ⟨hNone, hCreate⟩ | ⟨b, hOne, hB⟩
          · simp only [dispatchCallbacks, hCalls, hNone,
              hCreate, List.nil_append, List.flatMap_nil]
            cases state <;> rfl
          · simp only [dispatchCallbacks, hCalls, hOne, hB,
              List.nil_append, List.flatMap_cons,
              List.flatMap_nil, List.append_nil]
            rfl
        · rfl

theorem Dispatched.step
    (hDispatched : r.Dispatched)
    (event : BuilderEvent K) :
    (r.step event).Dispatched := by
  cases event with
  | register builder kind cb =>
      simp only [BuilderRun.step]
      split <;> exact ⟨hDispatched.waiting, hDispatched.resolved⟩
  | cancel builder =>
      simp only [BuilderRun.step]
      split <;> exact ⟨hDispatched.waiting, hDispatched.resolved⟩
  | move builder =>
      simp only [BuilderRun.step]
      split <;> exact ⟨hDispatched.waiting, hDispatched.resolved⟩
  | destroy builder =>
      simp only [BuilderRun.step]
      split
      · apply Dispatched.release
        exact ⟨hDispatched.waiting, hDispatched.resolved⟩
      · exact hDispatched
  | notify => exact hDispatched.updateState (by decide)
  | fail => exact hDispatched.updateState (by decide)

theorem dispatched_run (events : List (BuilderEvent K)) :
    (start.run events : BuilderRun K).Dispatched := by
  induction events using List.reverseRecOn with
  | nil => exact dispatched_start
  | append_singleton events event ih =>
      rw [run_snoc]
      exact ih.step event

variable [DecidableEq K]

theorem Dispatched.count_calls
    (hDispatched : r.Dispatched)
    (hResolved : r.notification.isWaiting = false)
    (kind : CallbackKind)
    (cb : K) :
    r.calls.count (kind, cb) =
      if r.notification.state.isDue kind then
        (r.delivering.filter fun b =>
          b.callback kind = some cb).length
      else
        0 := by
  have hState : r.notification.state ≠ .waiting := by
    intro hWaiting
    unfold NotificationImplementation.isWaiting at hResolved
    rw [hWaiting] at hResolved
    cases hResolved
  rw [(hDispatched.resolved hResolved).1,
    NotificationBuilder.count_flatMap_handlers _ hState]

/-
  However builders are used, moved and destroyed, the callbacks
  fire once exactly if one of the builders that deliver has
  them.
-/
theorem firedOnce_iff (events : List (BuilderEvent K)) :
    (start.run events : BuilderRun K).FiredOnce ↔
      (start.run events : BuilderRun K).DeliveredOnce := by
  have hDispatched := dispatched_run events
  generalize start.run events = r at hDispatched
  constructor
  · intro hFired hFinished kind cb hLast hDue
    have hCount := hFired hFinished kind cb hLast
    rw [hDispatched.count_calls hFinished.1] at hCount
    simp only [hDue, if_true] at hCount
    exact hCount
  · intro hDelivered hFinished kind cb hLast
    rw [hDispatched.count_calls hFinished.1]
    cases hDue : r.notification.state.isDue kind with
    | false => simp
    | true =>
        simp only [if_true]
        exact hDelivered hFinished kind cb hLast hDue

/- A callback is called by each of two builders. -/
theorem not_firedOnce_moved :
    ¬ ∀ events : List (BuilderEvent Nat),
      (start.run events : BuilderRun Nat).FiredOnce := by
  intro hAll
  have hFired :=
    hAll
      [.register 0 .success 7, .move 0, .notify, .destroy 1,
        .destroy 0]
  have hCount :=
    hFired ⟨rfl, by decide⟩ .success 7
      ⟨0, _, rfl, rfl, rfl⟩
  exact absurd hCount (by decide)

------------------------------------------------------------
-- A Builder That Is Not Moved
------------------------------------------------------------

omit [DecidableEq K] in
theorem delivering_updateState
    (r : BuilderRun K)
    (state : NotificationState) :
    (r.updateState state).builders = r.builders ∧
      (r.updateState state).destroyed = r.destroyed ∧
        (r.updateState state).registered = r.registered ∧
          (r.updateState state).delivering = r.delivering := by
  unfold updateState
  split <;> exact ⟨rfl, rfl, rfl, rfl⟩

/- There is one builder, and it delivers when it is destroyed
   unless it was cancelled. -/
structure Alone
    (r : BuilderRun K)
    (b : NotificationBuilder K) : Prop where
  builders_eq : r.builders = [b]
  undelivered : 0 ∉ r.destroyed → r.delivering = []
  delivered :
    0 ∈ r.destroyed → b.notification = true →
      r.delivering = [b]
  registered :
    ∀ kind builder cb,
      r.registered kind = some (builder, cb) →
        b.callback kind = some cb

omit [DecidableEq K] in
theorem alone_start :
    (start : BuilderRun K).Alone .construct where
  builders_eq := rfl
  undelivered _ := rfl
  delivered hDestroyed := by cases hDestroyed
  registered _ _ _ hRegistered := by cases hRegistered

variable {b : NotificationBuilder K}

omit [DecidableEq K] in
theorem Alone.live
    (hAlone : r.Alone b)
    {builder : Nat}
    {other : NotificationBuilder K}
    (hLive : r.live builder = some other) :
    builder = 0 ∧ other = b ∧ 0 ∉ r.destroyed := by
  unfold BuilderRun.live at hLive
  rw [hAlone.builders_eq] at hLive
  split at hLive
  · cases hLive
  · rename_i hNot
    cases builder with
    | zero =>
        simp only [List.getElem?_cons_zero] at hLive
        exact ⟨rfl, (Option.some.inj hLive).symm, hNot⟩
    | succ builder => simp at hLive

omit [DecidableEq K] in
theorem callback_register
    (b : NotificationBuilder K)
    (kind other : CallbackKind)
    (cb : K) :
    (b.register kind cb).callback other =
      if other = kind then some cb else b.callback other := by
  cases kind <;> cases other <;> rfl

omit [DecidableEq K] in
theorem Alone.register
    (hAlone : r.Alone b)
    (builder : Nat)
    (kind : CallbackKind)
    (cb : K) :
    ∃ next, (r.step (.register builder kind cb)).Alone next := by
  simp only [BuilderRun.step]
  cases hLive : r.live builder with
  | none => exact ⟨b, hAlone⟩
  | some other =>
      rcases hAlone.live hLive with ⟨hZero, hSame, hNot⟩
      refine ⟨b.register kind cb, ?_⟩
      constructor
      · simp only [hAlone.builders_eq, hZero, hSame]
        rfl
      · exact hAlone.undelivered
      · intro hDestroyed
        exact absurd hDestroyed hNot
      · intro asked holder registered hRegistered
        rw [callback_register]
        by_cases hKind : asked = kind
        · rw [hKind] at hRegistered ⊢
          simp only [Function.update_self, Option.some.injEq,
            Prod.mk.injEq] at hRegistered
          rw [if_pos rfl, hRegistered.2]
        · rw [if_neg hKind]
          simp only [Function.update_of_ne hKind]
            at hRegistered
          exact hAlone.registered asked holder registered
            hRegistered

omit [DecidableEq K] in
theorem Alone.cancel
    (hAlone : r.Alone b)
    (builder : Nat) :
    ∃ next, (r.step (.cancel builder)).Alone next := by
  simp only [BuilderRun.step]
  cases hLive : r.live builder with
  | none => exact ⟨b, hAlone⟩
  | some other =>
      rcases hAlone.live hLive with ⟨hZero, hSame, hNot⟩
      refine ⟨b.cancel, ?_⟩
      constructor
      · simp only [hAlone.builders_eq, hZero, hSame]
        rfl
      · exact hAlone.undelivered
      · intro hDestroyed
        exact absurd hDestroyed hNot
      · intro kind holder cb hRegistered
        cases kind <;>
          exact hAlone.registered _ holder cb hRegistered

omit [DecidableEq K] in
theorem Alone.destroy
    (hAlone : r.Alone b)
    (builder : Nat) :
    (r.step (.destroy builder)).Alone b := by
  simp only [BuilderRun.step]
  cases hLive : r.live builder with
  | none => exact hAlone
  | some other =>
      rcases hAlone.live hLive with ⟨hZero, hSame, hNot⟩
      have hNone := hAlone.undelivered hNot
      rw [hZero, hSame]
      dsimp only
      unfold release
      cases hNotification : b.notification with
      | false =>
          constructor
          · exact hAlone.builders_eq
          · intro hAgain
            exact absurd List.mem_cons_self hAgain
          · intro _ hTrue
            rw [hNotification] at hTrue
            cases hTrue
          · exact hAlone.registered
      | true =>
          simp only [if_true, hNone, List.nil_append, ite_self]
          split
          · exact
              { builders_eq := hAlone.builders_eq
                undelivered := fun hAgain =>
                  absurd List.mem_cons_self hAgain
                delivered := fun _ _ => rfl
                registered := hAlone.registered }
          · exact
              { builders_eq := hAlone.builders_eq
                undelivered := fun hAgain =>
                  absurd List.mem_cons_self hAgain
                delivered := fun _ _ => rfl
                registered := hAlone.registered }

omit [DecidableEq K] in
theorem Alone.updateState
    (hAlone : r.Alone b)
    (state : NotificationState) :
    (r.updateState state).Alone b := by
  rcases delivering_updateState r state with
    ⟨hBuilders, hDestroyed, hRegistered, hDelivering⟩
  constructor
  · rw [hBuilders]
    exact hAlone.builders_eq
  · rw [hDestroyed, hDelivering]
    exact hAlone.undelivered
  · rw [hDestroyed, hDelivering]
    exact hAlone.delivered
  · rw [hRegistered]
    exact hAlone.registered

omit [DecidableEq K] in
theorem alone_run
    (events : List (BuilderEvent K))
    (hUnmoved : ∀ builder, .move builder ∉ events) :
    ∃ b, (start.run events : BuilderRun K).Alone b := by
  induction events using List.reverseRecOn with
  | nil => exact ⟨_, alone_start⟩
  | append_singleton events event ih =>
      rcases ih (fun builder hMem => hUnmoved builder
        (List.mem_append_left _ hMem)) with ⟨b, hAlone⟩
      rw [run_snoc]
      cases event with
      | register builder kind cb =>
          exact hAlone.register builder kind cb
      | cancel builder => exact hAlone.cancel builder
      | move builder =>
          exact absurd
            (List.mem_append_right _ List.mem_cons_self)
            (hUnmoved builder)
      | destroy builder => exact ⟨b, hAlone.destroy builder⟩
      | notify => exact ⟨b, hAlone.updateState .success⟩
      | fail => exact ⟨b, hAlone.updateState .failed⟩

/- Callbacks fire once where no builder is moved. -/
theorem deliveredOnce_of_unmoved
    (events : List (BuilderEvent K))
    (hUnmoved : ∀ builder, .move builder ∉ events) :
    (start.run events : BuilderRun K).DeliveredOnce := by
  rcases alone_run events hUnmoved with ⟨b, hAlone⟩
  intro hFinished kind cb hLast _
  rcases hLast with ⟨builder, other, hRegistered, hGet, hHas⟩
  have hDestroyed :=
    hFinished.2 0 (by
      rw [hAlone.builders_eq]
      exact Nat.zero_lt_one)
  rw [hAlone.builders_eq] at hGet
  have hSame : other = b := by
    cases builder with
    | zero =>
        simp only [List.getElem?_cons_zero] at hGet
        exact (Option.some.inj hGet).symm
    | succ builder => simp at hGet
  rw [hSame] at hHas
  rw [hAlone.delivered hDestroyed hHas]
  simp [hAlone.registered kind builder cb hRegistered]

end BuilderRun

end OefCore
