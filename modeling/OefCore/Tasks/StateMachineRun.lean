import OefCore.Library.Runs
import OefCore.Tasks.StateMachineTask

/-
  The runs of a `StateMachineTask` by a pool: the first one,
  and one more after each DEFER.

  Main declarations:
    * `StateMachineRun`, `StateMachineEvent`
    * `StateMachineRun.Resumable`, `ResumedAtState`
    * `StateMachineRun.resumable_iff`
-/

namespace OefCore

variable {F : Type}

------------------------------------------------------------
-- Runs
------------------------------------------------------------

/- Before the first run; within a state function; suspended,
   with the index that came with DEFER; done; or lost in a call
   through a null pointer. -/
inductive MachinePlace where
  | ready
  | running
  | deferred (index : Nat)
  | finished (status : ExitState)
  | crashed
  deriving DecidableEq, Repr

/- `calls` are the pointers through which `run` called, and
   `resumed` those of the first calls after a DEFER, with the
   index that came with it. -/
structure StateMachineRun (F : Type) where
  task : StateMachineTask F
  place : MachinePlace
  calls : List (Option F)
  resumed : List (Nat × Option F)

/- The pool calls `run`; or the state function that was called
   returns. -/
inductive StateMachineEvent where
  | run
  | result (result : StateResult)
  deriving DecidableEq, Repr

namespace StateMachineRun

def start (entrypoints : List F) : StateMachineRun F where
  task := .construct entrypoints
  place := .ready
  calls := []
  resumed := []

/- `(ptr ->* state)()`. -/
def callState (r : StateMachineRun F) : StateMachineRun F :=
  { r with
    calls := r.calls ++ [r.task.state]
    place :=
      match r.task.state with
      | some _ => .running
      | none => .crashed }

/- What does not fit the place of the task does not happen. -/
def step
    (r : StateMachineRun F) :
    StateMachineEvent → StateMachineRun F
  | .run =>
      match r.place with
      | .ready => r.callState
      | .deferred index =>
          { r with
            resumed :=
              r.resumed ++
                [(index, r.task.state)] }.callState
      | _ => r
  | .result result =>
      match r.place with
      | .running =>
          let next :=
            { r with task := r.task.setState result }
          match next.task.verdict result with
          | none => next.callState
          | some .defer =>
              { next with place := .deferred result.first }
          | some status =>
              { next with place := .finished status }
      | _ => r

def run
    (r : StateMachineRun F)
    (events : List StateMachineEvent) : StateMachineRun F :=
  events.foldl step r

theorem run_snoc
    (r : StateMachineRun F)
    (events : List StateMachineEvent)
    (event : StateMachineEvent) :
    r.run (events ++ [event]) = (r.run events).step event := by
  simp [run]

------------------------------------------------------------
-- What Is Promised
------------------------------------------------------------

/- No call went through a null pointer, and each run after a
   DEFER began with the state that was selected. -/
structure Resumable
    (r : StateMachineRun F)
    (entrypoints : List F) : Prop where
  callable : none ∉ r.calls
  continued :
    ∀ index state, (index, state) ∈ r.resumed →
      state = entrypoints[index]?

/- A task that is run again deferred with an index other than
   0. -/
def ResumedAtState
    (r : StateMachineRun F) : StateMachineEvent → Prop
  | .run => r.place ≠ .deferred 0
  | .result _ => True

/- The index of a result is in the table. -/
def InTable
    (entrypoints : List F) : StateMachineEvent → Prop
  | .run => True
  | .result result => result.first < entrypoints.length

------------------------------------------------------------
-- The State Pointer
------------------------------------------------------------

/- Where the state pointer is, by the place of the task. -/
structure Pointed
    (r : StateMachineRun F)
    (entrypoints : List F) : Prop where
  entrypoints_eq : r.task.entrypoints = entrypoints
  ready : r.place = .ready → r.task.state = entrypoints[0]?
  deferred :
    ∀ index, r.place = .deferred index →
      index < entrypoints.length ∧
        r.task.state =
          if index ≠ 0 then entrypoints[index]? else none
  resumable : r.Resumable entrypoints

variable {r : StateMachineRun F}
variable {entrypoints : List F}

theorem pointed_start (entrypoints : List F) :
    (start entrypoints).Pointed entrypoints where
  entrypoints_eq := rfl
  ready _ := rfl
  deferred _ hDeferred := by cases hDeferred
  resumable :=
    { callable := by simp [start]
      continued := by
        intro index state hResumed
        cases hResumed }

/- A call through a pointer that is not null. -/
theorem pointed_callState
    (before : StateMachineRun F)
    (hEntrypoints : before.task.entrypoints = entrypoints)
    (hResumable : before.Resumable entrypoints)
    (hState : before.task.state ≠ none) :
    before.callState.Pointed entrypoints := by
  rcases Option.ne_none_iff_exists'.mp hState with
    ⟨state, hSome⟩
  have hPlace : before.callState.place = .running := by
    simp [StateMachineRun.callState, hSome]
  constructor
  · exact hEntrypoints
  · intro hReady
    rw [hPlace] at hReady
    cases hReady
  · intro index hDeferred
    rw [hPlace] at hDeferred
    cases hDeferred
  · constructor
    · intro hNull
      rcases List.mem_append.mp hNull with hOld | hNew
      · exact hResumable.callable hOld
      · exact hState (List.mem_singleton.mp hNew).symm
    · exact hResumable.continued

theorem Pointed.run
    (hPointed : r.Pointed entrypoints)
    (hNonempty : entrypoints ≠ [])
    (hCondition : r.ResumedAtState .run) :
    (r.step .run).Pointed entrypoints := by
  cases hPlace : r.place with
  | ready =>
      have hState := hPointed.ready hPlace
      simp only [StateMachineRun.step, hPlace]
      apply pointed_callState _ hPointed.entrypoints_eq
        hPointed.resumable
      rw [hState]
      simpa using hNonempty
  | deferred index =>
      rcases hPointed.deferred index hPlace with
        ⟨hIndex, hState⟩
      have hNonzero : index ≠ 0 := by
        intro hZero
        rw [hZero] at hPlace
        exact hCondition hPlace
      rw [if_pos hNonzero] at hState
      simp only [StateMachineRun.step, hPlace]
      refine pointed_callState _ ?_ ?_ ?_
      · exact hPointed.entrypoints_eq
      · constructor
        · exact hPointed.resumable.callable
        · intro other state hResumed
          rcases List.mem_append.mp hResumed with hOld | hNew
          · exact hPointed.resumable.continued other state hOld
          · cases List.mem_singleton.mp hNew
            exact hState
      · change r.task.state ≠ none
        rw [hState]
        simpa using hIndex
  | running =>
      simp only [StateMachineRun.step, hPlace]
      exact hPointed
  | finished status =>
      simp only [StateMachineRun.step, hPlace]
      exact hPointed
  | crashed =>
      simp only [StateMachineRun.step, hPlace]
      exact hPointed

/- The task ends a run with a result that is in the table. -/
theorem Pointed.setState
    (hPointed : r.Pointed entrypoints)
    {result : StateResult}
    (hIndex : result.first < entrypoints.length)
    {place : MachinePlace}
    (hDeferred : ∀ index, place = .deferred index →
      index = result.first)
    (hNotReady : place ≠ .ready) :
    ({ r with
        task := r.task.setState result
        place := place } : StateMachineRun F).Pointed
          entrypoints := by
  constructor
  · exact hPointed.entrypoints_eq
  · intro hReady
    exact absurd hReady hNotReady
  · intro index hPlace
    have hState :
        (r.task.setState result).state =
          if result.first ≠ 0 then
            entrypoints[result.first]?
          else
            none := by
      rw [← hPointed.entrypoints_eq]
      rfl
    rw [hDeferred index hPlace]
    exact ⟨hIndex, hState⟩
  · exact
      { callable := hPointed.resumable.callable
        continued := hPointed.resumable.continued }

theorem Pointed.result
    (hPointed : r.Pointed entrypoints)
    {result : StateResult}
    (hIndex : result.first < entrypoints.length) :
    (r.step (.result result)).Pointed entrypoints := by
  by_cases hRunning : r.place = .running
  · simp only [StateMachineRun.step, hRunning]
    split
    · rename_i hGoesOn
      refine pointed_callState _ ?_ ?_ ?_
      · exact hPointed.entrypoints_eq
      · exact
          { callable := hPointed.resumable.callable
            continued := hPointed.resumable.continued }
      · intro hNull
        have hNone : (r.task.setState result).state = none :=
          hNull
        unfold StateMachineTask.verdict at hGoesOn
        rw [hNone] at hGoesOn
        split at hGoesOn <;> cases hGoesOn
    · apply hPointed.setState hIndex
      · intro index hPlace
        cases hPlace
        rfl
      · exact MachinePlace.noConfusion
    · apply hPointed.setState hIndex
      · intro index hPlace
        cases hPlace
      · exact MachinePlace.noConfusion
  · have hSame : r.step (.result result) = r := by
      simp only [StateMachineRun.step]
    rw [hSame]
    exact hPointed

/- A task that is run with a null pointer is not resumable
   any more. -/
theorem Pointed.resumedAtState
    (hPointed : r.Pointed entrypoints)
    {event : StateMachineEvent}
    (hResumable : (r.step event).Resumable entrypoints) :
    r.ResumedAtState event := by
  cases event with
  | run =>
      intro hPlace
      have hState := (hPointed.deferred 0 hPlace).2
      have hCalls :
          (r.step .run).calls = r.calls ++ [none] := by
        simp only [StateMachineRun.step, hPlace,
          StateMachineRun.callState]
        rw [hState]
        rfl
      apply hResumable.callable
      rw [hCalls]
      exact List.mem_append_right _ List.mem_cons_self
  | result result => trivial

/-
  A state machine can be resumed all along exactly if it is
  not run again after DEFER with the index 0.
-/
theorem resumable_iff
    (hNonempty : entrypoints ≠ [])
    {events : List StateMachineEvent}
    (hTable : ∀ event ∈ events, InTable entrypoints event) :
    (∀ front, front <+: events →
      ((start entrypoints).run front).Resumable
        entrypoints) ↔
      ∀ front event back,
        events = front ++ event :: back →
          ((start entrypoints).run front).ResumedAtState
            event := by
  apply Runs.forall_prefix_iff
    fun front =>
      ((start entrypoints).run front).Pointed entrypoints
  · exact pointed_start entrypoints
  · exact fun _ hPointed => hPointed.resumable
  · intro front event back hSplit hPointed hCondition
    rw [run_snoc]
    have hEvent : event ∈ events := by
      rw [hSplit]
      exact List.mem_append_right _ List.mem_cons_self
    cases event with
    | run => exact hPointed.run hNonempty hCondition
    | result result => exact hPointed.result (hTable _ hEvent)
  · intro front event _ _ hPointed hResumable
    rw [run_snoc] at hResumable
    exact hPointed.resumedAtState hResumable

/- A task that defers with its second state, and then
   completes. -/
def answered : List StateMachineEvent :=
  [.run, .result { first := 1, second := .defer }, .run,
    .result { first := 0, second := .complete }]

theorem resumable_iff_answered :
    (∀ front, front <+: answered →
      ((start ["createConv", "handleResponse"]).run
        front).Resumable ["createConv", "handleResponse"]) ↔
      ∀ front event back,
        answered = front ++ event :: back →
          ((start ["createConv", "handleResponse"]).run
            front).ResumedAtState event := by
  apply resumable_iff (by decide)
  intro event hEvent
  simp only [answered, List.mem_cons, List.not_mem_nil,
    or_false] at hEvent
  rcases hEvent with rfl | rfl | rfl | rfl
  · trivial
  · exact Nat.lt_add_one 1
  · trivial
  · exact Nat.zero_lt_two

/- A task whose second state waits for more with the index
   0. -/
def waitingForMore : List StateMachineEvent :=
  [.run, .result { first := 1, second := .defer }, .run,
    .result { first := 0, second := .defer }, .run]

theorem not_resumable_of_waitingForMore :
    ¬ ∀ front, front <+: waitingForMore →
      ((start ["createConv", "handleResponse"]).run
        front).Resumable
          ["createConv", "handleResponse"] := by
  intro hAll
  have hResumable := hAll waitingForMore (List.prefix_refl _)
  exact hResumable.callable (by decide)

end StateMachineRun

end OefCore
