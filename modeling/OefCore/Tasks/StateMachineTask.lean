import OefCore.Threading.Taskpool

/-
  `StateMachineTask`: a task whose run goes from one state
  function to another.

  Main declarations:
    * `StateMachineTask`, `StateResult`
    * `StateMachineTask.setState`, `verdict`
-/

namespace OefCore

/- `Result`: the index of the next state function, and what
   becomes of the run. -/
structure StateResult where
  first : Nat
  second : ExitState
  deriving DecidableEq, Repr

/- State functions are known by name, of type `F`; `state` is
   none when the pointer is null. -/
structure StateMachineTask (F : Type) where
  entrypoints : List F
  state : Option F
  deriving DecidableEq, Repr

namespace StateMachineTask

variable {F : Type}

def construct (entrypoints : List F) : StateMachineTask F where
  entrypoints := entrypoints
  state := entrypoints[0]?

/- The first part of the loop body, once the state function
   has returned. -/
def setState
    (self : StateMachineTask F)
    (result : StateResult) : StateMachineTask F :=
  { self with
    state :=
      if result.first ≠ 0 then
        self.entrypoints[result.first]?
      else
        none }

/- What `run` returns then; `none` where its loop goes on. -/
def verdict
    (self : StateMachineTask F)
    (result : StateResult) : Option ExitState :=
  match result.second with
  | .complete => if self.state.isNone then some .complete else none
  | .defer => some .defer
  | .cancelled => some .cancelled
  | .errored => some .errored

end StateMachineTask

end OefCore
