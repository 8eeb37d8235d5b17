import Mathlib.Logic.Function.Basic

/-
  Notifications: one-shot results with callbacks, and the
  waitables that hand them out.

  A callback is known by what it is for, of type `C`.

  Main declarations:
    * `NotificationState`, `NotificationImplementation`
    * `NotificationImplementation.updateState`, `handlers`,
      `invalidate`, `setCallbacks`
-/

namespace OefCore

inductive NotificationState where
  | waiting
  | success
  | failed
  | timedout
  deriving DecidableEq, Repr

structure NotificationImplementation (C : Type) where
  state : NotificationState
  callbackSuccess : Option C
  callbackFailure : Option C
  callbackComplete : Option C
  deriving DecidableEq, Repr

namespace NotificationImplementation

variable {C : Type}

def create : NotificationImplementation C where
  state := .waiting
  callbackSuccess := none
  callbackFailure := none
  callbackComplete := none

def isWaiting (self : NotificationImplementation C) : Bool :=
  self.state == .waiting

/- What the destructor of a builder does first. -/
def setCallbacks
    (self : NotificationImplementation C)
    (success failure complete : Option C) :
    NotificationImplementation C :=
  { self with
    callbackSuccess := success
    callbackFailure := failure
    callbackComplete := complete }

/- The section of `UpdateState`, and whether the callbacks are
   to be dispatched after it. -/
def updateState
    (self : NotificationImplementation C)
    (state : NotificationState) :
    Bool × NotificationImplementation C :=
  if self.isWaiting then
    (true, { self with state := state })
  else
    (false, self)

/- The callbacks that `DispatchCallbacks` calls, in order. -/
def handlers (self : NotificationImplementation C) : List C :=
  let handler :=
    match self.state with
    | .success => self.callbackSuccess
    | .failed => self.callbackFailure
    | _ => none
  handler.toList ++ self.callbackComplete.toList

/- What `DispatchCallbacks` does last. -/
def invalidate
    (self : NotificationImplementation C) :
    NotificationImplementation C :=
  self.setCallbacks none none none

end NotificationImplementation

end OefCore
