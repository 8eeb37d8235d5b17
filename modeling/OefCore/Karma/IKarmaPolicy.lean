import Mathlib.Tactic.Common

/-
  What the karma policies share: the exceptions that code
  under an endpoint's handlers throws, and the accounts.

  Main declarations:
    * `Exception`
    * `KarmaAccount`
-/

namespace OefCore

/-
  What is thrown; `standard` is a `std::exception` and none
  of its kinds. `nullPointer` is no exception of the source:
  it stands for the end of the process.
-/
inductive Exception where
  | karma (action : String)
  | disconnect (reason : String)
  | error (reason : String)
  | invalidArgument (message : String)
  | outOfRange (message : String)
  | standard
  | nullPointer
  deriving DecidableEq, Repr

def Exception.what : Exception → String
  | .karma action => "Karma limit reached attempting:" ++ action
  | .disconnect reason => "Disconnect because:" ++ reason
  | .error reason => reason
  | .invalidArgument message => message
  | .outOfRange message => message
  | .standard => "std::exception"
  | .nullPointer => ""

/-
  An account as its holder knows it; without a policy it is
  void.
-/
structure KarmaAccount where
  id : Nat
  hasPolicy : Bool
  name : String
  deriving DecidableEq, Repr

namespace KarmaAccount

def void : KarmaAccount where
  id := 0
  hasPolicy := false
  name := ""

/- `IKarmaPolicy::mkAccount`. -/
def mkAccount
    (number : Nat)
    (name : String) : KarmaAccount where
  id := number
  hasPolicy := true
  name := name

end KarmaAccount

end OefCore
