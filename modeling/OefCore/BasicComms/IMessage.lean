import OefCore.BasicComms.CharArrayBuffer
import OefCore.BasicComms.ConstCharArrayBuffer

/-
  What an endpoint knows of its reader and its writer:
  `IMessageReader` and `IMessageWriter`.

  Main declarations:
    * `Callback`, `Thrown`
    * `IMessageReader`, `IMessageWriter`
-/

namespace OefCore

/-
  A `std::function` of the source: what it does to the
  world it acts on, and whether it throws.
-/
abbrev Callback (σ β : Type) :=
  β → σ → Except String Unit × σ

/- An exception, as a handler for `std::exception` and one
   for everything else tell them apart. -/
inductive Thrown where
  | exception (what : String)
  | unknown
  deriving DecidableEq, Repr

/-
  What `checkForMessage` leaves: the reader's side `P`, the
  world its messages went to, and the consumed and needed
  counts or the exception.
-/
structure MessageChecked (P σ : Type) where
  protocol : P
  world : σ
  result : Except Thrown (Nat × Nat)

/- What `checkForSpace` leaves, and returns or throws. -/
structure SpaceChecked (TX : Type) where
  mem : Nat → UInt8
  txq : List TX
  wakes : Nat
  result : Except String (Nat × Nat)

class IMessageReader (P σ : Type) where
  checkForMessage :
    P → List (List UInt8) → σ → MessageChecked P σ

class IMessageWriter (P TX : Type) where
  checkForSpace :
    P → List MutableBuffer → (Nat → UInt8) → List TX →
      SpaceChecked TX

end OefCore
