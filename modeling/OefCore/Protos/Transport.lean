/-
  The header that the messages between the core and the
  search node carry.

  Main declarations:
    * `TransportStatus`, `TransportHeader`
-/

namespace OefCore

/- `TransportHeader.Status`. -/
structure TransportStatus where
  success : Bool
  errorCode : Int := 0
  narrative : List String := []
  deriving DecidableEq, Repr

structure TransportHeader where
  uri : String
  id : UInt64
  status : TransportStatus
  deriving DecidableEq, Repr

end OefCore
