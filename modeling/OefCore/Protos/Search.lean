/-
  The messages between the core and the search node.

  Main declarations:
    * `AgentInfo`, `SearchItem`, `SearchResponse`
    * `AgentSearch`, `SearchQuery`
-/

namespace OefCore

/- A `double` is only copied; it is kept by its bits. -/
structure AgentInfo where
  key : String
  score : UInt64
  deriving DecidableEq, Repr

/- `SearchResponse.Item`, and `SearchResultWide.Item` with the
   same fields. -/
structure SearchItem where
  key : String
  ip : String
  port : UInt32
  info : String
  distance : UInt64
  agents : List AgentInfo
  deriving DecidableEq, Repr

structure SearchResponse where
  result : List SearchItem
  deriving DecidableEq, Repr

/- The queries themselves are kept in wire form; a query that
   was not set is the empty one. -/
structure AgentSearch where
  query : List UInt8
  queryV2 : Option (List UInt8)
  deriving DecidableEq, Repr

structure SearchQuery where
  sourceKey : String
  model : Option (List UInt8)
  queryV2 : Option (List UInt8)
  ttl : UInt32
  deriving DecidableEq, Repr

end OefCore
