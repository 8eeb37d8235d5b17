import Mathlib.Tactic.Common
import OefCore.Basic.Numerals
import OefCore.Library.Regex

/-
  `Uri` of cpp-utils: addresses taken apart by a regular
  expression, whose groups a switch goes through.

  Main declarations:
    * `Uri.regex`, `Uri.What`
    * `Uri.assign`, `Uri.ofString`
-/

namespace OefCore

------------------------------------------------------------
-- The Expression
------------------------------------------------------------

/- `[-a-zA-Z0-9\.]`. -/
def isHostChar (c : Char) : Bool :=
  c.isAlphanum || c = '-' || c = '.'

/- The dot matches all but line terminators. -/
def isNotLineTerminator (c : Char) : Bool :=
  c ≠ '\n' && c ≠ '\r'

namespace Uri

def protoGroup : Regex Char :=
  .group 1
    (.seq (.plus (.char isHostChar)) (Regex.literal [':']))

def hostGroup : Regex Char :=
  .group 2 (.plus (.char isHostChar))

def portGroup : Regex Char :=
  .group 3 (.seq (Regex.literal [':']) (.plus (.char Char.isDigit)))

def pathGroup : Regex Char :=
  .group 4
    (.seq (Regex.literal ['/']) (.star (.char isNotLineTerminator)))

/- The expression; that case is ignored changes none of its
   classes. -/
def regex : Regex Char :=
  .seq (.opt protoGroup)
    (.seq (Regex.literal ['/', '/'])
      (.seq hostGroup
        (.seq (.opt portGroup) (.opt pathGroup))))

end Uri

------------------------------------------------------------
-- Parsing
------------------------------------------------------------

/- What there is besides the text itself. -/
structure Uri where
  proto : String
  host : String
  path : String
  port : UInt16
  valid : Bool
  deriving DecidableEq, Repr

namespace Uri

/- The cases of the switch. -/
inductive What where
  | all
  | proto
  | host
  | port
  | path
  deriving DecidableEq, Repr

def assignPath
    (uri : Uri)
    (expectedpart : What)
    (part : List Char) : Uri × What :=
  ({ uri with path := String.ofList part }, expectedpart)

def assignHost
    (uri : Uri)
    (part : List Char) : Uri × What :=
  ({ uri with host := String.ofList part }, .port)

/- One part; a case that its part is not for falls through. -/
def assign
    (uri : Uri)
    (expectedpart : What)
    (part : List Char) : Except Exception (Uri × What) :=
  match expectedpart with
  | .all => .ok (uri, .proto)
  | .proto =>
      if part.getLast? = some ':' then
        .ok ({ uri with proto := String.ofList part }, .host)
      else
        .ok (uri.assignHost part)
  | .host => .ok (uri.assignHost part)
  | .port =>
      if part.head? = some ':' then do
        let number ← stoi part.tail
        return ({ uri with port := UInt16.ofInt number }, .path)
      else
        .ok (uri.assignPath expectedpart part)
  | .path => .ok (uri.assignPath expectedpart part)

/- The loop over the parts. -/
def assignAll
    (uri : Uri)
    (expectedpart : What) :
    List (List Char) → Except Exception Uri
  | [] => .ok uri
  | part :: parts => do
      let assigned ← uri.assign expectedpart part
      assigned.1.assignAll assigned.2 parts

/- A group that took no part counts as empty. -/
def partsOf
    (s : List Char)
    (captures : Regex.Captures Char) : List (List Char) :=
  [s, captures.text 1, captures.text 2, captures.text 3,
    captures.text 4]

def parse
    (uri : Uri)
    (s : String) : Except Exception Uri :=
  let uri :=
    { uri with
      valid := false
      proto := ""
      host := ""
      path := ""
      port := 0 }
  match regex.regexMatch s.toList with
  | none => .ok uri
  | some captures => do
      let uri ← uri.assignAll .all (partsOf s.toList captures)
      return { uri with valid := true }

/- `Uri(s)`. -/
def ofString (s : String) : Except Exception Uri :=
  parse
    { proto := ""
      host := ""
      path := ""
      port := 0
      valid := false }
    s

end Uri

end OefCore
