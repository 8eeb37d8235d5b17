import Mathlib.Tactic.Common

/-
  The addresses of agents: `OEFURI::URI` and the splitting of
  texts that it rests on.

  Main declarations:
    * `split`
    * `URI`, `URI.parse`, `URI.parseAgent`, `URI.toString`
-/

namespace OefCore

------------------------------------------------------------
-- Splitting
------------------------------------------------------------

/-
  What a loop of `std::getline` reads: each line ends at a
  delimiter, which is taken off, or at the end of the text.
-/
def getlines
    (delim : Char)
    (text : List Char) : List (List Char) :=
  match text with
  | [] => []
  | c :: rest =>
      (c :: rest).takeWhile (· ≠ delim) ::
        getlines delim
          (((c :: rest).dropWhile (· ≠ delim)).drop 1)
termination_by text.length
decreasing_by
  have hDropped :=
    (List.dropWhile_suffix (l := c :: rest)
      (· ≠ delim)).length_le
  simp only [List.length_cons, List.length_drop] at hDropped ⊢
  omega

/-
  The empty text, whose last character the source asks for
  all the same, counts as not ending in a slash.
-/
def split
    (str : String)
    (delim : Char) : List String :=
  let tokens := (getlines delim str.toList).map String.ofList
  if str.toList.getLast? = some '/' then
    tokens ++ [""]
  else
    tokens

------------------------------------------------------------
-- Addresses
------------------------------------------------------------

structure URI where
  protocol : String := "tcp"
  coreURI : String := ""
  coreKey : String := ""
  namespaces : List String := []
  agentKey : String := ""
  agentAlias : String := ""
  empty : Bool := true
  deriving DecidableEq, Repr

namespace URI

def toString (self : URI) : String :=
  self.protocol ++ "://" ++
    self.coreURI ++ "/" ++
    self.coreKey ++ "/" ++
    String.intercalate "/" self.namespaces ++ "/" ++
    self.agentKey ++ "/" ++
    self.agentAlias

def agentPartAsString (self : URI) : String :=
  self.agentKey ++
    (if self.agentAlias ≠ "" then "/" ++ self.agentAlias
     else "")

/- A text of fewer than seven parts is ignored. -/
def parse
    (self : URI)
    (uri : String) : URI :=
  let vec := split uri '/'
  if vec.length < 7 then
    self
  else
    { self with
      empty := false
      protocol :=
        String.ofList (vec.getD 0 "").toList.dropLast
      coreURI := vec.getD 2 ""
      coreKey := vec.getD 3 ""
      agentAlias := vec.getD (vec.length - 1) ""
      agentKey := vec.getD (vec.length - 2) ""
      namespaces :=
        self.namespaces ++
          ((vec.take (vec.length - 2)).drop 4) }

def parseAgent
    (self : URI)
    (src : String) : URI :=
  if '/' ∉ src.toList then
    { self with agentKey := src }
  else
    match split src '/' with
    | [key, agentAlias] =>
        { self with
          empty := false
          agentKey := key
          agentAlias := agentAlias }
    | _ => self

end URI

end OefCore
