import Mathlib.Data.List.GetD
import OefCore.Tasks.Splitting

/-
  What becomes of an address that is printed and parsed again.

  Main declarations:
    * `split_intercalate`
    * `URI.SlashFree`, `URI.SameAddress`, `URI.parts`
    * `URI.parse_toString`
    * `URI.roundTrips_iff`
-/

namespace OefCore

------------------------------------------------------------
-- Splitting What Was Joined
------------------------------------------------------------

/- Two parts or more without slashes are found again. -/
theorem split_intercalate
    (first second : String)
    (rest : List String)
    (hParts :
      ∀ part ∈ first :: second :: rest, '/' ∉ part.toList) :
    split (String.intercalate "/" (first :: second :: rest))
        '/' =
      first :: second :: rest := by
  have hChars :
      ∀ part ∈ (first :: second :: rest).map String.toList,
        '/' ∉ part := by
    intro part hPart
    rcases List.mem_map.mp hPart with ⟨text, hText, hEq⟩
    rw [← hEq]
    exact hParts text hText
  have hText :
      (String.intercalate "/"
          (first :: second :: rest)).toList =
        ['/'].intercalate
          ((first :: second :: rest).map String.toList) := by
    rw [String.toList_intercalate]
    rfl
  have hSome :
      String.intercalate "/" (first :: second :: rest) ≠ "" := by
    rw [ne_eq, ← String.toList_inj, hText]
    simp [List.intercalate]
  rw [split_eq_splitOn hSome, hText,
    List.splitOn_intercalate '/' hChars (by simp)]
  simp [Function.comp_def]

------------------------------------------------------------
-- Addresses
------------------------------------------------------------

namespace URI

/- None of the parts contains a slash. -/
structure SlashFree (uri : URI) : Prop where
  protocol : '/' ∉ uri.protocol.toList
  coreURI : '/' ∉ uri.coreURI.toList
  coreKey : '/' ∉ uri.coreKey.toList
  namespaces :
    ∀ nspace ∈ uri.namespaces, '/' ∉ nspace.toList
  agentKey : '/' ∉ uri.agentKey.toList
  agentAlias : '/' ∉ uri.agentAlias.toList

/- All but the flag `empty` agree. -/
structure SameAddress (uri other : URI) : Prop where
  protocol : uri.protocol = other.protocol
  coreURI : uri.coreURI = other.coreURI
  coreKey : uri.coreKey = other.coreKey
  namespaces : uri.namespaces = other.namespaces
  agentKey : uri.agentKey = other.agentKey
  agentAlias : uri.agentAlias = other.agentAlias

/- The namespaces as they are printed: none at all look like
   one that is empty. -/
def printedNamespaces (self : URI) : List String :=
  if self.namespaces = [] then
    [""]
  else
    self.namespaces

/- The parts of an address between the slashes. -/
def parts (self : URI) : List String :=
  (self.protocol ++ ":") :: "" :: self.coreURI ::
    self.coreKey ::
      (self.printedNamespaces ++
        [self.agentKey, self.agentAlias])

theorem printedNamespaces_ne_nil (self : URI) :
    self.printedNamespaces ≠ [] := by
  unfold printedNamespaces
  split
  · exact List.cons_ne_nil _ _
  · rename_i hSome
    exact hSome

theorem intercalate_printedNamespaces (self : URI) :
    String.intercalate "/" self.printedNamespaces =
      String.intercalate "/" self.namespaces := by
  unfold printedNamespaces
  split
  · rename_i hNone
    rw [hNone, String.intercalate_singleton,
      String.intercalate_nil]
  · rfl

theorem toString_eq (self : URI) :
    self.toString = String.intercalate "/" self.parts := by
  have hTail :
      String.intercalate "/"
          (self.printedNamespaces ++
            [self.agentKey, self.agentAlias]) =
        String.intercalate "/" self.namespaces ++ "/" ++
          (self.agentKey ++ "/" ++ self.agentAlias) := by
    rw [String.intercalate_append_of_ne_nil
        self.printedNamespaces_ne_nil (List.cons_ne_nil _ _),
      intercalate_printedNamespaces,
      String.intercalate_cons_cons,
      String.intercalate_singleton]
  have hSome :
      self.printedNamespaces ++
        [self.agentKey, self.agentAlias] ≠ [] :=
    List.append_ne_nil_of_left_ne_nil
      self.printedNamespaces_ne_nil _
  rw [toString, parts, String.intercalate_cons_cons,
    String.intercalate_cons_cons,
    String.intercalate_cons_cons,
    String.intercalate_cons_of_ne_nil hSome, hTail]
  simp only [String.append_assoc]
  rfl

theorem SlashFree.of_mem_parts
    {self : URI}
    (hFree : self.SlashFree)
    {part : String}
    (hPart : part ∈ self.parts) :
    '/' ∉ part.toList := by
  have hSpaces :
      ∀ nspace ∈ self.printedNamespaces,
        '/' ∉ nspace.toList := by
    unfold printedNamespaces
    split
    · simp
    · exact hFree.namespaces
  simp only [parts, List.mem_cons, List.mem_append,
    List.not_mem_nil, or_false] at hPart
  rcases hPart with
    rfl | rfl | rfl | rfl | hSpace | rfl | rfl
  · simpa using hFree.protocol
  · simp
  · exact hFree.coreURI
  · exact hFree.coreKey
  · exact hSpaces part hSpace
  · exact hFree.agentKey
  · exact hFree.agentAlias

/- The last two parts, and what is before them. -/
theorem parts_eq (self : URI) :
    self.parts =
      [self.protocol ++ ":", "", self.coreURI, self.coreKey] ++
          self.printedNamespaces ++
        [self.agentKey, self.agentAlias] := by
  simp [parts]

theorem getD_parts
    (self : URI)
    (last : Nat) :
    self.parts.getD (self.printedNamespaces.length + 4 + last)
        "" =
      [self.agentKey, self.agentAlias].getD last "" := by
  have hLength :
      ([self.protocol ++ ":", "", self.coreURI,
          self.coreKey] ++ self.printedNamespaces).length =
        self.printedNamespaces.length + 4 := by
    simp
  rw [parts_eq, List.getD_append_right _ _ _ _ (by omega),
    hLength, Nat.add_sub_cancel_left]

theorem middle_parts (self : URI) :
    (self.parts.take
        (self.printedNamespaces.length + 4)).drop 4 =
      self.printedNamespaces := by
  rw [parts_eq, List.take_left' (by simp),
    List.drop_left' (by rfl)]

/- What a fresh address reads off one that was printed. -/
theorem parse_toString
    {self : URI}
    (hFree : self.SlashFree) :
    ({} : URI).parse self.toString =
      { self with
        namespaces := self.printedNamespaces
        empty := false } := by
  have hSplit : split self.toString '/' = self.parts := by
    rw [toString_eq]
    exact split_intercalate _ _ _
      (fun _ hPart => hFree.of_mem_parts hPart)
  have hPositive :=
    List.length_pos_iff.mpr self.printedNamespaces_ne_nil
  have hLength :
      self.parts.length = self.printedNamespaces.length + 6 := by
    simp [parts]
  have hProtocol :
      (self.parts.getD 0 "").toList.dropLast =
        self.protocol.toList := by
    simp [parts]
  have hKey := self.getD_parts 0
  have hAlias := self.getD_parts 1
  have hSpaces := self.middle_parts
  rw [parse, hSplit]
  simp only [hLength]
  rw [if_neg (by omega), hProtocol, String.ofList_toList]
  congr 1

/- The round trip gives the address back exactly if it has a
   namespace. -/
theorem roundTrips_iff
    {uri : URI}
    (hFree : uri.SlashFree) :
    (({} : URI).parse uri.toString).SameAddress uri ↔
      uri.namespaces ≠ [] := by
  rw [parse_toString hFree]
  constructor
  · intro hSame hNone
    have hSpaces := hSame.namespaces
    rw [printedNamespaces, if_pos hNone, hNone] at hSpaces
    cases hSpaces
  · intro hSome
    constructor
    · rfl
    · rfl
    · rfl
    · rw [printedNamespaces, if_neg hSome]
    · rfl
    · rfl

/- An address with two namespaces, one of them empty, and an
   agent without an alias. -/
def twoNamespaces : URI where
  coreURI := "127.0.0.1:10000"
  coreKey := "core"
  namespaces := ["fetch", ""]
  agentKey := "agent"

theorem roundTrips_iff_twoNamespaces :
    (({} : URI).parse twoNamespaces.toString).SameAddress
        twoNamespaces ↔
      twoNamespaces.namespaces ≠ [] := by
  apply roundTrips_iff
  constructor <;> decide

/- An address without namespaces comes back with one. -/
def noNamespaces : URI where
  coreURI := "127.0.0.1:10000"
  coreKey := "core"
  agentKey := "agent"

theorem not_roundTrips_noNamespaces :
    noNamespaces.SlashFree ∧
      ¬ (({} : URI).parse
          noNamespaces.toString).SameAddress noNamespaces := by
  have hFree : noNamespaces.SlashFree := by
    constructor <;> decide
  refine ⟨hFree, ?_⟩
  intro hSame
  have hSpaces := hSame.namespaces
  rw [parse_toString hFree] at hSpaces
  cases hSpaces

end URI

end OefCore
