import OefCore.Library.Segments
import OefCore.Tasks.OefUri

/-
  Which texts `split` takes apart exactly: all but the empty
  one, of which it asks for the last character.

  Main declarations:
    * `splitInto`
    * `SplitsExactly`
    * `getlines_eq_splitOn`
    * `splitInto_exact_iff`
-/

namespace OefCore

open Segments

------------------------------------------------------------
-- The Last Character
------------------------------------------------------------

/- `str.back()`; there is none to access in an empty text. -/
def back (str : String) : Option Char :=
  str.toList.getLast?

/-
  `split` with the container that it appends to, and with
  `none` for an access out of range.
-/
def splitInto
    (str : String)
    (cont : List String)
    (delim : Char) : Option (List String) :=
  let cont :=
    cont ++ (getlines delim str.toList).map String.ofList
  match back str with
  | none => none
  | some last =>
      if last = '/' then
        some (cont ++ [""])
      else
        some cont

theorem back_eq_none_iff (str : String) :
    back str = none ↔ str = "" := by
  rw [back, List.getLast?_eq_none_iff,
    String.toList_eq_nil_iff]

/- What is appended does not depend on what is there. -/
theorem splitInto_eq_some_iff
    (str : String)
    (cont result : List String)
    (delim : Char) :
    splitInto str cont delim = some result ↔
      str ≠ "" ∧ result = cont ++ split str delim := by
  rw [ne_eq, ← back_eq_none_iff]
  unfold splitInto split
  cases hBack : back str with
  | none => simp
  | some last =>
      have hLast : str.toList.getLast? = some last := hBack
      rw [hLast]
      by_cases hSlash : last = '/'
      · simp [hSlash, eq_comm]
      · simp [hSlash, eq_comm]

------------------------------------------------------------
-- Lines
------------------------------------------------------------

theorem getlines_cons
    (delim c : Char)
    (rest : List Char) :
    getlines delim (c :: rest) =
      (c :: rest).takeWhile (· ≠ delim) ::
        getlines delim
          (((c :: rest).dropWhile (· ≠ delim)).drop 1) := by
  rw [getlines]

/- A line that a delimiter ends is read up to there. -/
theorem getlines_append
    {delim : Char}
    {line : List Char}
    (hLine : delim ∉ line)
    (rest : List Char) :
    getlines delim (line ++ delim :: rest) =
      line :: getlines delim rest := by
  cases hText : line ++ delim :: rest with
  | nil => simp at hText
  | cons c others =>
      rw [getlines_cons, ← hText,
        takeWhile_append_delim hLine,
        dropWhile_append_delim hLine]
      rfl

/- The last line needs no delimiter. -/
theorem getlines_of_notMem
    {delim : Char}
    {text : List Char}
    (hText : delim ∉ text)
    (hNonempty : text ≠ []) :
    getlines delim text = [text] := by
  have hAll : ∀ c ∈ text, (c ≠ delim : Bool) = true := by
    intro c hMem
    simp only [ne_eq, decide_not, Bool.not_eq_true',
      decide_eq_false_iff_not]
    intro hEq
    exact hText (hEq ▸ hMem)
  cases text with
  | nil => exact absurd rfl hNonempty
  | cons c rest =>
      rw [getlines_cons, List.takeWhile_eq_self_iff.mpr hAll,
        List.dropWhile_eq_nil_iff.mpr hAll]
      simp [getlines]

/- What ends a text with a delimiter in it. -/
theorem getLast?_append_delim
    (line rest : List Char)
    (delim : Char) :
    (line ++ delim :: rest).getLast? = some delim ↔
      rest = [] ∨ rest.getLast? = some delim := by
  rw [List.getLast?_append, List.getLast?_cons]
  cases hLast : rest.getLast? with
  | none =>
      have hNil := List.getLast?_eq_none_iff.mp hLast
      simp [hNil]
  | some last =>
      have hSome : rest ≠ [] := by
        intro hNil
        rw [hNil] at hLast
        cases hLast
      simp [hSome]

/- Lines leave out an empty last segment, and no other. -/
theorem getlines_eq_splitOn
    (delim : Char)
    (text : List Char) :
    getlines delim text ++
        (if text = [] ∨ text.getLast? = some delim then [[]]
          else []) =
      text.splitOn delim := by
  induction text using induct delim with
  | free text hDelim =>
      rw [List.splitOn_eq_singleton hDelim]
      by_cases hEmpty : text = []
      · simp [hEmpty, getlines]
      · have hLast : text.getLast? ≠ some delim := by
          intro hLast
          exact hDelim (List.mem_of_getLast? hLast)
        simp [getlines_of_notMem hDelim hEmpty, hEmpty, hLast]
  | delimited line rest hLine ih =>
      have hSome : line ++ delim :: rest ≠ [] := by simp
      rw [getlines_append hLine, List.cons_append,
        List.splitOn_append_cons_self_of_not_mem hLine, ← ih]
      simp only [getLast?_append_delim, hSome, false_or]

------------------------------------------------------------
-- The Segments
------------------------------------------------------------

/- A text with a character is split at every slash. -/
theorem split_eq_splitOn
    {str : String}
    (hSome : str ≠ "") :
    split str '/' =
      (str.toList.splitOn '/').map String.ofList := by
  have hChars : str.toList ≠ [] := by
    rw [ne_eq, String.toList_eq_nil_iff]
    exact hSome
  rw [← getlines_eq_splitOn, split]
  by_cases hSlash : str.toList.getLast? = some '/'
  · simp [hSlash]
  · simp [hSlash, hChars]

theorem split_empty : split "" '/' = [] := by
  simp [split, getlines]

/-
  What is asked of a splitter at slashes: its tokens are the
  segments of the text, of which there is one more than
  slashes, and which the slashes join to the text.
-/
structure SplitsExactly
    (str : String)
    (tokens : List String) : Prop where
  listing :
    Listing str.toList (Maximal (Free str.toList '/'))
      (tokens.map String.toList)
  length_eq : tokens.length = str.toList.count '/' + 1
  joined : String.intercalate "/" tokens = str

/- The tokens of the splitter of lists are exact. -/
theorem splitsExactly_splitOn (str : String) :
    SplitsExactly str
      ((str.toList.splitOn '/').map String.ofList) := by
  have hBack :
      ((str.toList.splitOn '/').map String.ofList).map
          String.toList =
        str.toList.splitOn '/' := by
    simp [Function.comp_def]
  refine ⟨?_, ?_, ?_⟩
  · rw [hBack]
    exact listing_splitOn _ _
  · rw [List.length_map, length_splitOn]
  · rw [← String.toList_inj, String.toList_intercalate, hBack]
    exact List.intercalate_splitOn '/'

theorem splitsExactly_split_iff (str : String) :
    SplitsExactly str (split str '/') ↔ str ≠ "" := by
  constructor
  · intro hExact hEmpty
    rw [hEmpty, split_empty] at hExact
    exact absurd hExact.length_eq (by simp)
  · intro hSome
    rw [split_eq_splitOn hSome]
    exact splitsExactly_splitOn str

example : split "/a//" '/' = ["", "a", "", ""] := by
  simp [split, getlines]

/- A text of fewer than six slashes is no address, also the
   empty one. -/
theorem URI.parse_of_count_lt
    {uri : String}
    (hFew : uri.toList.count '/' < 6)
    (self : URI) :
    self.parse uri = self := by
  have hShort : (split uri '/').length < 7 := by
    by_cases hEmpty : uri = ""
    · rw [hEmpty, split_empty]
      simp
    · rw [((splitsExactly_split_iff uri).mpr hEmpty).length_eq]
      omega
  rw [parse, if_pos hShort]

/-
  Splitting at slashes accesses no character out of range, and
  appends the segments, exactly for the texts that are not
  empty; for the empty one neither holds.
-/
theorem splitInto_exact_iff
    (str : String)
    (cont : List String) :
    ((∃ tokens,
        splitInto str cont '/' = some (cont ++ tokens) ∧
          SplitsExactly str tokens) ↔
      str ≠ "") ∧
    (SplitsExactly str (split str '/') ↔ str ≠ "") := by
  refine ⟨?_, splitsExactly_split_iff str⟩
  constructor
  · rintro ⟨tokens, hSplit, _⟩
    exact ((splitInto_eq_some_iff _ _ _ _).mp hSplit).1
  · intro hSome
    exact ⟨split str '/',
      (splitInto_eq_some_iff _ _ _ _).mpr ⟨hSome, rfl⟩,
      (splitsExactly_split_iff str).mpr hSome⟩

/- The empty text: the address of an envelope without one. -/
theorem not_splitInto_exact_empty :
    ¬ ∃ tokens,
      splitInto "" [] '/' = some ([] ++ tokens) ∧
        SplitsExactly "" tokens := by
  rintro ⟨tokens, hSplit, _⟩
  exact absurd hSplit (by simp [splitInto, back])

end OefCore
