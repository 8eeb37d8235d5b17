import Mathlib.Algebra.Order.Ring.Nat
import OefCore.Karma.KarmaPolicyBasic
import OefCore.Library.Segments

/-
  The loop of `tokenise`, by positions in a text, and what it
  finds; the policies that a list of actions stands for.

  Main declarations:
    * `StdString`
    * `Tokenising`, `Tokenising.turn`
    * `Tokenising.run_eq_returned_iff`
    * `listing_tokenise`
    * `tokenise_exact`
-/

namespace OefCore

open Segments

------------------------------------------------------------
-- Texts of the Standard Library
------------------------------------------------------------

/- `std::string::npos`, of 64 bits. -/
def npos : Nat := 2 ^ 64 - 1

/- A difference of two sizes. -/
def sizeSub (minuend subtrahend : Nat) : Nat :=
  (minuend + 2 ^ 64 - subtrahend) % 2 ^ 64

/- A `std::string`; no place in it is `npos`. -/
structure StdString where
  chars : List Char
  length_lt : chars.length < npos

namespace StdString

/- The first place from `pos` on at which a test holds, and
   `npos` if there is none. -/
def search
    (self : StdString)
    (test : Char → Bool)
    (pos : Nat) : Nat :=
  match (self.chars.drop pos).findIdx? test with
  | some i => pos + i
  | none => npos

def findFirstNotOf
    (self : StdString)
    (delim : Char)
    (pos : Nat) : Nat :=
  self.search (· ≠ delim) pos

def find
    (self : StdString)
    (delim : Char)
    (pos : Nat) : Nat :=
  self.search (· = delim) pos

/- Nothing stands for a `std::out_of_range`. -/
def substr
    (self : StdString)
    (pos count : Nat) : Option (List Char) :=
  if self.chars.length < pos then
    none
  else
    some ((self.chars.drop pos).take count)

variable (self : StdString)

/- There is nothing from `npos` on. -/
theorem drop_npos : self.chars.drop npos = [] :=
  List.drop_eq_nil_of_le self.length_lt.le

theorem drop_search
    (test : Char → Bool)
    (pos : Nat) :
    self.chars.drop (self.search test pos) =
      (self.chars.drop pos).dropWhile (fun c => !test c) := by
  unfold search
  cases hFound : (self.chars.drop pos).findIdx? test with
  | none =>
      rw [List.findIdx?_eq_none_iff] at hFound
      rw [drop_npos, eq_comm, List.dropWhile_eq_nil_iff]
      intro c hMem
      simp [hFound c hMem]
  | some i =>
      rw [List.findIdx?_eq_some_iff_findIdx_eq] at hFound
      rw [List.dropWhile_eq_drop_findIdx_not, ← List.drop_drop]
      simp [hFound.2]

/- A place that is found is the first one, and lies in the
   text. -/
theorem search_of_found
    {test : Char → Bool}
    {pos : Nat}
    (hFound : self.search test pos ≠ npos) :
    self.search test pos =
        pos + (self.chars.drop pos).findIdx test ∧
      self.search test pos < self.chars.length := by
  unfold search at hFound ⊢
  split at hFound
  · rename_i i hIndex
    rw [List.findIdx?_eq_some_iff_findIdx_eq,
      List.length_drop] at hIndex
    have hInside := hIndex.1
    refine ⟨by rw [hIndex.2], ?_⟩
    omega
  · exact absurd rfl hFound

theorem search_eq_npos_iff
    (test : Char → Bool)
    (pos : Nat) :
    self.search test pos = npos ↔
      (self.chars.drop pos).dropWhile (fun c => !test c) =
        [] := by
  rw [← drop_search, List.drop_eq_nil_iff]
  constructor
  · intro hNone
    rw [hNone]
    exact self.length_lt.le
  · intro hBeyond
    by_contra hFound
    exact absurd (self.search_of_found hFound).2
      (Nat.not_lt.mpr hBeyond)

theorem sizeSub_of_le
    {minuend subtrahend : Nat}
    (hLe : subtrahend ≤ minuend)
    (hSize : minuend ≤ npos) :
    sizeSub minuend subtrahend = minuend - subtrahend := by
  unfold npos at hSize
  unfold sizeSub
  omega

/-
  From a place in the text up to the next delimiter. If there
  is none, `npos` less the place is still not less than what
  is left of the text.
-/
theorem substr_find
    (delim : Char)
    {start : Nat}
    (hStart : start ≤ self.chars.length) :
    self.substr start (sizeSub (self.find delim start) start) =
      some ((self.chars.drop start).takeWhile (· ≠ delim)) := by
  have hLength := self.length_lt
  rw [substr, if_neg (Nat.not_lt.mpr hStart)]
  congr 1
  by_cases hNone : self.find delim start = npos
  · have hAll :=
      (self.search_eq_npos_iff (· = delim) start).mp hNone
    rw [hNone, sizeSub_of_le (by omega) le_rfl,
      List.take_of_length_le
        (by rw [List.length_drop]; omega)]
    rw [eq_comm, List.takeWhile_eq_self_iff]
    rw [List.dropWhile_eq_nil_iff] at hAll
    intro c hMem
    simpa using hAll c hMem
  · have hPlace := (self.search_of_found hNone).1
    have hInside := (self.search_of_found hNone).2
    change self.find delim start < _ at hInside
    change self.find delim start = _ at hPlace
    rw [sizeSub_of_le (by omega) (by omega), hPlace,
      Nat.add_sub_cancel_left,
      List.takeWhile_eq_take_findIdx_not]
    simp

end StdString

------------------------------------------------------------
-- The Loop
------------------------------------------------------------

/- How far `tokenise` has got: before a turn of its loop, with
   `end` and the output so far, or out of the loop. -/
inductive Tokenising where
  | running (finish : Nat) (output : List (List Char))
  | returned (output : List (List Char))
  | outOfRange
  deriving DecidableEq, Repr

namespace Tokenising

def turn
    (input : StdString)
    (delim : Char) : Tokenising → Tokenising
  | running finish output =>
      let start := input.findFirstNotOf delim finish
      if start = npos then
        returned output
      else
        let finish := input.find delim start
        match input.substr start (sizeSub finish start) with
        | none => outOfRange
        | some token => running finish (output ++ [token])
  | done => done

def run
    (input : StdString)
    (delim : Char)
    (output : List (List Char))
    (turns : Nat) : Tokenising :=
  (turn input delim)^[turns] (running 0 output)

variable {input : StdString} {delim : Char}
variable {finish : Nat} (output : List (List Char))

/- If only delimiters are left, the loop is left. -/
theorem turn_of_nil
    (hRest :
      (input.chars.drop finish).dropWhile (· = delim) = []) :
    turn input delim (running finish output) =
      returned output := by
  have hStart : input.findFirstNotOf delim finish = npos := by
    refine (input.search_eq_npos_iff _ _).mpr ?_
    simpa using hRest
  rw [turn, if_pos hStart]

/- Otherwise the next token is put out, and what follows it is
   left for the next turn. -/
theorem turn_of_cons
    {c : Char}
    {rest : List Char}
    (hRest :
      (input.chars.drop finish).dropWhile (· = delim) =
        c :: rest) :
    ∃ next,
      turn input delim (running finish output) =
          running next
            (output ++ [(c :: rest).takeWhile (· ≠ delim)]) ∧
        input.chars.drop next =
          (c :: rest).dropWhile (· ≠ delim) := by
  have hDrop :
      input.chars.drop (input.findFirstNotOf delim finish) =
        c :: rest := by
    rw [← hRest, StdString.findFirstNotOf,
      StdString.drop_search]
    simp
  have hStart : input.findFirstNotOf delim finish ≠ npos := by
    intro hNone
    rw [hNone, StdString.drop_npos] at hDrop
    cases hDrop
  have hInside :=
    (input.search_of_found hStart).2
  change input.findFirstNotOf delim finish < _ at hInside
  refine
    ⟨input.find delim (input.findFirstNotOf delim finish),
      ?_, ?_⟩
  · rw [turn, if_neg hStart]
    simp only [input.substr_find delim hInside.le, hDrop]
  · rw [StdString.find, StdString.drop_search, hDrop]
    simp

end Tokenising

------------------------------------------------------------
-- The Tokens
------------------------------------------------------------

section

variable {delim c : Char} {text line rest : List Char}

theorem tokenise_of_nil
    (hRest : text.dropWhile (· = delim) = []) :
    tokenise text delim = [] := by
  rw [tokenise]
  split
  · rfl
  · rename_i hCons
    rw [hRest] at hCons
    cases hCons

theorem tokenise_of_cons
    (hRest : text.dropWhile (· = delim) = c :: rest) :
    tokenise text delim =
      (c :: rest).takeWhile (· ≠ delim) ::
        tokenise ((c :: rest).dropWhile (· ≠ delim)) delim := by
  have hHead : c ≠ delim := by
    have hNot := List.head?_dropWhile_not (· = delim) text
    rw [hRest] at hNot
    simpa using hNot
  rw [tokenise]
  split
  · rename_i hNil
    rw [hRest] at hNil
    cases hNil
  · rename_i d others hCons
    rw [hRest] at hCons
    cases hCons
    rw [List.dropWhile_cons_of_pos (by simpa using hHead)]

/- A delimiter in front makes no difference. -/
theorem tokenise_delim_cons
    (delim : Char)
    (rest : List Char) :
    tokenise (delim :: rest) delim = tokenise rest delim := by
  have hSkip :
      (delim :: rest).dropWhile (· = delim) =
        rest.dropWhile (· = delim) := by
    simp
  cases hRest : rest.dropWhile (· = delim) with
  | nil =>
      rw [tokenise_of_nil hRest,
        tokenise_of_nil (hSkip.trans hRest)]
  | cons c others =>
      rw [tokenise_of_cons hRest,
        tokenise_of_cons (hSkip.trans hRest)]

/- What stands in front of the first delimiter is a token,
   unless it is empty. -/
theorem tokenise_append
    (hLine : delim ∉ line)
    (rest : List Char) :
    tokenise (line ++ delim :: rest) delim =
      (if line = [] then [] else [line]) ++
        tokenise rest delim := by
  cases line with
  | nil => simp [tokenise_delim_cons]
  | cons c more =>
      have hHead : c ≠ delim := by
        intro hEq
        exact hLine (by simp [hEq])
      have hStart :
          (c :: more ++ delim :: rest).dropWhile (· = delim) =
            c :: (more ++ delim :: rest) := by
        simp [hHead]
      rw [tokenise_of_cons hStart, ← List.cons_append,
        takeWhile_append_delim hLine,
        dropWhile_append_delim hLine, tokenise_delim_cons]
      simp

/- The tokens are what splitting leaves, empty pieces apart. -/
theorem tokenise_eq_filter_splitOn
    (text : List Char)
    (delim : Char) :
    tokenise text delim =
      (text.splitOn delim).filter (· ≠ []) := by
  induction text using induct delim with
  | free text hDelim =>
      rw [List.splitOn_eq_singleton hDelim]
      by_cases hEmpty : text = []
      · rw [hEmpty, tokenise_of_nil (by simp)]
        simp
      · rw [tokenise_of_notMem hEmpty hDelim]
        simp [hEmpty]
  | delimited line rest hLine ih =>
      rw [tokenise_append hLine,
        List.splitOn_append_cons_self_of_not_mem hLine,
        List.filter_cons, ih]
      by_cases hEmpty : line = []
      · simp [hEmpty]
      · simp [hEmpty]

theorem listing_tokenise
    (text : List Char)
    (delim : Char) :
    Listing text (Maximal (FreeNonempty text delim))
      (tokenise text delim) := by
  rw [tokenise_eq_filter_splitOn]
  exact listing_filter_splitOn text delim

end

------------------------------------------------------------
-- Runs of the Loop
------------------------------------------------------------

namespace Tokenising

/- Out of the loop nothing more happens. -/
theorem iterate_returned
    (input : StdString)
    (delim : Char)
    (output : List (List Char))
    (turns : Nat) :
    (turn input delim)^[turns] (returned output) =
      returned output :=
  Function.iterate_fixed rfl turns

/-
  A turn for each token that is left, and one that leaves the
  loop. The induction is on the turns.
-/
theorem iterate_running
    (input : StdString)
    (delim : Char)
    (finish : Nat)
    (output : List (List Char))
    (turns : Nat)
    (hTurns :
      (tokenise (input.chars.drop finish) delim).length <
        turns) :
    (turn input delim)^[turns] (running finish output) =
      returned
        (output ++
          tokenise (input.chars.drop finish) delim) := by
  induction turns generalizing finish output with
  | zero => omega
  | succ turns ih =>
      rw [Function.iterate_succ_apply]
      cases hRest :
          (input.chars.drop finish).dropWhile (· = delim) with
      | nil =>
          rw [turn_of_nil output hRest, iterate_returned,
            tokenise_of_nil hRest, List.append_nil]
      | cons c rest =>
          rcases turn_of_cons output hRest with
            ⟨next, hTurn, hNext⟩
          rw [tokenise_of_cons hRest, ← hNext] at hTurns ⊢
          rw [List.length_cons] at hTurns
          rw [hTurn, ih next _ (by omega), List.append_assoc]
          rfl

/- One turn fewer is not enough. -/
theorem iterate_not_returned
    (input : StdString)
    (delim : Char)
    (finish : Nat)
    (output result : List (List Char))
    (turns : Nat)
    (hTurns :
      turns ≤
        (tokenise (input.chars.drop finish) delim).length) :
    (turn input delim)^[turns] (running finish output) ≠
      returned result := by
  induction turns generalizing finish output with
  | zero => exact nofun
  | succ turns ih =>
      rw [Function.iterate_succ_apply]
      cases hRest :
          (input.chars.drop finish).dropWhile (· = delim) with
      | nil =>
          rw [tokenise_of_nil hRest] at hTurns
          exact absurd hTurns (by simp)
      | cons c rest =>
          rcases turn_of_cons output hRest with
            ⟨next, hTurn, hNext⟩
          rw [tokenise_of_cons hRest, ← hNext,
            List.length_cons] at hTurns
          rw [hTurn]
          exact ih next _ (by omega)

/- The call returns after one turn more than there are
   tokens, with these appended to the output. -/
theorem run_eq_returned_iff
    (input : StdString)
    (delim : Char)
    (output result : List (List Char))
    (turns : Nat) :
    run input delim output turns = returned result ↔
      (tokenise input.chars delim).length < turns ∧
        result = output ++ tokenise input.chars delim := by
  have hWhole : input.chars.drop 0 = input.chars := rfl
  constructor
  · intro hRun
    have hTurns :
        (tokenise input.chars delim).length < turns := by
      by_contra hFew
      refine iterate_not_returned input delim 0 output result
        turns ?_ hRun
      rw [hWhole]
      omega
    refine ⟨hTurns, ?_⟩
    have hEnd :=
      iterate_running input delim 0 output turns hTurns
    rw [hWhole] at hEnd
    have hSame := hRun.symm.trans hEnd
    exact returned.inj hSame
  · rintro ⟨hTurns, hResult⟩
    rw [hResult]
    exact iterate_running input delim 0 output turns hTurns

/- Delimiters in front and in runs; the last token is read up
   to `npos`. -/
example :
    run ⟨[',', 'a', ',', ',', 'b'], by simp [npos]⟩ ',' [] 3 =
      returned [['a'], ['b']] := rfl

end Tokenising

------------------------------------------------------------
-- The Policies of a List of Actions
------------------------------------------------------------

theorem KarmaPolicyBasic.exists_actions
    (policy : KarmaPolicyBasic)
    (action : String) :
    ∃ actions : List String,
      Listing action.toList
          (Maximal (FreeNonempty action.toList ','))
          (actions.map String.toList) ∧
        policy.getPolicies action =
          (if actions = [] then ["*"] else actions).map
            policy.getPolicy := by
  refine
    ⟨(tokenise action.toList ',').map String.ofList, ?_, ?_⟩
  · have hBack :
        ((tokenise action.toList ',').map String.ofList).map
            String.toList =
          tokenise action.toList ',' := by
      simp [Function.comp_def]
    rw [hBack]
    exact listing_tokenise _ _
  · unfold getPolicies
    cases hTokens : tokenise action.toList ',' with
    | nil => simp
    | cons token tokens => simp

/-
  The loop of `tokenise` is left after a turn for each token
  and one more, with no access out of range, and what it has
  appended then are the maximal parts of the text without the
  delimiter that are not empty; so that an action list stands
  for one policy for each action that is not empty, and for
  that of `*` if there is none.
-/
theorem tokenise_exact
    (input : StdString)
    (delim : Char)
    (output : List (List Char))
    (policy : KarmaPolicyBasic)
    (action : String) :
    Listing input.chars
      (Maximal (FreeNonempty input.chars delim))
      (tokenise input.chars delim) ∧
    (∀ turns,
      Tokenising.run input delim output turns =
          .returned
            (output ++ tokenise input.chars delim) ↔
        (tokenise input.chars delim).length < turns) ∧
    (∃ actions : List String,
      Listing action.toList
          (Maximal (FreeNonempty action.toList ','))
          (actions.map String.toList) ∧
        policy.getPolicies action =
          (if actions = [] then ["*"] else actions).map
            policy.getPolicy) ∧
    policy.getPolicies action ≠ [] := by
  refine
    ⟨listing_tokenise _ _, ?_,
      policy.exists_actions action, ?_⟩
  · intro turns
    rw [Tokenising.run_eq_returned_iff]
    exact and_iff_left rfl
  · rcases policy.exists_actions action with
      ⟨actions, _, hPolicies⟩
    rw [hPolicies]
    split
    · simp
    · rename_i hSome
      simpa using hSome

end OefCore
