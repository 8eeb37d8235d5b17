import Mathlib.Data.List.Infix
import Mathlib.Tactic.Common

/-
  Regular expressions with groups, matched as backtracking
  matchers do: the parses of a text come in the order of
  priority, greedy ones first, and the first that takes the
  whole text counts.

  A group is known by its number, and by the text that it
  took.

  Main declarations:
    * `Regex`, `Regex.plus`, `Regex.literal`
    * `Regex.Matches`, `Regex.parses`
    * `Regex.mem_parses`
    * `Regex.regexMatch`, `Regex.regexMatch_eq_some_iff`
-/

------------------------------------------------------------
-- Expressions
------------------------------------------------------------

inductive Regex (α : Type) where
  | empty
  | char (p : α → Bool)
  | seq (first second : Regex α)
  | opt (body : Regex α)
  | star (body : Regex α)
  | group (number : Nat) (body : Regex α)

namespace Regex

variable {α : Type}

/- Groups that took part, in the order in which they were
   done, with what they took. -/
abbrev Captures (α : Type) :=
  List (Nat × List α)

def plus (body : Regex α) : Regex α :=
  .seq body (.star body)

def literal [DecidableEq α] : List α → Regex α
  | [] => .empty
  | c :: rest => .seq (.char fun x => decide (x = c)) (literal rest)

/- What a group took last. -/
def Captures.text
    (captures : Captures α)
    (number : Nat) : List α :=
  ((captures.reverse.find? (·.1 = number)).map Prod.snd).getD []

------------------------------------------------------------
-- What an Expression Describes
------------------------------------------------------------

/- A round of a star takes something. -/
inductive Matches : Regex α → List α → Captures α → Prop where
  | empty : Matches .empty [] []
  | char
      {p : α → Bool} {c : α}
      (hChar : p c = true) :
      Matches (.char p) [c] []
  | seq
      {first second : Regex α}
      {text more : List α}
      {captures others : Captures α}
      (hFirst : Matches first text captures)
      (hSecond : Matches second more others) :
      Matches (.seq first second) (text ++ more)
        (captures ++ others)
  | some
      {body : Regex α}
      {text : List α}
      {captures : Captures α}
      (hBody : Matches body text captures) :
      Matches (.opt body) text captures
  | none {body : Regex α} : Matches (.opt body) [] []
  | done {body : Regex α} : Matches (.star body) [] []
  | more
      {body : Regex α}
      {text more : List α}
      {captures others : Captures α}
      (hText : text ≠ [])
      (hBody : Matches body text captures)
      (hRest : Matches (.star body) more others) :
      Matches (.star body) (text ++ more) (captures ++ others)
  | group
      {number : Nat}
      {body : Regex α}
      {text : List α}
      {captures : Captures α}
      (hBody : Matches body text captures) :
      Matches (.group number body) text
        (captures ++ [(number, text)])

section Inversion

variable {text : List α} {captures : Captures α}

@[simp]
theorem matches_empty_iff :
    Matches (.empty : Regex α) text captures ↔
      text = [] ∧ captures = [] := by
  constructor
  · intro hMatches
    cases hMatches with
    | empty => exact ⟨rfl, rfl⟩
  · rintro ⟨rfl, rfl⟩
    exact .empty

theorem matches_char_iff {p : α → Bool} :
    Matches (.char p) text captures ↔
      ∃ c, p c = true ∧ text = [c] ∧ captures = [] := by
  constructor
  · intro hMatches
    cases hMatches with
    | char hChar => exact ⟨_, hChar, rfl, rfl⟩
  · rintro ⟨c, hChar, rfl, rfl⟩
    exact .char hChar

theorem matches_seq_iff {first second : Regex α} :
    Matches (.seq first second) text captures ↔
      ∃ start more front back,
        text = start ++ more ∧ captures = front ++ back ∧
          Matches first start front ∧
            Matches second more back := by
  constructor
  · intro hMatches
    cases hMatches with
    | seq hFirst hSecond =>
        exact ⟨_, _, _, _, rfl, rfl, hFirst, hSecond⟩
  · rintro ⟨start, more, front, back, rfl, rfl, hFirst, hSecond⟩
    exact .seq hFirst hSecond

theorem matches_opt_iff {body : Regex α} :
    Matches (.opt body) text captures ↔
      Matches body text captures ∨
        text = [] ∧ captures = [] := by
  constructor
  · intro hMatches
    cases hMatches with
    | some hBody => exact Or.inl hBody
    | none => exact Or.inr ⟨rfl, rfl⟩
  · rintro (hBody | ⟨rfl, rfl⟩)
    · exact .some hBody
    · exact .none

theorem matches_star_iff {body : Regex α} :
    Matches (.star body) text captures ↔
      text = [] ∧ captures = [] ∨
        ∃ start more front back,
          text = start ++ more ∧ captures = front ++ back ∧
            start ≠ [] ∧ Matches body start front ∧
              Matches (.star body) more back := by
  constructor
  · intro hMatches
    cases hMatches with
    | done => exact Or.inl ⟨rfl, rfl⟩
    | more hText hBody hRest =>
        exact Or.inr
          ⟨_, _, _, _, rfl, rfl, hText, hBody, hRest⟩
  · rintro (⟨rfl, rfl⟩ |
      ⟨start, more, front, back, rfl, rfl, hText, hBody, hRest⟩)
    · exact .done
    · exact .more hText hBody hRest

theorem matches_group_iff {number : Nat} {body : Regex α} :
    Matches (.group number body) text captures ↔
      ∃ inner, captures = inner ++ [(number, text)] ∧
        Matches body text inner := by
  constructor
  · intro hMatches
    cases hMatches with
    | group hBody => exact ⟨_, rfl, hBody⟩
  · rintro ⟨inner, rfl, hBody⟩
    exact .group hBody

/- Rounds of single characters are texts of these. -/
theorem matches_star_char_iff {p : α → Bool} :
    Matches (.star (.char p)) text captures ↔
      (∀ c ∈ text, p c = true) ∧ captures = [] := by
  constructor
  · intro hMatches
    generalize hStar : Regex.star (.char p) = r at hMatches
    induction hMatches with
    | done => simp
    | more hText hBody _ _ ih =>
        cases hStar
        rcases matches_char_iff.mp hBody with
          ⟨c, hChar, rfl, rfl⟩
        rcases ih rfl with ⟨hMore, rfl⟩
        simpa [hChar] using hMore
    | _ => exact nomatch hStar
  · rintro ⟨hAll, rfl⟩
    induction text with
    | nil => exact .done
    | cons c rest ih =>
        have hChar := hAll c List.mem_cons_self
        have hRest := ih fun x hMem =>
          hAll x (List.mem_cons_of_mem c hMem)
        exact .more (List.cons_ne_nil c []) (.char hChar) hRest

theorem matches_plus_char_iff {p : α → Bool} :
    Matches (.plus (.char p)) text captures ↔
      text ≠ [] ∧ (∀ c ∈ text, p c = true) ∧
        captures = [] := by
  simp only [plus, matches_seq_iff, matches_char_iff,
    matches_star_char_iff]
  constructor
  · rintro ⟨_, more, _, _, rfl, rfl, ⟨c, hChar, rfl, rfl⟩, hMore,
      rfl⟩
    simpa [hChar] using hMore
  · rintro ⟨hText, hAll, rfl⟩
    rcases List.exists_cons_of_ne_nil hText with ⟨c, rest, rfl⟩
    simp only [List.forall_mem_cons] at hAll
    exact ⟨[c], rest, [], [], rfl, rfl,
      ⟨c, hAll.1, rfl, rfl⟩, hAll.2, rfl⟩

@[simp]
theorem matches_literal_iff
    [DecidableEq α]
    {word : List α} :
    Matches (literal word) text captures ↔
      text = word ∧ captures = [] := by
  induction word generalizing text captures with
  | nil => simp [literal]
  | cons c rest ih =>
      simp only [literal, matches_seq_iff, matches_char_iff, ih,
        decide_eq_true_eq]
      constructor
      · rintro ⟨_, _, _, _, rfl, rfl, ⟨x, rfl, rfl, rfl⟩, rfl,
          rfl⟩
        exact ⟨rfl, rfl⟩
      · rintro ⟨rfl, rfl⟩
        exact ⟨[c], rest, [], [], rfl, rfl, ⟨c, rfl, rfl, rfl⟩,
          rfl, rfl⟩

end Inversion

------------------------------------------------------------
-- Parses
------------------------------------------------------------

/- A beginning of a text that was taken, and what is left. -/
@[ext]
structure Parse (α : Type) where
  text : List α
  captures : Captures α
  rest : List α

/- The parses go on behind a parse. -/
def Parse.andThen
    (parse : Parse α)
    (next : List α → List (Parse α)) : List (Parse α) :=
  (next parse.rest).map fun other =>
    { text := parse.text ++ other.text
      captures := parse.captures ++ other.captures
      rest := other.rest }

/- As many rounds as there are, then one less, down to
   none. -/
def rounds
    (body : List α → List (Parse α)) :
    Nat → List α → List (Parse α)
  | 0, s => [{ text := [], captures := [], rest := s }]
  | fuel + 1, s =>
      ((body s).filter fun parse => !parse.text.isEmpty).flatMap
          (fun parse => parse.andThen (rounds body fuel)) ++
        [{ text := [], captures := [], rest := s }]

/- Every round takes something, so that there are no more
   than the text is long. -/
def parses : Regex α → List α → List (Parse α)
  | .empty, s => [{ text := [], captures := [], rest := s }]
  | .char _, [] => []
  | .char p, c :: rest =>
      if p c then
        [{ text := [c], captures := [], rest := rest }]
      else
        []
  | .seq first second, s =>
      (first.parses s).flatMap fun parse =>
        parse.andThen second.parses
  | .opt body, s =>
      body.parses s ++
        [{ text := [], captures := [], rest := s }]
  | .star body, s => rounds body.parses s.length s
  | .group number body, s =>
      (body.parses s).map fun parse =>
        { parse with
          captures :=
            parse.captures ++ [(number, parse.text)] }

/- `regex_match`: the captures of the first parse that leaves
   nothing. -/
def regexMatch
    (r : Regex α)
    (s : List α) : Option (Captures α) :=
  ((r.parses s).find? fun parse => parse.rest.isEmpty).map
    (·.captures)

------------------------------------------------------------
-- Parses Are What Is Described
------------------------------------------------------------

/- The parses at a text are the matches of its beginnings. -/
def Exact
    (described : List α → Captures α → Prop)
    (found : List α → List (Parse α)) : Prop :=
  ∀ s parse, parse ∈ found s ↔
    s = parse.text ++ parse.rest ∧
      described parse.text parse.captures

theorem mem_andThen
    {described : List α → Captures α → Prop}
    {next : List α → List (Parse α)}
    (hNext : Exact described next)
    (first parse : Parse α) :
    parse ∈ first.andThen next ↔
      ∃ text captures,
        parse.text = first.text ++ text ∧
          parse.captures = first.captures ++ captures ∧
            first.rest = text ++ parse.rest ∧
              described text captures := by
  unfold Parse.andThen
  rw [List.mem_map]
  constructor
  · rintro ⟨other, hOther, rfl⟩
    have hExact := (hNext first.rest other).mp hOther
    exact ⟨other.text, other.captures, rfl, rfl, hExact.1,
      hExact.2⟩
  · rintro ⟨text, captures, hText, hCaptures, hRest, hMore⟩
    refine ⟨⟨text, captures, parse.rest⟩, ?_, ?_⟩
    · exact (hNext _ _).mpr ⟨hRest, hMore⟩
    · exact Parse.ext hText.symm hCaptures.symm rfl

/- A round that takes something leaves less for the others. -/
theorem length_rest_le
    {start rest s : List α}
    (hSplit : s = start ++ rest)
    (hSome : start ≠ [])
    {fuel : Nat}
    (hFuel : s.length ≤ fuel + 1) :
    rest.length ≤ fuel := by
  have hTaken := List.length_pos_iff.mpr hSome
  rw [hSplit, List.length_append] at hFuel
  omega

theorem exact_rounds
    {body : Regex α}
    (hBody : Exact (Matches body) body.parses)
    (fuel : Nat)
    (s : List α)
    (hFuel : s.length ≤ fuel)
    (parse : Parse α) :
    parse ∈ rounds body.parses fuel s ↔
      s = parse.text ++ parse.rest ∧
        Matches (.star body) parse.text parse.captures := by
  induction fuel generalizing s parse with
  | zero =>
      have hNil : s = [] := by
        simpa using hFuel
      subst hNil
      simp only [rounds, List.mem_singleton]
      constructor
      · rintro rfl
        exact ⟨rfl, .done⟩
      · rintro ⟨hSplit, hStar⟩
        rcases List.append_eq_nil_iff.mp hSplit.symm with
          ⟨hText, hRest⟩
        rcases matches_star_iff.mp hStar with
          ⟨-, hCaptures⟩ | ⟨text, more, _, _, hMore, -, hSome, -⟩
        · exact Parse.ext hText hCaptures hRest
        · rw [hText] at hMore
          exact absurd (List.append_eq_nil_iff.mp hMore.symm).1
            hSome
  | succ fuel ih =>
      simp only [rounds, List.mem_append, List.mem_flatMap,
        List.mem_filter, List.mem_singleton, Bool.not_eq_true',
        List.isEmpty_eq_false_iff]
      constructor
      · rintro (⟨first, ⟨hFirst, hSome⟩, hMem⟩ | rfl)
        · rcases (hBody s first).mp hFirst with ⟨hSplit, hRound⟩
          rcases List.mem_map.mp hMem with ⟨other, hOther, rfl⟩
          have hLength := length_rest_le hSplit hSome hFuel
          rcases (ih first.rest hLength other).mp hOther with
            ⟨hRest, hStar⟩
          refine ⟨?_, .more hSome hRound hStar⟩
          simp only [List.append_assoc, ← hRest]
          exact hSplit
        · exact ⟨rfl, .done⟩
      · rintro ⟨hSplit, hStar⟩
        rcases matches_star_iff.mp hStar with
          ⟨hText, hCaptures⟩ |
            ⟨text, more, captures, others, hText, hCaptures,
              hSome, hRound, hOthers⟩
        · right
          rw [hText, List.nil_append] at hSplit
          exact Parse.ext hText hCaptures hSplit.symm
        · left
          rw [hText, List.append_assoc] at hSplit
          refine ⟨⟨text, captures, more ++ parse.rest⟩,
            ⟨(hBody s _).mpr ⟨hSplit, hRound⟩, hSome⟩, ?_⟩
          have hLength := length_rest_le hSplit hSome hFuel
          refine List.mem_map.mpr
            ⟨⟨more, others, parse.rest⟩,
              (ih _ hLength _).mpr ⟨rfl, hOthers⟩, ?_⟩
          exact Parse.ext hText.symm hCaptures.symm rfl

/- A parse takes a beginning that the expression describes,
   and all of these are parses. -/
theorem mem_parses
    (r : Regex α)
    (s : List α)
    (parse : Parse α) :
    parse ∈ r.parses s ↔
      s = parse.text ++ parse.rest ∧
        Matches r parse.text parse.captures := by
  induction r generalizing s parse with
  | empty =>
      simp only [parses, List.mem_singleton, matches_empty_iff]
      constructor
      · rintro rfl
        exact ⟨rfl, rfl, rfl⟩
      · rintro ⟨hSplit, hText, hCaptures⟩
        rw [hText, List.nil_append] at hSplit
        exact Parse.ext hText hCaptures hSplit.symm
  | char p =>
      rw [matches_char_iff]
      cases s with
      | nil =>
          simp only [parses, List.not_mem_nil, false_iff]
          rintro ⟨hSplit, c, -, hText, -⟩
          rw [hText] at hSplit
          exact nomatch hSplit
      | cons c rest =>
          simp only [parses]
          split
          · rename_i hChar
            rw [List.mem_singleton]
            constructor
            · rintro rfl
              exact ⟨rfl, c, hChar, rfl, rfl⟩
            · rintro ⟨hSplit, x, -, hText, hCaptures⟩
              rw [hText, List.singleton_append,
                List.cons.injEq] at hSplit
              rw [hSplit.1]
              exact Parse.ext hText hCaptures hSplit.2.symm
          · rename_i hChar
            simp only [List.not_mem_nil, false_iff]
            rintro ⟨hSplit, x, hSome, hText, -⟩
            rw [hText, List.singleton_append,
              List.cons.injEq] at hSplit
            rw [hSplit.1] at hChar
            exact hChar hSome
  | seq first second ihFirst ihSecond =>
      simp only [parses, List.mem_flatMap, ihFirst,
        mem_andThen (fun s parse => ihSecond s parse),
        matches_seq_iff]
      constructor
      · rintro ⟨start, ⟨hSplit, hStart⟩, text, captures, hText,
          hCaptures, hRest, hMore⟩
        refine ⟨?_, _, _, _, _, hText, hCaptures, hStart, hMore⟩
        rw [hSplit, hRest, hText, List.append_assoc]
      · rintro ⟨hSplit, text, more, captures, others, hText,
          hCaptures, hStart, hMore⟩
        refine ⟨⟨text, captures, more ++ parse.rest⟩,
          ⟨?_, hStart⟩, more, others, hText, hCaptures, rfl,
          hMore⟩
        rw [hSplit, hText, List.append_assoc]
  | opt body ih =>
      simp only [parses, List.mem_append, ih,
        List.mem_singleton, matches_opt_iff]
      constructor
      · rintro (⟨hSplit, hBody⟩ | rfl)
        · exact ⟨hSplit, Or.inl hBody⟩
        · exact ⟨rfl, Or.inr ⟨rfl, rfl⟩⟩
      · rintro ⟨hSplit, hBody | ⟨hText, hCaptures⟩⟩
        · exact Or.inl ⟨hSplit, hBody⟩
        · right
          rw [hText, List.nil_append] at hSplit
          exact Parse.ext hText hCaptures hSplit.symm
  | star body ih =>
      exact exact_rounds (fun s parse => ih s parse) s.length s
        (Nat.le_refl _) parse
  | group number body ih =>
      simp only [parses, List.mem_map, ih, matches_group_iff]
      constructor
      · rintro ⟨inner, ⟨hSplit, hBody⟩, rfl⟩
        exact ⟨hSplit, inner.captures, rfl, hBody⟩
      · rintro ⟨hSplit, captures, hCaptures, hBody⟩
        refine ⟨⟨parse.text, captures, parse.rest⟩,
          ⟨hSplit, hBody⟩, ?_⟩
        exact Parse.ext rfl hCaptures.symm rfl

------------------------------------------------------------
-- Matching a Whole Text
------------------------------------------------------------

theorem regexMatch_eq_none_iff
    (r : Regex α)
    (s : List α) :
    r.regexMatch s = none ↔
      ∀ captures, ¬ Matches r s captures := by
  simp only [regexMatch, Option.map_eq_none_iff,
    List.find?_eq_none, mem_parses, List.isEmpty_iff]
  constructor
  · intro hNone captures hMatches
    exact hNone ⟨s, captures, []⟩ ⟨by simp, hMatches⟩ rfl
  · rintro hNone parse ⟨hSplit, hMatches⟩ hRest
    rw [hRest, List.append_nil] at hSplit
    rw [hSplit] at hNone
    exact hNone _ hMatches

theorem matches_of_regexMatch
    {r : Regex α}
    {s : List α}
    {captures : Captures α}
    (hMatch : r.regexMatch s = some captures) :
    Matches r s captures := by
  rcases Option.map_eq_some_iff.mp hMatch with
    ⟨parse, hFound, rfl⟩
  have hRest := List.find?_some hFound
  have hMem := List.mem_of_find?_eq_some hFound
  rcases (mem_parses r s parse).mp hMem with ⟨hSplit, hMatches⟩
  rw [List.isEmpty_iff.mp hRest, List.append_nil] at hSplit
  rw [hSplit]
  exact hMatches

/- Where the groups can take nothing else, priority does not
   matter. -/
theorem regexMatch_eq_some_iff
    {r : Regex α}
    {s : List α}
    (hUnique : ∀ captures others,
      Matches r s captures → Matches r s others →
        captures = others)
    (captures : Captures α) :
    r.regexMatch s = some captures ↔
      Matches r s captures := by
  constructor
  · exact matches_of_regexMatch
  · intro hMatches
    cases hMatch : r.regexMatch s with
    | none =>
        exact absurd hMatches
          ((regexMatch_eq_none_iff r s).mp hMatch captures)
    | some others =>
        have hOthers := matches_of_regexMatch hMatch
        rw [hUnique _ _ hOthers hMatches]

end Regex
