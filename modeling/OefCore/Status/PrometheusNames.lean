import Mathlib.Data.List.Infix
import Mathlib.Tactic.Common

/-
  The names under which values are reported: dashes and
  underscores make the next letter a capital one, and dots
  become underscores.

  Main declarations:
    * `prometheusUpThatNamingString`
    * `PrometheusNames.Regular`, `PrometheusNames.spread`
    * `PrometheusNames.loop_eq_iff`
    * `PrometheusNames.series_of_regular`
-/

namespace OefCore

------------------------------------------------------------
-- The Loop
------------------------------------------------------------

/- The body of the loop for one character: what becomes of
   `upshift`, and what is appended. -/
def prometheusStep
    (upshift : Bool)
    (c : Char) : Bool × List Char :=
  if c = '-' ∨ c = '_' then
    (true, [])
  else if c = '.' then
    (upshift, ['_'])
  else if c.isLower ∧ upshift = true then
    (false, [c.toUpper])
  else
    (upshift, [c])

def prometheusLoop : Bool → List Char → List Char
  | _, [] => []
  | upshift, c :: name =>
      (prometheusStep upshift c).2 ++
        prometheusLoop (prometheusStep upshift c).1 name

def prometheusUpThatNamingString (name : String) : String :=
  String.ofList (prometheusLoop false name.toList)

namespace PrometheusNames

------------------------------------------------------------
-- Letters
------------------------------------------------------------

theorem exists_of_isLower
    {c : Char}
    (hLower : c.isLower = true) :
    ∃ n : Fin 26, c = Char.ofNat (97 + n) := by
  have hBounds : 97 ≤ c.toNat ∧ c.toNat ≤ 122 := by
    have hRange : (c.val ≥ 97 && c.val ≤ 122) = true := hLower
    simpa [UInt32.le_iff_toNat_le] using hRange
  refine ⟨⟨c.toNat - 97, by omega⟩, ?_⟩
  have hSame : 97 + (c.toNat - 97) = c.toNat := by omega
  dsimp only
  rw [hSame, Char.ofNat_toNat]

theorem exists_of_isUpper
    {c : Char}
    (hUpper : c.isUpper = true) :
    ∃ n : Fin 26, c = Char.ofNat (65 + n) := by
  have hBounds : 65 ≤ c.toNat ∧ c.toNat ≤ 90 := by
    have hRange : decide (c.val ≥ 65 ∧ c.val ≤ 90) = true :=
      hUpper
    simpa [UInt32.le_iff_toNat_le] using hRange
  refine ⟨⟨c.toNat - 65, by omega⟩, ?_⟩
  have hSame : 65 + (c.toNat - 65) = c.toNat := by omega
  dsimp only
  rw [hSame, Char.ofNat_toNat]

/- What is used of lower case letters. -/
structure LowerCase (c : Char) : Prop where
  plain : c ≠ '-' ∧ c ≠ '_' ∧ c ≠ '.'
  notUpper : c.isUpper = false
  toUpper_isUpper : c.toUpper.isUpper = true
  toLower_toUpper : c.toUpper.toLower = c

theorem lowerCase
    {c : Char}
    (hLower : c.isLower = true) :
    LowerCase c := by
  have hAll : ∀ n : Fin 26,
      let c := Char.ofNat (97 + n)
      (c ≠ '-' ∧ c ≠ '_' ∧ c ≠ '.') ∧ c.isUpper = false ∧
        c.toUpper.isUpper = true ∧ c.toUpper.toLower = c := by
    decide
  obtain ⟨n, rfl⟩ := exists_of_isLower hLower
  obtain ⟨hPlain, hNot, hUpper, hBack⟩ := hAll n
  exact ⟨hPlain, hNot, hUpper, hBack⟩

/- What is used of capital letters. -/
structure UpperCase (c : Char) : Prop where
  plain : c ≠ '-' ∧ c ≠ '_' ∧ c ≠ '.'
  notLower : c.isLower = false
  toLower_isLower : c.toLower.isLower = true
  toUpper_toLower : c.toLower.toUpper = c

theorem upperCase
    {c : Char}
    (hUpper : c.isUpper = true) :
    UpperCase c := by
  have hAll : ∀ n : Fin 26,
      let c := Char.ofNat (65 + n)
      (c ≠ '-' ∧ c ≠ '_' ∧ c ≠ '.') ∧ c.isLower = false ∧
        c.toLower.isLower = true ∧ c.toLower.toUpper = c := by
    decide
  obtain ⟨n, rfl⟩ := exists_of_isUpper hUpper
  obtain ⟨hPlain, hNot, hLower, hBack⟩ := hAll n
  exact ⟨hPlain, hNot, hLower, hBack⟩

------------------------------------------------------------
-- Steps
------------------------------------------------------------

@[simp]
theorem loop_nil (upshift : Bool) :
    prometheusLoop upshift [] = [] := rfl

theorem loop_dash
    {upshift : Bool}
    {c : Char}
    (hDash : c = '-' ∨ c = '_')
    (name : List Char) :
    prometheusLoop upshift (c :: name) =
      prometheusLoop true name := by
  rw [prometheusLoop, prometheusStep, if_pos hDash]
  rfl

@[simp]
theorem loop_dot
    (upshift : Bool)
    (name : List Char) :
    prometheusLoop upshift ('.' :: name) =
      '_' :: prometheusLoop upshift name := rfl

theorem loop_lower
    {c : Char}
    (hLower : c.isLower = true)
    (name : List Char) :
    prometheusLoop true (c :: name) =
      c.toUpper :: prometheusLoop false name := by
  obtain ⟨hDash, hUnder, hDot⟩ := (lowerCase hLower).plain
  rw [prometheusLoop, prometheusStep,
    if_neg (by simp [hDash, hUnder]), if_neg hDot,
    if_pos ⟨hLower, rfl⟩]
  rfl

theorem loop_plain
    {c : Char}
    (hDash : ¬ (c = '-' ∨ c = '_'))
    (hDot : c ≠ '.')
    (name : List Char) :
    prometheusLoop false (c :: name) =
      c :: prometheusLoop false name := by
  rw [prometheusLoop, prometheusStep, if_neg hDash,
    if_neg hDot, if_neg (by simp)]
  rfl

------------------------------------------------------------
-- Regular Names
------------------------------------------------------------

/- Each dash or underscore stands before a lower case letter,
   as in the names of the counters and gauges. -/
inductive Regular : List Char → Prop where
  | nil : Regular []
  | dashed
      {c d : Char}
      {name : List Char}
      (hDash : c = '-' ∨ c = '_')
      (hLower : d.isLower = true)
      (hRest : Regular name) : Regular (c :: d :: name)
  | plain
      {c : Char}
      {name : List Char}
      (hPlain : ¬ (c = '-' ∨ c = '_'))
      (hRest : Regular name) : Regular (c :: name)

/- A name without capital letters and underscores that has the
   same series. -/
def spread (name : List Char) : List Char :=
  name.flatMap fun c =>
    if c = '_' then ['-']
    else if c.isUpper then ['-', c.toLower]
    else [c]

/- What the name of a series is read back to. -/
def unshift (series : List Char) : List Char :=
  series.flatMap fun c =>
    if c = '_' then ['.']
    else if c.isUpper then ['-', c.toLower]
    else [c]

------------------------------------------------------------
-- The Same Series
------------------------------------------------------------

theorem unshift_cons
    (c : Char)
    (series : List Char) :
    unshift (c :: series) =
      (if c = '_' then ['.']
        else if c.isUpper then ['-', c.toLower]
        else [c]) ++ unshift series :=
  List.flatMap_cons

theorem spread_cons
    (c : Char)
    (name : List Char) :
    spread (c :: name) =
      (if c = '_' then ['-']
        else if c.isUpper then ['-', c.toLower]
        else [c]) ++ spread name :=
  List.flatMap_cons

/- The dash or underscore of a piece is spread to a dash. -/
theorem spread_dash
    {c : Char}
    (hDash : c = '-' ∨ c = '_')
    (name : List Char) :
    spread (c :: name) = '-' :: spread name := by
  rw [spread_cons]
  rcases hDash with rfl | rfl
  · rfl
  · rfl

theorem spread_lower
    {c : Char}
    (hLower : c.isLower = true)
    (name : List Char) :
    spread (c :: name) = c :: spread name := by
  have hCase := lowerCase hLower
  rw [spread_cons, if_neg hCase.plain.2.1,
    if_neg (by simp [hCase.notUpper])]
  rfl

theorem unshift_loop
    {name : List Char}
    (hRegular : Regular name) :
    unshift (prometheusLoop false name) = spread name := by
  induction hRegular with
  | nil => rfl
  | @dashed c d name hDash hLower _ ih =>
      have hCase := lowerCase hLower
      have hUnder : d.toUpper ≠ '_' := by
        intro hSame
        have hUpper := hCase.toUpper_isUpper
        rw [hSame] at hUpper
        exact absurd hUpper (by decide)
      rw [loop_dash hDash, loop_lower hLower, unshift_cons,
        if_neg hUnder, if_pos hCase.toUpper_isUpper,
        hCase.toLower_toUpper, ih, spread_dash hDash,
        spread_lower hLower]
      rfl
  | @plain c name hDash _ ih =>
      by_cases hDot : c = '.'
      · rw [hDot, loop_dot, unshift_cons, ih, spread_cons]
        rfl
      · have hUnder : c ≠ '_' := fun hSame => hDash (.inr hSame)
        rw [loop_plain hDash hDot, unshift_cons, spread_cons,
          if_neg hUnder, if_neg hUnder, ih]

theorem loop_spread
    {name : List Char}
    (hRegular : Regular name) :
    prometheusLoop false (spread name) =
      prometheusLoop false name := by
  induction hRegular with
  | nil => rfl
  | @dashed c d name hDash hLower _ ih =>
      rw [spread_dash hDash, spread_lower hLower,
        loop_dash (.inl rfl), loop_lower hLower, ih,
        loop_dash hDash, loop_lower hLower]
  | @plain c name hDash _ ih =>
      by_cases hDot : c = '.'
      · rw [hDot, loop_dot, spread_cons]
        change '_' :: prometheusLoop false (spread name) = _
        rw [ih]
      · have hUnder : c ≠ '_' := fun hSame => hDash (.inr hSame)
        rw [spread_cons, if_neg hUnder]
        by_cases hUpper : c.isUpper = true
        · have hCase := upperCase hUpper
          rw [if_pos hUpper]
          change prometheusLoop false
            ('-' :: c.toLower :: spread name) = _
          rw [loop_dash (.inl rfl),
            loop_lower hCase.toLower_isLower,
            hCase.toUpper_toLower, ih, loop_plain hDash hDot]
        · rw [if_neg hUpper]
          change prometheusLoop false (c :: spread name) = _
          rw [loop_plain hDash hDot, loop_plain hDash hDot, ih]

theorem loop_eq_iff
    {name other : List Char}
    (hName : Regular name)
    (hOther : Regular other) :
    prometheusLoop false name = prometheusLoop false other ↔
      spread name = spread other := by
  constructor
  · intro hSame
    rw [← unshift_loop hName, hSame, unshift_loop hOther]
  · intro hSame
    rw [← loop_spread hName, hSame, loop_spread hOther]

------------------------------------------------------------
-- Gauges
------------------------------------------------------------

/- What a character becomes that is no dash and follows none. -/
def score (c : Char) : Char :=
  if c = '.' then '_' else c

/- Neither a dash nor a capital letter. -/
def Unshifted (c : Char) : Prop :=
  ¬ (c = '-' ∨ c = '_') ∧ c.isUpper = false

theorem Unshifted.score_isUpper
    {c : Char}
    (hUnshifted : Unshifted c) :
    (score c).isUpper = false := by
  unfold score
  split
  · rfl
  · exact hUnshifted.2

theorem score_eq_iff
    {c d : Char}
    (hUnshifted : Unshifted c)
    (hPlain : ¬ (d = '-' ∨ d = '_')) :
    score c = score d ↔ c = d := by
  have hUnder : c ≠ '_' := fun hSame => hUnshifted.1 (.inr hSame)
  have hOther : d ≠ '_' := fun hSame => hPlain (.inr hSame)
  unfold score
  split
  · next hDot =>
      split
      · next hToo => simp [hDot, hToo]
      · next hNot =>
          rw [hDot]
          exact iff_of_false (Ne.symm hOther) (Ne.symm hNot)
  · next hDot =>
      split
      · next hToo =>
          rw [hToo]
          exact iff_of_false hUnder hDot
      · exact Iff.rfl

theorem loop_score
    {c : Char}
    (hPlain : ¬ (c = '-' ∨ c = '_'))
    (name : List Char) :
    prometheusLoop false (c :: name) =
      score c :: prometheusLoop false name := by
  unfold score
  split
  · next hDot => rw [hDot, loop_dot]
  · next hDot => exact loop_plain hPlain hDot name

/- A part without dashes and capital letters begins a series if
   it begins the name. -/
theorem prefix_iff
    {part name : List Char}
    (hPart : ∀ c ∈ part, Unshifted c)
    (hRegular : Regular name) :
    part.map score <+: prometheusLoop false name ↔
      part <+: name := by
  induction part generalizing name with
  | nil => simp
  | cons c part ih =>
      have hFirst := hPart c List.mem_cons_self
      have hRest : ∀ d ∈ part, Unshifted d :=
        fun d hMem => hPart d (List.mem_cons_of_mem c hMem)
      cases hRegular with
      | nil => simp
      | @dashed d letter name hDash hLower hName =>
          rw [loop_dash hDash, loop_lower hLower, List.map_cons,
            List.cons_prefix_cons, List.cons_prefix_cons]
          refine iff_of_false (fun hBoth => ?_) (fun hBoth => ?_)
          · have hUpper := (lowerCase hLower).toUpper_isUpper
            rw [← hBoth.1, hFirst.score_isUpper] at hUpper
            exact nomatch hUpper
          · rw [← hBoth.1] at hDash
            exact hFirst.1 hDash
      | @plain d name hPlain hName =>
          rw [loop_score hPlain, List.map_cons,
            List.cons_prefix_cons, List.cons_prefix_cons,
            score_eq_iff hFirst hPlain, ih hRest hName]

/- So does it occur, if its first character is a dot. -/
theorem infix_iff
    {part name : List Char}
    (hPart : ∀ c ∈ '.' :: part, Unshifted c)
    (hRegular : Regular name) :
    ('.' :: part).map score <:+: prometheusLoop false name ↔
      '.' :: part <:+: name := by
  induction hRegular with
  | nil => simp
  | @dashed c d name hDash hLower hName ih =>
      have hBegins := prefix_iff hPart
        (.dashed hDash hLower hName)
      have hLetter : ¬ ('.' :: part <+: d :: name) := by
        rw [List.cons_prefix_cons]
        exact fun hBoth =>
          (lowerCase hLower).plain.2.2 hBoth.1.symm
      have hLoop :
          prometheusLoop false (c :: d :: name) =
            d.toUpper :: prometheusLoop false name := by
        rw [loop_dash hDash, loop_lower hLower]
      have hInner :
          '.' :: part <:+: d :: name ↔ '.' :: part <:+: name := by
        rw [List.infix_cons_iff]
        simp only [hLetter, false_or]
      rw [hLoop] at hBegins ⊢
      rw [List.infix_cons_iff, hBegins, ih,
        List.infix_cons_iff, hInner]
  | @plain c name hPlain hName ih =>
      have hBegins := prefix_iff hPart (.plain hPlain hName)
      rw [loop_score hPlain] at hBegins ⊢
      rw [List.infix_cons_iff, hBegins, ih,
        List.infix_cons_iff]

------------------------------------------------------------
-- Legal Names
------------------------------------------------------------

/- The characters that a name of a series may have. -/
def Legal (c : Char) : Prop :=
  c.isAlphanum = true ∨ c = '_' ∨ c = ':'

theorem legal_of_isLower
    {c : Char}
    (hLower : c.isLower = true) :
    Legal c := by
  have hAlphanum :
      ((c.isUpper || c.isLower) || c.isDigit) = true := by
    rw [hLower, Bool.or_true, Bool.true_or]
  exact .inl hAlphanum

theorem legal_of_isUpper
    {c : Char}
    (hUpper : c.isUpper = true) :
    Legal c := by
  have hAlphanum :
      ((c.isUpper || c.isLower) || c.isDigit) = true := by
    rw [hUpper, Bool.true_or, Bool.true_or]
  exact .inl hAlphanum

/- Whatever the name is: what is not legal in it stays so, but
   for dots and dashes. -/
theorem legal_loop_iff
    (upshift : Bool)
    (name : List Char) :
    (∀ c ∈ prometheusLoop upshift name, Legal c) ↔
      ∀ c ∈ name, Legal c ∨ c = '.' ∨ c = '-' := by
  induction name generalizing upshift with
  | nil => simp
  | cons c name ih =>
      have hStep :
          (∀ d ∈ (prometheusStep upshift c).2, Legal d) ↔
            Legal c ∨ c = '.' ∨ c = '-' := by
        unfold prometheusStep
        by_cases hDash : c = '-' ∨ c = '_'
        · rw [if_pos hDash]
          refine iff_of_true (by simp) ?_
          rcases hDash with hDash | hUnder
          · exact .inr (.inr hDash)
          · exact .inl (.inr (.inl hUnder))
        rw [if_neg hDash]
        by_cases hDot : c = '.'
        · rw [if_pos hDot]
          exact iff_of_true (by simp [Legal]) (.inr (.inl hDot))
        rw [if_neg hDot]
        by_cases hShift : c.isLower ∧ upshift = true
        · rw [if_pos hShift]
          have hUpper := (lowerCase hShift.1).toUpper_isUpper
          refine iff_of_true ?_ (.inl (legal_of_isLower hShift.1))
          simpa using legal_of_isUpper hUpper
        · rw [if_neg hShift]
          have hNot : c ≠ '-' := fun hSame => hDash (.inl hSame)
          simp [hDot, hNot]
      rw [prometheusLoop, List.forall_mem_append, hStep, ih,
        List.forall_mem_cons]

------------------------------------------------------------
-- Names of Series
------------------------------------------------------------

/- What is looked for in the name of a series. -/
def IsGauge (series : String) : Prop :=
  ['_', 'g', 'a', 'u', 'g', 'e', '_'] <:+: series.toList

instance (series : String) : Decidable (IsGauge series) := by
  unfold IsGauge
  infer_instance

def gaugePart : List Char :=
  ['.', 'g', 'a', 'u', 'g', 'e', '.']

theorem isGauge_iff
    {name : String}
    (hName : Regular name.toList) :
    IsGauge (prometheusUpThatNamingString name) ↔
      gaugePart <:+: name.toList := by
  have hPart : ∀ c ∈ gaugePart, Unshifted c := by
    simp [gaugePart, Unshifted]
  have hLoop := infix_iff hPart hName
  rw [IsGauge, prometheusUpThatNamingString,
    String.toList_ofList]
  exact hLoop

theorem regular_max_os : Regular ['m', '-', 'o', 's'] :=
  .plain (by decide)
    (.dashed (.inl rfl) (by decide) (.plain (by decide) .nil))

theorem regular_maxOs : Regular ['m', 'O', 's'] :=
  .plain (by decide)
    (.plain (by decide) (.plain (by decide) .nil))

end PrometheusNames

end OefCore
