import Mathlib.Data.List.TakeWhile
import OefCore.CppUtils.Uri

/-
  What `Uri` makes of texts of the form
  `[proto:]//host[:port][/path]`, and of all others.

  Main declarations:
    * `UriParts`, `UriParts.Shaped`, `UriParts.WellFormed`
    * `UriParts.matches_regex_iff`, `UriParts.text_injective`
    * `UriParts.ofString_text`
    * `Uri.Accepts`, `Uri.accepts_iff`
-/

namespace OefCore

------------------------------------------------------------
-- Numbers in Addresses
------------------------------------------------------------

/- Digits are read to their end. -/
theorem leadingInt_of_digits
    {digits : List Char}
    (hSome : digits ≠ [])
    (hDigits : ∀ c ∈ digits, c.isDigit = true) :
    leadingInt digits = some (decimal digits : Int) := by
  rcases List.exists_cons_of_ne_nil hSome with ⟨c, rest, rfl⟩
  have hFirst := hDigits c List.mem_cons_self
  have hTaken :
      (c :: rest).takeWhile Char.isDigit = c :: rest :=
    List.takeWhile_eq_self_iff.mpr hDigits
  have hRange : 48 ≤ c.toNat ∧ c.toNat ≤ 57 := by
    simpa [Char.isDigit, UInt32.le_iff_toNat_le] using hFirst
  have hSpace : isSpace c = false := by
    simp only [isSpace, Bool.or_eq_false_iff,
      decide_eq_false_iff_not, Bool.and_eq_false_iff]
    refine ⟨?_, Or.inr (by omega)⟩
    rintro rfl
    exact absurd hRange.1 (by decide)
  have hMinus : c ≠ '-' := by
    rintro rfl
    exact absurd hRange.1 (by decide)
  have hPlus : c ≠ '+' := by
    rintro rfl
    exact absurd hRange.1 (by decide)
  have hDropped :
      (c :: rest).dropWhile isSpace = c :: rest := by
    simp [hSpace]
  unfold leadingInt
  simp only [hDropped]
  split
  · rename_i hText
    exact absurd (List.cons.inj hText).1 hMinus
  · rename_i hText
    exact absurd (List.cons.inj hText).1 hPlus
  · simp only [hTaken]
    rfl

theorem stoi_of_digits
    {digits : List Char}
    (hSome : digits ≠ [])
    (hDigits : ∀ c ∈ digits, c.isDigit = true) :
    stoi digits =
      if decimal digits < 2 ^ 31 then
        .ok (decimal digits : Int)
      else
        .error (.outOfRange "stoi") := by
  rw [stoi, leadingInt_of_digits hSome hDigits]
  by_cases hRange : decimal digits < 2 ^ 31
  · rw [if_pos hRange]
    exact if_pos (by omega)
  · rw [if_neg hRange]
    exact if_neg (by omega)

------------------------------------------------------------
-- Parts
------------------------------------------------------------

/- The parts that an address may have, without what marks
   them. -/
structure UriParts where
  proto : Option (List Char)
  host : List Char
  port : Option (List Char)
  path : Option (List Char)

namespace UriParts

def protoText (parts : UriParts) : List Char :=
  parts.proto.elim [] (· ++ [':'])

def portText (parts : UriParts) : List Char :=
  parts.port.elim [] (':' :: ·)

def pathText (parts : UriParts) : List Char :=
  parts.path.elim [] ('/' :: ·)

def text (parts : UriParts) : List Char :=
  parts.protoText ++
    (['/', '/'] ++
      (parts.host ++ (parts.portText ++ parts.pathText)))

structure Shaped (parts : UriParts) : Prop where
  proto : ∀ proto ∈ parts.proto,
    proto ≠ [] ∧ ∀ c ∈ proto, isHostChar c = true
  host : parts.host ≠ []
  host_chars : ∀ c ∈ parts.host, isHostChar c = true
  port : ∀ port ∈ parts.port,
    port ≠ [] ∧ ∀ c ∈ port, c.isDigit = true
  path : ∀ path ∈ parts.path,
    ∀ c ∈ path, isNotLineTerminator c = true

structure WellFormed (parts : UriParts) : Prop
    extends Shaped parts where
  port_le : ∀ port ∈ parts.port, decimal port ≤ 65535

/- What the address should be taken apart into. -/
def uri (parts : UriParts) : Uri where
  proto := String.ofList parts.protoText
  host := String.ofList parts.host
  path := String.ofList parts.pathText
  port := UInt16.ofNat (decimal (parts.port.getD []))
  valid := true

/- What the groups take. -/
def captures (parts : UriParts) : Regex.Captures Char :=
  parts.proto.elim [] (fun proto => [(1, proto ++ [':'])]) ++
    ([(2, parts.host)] ++
      (parts.port.elim [] (fun port => [(3, ':' :: port)]) ++
        parts.path.elim [] fun path => [(4, '/' :: path)]))

end UriParts

------------------------------------------------------------
-- What the Groups Match
------------------------------------------------------------

namespace Uri

open Regex

theorem matches_protoGroup_iff
    {text : List Char}
    {captures : Captures Char} :
    Matches (.opt protoGroup) text captures ↔
      ∃ proto : Option (List Char),
        (∀ p ∈ proto, p ≠ [] ∧ ∀ c ∈ p, isHostChar c = true) ∧
          text = proto.elim [] (· ++ [':']) ∧
            captures =
              proto.elim [] fun p => [(1, p ++ [':'])] := by
  simp only [protoGroup, matches_opt_iff, matches_group_iff,
    matches_seq_iff, matches_plus_char_iff, matches_literal_iff]
  constructor
  · rintro (⟨_, rfl, p, _, _, _, rfl, rfl, ⟨hSome, hChars, rfl⟩,
      rfl, rfl⟩ | ⟨rfl, rfl⟩)
    · exact ⟨some p, by simpa using ⟨hSome, hChars⟩, rfl, rfl⟩
    · exact ⟨none, by simp, rfl, rfl⟩
  · rintro ⟨proto, hProto, rfl, rfl⟩
    cases proto with
    | none => exact Or.inr ⟨rfl, rfl⟩
    | some p =>
        have hChars := hProto p rfl
        exact Or.inl ⟨[], rfl, p, [':'], [], [], rfl, rfl,
          ⟨hChars.1, hChars.2, rfl⟩, rfl, rfl⟩

theorem matches_hostGroup_iff
    {text : List Char}
    {captures : Captures Char} :
    Matches hostGroup text captures ↔
      text ≠ [] ∧ (∀ c ∈ text, isHostChar c = true) ∧
        captures = [(2, text)] := by
  simp only [hostGroup, matches_group_iff, matches_plus_char_iff]
  constructor
  · rintro ⟨_, rfl, hSome, hChars, rfl⟩
    exact ⟨hSome, hChars, rfl⟩
  · rintro ⟨hSome, hChars, rfl⟩
    exact ⟨[], rfl, hSome, hChars, rfl⟩

theorem matches_portGroup_iff
    {text : List Char}
    {captures : Captures Char} :
    Matches (.opt portGroup) text captures ↔
      ∃ port : Option (List Char),
        (∀ p ∈ port, p ≠ [] ∧ ∀ c ∈ p, c.isDigit = true) ∧
          text = port.elim [] (':' :: ·) ∧
            captures = port.elim [] fun p => [(3, ':' :: p)] := by
  simp only [portGroup, matches_opt_iff, matches_group_iff,
    matches_seq_iff, matches_plus_char_iff, matches_literal_iff]
  constructor
  · rintro (⟨_, rfl, _, p, _, _, rfl, rfl, ⟨rfl, rfl⟩, hSome,
      hDigits, rfl⟩ | ⟨rfl, rfl⟩)
    · exact ⟨some p, by simpa using ⟨hSome, hDigits⟩, rfl, rfl⟩
    · exact ⟨none, by simp, rfl, rfl⟩
  · rintro ⟨port, hPort, rfl, rfl⟩
    cases port with
    | none => exact Or.inr ⟨rfl, rfl⟩
    | some p =>
        have hDigits := hPort p rfl
        exact Or.inl ⟨[], rfl, [':'], p, [], [], rfl, rfl,
          ⟨rfl, rfl⟩, hDigits.1, hDigits.2, rfl⟩

theorem matches_pathGroup_iff
    {text : List Char}
    {captures : Captures Char} :
    Matches (.opt pathGroup) text captures ↔
      ∃ path : Option (List Char),
        (∀ p ∈ path, ∀ c ∈ p, isNotLineTerminator c = true) ∧
          text = path.elim [] ('/' :: ·) ∧
            captures = path.elim [] fun p => [(4, '/' :: p)] := by
  simp only [pathGroup, matches_opt_iff, matches_group_iff,
    matches_seq_iff, matches_star_char_iff, matches_literal_iff]
  constructor
  · rintro (⟨_, rfl, _, p, _, _, rfl, rfl, ⟨rfl, rfl⟩, hChars,
      rfl⟩ | ⟨rfl, rfl⟩)
    · exact ⟨some p, by simpa using hChars, rfl, rfl⟩
    · exact ⟨none, by simp, rfl, rfl⟩
  · rintro ⟨path, hPath, rfl, rfl⟩
    cases path with
    | none => exact Or.inr ⟨rfl, rfl⟩
    | some p =>
        exact Or.inl ⟨[], rfl, ['/'], p, [], [], rfl, rfl,
          ⟨rfl, rfl⟩, hPath p rfl, rfl⟩

end Uri

namespace UriParts

/- The expression describes the shape, and its groups the
   parts. -/
theorem matches_regex_iff
    {text : List Char}
    {captures : Regex.Captures Char} :
    Regex.Matches Uri.regex text captures ↔
      ∃ parts : UriParts, parts.Shaped ∧
        text = parts.text ∧ captures = parts.captures := by
  simp only [Uri.regex, Regex.matches_seq_iff,
    Uri.matches_protoGroup_iff, Uri.matches_hostGroup_iff,
    Uri.matches_portGroup_iff, Uri.matches_pathGroup_iff,
    Regex.matches_literal_iff]
  constructor
  · rintro ⟨_, _, _, _, rfl, rfl, ⟨proto, hProto, rfl, rfl⟩, _, _,
      _, _, rfl, rfl, ⟨rfl, rfl⟩, host, _, _, _, rfl, rfl,
      ⟨hHost, hChars, rfl⟩, _, _, _, _, rfl, rfl,
      ⟨port, hPort, rfl, rfl⟩, path, hPath, rfl, rfl⟩
    exact ⟨⟨proto, host, port, path⟩,
      ⟨hProto, hHost, hChars, hPort, hPath⟩, rfl, rfl⟩
  · rintro ⟨parts, hShaped, rfl, rfl⟩
    exact ⟨_, _, _, _, rfl, rfl,
      ⟨parts.proto, hShaped.proto, rfl, rfl⟩, _, _, [], _, rfl,
      rfl, ⟨rfl, rfl⟩, parts.host, _, _, _, rfl, rfl,
      ⟨hShaped.host, hShaped.host_chars, rfl⟩, _, _, _, _, rfl,
      rfl, ⟨parts.port, hShaped.port, rfl, rfl⟩,
      parts.path, hShaped.path, rfl, rfl⟩

------------------------------------------------------------
-- The Parts of a Text
------------------------------------------------------------

/- Runs of characters end at the same place, if no such
   character follows. -/
theorem append_eq_append_of_head
    {p : Char → Bool}
    {front other back rest : List Char}
    (hFront : ∀ c ∈ front, p c = true)
    (hOther : ∀ c ∈ other, p c = true)
    (hBack : ∀ c ∈ back.head?, p c = false)
    (hRest : ∀ c ∈ rest.head?, p c = false)
    (hEq : front ++ back = other ++ rest) :
    front = other ∧ back = rest := by
  have hTaken : ∀ {run after : List Char},
      (∀ c ∈ run, p c = true) →
        (∀ c ∈ after.head?, p c = false) →
          (run ++ after).takeWhile p = run := by
    intro run after hRun hAfter
    rw [List.takeWhile_append_of_pos hRun]
    cases after with
    | nil => simp
    | cons c more => simp [hAfter c rfl]
  have hSame : front = other := by
    rw [← hTaken hFront hBack, hEq, hTaken hOther hRest]
  rw [hSame] at hEq
  exact ⟨hSame, List.append_cancel_left hEq⟩

/- What follows the host cannot belong to it. -/
theorem head?_afterHost
    (parts : UriParts)
    {c : Char}
    (hHead : c ∈ (parts.portText ++ parts.pathText).head?) :
    isHostChar c = false := by
  unfold portText pathText at hHead
  have hColon : isHostChar ':' = false := by decide
  have hSlash : isHostChar '/' = false := by decide
  cases hPort : parts.port with
  | some port =>
      have hFirst : ':' = c := by
        simpa [hPort] using hHead
      exact hFirst ▸ hColon
  | none =>
      cases hPath : parts.path with
      | some path =>
          have hFirst : '/' = c := by
            simpa [hPort, hPath] using hHead
          exact hFirst ▸ hSlash
      | none => simp [hPort, hPath] at hHead

theorem head?_pathText
    (parts : UriParts)
    {c : Char}
    (hHead : c ∈ parts.pathText.head?) :
    c = '/' := by
  unfold pathText at hHead
  cases hPath : parts.path with
  | some path =>
      have hFirst : '/' = c := by
        simpa [hPath] using hHead
      exact hFirst.symm
  | none => simp [hPath] at hHead

theorem path_eq
    {parts other : UriParts}
    (hText : parts.pathText = other.pathText) :
    parts.path = other.path := by
  unfold pathText at hText
  cases hPath : parts.path with
  | some path =>
      cases hOther : other.path with
      | some more => simpa [hPath, hOther] using hText
      | none => simp [hPath, hOther] at hText
  | none =>
      cases hOther : other.path with
      | some more => simp [hPath, hOther] at hText
      | none => rfl

theorem port_eq
    {parts other : UriParts}
    (hShaped : parts.Shaped)
    (hOther : other.Shaped)
    (hText :
      parts.portText ++ parts.pathText =
        other.portText ++ other.pathText) :
    parts.port = other.port ∧ parts.path = other.path := by
  have hDigit : ∀ any : UriParts,
      ∀ c ∈ any.pathText.head?, c.isDigit = false := by
    intro any c hHead
    rw [any.head?_pathText hHead]
    decide
  have hColon : ∀ {any : UriParts} {digits : List Char},
      any.pathText ≠ ':' :: digits := by
    intro any digits hColon
    have hHead := any.head?_pathText (c := ':') (by simp [hColon])
    exact absurd hHead (by decide)
  cases hPort : parts.port with
  | none =>
      cases hMore : other.port with
      | none =>
          simp only [portText, hPort, hMore, Option.elim_none,
            List.nil_append] at hText
          exact ⟨rfl, path_eq hText⟩
      | some digits =>
          simp only [portText, hPort, hMore, Option.elim_none,
            Option.elim_some, List.nil_append,
            List.cons_append] at hText
          exact absurd hText hColon
  | some port =>
      cases hMore : other.port with
      | none =>
          simp only [portText, hPort, hMore, Option.elim_none,
            Option.elim_some, List.nil_append,
            List.cons_append] at hText
          exact absurd hText.symm hColon
      | some digits =>
          simp only [portText, hPort, hMore, Option.elim_some,
            List.cons_append, List.cons.injEq, true_and] at hText
          rcases append_eq_append_of_head
            (hShaped.port port hPort).2
            (hOther.port digits hMore).2 (hDigit parts)
            (hDigit other) hText with ⟨rfl, hPath⟩
          exact ⟨rfl, path_eq hPath⟩

/- What follows the name of the protocol, with its colon. -/
def afterProto (parts : UriParts) : List Char :=
  parts.proto.elim [] (fun _ => [':']) ++
    (['/', '/'] ++
      (parts.host ++ (parts.portText ++ parts.pathText)))

theorem text_eq_append (parts : UriParts) :
    parts.text = parts.proto.getD [] ++ parts.afterProto := by
  unfold text protoText afterProto
  cases parts.proto with
  | none => rfl
  | some proto => simp

/- No two ways of having the shape lead to one text. -/
theorem text_injective
    {parts other : UriParts}
    (hShaped : parts.Shaped)
    (hOther : other.Shaped)
    (hText : parts.text = other.text) :
    parts = other := by
  have hChars : ∀ {any : UriParts}, any.Shaped →
      ∀ c ∈ any.proto.getD [], isHostChar c = true := by
    intro any hAny c hMem
    cases hProto : any.proto with
    | none => simp [hProto] at hMem
    | some proto =>
        rw [hProto, Option.getD_some] at hMem
        exact (hAny.proto proto hProto).2 c hMem
  have hAfter : ∀ (any : UriParts),
      ∀ c ∈ any.afterProto.head?, isHostChar c = false := by
    intro any c hHead
    unfold afterProto at hHead
    cases hProto : any.proto with
    | none =>
        have hFirst : '/' = c := by
          simpa [hProto] using hHead
        exact hFirst ▸ by decide
    | some proto =>
        have hFirst : ':' = c := by
          simpa [hProto] using hHead
        exact hFirst ▸ by decide
  rw [text_eq_append, text_eq_append] at hText
  rcases append_eq_append_of_head (hChars hShaped)
    (hChars hOther) (hAfter parts) (hAfter other) hText with
    ⟨hName, hRest⟩
  have hProto : parts.proto = other.proto := by
    cases hFirst : parts.proto with
    | none =>
        cases hSecond : other.proto with
        | none => rfl
        | some proto =>
            rw [hFirst, hSecond] at hName
            exact absurd hName.symm
              (hOther.proto proto hSecond).1
    | some proto =>
        cases hSecond : other.proto with
        | none =>
            rw [hFirst, hSecond] at hName
            exact absurd hName (hShaped.proto proto hFirst).1
        | some more => simpa [hFirst, hSecond] using hName
  unfold afterProto at hRest
  rw [hProto] at hRest
  have hFromHost := List.append_cancel_left
    (List.append_cancel_left hRest)
  rcases append_eq_append_of_head hShaped.host_chars
    hOther.host_chars (fun c => parts.head?_afterHost)
    (fun c => other.head?_afterHost) hFromHost with
    ⟨hHost, hFromPort⟩
  rcases port_eq hShaped hOther hFromPort with ⟨hPort, hPath⟩
  cases parts
  cases other
  simp_all

------------------------------------------------------------
-- What the Parts Become
------------------------------------------------------------

/- The captures of a text of the shape are those of its
   parts. -/
theorem regexMatch_text
    {parts : UriParts}
    (hShaped : parts.Shaped) :
    Uri.regex.regexMatch parts.text = some parts.captures := by
  have hUnique : ∀ captures others,
      Regex.Matches Uri.regex parts.text captures →
        Regex.Matches Uri.regex parts.text others →
          captures = others := by
    intro captures others hFirst hSecond
    rcases matches_regex_iff.mp hFirst with
      ⟨first, hFirstShaped, hFirstText, rfl⟩
    rcases matches_regex_iff.mp hSecond with
      ⟨second, hSecondShaped, hSecondText, rfl⟩
    have hSame := text_injective hFirstShaped hSecondShaped
      (hFirstText.symm.trans hSecondText)
    rw [hSame]
  rw [Regex.regexMatch_eq_some_iff hUnique]
  exact matches_regex_iff.mpr ⟨parts, hShaped, rfl, rfl⟩

/- The parts that the loop goes through. -/
theorem partsOf_captures
    (parts : UriParts)
    (text : List Char) :
    Uri.partsOf text parts.captures =
      [text, parts.protoText, parts.host, parts.portText,
        parts.pathText] := by
  unfold Uri.partsOf captures protoText portText pathText
  cases parts.proto <;> cases parts.port <;> cases parts.path <;>
    simp [Regex.Captures.text]

/- The cast of an `int` that is not negative. -/
theorem ofInt_natCast (n : Nat) :
    UInt16.ofInt (n : Int) = UInt16.ofNat n := by
  have hRest : ((n : Int) % 2 ^ 16).toNat = n % 2 ^ 16 := by
    omega
  rw [UInt16.ofInt, hRest, ← UInt16.toNat_inj]
  simp

theorem assignAll_cons_ok
    {uri after : Uri}
    {expectedpart next : Uri.What}
    {part : List Char}
    (hAssign : uri.assign expectedpart part = .ok (after, next))
    (parts : List (List Char)) :
    uri.assignAll expectedpart (part :: parts) =
      after.assignAll next parts := by
  rw [Uri.assignAll, hAssign]
  rfl

theorem assignAll_cons_error
    {uri : Uri}
    {expectedpart : Uri.What}
    {part : List Char}
    {thrown : Exception}
    (hAssign : uri.assign expectedpart part = .error thrown)
    (parts : List (List Char)) :
    uri.assignAll expectedpart (part :: parts) =
      .error thrown := by
  rw [Uri.assignAll, hAssign]
  rfl

/- The first parts: where there is no protocol, the empty part
   for it falls through and is taken for the host. -/
theorem assignAll_host
    {parts : UriParts}
    (hShaped : parts.Shaped)
    (uri : Uri)
    (text : List Char)
    (rest : List (List Char)) :
    uri.assignAll .all
        (text :: parts.protoText :: parts.host :: rest) =
      if parts.proto = none then
        { uri with
          host := ""
          path := String.ofList parts.host }.assignAll .port rest
      else
        { uri with
          proto := String.ofList parts.protoText
          host := String.ofList parts.host }.assignAll .port
            rest := by
  have hAll : uri.assign .all text = .ok (uri, .proto) := rfl
  rw [assignAll_cons_ok hAll]
  cases hProto : parts.proto with
  | none =>
      have hHost : parts.host.head? ≠ some ':' := by
        intro hHead
        have hChar := hShaped.host_chars ':'
          (List.mem_of_mem_head? hHead)
        exact absurd hChar (by decide)
      have hEmpty : uri.assign .proto parts.protoText =
          .ok ({ uri with host := "" }, .port) := by
        simp [Uri.assign, Uri.assignHost, protoText, hProto]
      have hTaken : { uri with host := "" }.assign .port
            parts.host =
          .ok ({ uri with
              host := ""
              path := String.ofList parts.host }, .port) := by
        simp [Uri.assign, Uri.assignPath, hHost]
      rw [assignAll_cons_ok hEmpty, assignAll_cons_ok hTaken]
      simp
  | some proto =>
      have hNamed : uri.assign .proto parts.protoText =
          .ok ({ uri with
              proto := String.ofList parts.protoText },
            .host) := by
        simp [Uri.assign, protoText, hProto]
      rw [assignAll_cons_ok hNamed, assignAll_cons_ok rfl]
      simp

/- The last parts. -/
theorem assignAll_port
    {parts : UriParts}
    (hShaped : parts.Shaped)
    (uri : Uri)
    (hPort : uri.port = 0) :
    uri.assignAll .port [parts.portText, parts.pathText] =
      if decimal (parts.port.getD []) < 2 ^ 31 then
        .ok
          { uri with
            port := UInt16.ofNat (decimal (parts.port.getD []))
            path := String.ofList parts.pathText }
      else
        .error (.outOfRange "stoi") := by
  have hPath : parts.pathText.head? ≠ some ':' := by
    intro hHead
    exact absurd (parts.head?_pathText hHead) (by decide)
  have hLast : ∀ any : Uri, any.assign .port parts.pathText =
      .ok ({ any with path := String.ofList parts.pathText },
        .port) := by
    intro any
    simp [Uri.assign, Uri.assignPath, hPath]
  cases hDigits : parts.port with
  | none =>
      have hNone : uri.assign .port parts.portText =
          .ok ({ uri with path := "" }, .port) := by
        simp [Uri.assign, Uri.assignPath, portText, hDigits]
      rw [assignAll_cons_ok hNone, assignAll_cons_ok (hLast _),
        Option.getD_none, if_pos (by decide)]
      cases uri
      simp_all [Uri.assignAll, decimal]
  | some digits =>
      rcases hShaped.port digits hDigits with ⟨hSome, hAll⟩
      rw [Option.getD_some]
      by_cases hRange : decimal digits < 2 ^ 31
      · have hNumber :
            stoi digits = .ok (decimal digits : Int) := by
          rw [stoi_of_digits hSome hAll, if_pos hRange]
        have hRead : uri.assign .port parts.portText =
            .ok ({ uri with
                port := UInt16.ofNat (decimal digits) },
              .path) := by
          simp [Uri.assign, portText, hDigits, ofInt_natCast,
            hNumber]
        rw [assignAll_cons_ok hRead, assignAll_cons_ok rfl,
          if_pos hRange]
        rfl
      · have hNumber :
            stoi digits = .error (.outOfRange "stoi") := by
          rw [stoi_of_digits hSome hAll, if_neg hRange]
        have hThrown : uri.assign .port parts.portText =
            .error (.outOfRange "stoi") := by
          simp [Uri.assign, portText, hDigits, hNumber]
        rw [assignAll_cons_error hThrown, if_neg hRange]

/- What becomes of a text of the shape. -/
theorem ofString_text
    {parts : UriParts}
    (hShaped : parts.Shaped) :
    Uri.ofString (String.ofList parts.text) =
      if decimal (parts.port.getD []) < 2 ^ 31 then
        .ok
          { parts.uri with
            host :=
              if parts.proto = none then ""
              else String.ofList parts.host }
      else
        .error (.outOfRange "stoi") := by
  have hMatch := regexMatch_text hShaped
  simp only [Uri.ofString, Uri.parse, String.toList_ofList,
    hMatch, partsOf_captures, assignAll_host hShaped]
  by_cases hProto : parts.proto = none
  · have hNoText : parts.protoText = [] := by
      simp [protoText, hProto]
    simp only [hProto, if_true, assignAll_port hShaped, uri,
      hNoText]
    split <;> rfl
  · simp only [hProto, if_false, assignAll_port hShaped, uri]
    split <;> rfl

end UriParts

------------------------------------------------------------
-- Which Texts Are Accepted as They Should Be
------------------------------------------------------------

namespace Uri

/- A text of another shape is not valid, and nothing is
   thrown. -/
theorem ofString_of_notShaped
    {s : String}
    (hNot : ∀ parts : UriParts, parts.Shaped →
      s ≠ String.ofList parts.text) :
    ∃ uri, ofString s = .ok uri ∧ uri.valid = false := by
  have hNone : regex.regexMatch s.toList = none := by
    rw [Regex.regexMatch_eq_none_iff]
    intro captures hMatches
    rcases UriParts.matches_regex_iff.mp hMatches with
      ⟨parts, hShaped, hText, -⟩
    apply hNot parts hShaped
    rw [← hText, String.ofList_toList]
  simp [ofString, parse, hNone]

/- The grammar is accepted, part by part, and nothing else
   is. -/
structure Accepts (s : String) : Prop where
  accepted : ∀ parts : UriParts, parts.WellFormed →
    s = String.ofList parts.text → ofString s = .ok parts.uri
  refused :
    (∀ parts : UriParts, parts.WellFormed →
      s ≠ String.ofList parts.text) →
        ∃ uri, ofString s = .ok uri ∧ uri.valid = false

/- The failing text has the shape, but no protocol. -/
def noProto : UriParts where
  proto := none
  host := "search".toList
  port := some "99".toList
  path := some "registration".toList

theorem wellFormed_noProto : noProto.WellFormed where
  proto := by decide
  host := by decide
  host_chars := by simp [noProto, isHostChar]
  port := by simp [noProto]
  path := by simp [noProto, isNotLineTerminator]
  port_le := by decide

/- The host is lost, where there should be one. -/
theorem not_accepts_noProto :
    ¬ Accepts "//search:99/registration" := by
  intro hAccepts
  have hText : "//search:99/registration" =
      String.ofList noProto.text := by
    decide
  have hAccepted :=
    hAccepts.accepted noProto wellFormed_noProto hText
  rw [hText,
    UriParts.ofString_text wellFormed_noProto.toShaped]
    at hAccepted
  exact absurd hAccepted (by decide)

/- A text is treated as the grammar says exactly if it has not
   the shape, or has a protocol and no port beyond 65535. -/
theorem accepts_iff (s : String) :
    Accepts s ↔
      ∀ parts : UriParts, parts.Shaped →
        s = String.ofList parts.text →
          parts.proto ≠ none ∧
            ∀ port ∈ parts.port, decimal port ≤ 65535 := by
  constructor
  · intro hAccepts parts hShaped hText
    have hMade := UriParts.ofString_text hShaped
    rw [← hText] at hMade
    by_cases hPort : ∀ port ∈ parts.port, decimal port ≤ 65535
    · refine ⟨?_, hPort⟩
      intro hProto
      have hAccepted := hAccepts.accepted parts
        { hShaped with port_le := hPort } hText
      rw [hAccepted] at hMade
      split at hMade
      · have hLost : String.ofList parts.host = "" := by
          simpa [hProto, UriParts.uri] using
            congrArg Uri.host (Except.ok.inj hMade)
        have hHost := congrArg String.toList hLost
        rw [String.toList_ofList] at hHost
        exact hShaped.host hHost
      · exact nomatch hMade
    · have hNone : ∀ other : UriParts, other.WellFormed →
          s ≠ String.ofList other.text := by
        intro other hOther hOtherText
        have hSame := UriParts.text_injective hShaped
          hOther.toShaped
          (String.ofList_injective (hText.symm.trans hOtherText))
        rw [hSame] at hPort
        exact hPort hOther.port_le
      rcases hAccepts.refused hNone with ⟨uri, hOk, hInvalid⟩
      rw [hOk] at hMade
      split at hMade
      · rw [Except.ok.inj hMade] at hInvalid
        exact absurd hInvalid (by simp [UriParts.uri])
      · exact nomatch hMade
  · intro hShape
    constructor
    · intro parts hWellFormed hText
      have hProto := (hShape parts hWellFormed.toShaped hText).1
      rw [hText, UriParts.ofString_text hWellFormed.toShaped,
        if_neg hProto]
      apply if_pos
      cases hPort : parts.port with
      | none => decide
      | some port =>
          have hLe := hWellFormed.port_le port hPort
          rw [Option.getD_some]
          omega
    · intro hNone
      apply ofString_of_notShaped
      intro parts hShaped hText
      have hPort := (hShape parts hShaped hText).2
      exact hNone parts { hShaped with port_le := hPort } hText

end Uri

end OefCore
