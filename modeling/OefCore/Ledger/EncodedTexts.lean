import Mathlib.Data.Nat.Bitwise
import OefCore.Ledger.Encoders

/-
  What the texts of byte arrays say: each is filled exactly,
  and the bytes can be read back from it.

  Main declarations:
    * `readBase64`, `readHex`, `readBin`
    * `toBase64_eq_some_iff`
    * `digits_eq_some_iff`
-/

namespace OefCore.Encoders

------------------------------------------------------------
-- Six Bits
------------------------------------------------------------

def charOf (n : Nat) : UInt8 :=
  base64chars.getD n 0

/- What the table says about a character of the text. -/
def sixBits (c : UInt8) : Option Nat := do
  let value ← base64decode[c.toNat]?
  if value < 64 then some value.toNat else none

theorem base64chars_getElem?
    {n : Nat}
    (hLt : n < 64) :
    base64chars[n]? = some (charOf n) := by
  have hAll : ∀ n : Fin 64,
      base64chars[n.val]? = some (charOf n) := by
    decide
  exact hAll ⟨n, hLt⟩

theorem sixBits_charOf
    {n : Nat}
    (hLt : n < 64) :
    sixBits (charOf n) = some n := by
  have hAll : ∀ n : Fin 64,
      sixBits (charOf n) = some n.val := by
    decide
  exact hAll ⟨n, hLt⟩

set_option maxRecDepth 4096 in
theorem sixBits_eq_some
    {c : UInt8}
    {n : Nat}
    (hBits : sixBits c = some n) :
    n < 64 ∧ charOf n = c := by
  have hAll : ∀ entry ∈ base64decode.zipIdx, entry.1 < 64 →
      charOf entry.1.toNat = UInt8.ofNat entry.2 := by
    decide
  simp only [sixBits, Option.bind_eq_bind,
    Option.bind_eq_some_iff, Option.ite_none_right_eq_some,
    Option.some.injEq] at hBits
  obtain ⟨value, hValue, hLt, rfl⟩ := hBits
  have hEntry := hAll (value, c.toNat)
    (List.mk_mem_zipIdx_iff_getElem?.mpr hValue) hLt
  rw [UInt8.ofNat_toNat] at hEntry
  exact ⟨hLt, hEntry⟩

/- The pad is none of the characters. -/
theorem charOf_ne_pad
    {n : Nat}
    (hLt : n < 64) :
    charOf n ≠ base64pad := by
  have hAll : ∀ n : Fin 64, charOf n ≠ base64pad := by
    decide
  exact hAll ⟨n, hLt⟩

------------------------------------------------------------
-- Words
------------------------------------------------------------

theorem toNat_word
    (a b c : UInt8) :
    (a.toUInt32 <<< 16 + b.toUInt32 <<< 8 +
        c.toUInt32).toNat =
      a.toNat * 65536 + b.toNat * 256 + c.toNat := by
  have hA := a.toNat_lt
  have hB := b.toNat_lt
  have hC := c.toNat_lt
  have hFirst : UInt32.toNat 16 % 32 = 16 := rfl
  have hSecond : UInt32.toNat 8 % 32 = 8 := rfl
  simp only [UInt32.toNat_add, UInt32.toNat_shiftLeft,
    UInt8.toNat_toUInt32, Nat.shiftLeft_eq, hFirst, hSecond]
  omega

theorem toNat_sextet
    (temp shift : UInt32)
    (hShift : shift.toNat < 32) :
    (temp >>> shift &&& 63).toUInt8.toNat =
      temp.toNat / 2 ^ shift.toNat % 64 := by
  have hMask (n : Nat) : n &&& 63 = n % 64 :=
    Nat.and_two_pow_sub_one_eq_mod n 6
  simp only [UInt32.toNat_toUInt8, UInt32.toNat_and,
    UInt32.toNat_shiftRight, Nat.mod_eq_of_lt hShift,
    Nat.shiftRight_eq_div_pow]
  change (_ &&& 63) % 256 = _
  rw [hMask]
  omega

/- The four characters that a word is looked up as. -/
theorem toNat_sextets
    {temp : UInt32}
    {a b c : UInt8}
    (hTemp :
      temp.toNat =
        a.toNat * 65536 + b.toNat * 256 + c.toNat) :
    (temp >>> 18 &&& 63).toUInt8.toNat = a.toNat / 4 ∧
      (temp >>> 12 &&& 63).toUInt8.toNat =
        a.toNat % 4 * 16 + b.toNat / 16 ∧
      (temp >>> 6 &&& 63).toUInt8.toNat =
        b.toNat % 16 * 4 + c.toNat / 64 ∧
      (temp &&& 63).toUInt8.toNat = c.toNat % 64 := by
  have hA := a.toNat_lt
  have hB := b.toNat_lt
  have hC := c.toNat_lt
  have hLast : (temp &&& 63).toUInt8.toNat = temp.toNat % 64 := by
    simpa using toNat_sextet temp 0 (by decide)
  rw [toNat_sextet temp 18 (by decide),
    toNat_sextet temp 12 (by decide),
    toNat_sextet temp 6 (by decide), hLast, hTemp]
  have hFirst : UInt32.toNat 18 = 18 := rfl
  have hSecond : UInt32.toNat 12 = 12 := rfl
  have hThird : UInt32.toNat 6 = 6 := rfl
  rw [hFirst, hSecond, hThird]
  omega

------------------------------------------------------------
-- Rounds
------------------------------------------------------------

/- The characters for the bytes, three at a time, without
   pads. -/
def base64Body : List UInt8 → List UInt8
  | [] => []
  | [a] =>
      [charOf (a.toNat / 4), charOf (a.toNat % 4 * 16)]
  | [a, b] =>
      [charOf (a.toNat / 4),
        charOf (a.toNat % 4 * 16 + b.toNat / 16),
        charOf (b.toNat % 16 * 4)]
  | a :: b :: c :: rest =>
      charOf (a.toNat / 4) ::
        charOf (a.toNat % 4 * 16 + b.toNat / 16) ::
          charOf (b.toNat % 16 * 4 + c.toNat / 64) ::
            charOf (c.toNat % 64) :: base64Body rest

theorem round_three
    (front rest : List UInt8)
    (a b c : UInt8)
    (ret : Filling UInt8) :
    base64Round (front ++ a :: b :: c :: rest) front.length
        ret =
      ret.puts (base64Body [a, b, c]) := by
  have hWord :
      base64Word (front ++ a :: b :: c :: rest) front.length =
        some (a.toUInt32 <<< 16 + b.toUInt32 <<< 8 +
          c.toUInt32) := by
    simp [base64Word]
  obtain ⟨hFirst, hSecond, hThird, hFourth⟩ :=
    toNat_sextets (toNat_word a b c)
  have hA := a.toNat_lt
  have hB := b.toNat_lt
  have hC := c.toNat_lt
  simp only [base64Round, hWord, hFirst, hSecond, hThird,
    hFourth, Option.bind_eq_bind, Option.bind_some]
  rw [base64chars_getElem? (by omega),
    base64chars_getElem? (by omega),
    base64chars_getElem? (by omega),
    base64chars_getElem? (by omega)]
  simp [base64Body, Filling.puts]

theorem round_two
    (front : List UInt8)
    (a b : UInt8)
    (ret : Filling UInt8) :
    base64Round (front ++ [a, b]) front.length ret =
      ret.puts (base64Body [a, b]) := by
  have hWord :
      base64Word (front ++ [a, b]) front.length =
        some (a.toUInt32 <<< 16 + b.toUInt32 <<< 8) := by
    simp [base64Word]
  have hZero : UInt8.toUInt32 0 = 0 := rfl
  have hTemp := toNat_word a b 0
  rw [hZero, UInt32.add_zero] at hTemp
  obtain ⟨hFirst, hSecond, hThird, -⟩ := toNat_sextets hTemp
  have hA := a.toNat_lt
  have hB := b.toNat_lt
  simp only [base64Round, hWord, hFirst, hSecond, hThird,
    Option.bind_eq_bind, Option.bind_some]
  rw [base64chars_getElem? (by omega),
    base64chars_getElem? (by omega),
    base64chars_getElem? (by simp; omega)]
  simp [base64Body, Filling.puts]

theorem round_one
    (front : List UInt8)
    (a : UInt8)
    (ret : Filling UInt8) :
    base64Round (front ++ [a]) front.length ret =
      ret.puts (base64Body [a]) := by
  have hWord :
      base64Word (front ++ [a]) front.length =
        some (a.toUInt32 <<< 16) := by
    simp [base64Word]
  have hZero : UInt8.toUInt32 0 = 0 := rfl
  have hTemp := toNat_word a 0 0
  rw [hZero, UInt32.zero_shiftLeft, UInt32.add_zero,
    UInt32.add_zero] at hTemp
  obtain ⟨hFirst, hSecond, -, -⟩ := toNat_sextets hTemp
  have hA := a.toNat_lt
  simp only [base64Round, hWord, hFirst, hSecond,
    Option.bind_eq_bind, Option.bind_some]
  rw [base64chars_getElem? (by omega),
    base64chars_getElem? (by simp; omega)]
  simp [base64Body, Filling.puts]

/- Behind the bytes the loop ends. -/
theorem base64Loop_of_length_le
    {data : List UInt8}
    {x : Nat}
    (hOver : data.length ≤ x)
    (ret : Filling UInt8) :
    base64Loop data x ret = some ret := by
  rw [base64Loop, if_neg (Nat.not_lt.mpr hOver)]

/- The loop puts the characters of all bytes that are left. -/
theorem base64Loop_eq
    (front rest : List UInt8)
    (ret : Filling UInt8) :
    base64Loop (front ++ rest) front.length ret =
      ret.puts (base64Body rest) := by
  induction rest using base64Body.induct generalizing front ret
    with
  | case1 =>
      rw [base64Loop_of_length_le (by simp)]
      rfl
  | case2 a =>
      rw [base64Loop, if_pos (by simp), round_one]
      simp [base64Loop_of_length_le]
  | case3 a b =>
      rw [base64Loop, if_pos (by simp), round_two]
      simp [base64Loop_of_length_le]
  | case4 a b c rest ih =>
      have hRest (next : Filling UInt8) :
          base64Loop (front ++ a :: b :: c :: rest)
              (front.length + 3) next =
            next.puts (base64Body rest) := by
        simpa using ih (front ++ [a, b, c]) next
      have hBody :
          base64Body (a :: b :: c :: rest) =
            base64Body [a, b, c] ++ base64Body rest := rfl
      rw [base64Loop, if_pos (by simp), round_three, hBody,
        Filling.puts_append, Option.bind_eq_bind]
      simp only [hRest]

------------------------------------------------------------
-- The Text
------------------------------------------------------------

/- How many pads there are behind `n` bytes. -/
def padCount (n : Nat) : Nat :=
  if n % 3 = 0 then 0 else 3 - n % 3

def base64Text (bytes : List UInt8) : List UInt8 :=
  base64Body bytes ++
    List.replicate (padCount bytes.length) base64pad

theorem length_base64Text (bytes : List UInt8) :
    (base64Text bytes).length =
      (bytes.length + padCount bytes.length) * 4 / 3 := by
  have hBody :
      (base64Body bytes).length =
        (bytes.length * 4 + 2) / 3 := by
    induction bytes using base64Body.induct with
    | case1 => rfl
    | case2 a => simp [base64Body]
    | case3 a b => simp [base64Body]
    | case4 a b c rest ih =>
        simp only [base64Body, List.length_cons, ih]
        omega
  rw [base64Text, List.length_append, List.length_replicate,
    hBody]
  unfold padCount
  split <;> omega

theorem base64Pads_eq
    (invPadCount : Nat)
    (ret : Filling UInt8) :
    base64Pads invPadCount ret =
      ret.puts
        (List.replicate (3 - invPadCount) base64pad) := by
  induction hLeft : 3 - invPadCount
    generalizing invPadCount ret with
  | zero =>
      rw [base64Pads, if_neg (by omega)]
      rfl
  | succ left ih =>
      rw [base64Pads, if_pos (by omega), List.replicate_succ,
        Filling.puts]
      simp only [ih (invPadCount + 1) _ (by omega)]

/- Only a text that needs more than 64 bits of positions is
   given too small an array. -/
theorem base64Size_le (bytes : List UInt8) :
    base64Size bytes.length ≤ (base64Text bytes).length ∧
      (base64Size bytes.length = (base64Text bytes).length ↔
        bytes.length < 2 ^ 62) := by
  rw [length_base64Text]
  simp only [base64Size, padCount]
  split
  · omega
  · omega

theorem toBase64_eq (str : List UInt8) :
    toBase64 str =
      if str.length < 2 ^ 62 then some (base64Text str)
      else none := by
  unfold toBase64
  split
  · next hEmpty =>
      rw [List.eq_nil_of_length_eq_zero hEmpty]
      rfl
  · next hSome =>
      obtain ⟨hLe, hSize⟩ := base64Size_le str
      have hLoop (ret : Filling UInt8) :
          base64Loop str 0 ret = ret.puts (base64Body str) :=
        base64Loop_eq [] str ret
      have hPads (ret : Filling UInt8) :
          (if str.length % 3 > 0 then
            (base64Pads (str.length % 3) ret).bind
              fun padded => some padded.buffer
          else
            some ret.buffer) =
            (ret.puts (List.replicate (padCount str.length)
              base64pad)).map (·.buffer) := by
        unfold padCount
        split
        · next hPad =>
            rw [if_neg (by omega), base64Pads_eq,
              Option.map_eq_bind]
            rfl
        · next hPad =>
            rw [if_pos (by omega)]
            rfl
      have hFilled :=
        Filling.filled_iff (base64Size str.length) 0 hLe
      simp only [hSize] at hFilled
      rw [← hFilled, base64Text, Filling.puts_append]
      simp only [hLoop, Option.bind_eq_bind, Option.pure_def,
        Option.bind_some, hPads, Option.map_bind]
      rfl

------------------------------------------------------------
-- Reading
------------------------------------------------------------

/- Up to three bytes of four characters; the bits that are
   left over have to be zero. -/
def readGroup
    (c0 c1 c2 c3 : UInt8) : Option (List UInt8) := do
  let a ← sixBits c0
  let b ← sixBits c1
  let first := UInt8.ofNat (a * 4 + b / 16)
  if c2 = base64pad ∧ c3 = base64pad then
    if b % 16 = 0 then some [first] else none
  else
    let c ← sixBits c2
    let second := UInt8.ofNat (b % 16 * 16 + c / 4)
    if c3 = base64pad then
      if c % 4 = 0 then some [first, second] else none
    else
      let d ← sixBits c3
      some [first, second, UInt8.ofNat (c % 4 * 64 + d)]

/- Groups of four, of which only the last one has pads. -/
def readBase64 : List UInt8 → Option (List UInt8)
  | [] => some []
  | c0 :: c1 :: c2 :: c3 :: rest => do
      let front ← readGroup c0 c1 c2 c3
      let back ← readBase64 rest
      if front.length = 3 ∨ rest = [] then
        some (front ++ back)
      else
        none
  | _ => none

theorem padCount_add (n : Nat) :
    padCount (n + 3) = padCount n := by
  rw [padCount, Nat.add_mod_right, padCount]

theorem base64Text_three
    (a b c : UInt8)
    (rest : List UInt8) :
    base64Text (a :: b :: c :: rest) =
      charOf (a.toNat / 4) ::
        charOf (a.toNat % 4 * 16 + b.toNat / 16) ::
          charOf (b.toNat % 16 * 4 + c.toNat / 64) ::
            charOf (c.toNat % 64) :: base64Text rest := by
  have hPads :
      padCount (a :: b :: c :: rest).length =
        padCount rest.length :=
    padCount_add rest.length
  rw [base64Text, hPads, base64Body]
  rfl

theorem readGroup_three (a b c : UInt8) :
    readGroup (charOf (a.toNat / 4))
        (charOf (a.toNat % 4 * 16 + b.toNat / 16))
        (charOf (b.toNat % 16 * 4 + c.toNat / 64))
        (charOf (c.toNat % 64)) =
      some [a, b, c] := by
  have hA := a.toNat_lt
  have hB := b.toNat_lt
  have hC := c.toNat_lt
  have hFirst :
      a.toNat / 4 * 4 + (a.toNat % 4 * 16 + b.toNat / 16) / 16 =
        a.toNat := by
    omega
  have hSecond :
      (a.toNat % 4 * 16 + b.toNat / 16) % 16 * 16 +
          (b.toNat % 16 * 4 + c.toNat / 64) / 4 =
        b.toNat := by
    omega
  have hThird :
      (b.toNat % 16 * 4 + c.toNat / 64) % 4 * 64 +
          c.toNat % 64 =
        c.toNat := by
    omega
  have hPlain := charOf_ne_pad (n := c.toNat % 64) (by omega)
  simp only [readGroup, Option.bind_eq_bind]
  rw [sixBits_charOf (by omega), sixBits_charOf (by omega),
    sixBits_charOf (by omega), sixBits_charOf (by omega)]
  simp only [Option.bind_some, hPlain, hFirst, hSecond, hThird,
    and_false, if_false, UInt8.ofNat_toNat]

theorem readGroup_two (a b : UInt8) :
    readGroup (charOf (a.toNat / 4))
        (charOf (a.toNat % 4 * 16 + b.toNat / 16))
        (charOf (b.toNat % 16 * 4)) base64pad =
      some [a, b] := by
  have hA := a.toNat_lt
  have hB := b.toNat_lt
  have hFirst :
      a.toNat / 4 * 4 + (a.toNat % 4 * 16 + b.toNat / 16) / 16 =
        a.toNat := by
    omega
  have hSecond :
      (a.toNat % 4 * 16 + b.toNat / 16) % 16 * 16 +
          b.toNat % 16 * 4 / 4 =
        b.toNat := by
    omega
  have hPlain := charOf_ne_pad (n := b.toNat % 16 * 4)
    (by omega)
  have hZero : b.toNat % 16 * 4 % 4 = 0 := by omega
  simp only [readGroup, Option.bind_eq_bind]
  rw [sixBits_charOf (by omega), sixBits_charOf (by omega),
    sixBits_charOf (by omega)]
  simp only [Option.bind_some, hPlain, hFirst, hSecond, hZero,
    false_and, if_false, if_true, UInt8.ofNat_toNat]

theorem readGroup_one (a : UInt8) :
    readGroup (charOf (a.toNat / 4))
        (charOf (a.toNat % 4 * 16)) base64pad base64pad =
      some [a] := by
  have hA := a.toNat_lt
  have hFirst :
      a.toNat / 4 * 4 + a.toNat % 4 * 16 / 16 = a.toNat := by
    omega
  have hZero : a.toNat % 4 * 16 % 16 = 0 := by omega
  simp only [readGroup, Option.bind_eq_bind]
  rw [sixBits_charOf (by omega), sixBits_charOf (by omega)]
  simp only [Option.bind_some, hFirst, hZero, and_self,
    if_true, UInt8.ofNat_toNat]

theorem read_base64Text (bytes : List UInt8) :
    readBase64 (base64Text bytes) = some bytes := by
  induction bytes using base64Body.induct with
  | case1 => rfl
  | case2 a =>
      change readBase64
        [charOf (a.toNat / 4), charOf (a.toNat % 4 * 16),
          base64pad, base64pad] = _
      simp [readBase64, readGroup_one]
  | case3 a b =>
      change readBase64
        [charOf (a.toNat / 4),
          charOf (a.toNat % 4 * 16 + b.toNat / 16),
          charOf (b.toNat % 16 * 4), base64pad] = _
      simp [readBase64, readGroup_two]
  | case4 a b c rest ih =>
      rw [base64Text_three]
      simp [readBase64, readGroup_three, ih]

/- Six bits each, put together to bytes and taken apart. -/
theorem bits_of_bytes
    {a b c d : Nat}
    (hB : b < 64)
    (hC : c < 64)
    (hD : d < 64) :
    (a * 4 + b / 16) / 4 = a ∧
      (a * 4 + b / 16) % 4 * 16 + (b % 16 * 16 + c / 4) / 16 =
        b ∧
      (b % 16 * 16 + c / 4) % 16 * 4 + (c % 4 * 64 + d) / 64 =
        c ∧
      (c % 4 * 64 + d) % 64 = d := by
  omega

/- What is read as a group is the text of what is read. -/
theorem of_readGroup
    {c0 c1 c2 c3 : UInt8}
    {front : List UInt8}
    (hRead : readGroup c0 c1 c2 c3 = some front) :
    [c0, c1, c2, c3] = base64Text front := by
  have hByte {n : Nat} (hLt : n < 256) :
      (UInt8.ofNat n).toNat = n :=
    UInt8.toNat_ofNat_of_lt hLt
  simp only [readGroup, Option.bind_eq_bind,
    Option.bind_eq_some_iff] at hRead
  obtain ⟨a, hA, b, hB, hRead⟩ := hRead
  obtain ⟨hALt, rfl⟩ := sixBits_eq_some hA
  obtain ⟨hBLt, rfl⟩ := sixBits_eq_some hB
  by_cases hPads : c2 = base64pad ∧ c3 = base64pad
  · simp only [if_pos hPads, Option.ite_none_right_eq_some,
      Option.some.injEq] at hRead
    obtain ⟨rfl, rfl⟩ := hPads
    obtain ⟨hZero, rfl⟩ := hRead
    have hLow : (a * 4 + b / 16) % 4 * 16 = b := by omega
    have hHigh : (a * 4 + b / 16) / 4 = a := by omega
    change _ = [_, _, base64pad, base64pad]
    rw [hByte (by omega), hHigh, hLow]
  rw [if_neg hPads] at hRead
  by_cases hPad : c3 = base64pad
  · simp only [if_pos hPad, Option.bind_eq_some_iff,
      Option.ite_none_right_eq_some, Option.some.injEq]
      at hRead
    obtain ⟨c, hC, hZero, rfl⟩ := hRead
    obtain ⟨hCLt, rfl⟩ := sixBits_eq_some hC
    obtain ⟨hHigh, hMiddle, -, -⟩ :=
      bits_of_bytes hBLt hCLt (d := 0) (by decide)
    have hLow : (b % 16 * 16 + c / 4) % 16 * 4 = c := by omega
    change _ = [_, _, _, base64pad]
    rw [hByte (by omega), hByte (by omega), hHigh, hMiddle,
      hLow, hPad]
  · simp only [if_neg hPad, Option.bind_eq_some_iff,
      Option.some.injEq] at hRead
    obtain ⟨c, hC, d, hD, rfl⟩ := hRead
    obtain ⟨hCLt, rfl⟩ := sixBits_eq_some hC
    obtain ⟨hDLt, rfl⟩ := sixBits_eq_some hD
    obtain ⟨hHigh, hMiddle, hLow, hLast⟩ :=
      bits_of_bytes hBLt hCLt hDLt
    rw [base64Text_three, hByte (by omega), hByte (by omega),
      hByte (by omega), hHigh, hMiddle, hLow, hLast]
    rfl

theorem of_readBase64
    {text bytes : List UInt8}
    (hRead : readBase64 text = some bytes) :
    text = base64Text bytes := by
  induction text using readBase64.induct generalizing bytes with
  | case1 =>
      obtain rfl := Option.some.inj hRead
      rfl
  | case2 c0 c1 c2 c3 rest ih =>
      simp only [readBase64, Option.bind_eq_bind,
        Option.bind_eq_some_iff] at hRead
      obtain ⟨front, hFront, back, hBack, hRead⟩ := hRead
      have hGroup := of_readGroup hFront
      have hRest := ih hBack
      split at hRead
      · next hLast =>
          obtain rfl := Option.some.inj hRead
          rcases hLast with hThree | hEmpty
          · obtain ⟨a, b, c, rfl⟩ :=
              List.length_eq_three.mp hThree
            rw [base64Text_three] at hGroup
            injection hGroup with hFirst hGroup
            injection hGroup with hSecond hGroup
            injection hGroup with hThird hGroup
            injection hGroup with hFourth hGroup
            rw [hFirst, hSecond, hThird, hFourth, hRest]
            exact (base64Text_three a b c back).symm
          · rw [hEmpty] at hBack ⊢
            obtain rfl := Option.some.inj hBack
            rw [List.append_nil, ← hGroup]
      · exact nomatch hRead
  | case3 text hNil hGroup => simp [readBase64] at hRead

/-
  The text is given for every array but those of which the
  size overflows, and it is the only one that is read back as
  the array.
-/
theorem toBase64_eq_some_iff (str text : List UInt8) :
    toBase64 str = some text ↔
      str.length < 2 ^ 62 ∧ readBase64 text = some str := by
  rw [toBase64_eq]
  constructor
  · intro hText
    split at hText
    · next hLt =>
        obtain rfl := Option.some.inj hText
        exact ⟨hLt, read_base64Text str⟩
    · exact nomatch hText
  · rintro ⟨hLt, hRead⟩
    rw [if_pos hLt, of_readBase64 hRead]

------------------------------------------------------------
-- Digits
------------------------------------------------------------

/- If every byte has its characters, the text is that of the
   bytes one after the other, as long as its size does not
   overflow. -/
theorem encodeBytes_eq
    {width : Nat}
    {chars : UInt8 → Option (List UInt8)}
    {text : UInt8 → List UInt8}
    (hChars : ∀ c, chars c = some (text c))
    (hWidth : ∀ c, (text c).length = width)
    (str : List UInt8) :
    encodeBytes width chars str =
      if str.length * width < 2 ^ 64 then
        some (str.flatMap text)
      else
        none := by
  have hLoop : ∀ front rest : List UInt8,
      ∀ ret : Filling UInt8,
        byteLoop chars (front ++ rest) front.length ret =
          ret.puts (rest.flatMap text) := by
    intro front rest
    induction rest generalizing front with
    | nil =>
        intro ret
        rw [byteLoop, if_neg (by simp)]
        rfl
    | cons c rest ih =>
        intro ret
        have hRest (next : Filling UInt8) :
            byteLoop chars (front ++ c :: rest)
                (front.length + 1) next =
              next.puts (rest.flatMap text) := by
          simpa using ih (front ++ [c]) next
        rw [byteLoop, if_pos (by simp)]
        simp [hChars, hRest, Filling.puts_append]
  have hLength :
      (str.flatMap text).length = str.length * width := by
    simp [List.length_flatMap, hWidth]
  have hLe :
      str.length * width % 2 ^ 64 ≤ (str.flatMap text).length := by
    rw [hLength]
    exact Nat.mod_le _ _
  have hFilled :=
    Filling.filled_iff (str.length * width % 2 ^ 64) 0 hLe
  have hFits :
      str.length * width % 2 ^ 64 = (str.flatMap text).length ↔
        str.length * width < 2 ^ 64 := by
    rw [hLength]
    omega
  simp only [hFits] at hFilled
  rw [← hFilled]
  have hStart := hLoop [] str
  simp only [List.nil_append, List.length_nil] at hStart
  simp only [encodeBytes, hStart, Option.map_eq_bind]
  rfl

def hexText (c : UInt8) : List UInt8 :=
  [hexChars.getD (c.toNat / 16) 0,
    hexChars.getD (c.toNat % 16) 0]

def bit
    (c : UInt8)
    (k : Nat) : UInt8 :=
  if c.toNat.testBit k then code '1' else code '0'

def binText (c : UInt8) : List UInt8 :=
  [bit c 7, bit c 6, bit c 5, bit c 4, bit c 3, bit c 2,
    bit c 1, bit c 0]

theorem length_hexText (c : UInt8) :
    (hexText c).length = 2 := rfl

theorem length_binText (c : UInt8) :
    (binText c).length = 8 := rfl

/- A property of bytes that holds for each of them. -/
theorem forall_byte
    {P : UInt8 → Prop}
    (hAll : ∀ n : Fin 256, P (UInt8.ofNat n)) :
    ∀ c, P c := by
  intro c
  have hByte := hAll ⟨c.toNat, c.toNat_lt⟩
  rwa [UInt8.ofNat_toNat] at hByte

theorem hexDigits_eq (c : UInt8) :
    hexDigits c = some (hexText c) := by
  have hC := c.toNat_lt
  have hHigh : (c >>> 4 &&& 0xF).toNat = c.toNat / 16 := by
    rw [UInt8.toNat_and, UInt8.toNat_shiftRight]
    change c.toNat >>> 4 &&& 2 ^ 4 - 1 = _
    rw [Nat.and_two_pow_sub_one_eq_mod,
      Nat.shiftRight_eq_div_pow]
    omega
  have hLow : (c &&& 0xF).toNat = c.toNat % 16 := by
    rw [UInt8.toNat_and]
    exact Nat.and_two_pow_sub_one_eq_mod c.toNat 4
  have hChars : ∀ n : Fin 16,
      hexChars[n.val]? = some (hexChars.getD n 0) := by
    decide
  rw [hexDigits, hHigh, hLow, hChars ⟨c.toNat / 16, by omega⟩,
    hChars ⟨c.toNat % 16, by omega⟩]
  rfl

/- A mask of one bit. -/
theorem and_mask_ne_zero_iff
    (c : UInt8)
    {mask : UInt8}
    (k : Nat)
    (hMask : mask.toNat = 2 ^ k) :
    c &&& mask ≠ 0 ↔ c.toNat.testBit k := by
  rw [ne_eq, ← UInt8.toNat_inj, UInt8.toNat_and, hMask,
    Nat.and_two_pow]
  cases c.toNat.testBit k <;> simp

theorem binDigits_eq (c : UInt8) :
    binDigits c = some (binText c) := by
  have hMask (mask : UInt8) (k : Nat) :=
    @and_mask_ne_zero_iff c mask k
  simp only [binDigits, List.map_cons, List.map_nil, binText,
    bit, hMask 0x80 7 rfl, hMask 0x40 6 rfl, hMask 0x20 5 rfl,
    hMask 0x10 4 rfl, hMask 0x08 3 rfl, hMask 0x04 2 rfl,
    hMask 0x02 1 rfl, hMask 0x01 0 rfl]

/- The halves, the pairs and the bits change places. -/
theorem testBit_reverse
    (c : UInt8)
    {k : Nat}
    (hLt : k < 8) :
    (reverse c).toNat.testBit k = c.toNat.testBit (7 - k) := by
  simp only [reverse, UInt8.toNat_or, UInt8.toNat_and,
    UInt8.toNat_shiftRight, UInt8.toNat_shiftLeft,
    UInt8.reduceToNat, Nat.reduceMod, Nat.testBit_or,
    Nat.testBit_and, Nat.testBit_shiftRight,
    Nat.testBit_mod_two_pow, Nat.testBit_shiftLeft]
  generalize c.toNat.testBit = bits
  match k, hLt with
  | 0, _ | 1, _ | 2, _ | 3, _ | 4, _ | 5, _ | 6, _ | 7, _ =>
      simp [Nat.testBit]

/- The bits of a byte in the other order. -/
theorem binText_reverse (c : UInt8) :
    binText (reverse c) = (binText c).reverse := by
  simp (disch := decide) only [binText, bit, testBit_reverse,
    Nat.reduceSub]
  rfl

/- A byte has no other bits. -/
theorem binText_injective
    {c other : UInt8}
    (hText : binText c = binText other) :
    c = other := by
  have hBit : ∀ x y : Bool,
      (if x then code '1' else code '0') =
          (if y then code '1' else code '0') →
        x = y := by
    decide
  rw [← UInt8.toNat_inj]
  refine Nat.eq_of_testBit_eq fun k => ?_
  by_cases hLt : k < 8
  · simp only [binText, bit, List.cons.injEq, and_true]
      at hText
    match k, hLt with
    | 0, _ | 1, _ | 2, _ | 3, _ | 4, _ | 5, _ | 6, _ | 7, _ =>
        exact hBit _ _ (by simp only [hText])
  · have hLe : 2 ^ 8 ≤ 2 ^ k :=
      Nat.pow_le_pow_right (by simp) (by omega)
    rw [Nat.testBit_lt_two_pow (c.toNat_lt.trans_le hLe),
      Nat.testBit_lt_two_pow (other.toNat_lt.trans_le hLe)]

------------------------------------------------------------
-- Reading Digits
------------------------------------------------------------

/- Every `width` characters are read as a byte. -/
def readEach
    (width : Nat)
    (readByte : List UInt8 → Option UInt8)
    (text : List UInt8) : Option (List UInt8) :=
  if text = [] then
    some []
  else if width = 0 then
    none
  else do
    let c ← readByte (text.take width)
    let rest ← readEach width readByte (text.drop width)
    some (c :: rest)
termination_by text.length
decreasing_by
  have hSome : 0 < text.length :=
    List.length_pos_iff.mpr ‹¬ text = []›
  simp only [List.length_drop]
  omega

/- If what is read as a byte is what has its text but for
   `low`, so is what is read. -/
theorem readEach_eq_some_iff
    {width : Nat}
    {readByte : List UInt8 → Option UInt8}
    {text : UInt8 → List UInt8}
    {low : UInt8 → UInt8}
    (hPositive : 0 < width)
    (hWidth : ∀ c, (text c).length = width)
    (hByte : ∀ part c, readByte part = some c ↔
      part.map low = text c)
    (chars bytes : List UInt8) :
    readEach width readByte chars = some bytes ↔
      chars.map low = bytes.flatMap text := by
  induction bytes generalizing chars with
  | nil =>
      rw [readEach]
      by_cases hNil : chars = []
      · simp [hNil]
      · rw [if_neg hNil, if_neg hPositive.ne']
        simp [hNil, Option.bind_eq_some_iff]
  | cons c bytes ih =>
      rw [readEach]
      by_cases hNil : chars = []
      · have hText : text c ≠ [] := by
          intro hEmpty
          have hLength := hWidth c
          rw [hEmpty] at hLength
          exact hPositive.ne hLength
        simp [hNil, hText]
      · rw [if_neg hNil, if_neg hPositive.ne']
        have hParts :
            chars.map low = text c ++ bytes.flatMap text ↔
              (chars.take width).map low = text c ∧
                (chars.drop width).map low =
                  bytes.flatMap text := by
          rw [List.map_take, List.map_drop]
          constructor
          · intro hSame
            rw [hSame, ← hWidth c]
            exact ⟨List.take_left, List.drop_left⟩
          · rintro ⟨hTake, hDrop⟩
            rw [← hTake, ← hDrop, List.take_append_drop]
        rw [List.flatMap_cons, hParts, ← hByte, ← ih]
        simp [Option.bind_eq_some_iff]

/- The decimal and the lower case digits as they are. -/
def lower (c : UInt8) : UInt8 :=
  if code 'A' ≤ c ∧ c ≤ code 'F' then c + 32 else c

def readHexByte : List UInt8 → Option UInt8
  | [high, low] => do
      let first ← decodeHexChar high
      let second ← decodeHexChar low
      some (first * 16 + second)
  | _ => none

def readBit (c : UInt8) : Option Bool :=
  if c = code '1' then some true
  else if c = code '0' then some false
  else none

/- The first bit weighs most. -/
def readBinByte (part : List UInt8) : Option UInt8 :=
  if part.length = 8 then do
    let bits ← part.mapM readBit
    some (bits.foldl (fun c b => c * 2 + if b then 1 else 0) 0)
  else
    none

def readHex : List UInt8 → Option (List UInt8) :=
  readEach 2 readHexByte

def readBin : List UInt8 → Option (List UInt8) :=
  readEach 8 readBinByte

set_option maxRecDepth 4096 in
theorem hexChar_of_decode
    {c x : UInt8}
    (hRead : decodeHexChar c = some x) :
    x.toNat < 16 ∧ lower c = hexChars.getD x.toNat 0 := by
  have hAll : ∀ c, (decodeHexChar c).all fun x =>
      x.toNat < 16 ∧ lower c = hexChars.getD x.toNat 0 := by
    apply forall_byte
    decide
  simpa [hRead] using hAll c

set_option maxRecDepth 4096 in
theorem decodeHexChar_lower :
    ∀ c, decodeHexChar (lower c) = decodeHexChar c := by
  apply forall_byte
  decide

theorem decodeHexChar_eq_some_iff
    (c : UInt8)
    (n : Fin 16) :
    decodeHexChar c = some (UInt8.ofNat n) ↔
      lower c = hexChars.getD n 0 := by
  have hChars : ∀ n : Fin 16,
      decodeHexChar (hexChars.getD n 0) =
          some (UInt8.ofNat n) ∧
        (UInt8.ofNat n).toNat = n := by
    decide
  constructor
  · intro hRead
    have hChar := (hexChar_of_decode hRead).2
    rwa [(hChars n).2] at hChar
  · intro hChar
    rw [← decodeHexChar_lower, hChar, (hChars n).1]

theorem readHexByte_eq_some_iff
    (part : List UInt8)
    (c : UInt8) :
    readHexByte part = some c ↔ part.map lower = hexText c := by
  match part with
  | [] => simp [readHexByte, hexText]
  | [_] => simp [readHexByte, hexText]
  | _ :: _ :: _ :: _ => simp [readHexByte, hexText]
  | [high, low] =>
      have hC := c.toNat_lt
      simp only [readHexByte, hexText, Option.bind_eq_bind,
        Option.bind_eq_some_iff, Option.some.injEq,
        List.map_cons, List.map_nil, List.cons.injEq, and_true]
      constructor
      · rintro ⟨x, hHigh, y, hLow, rfl⟩
        have hX := (hexChar_of_decode hHigh).1
        have hY := (hexChar_of_decode hLow).1
        have hFirst :=
          decodeHexChar_eq_some_iff high ⟨x.toNat, hX⟩
        have hSecond :=
          decodeHexChar_eq_some_iff low ⟨y.toNat, hY⟩
        rw [UInt8.ofNat_toNat] at hFirst hSecond
        have hValue :
            (x * 16 + y).toNat = x.toNat * 16 + y.toNat := by
          simp only [UInt8.toNat_add, UInt8.toNat_mul]
          change (x.toNat * 16 % 256 + y.toNat) % 256 = _
          omega
        have hDiv :
            (x.toNat * 16 + y.toNat) / 16 = x.toNat := by
          omega
        have hMod :
            (x.toNat * 16 + y.toNat) % 16 = y.toNat := by
          omega
        rw [hValue, hDiv, hMod]
        exact ⟨hFirst.mp hHigh, hSecond.mp hLow⟩
      · rintro ⟨hHigh, hLow⟩
        have hFirst := decodeHexChar_eq_some_iff high
          ⟨c.toNat / 16, by omega⟩
        have hSecond := decodeHexChar_eq_some_iff low
          ⟨c.toNat % 16, by omega⟩
        refine ⟨_, hFirst.mpr hHigh, _, hSecond.mpr hLow, ?_⟩
        rw [← UInt8.toNat_inj, UInt8.toNat_add,
          UInt8.toNat_mul, UInt8.toNat_ofNat',
          UInt8.toNat_ofNat']
        change (c.toNat / 16 % 256 * 16 % 256 +
          c.toNat % 16 % 256) % 256 = _
        omega

/- The character for a bit. -/
def bitChar (b : Bool) : UInt8 :=
  if b then code '1' else code '0'

theorem readBit_eq_some_iff
    (c : UInt8)
    (b : Bool) :
    readBit c = some b ↔ c = bitChar b := by
  have hChars : code '1' ≠ code '0' := by decide
  unfold readBit bitChar
  by_cases hOne : c = code '1'
  · cases b <;> simp [hOne, hChars]
  · by_cases hZero : c = code '0'
    · cases b <;> simp [hZero, hChars.symm]
    · cases b <;> simp [hOne, hZero]

theorem mapM_readBit_eq_some_iff
    (part : List UInt8)
    (bits : List Bool) :
    part.mapM readBit = some bits ↔ part = bits.map bitChar := by
  induction part generalizing bits with
  | nil => cases bits <;> simp
  | cons c part ih =>
      cases bits with
      | nil => simp [List.mapM_cons, Option.bind_eq_some_iff]
      | cons b bits =>
          simp [List.mapM_cons, Option.bind_eq_some_iff,
            readBit_eq_some_iff, ih]

/- A byte is made of eight bits. -/
theorem binText_foldl
    {bits : List Bool}
    (hLength : bits.length = 8) :
    binText
        (bits.foldl (fun c b => c * 2 + if b then 1 else 0) 0) =
      bits.map bitChar := by
  have hAll : ∀ b7 b6 b5 b4 b3 b2 b1 b0 : Bool,
      binText
          ([b7, b6, b5, b4, b3, b2, b1, b0].foldl
            (fun c b => c * 2 + if b then 1 else 0) 0) =
        [b7, b6, b5, b4, b3, b2, b1, b0].map bitChar := by
    decide
  match bits, hLength with
  | [b7, b6, b5, b4, b3, b2, b1, b0], _ =>
      exact hAll b7 b6 b5 b4 b3 b2 b1 b0

theorem readBinByte_map_bitChar
    {bits : List Bool}
    (hLength : bits.length = 8) :
    readBinByte (bits.map bitChar) =
      some (bits.foldl (fun c b => c * 2 + if b then 1 else 0) 0) := by
  rw [readBinByte, if_pos (by rw [List.length_map, hLength]),
    (mapM_readBit_eq_some_iff _ bits).mpr rfl]
  rfl

theorem readBinByte_eq_some_iff
    (part : List UInt8)
    (c : UInt8) :
    readBinByte part = some c ↔ part.map id = binText c := by
  rw [List.map_id]
  constructor
  · intro hRead
    simp only [readBinByte, Option.ite_none_right_eq_some,
      Option.bind_eq_bind, Option.bind_eq_some_iff,
      Option.some.injEq, mapM_readBit_eq_some_iff] at hRead
    obtain ⟨hLength, bits, rfl, rfl⟩ := hRead
    rw [List.length_map] at hLength
    exact (binText_foldl hLength).symm
  · rintro rfl
    have hBits :
        binText c =
          ([7, 6, 5, 4, 3, 2, 1, 0].map c.toNat.testBit).map
            bitChar := rfl
    rw [hBits, readBinByte_map_bitChar rfl, Option.some.injEq]
    apply binText_injective
    rw [binText_foldl rfl, hBits]

------------------------------------------------------------
-- Texts of Digits
------------------------------------------------------------

theorem readHex_eq_some_iff
    (text bytes : List UInt8) :
    readHex text = some bytes ↔
      text.map lower = bytes.flatMap hexText :=
  readEach_eq_some_iff Nat.zero_lt_two length_hexText
    readHexByte_eq_some_iff text bytes

theorem readBin_eq_some_iff
    (text bytes : List UInt8) :
    readBin text = some bytes ↔
      text = bytes.flatMap binText := by
  have hRead :=
    readEach_eq_some_iff (Nat.succ_pos 7) length_binText
      readBinByte_eq_some_iff text bytes
  rwa [List.map_id] at hRead

/- No capital letter is written. -/
theorem lower_hexText (bytes : List UInt8) :
    (bytes.flatMap hexText).map lower =
      bytes.flatMap hexText := by
  have hChars : ∀ n : Fin 16,
      lower (hexChars.getD n 0) = hexChars.getD n 0 := by
    decide
  have hByte (c : UInt8) :
      (hexText c).map lower = hexText c := by
    have hC := c.toNat_lt
    have hHigh := hChars ⟨c.toNat / 16, by omega⟩
    have hLow := hChars ⟨c.toNat % 16, by omega⟩
    rw [hexText, List.map_cons, List.map_singleton, hHigh, hLow]
  simp [List.map_flatMap, hByte]

theorem toHex_eq_some_iff (str text : List UInt8) :
    toHex str = some text ↔
      str.length < 2 ^ 63 ∧ readHex text = some str ∧
        text.map lower = text := by
  have hFits : str.length * 2 < 2 ^ 64 ↔ str.length < 2 ^ 63 := by
    omega
  rw [toHex, encodeBytes_eq hexDigits_eq length_hexText,
    readHex_eq_some_iff]
  simp only [hFits, Option.ite_none_right_eq_some,
    Option.some.injEq]
  constructor
  · rintro ⟨hLt, rfl⟩
    exact ⟨hLt, lower_hexText str, lower_hexText str⟩
  · rintro ⟨hLt, hRead, hLower⟩
    exact ⟨hLt, hRead ▸ hLower⟩

theorem toHexReverse_eq (str : List UInt8) :
    toHexReverse str = toHex (str.map reverse) := by
  rw [toHexReverse, toHex,
    encodeBytes_eq (fun c => hexDigits_eq (reverse c))
      (fun c => length_hexText (reverse c)),
    encodeBytes_eq hexDigits_eq length_hexText]
  simp [List.flatMap_map]

theorem toBin_eq_some_iff (str text : List UInt8) :
    toBin str = some text ↔
      str.length < 2 ^ 61 ∧ readBin text = some str := by
  have hFits : str.length * 8 < 2 ^ 64 ↔ str.length < 2 ^ 61 := by
    omega
  rw [toBin, encodeBytes_eq binDigits_eq length_binText,
    readBin_eq_some_iff]
  simp only [hFits, Option.ite_none_right_eq_some,
    Option.some.injEq]
  exact and_congr_right fun _ => eq_comm

theorem toBinReverse_eq (str : List UInt8) :
    toBinReverse str =
      (toBin str.reverse).map List.reverse := by
  have hText :
      (str.reverse.flatMap binText).reverse =
        str.flatMap fun c => binText (reverse c) := by
    rw [List.reverse_flatMap, List.reverse_reverse]
    simp [binText_reverse, Function.comp_def]
  rw [toBinReverse, toBin,
    encodeBytes_eq (fun c => binDigits_eq (reverse c))
      (fun c => length_binText (reverse c)),
    encodeBytes_eq binDigits_eq length_binText,
    List.length_reverse, ← hText]
  split <;> rfl

/-
  The digits are given for every array but those of which the
  size overflows.  Read from the front they are the bytes, and
  read from the back the reversed binary digits are the bytes
  from the last one to the first.
-/
theorem digits_eq_some_iff (str text : List UInt8) :
    (toHex str = some text ↔
      str.length < 2 ^ 63 ∧ readHex text = some str ∧
        text.map lower = text) ∧
    (toHexReverse str = some text ↔
      str.length < 2 ^ 63 ∧
        readHex text = some (str.map reverse) ∧
        text.map lower = text) ∧
    (toBin str = some text ↔
      str.length < 2 ^ 61 ∧ readBin text = some str) ∧
    (toBinReverse str = some text ↔
      str.length < 2 ^ 61 ∧
        readBin text.reverse = some str.reverse) := by
  refine ⟨toHex_eq_some_iff str text, ?_,
    toBin_eq_some_iff str text, ?_⟩
  · rw [toHexReverse_eq, toHex_eq_some_iff, List.length_map]
  · have hBin := toBin_eq_some_iff str.reverse text.reverse
    rw [List.length_reverse] at hBin
    rw [toBinReverse_eq, ← hBin, Option.map_eq_some_iff]
    constructor
    · rintro ⟨front, hFront, rfl⟩
      rw [List.reverse_reverse]
      exact hFront
    · intro hText
      exact ⟨text.reverse, hText, List.reverse_reverse text⟩

end OefCore.Encoders
