import Mathlib.Algebra.Order.Ring.Nat
import OefCore.Library.Filling

/-
  The texts of byte arrays: base 64, hexadecimal and binary
  digits, the last two also with the bits of each byte
  reversed.

  Main declarations:
    * `toBase64`
    * `toHex`, `toHexReverse`, `toBin`, `toBinReverse`
    * `decodeHexChar`, `base64decode`
-/

namespace OefCore.Encoders

------------------------------------------------------------
-- Tables
------------------------------------------------------------

def code (c : Char) : UInt8 :=
  UInt8.ofNat c.toNat

def base64chars : List UInt8 :=
  ['A', 'B', 'C', 'D', 'E', 'F', 'G', 'H', 'I', 'J', 'K',
    'L', 'M', 'N', 'O', 'P', 'Q', 'R', 'S', 'T', 'U', 'V',
    'W', 'X', 'Y', 'Z', 'a', 'b', 'c', 'd', 'e', 'f', 'g',
    'h', 'i', 'j', 'k', 'l', 'm', 'n', 'o', 'p', 'q', 'r',
    's', 't', 'u', 'v', 'w', 'x', 'y', 'z', '0', '1', '2',
    '3', '4', '5', '6', '7', '8', '9', '+', '/', '=',
    '\x00'].map code

def base64pad : UInt8 := code '='

def hexChars : List UInt8 :=
  ['0', '1', '2', '3', '4', '5', '6', '7', '8', '9', 'a',
    'b', 'c', 'd', 'e', 'f', '\x00'].map code

/- 64 stands for white space, 65 for the pad, 66 for what is
   not of the text. -/
def base64decode : List UInt8 := [
  66, 66, 66, 66, 66, 66, 66, 66, 66, 66, 64, 66,
  66, 66, 66, 66, 66, 66, 66, 66, 66, 66, 66, 66,
  66, 66, 66, 66, 66, 66, 66, 66, 66, 66, 66, 66,
  66, 66, 66, 66, 66, 66, 66, 62, 66, 66, 66, 63,
  52, 53, 54, 55, 56, 57, 58, 59, 60, 61, 66, 66,
  66, 65, 66, 66, 66, 0, 1, 2, 3, 4, 5, 6,
  7, 8, 9, 10, 11, 12, 13, 14, 15, 16, 17, 18,
  19, 20, 21, 22, 23, 24, 25, 66, 66, 66, 66, 66,
  66, 26, 27, 28, 29, 30, 31, 32, 33, 34, 35, 36,
  37, 38, 39, 40, 41, 42, 43, 44, 45, 46, 47, 48,
  49, 50, 51, 66, 66, 66, 66, 66, 66, 66, 66, 66,
  66, 66, 66, 66, 66, 66, 66, 66, 66, 66, 66, 66,
  66, 66, 66, 66, 66, 66, 66, 66, 66, 66, 66, 66,
  66, 66, 66, 66, 66, 66, 66, 66, 66, 66, 66, 66,
  66, 66, 66, 66, 66, 66, 66, 66, 66, 66, 66, 66,
  66, 66, 66, 66, 66, 66, 66, 66, 66, 66, 66, 66,
  66, 66, 66, 66, 66, 66, 66, 66, 66, 66, 66, 66,
  66, 66, 66, 66, 66, 66, 66, 66, 66, 66, 66, 66,
  66, 66, 66, 66, 66, 66, 66, 66, 66, 66, 66, 66,
  66, 66, 66, 66, 66, 66, 66, 66, 66, 66, 66, 66,
  66, 66, 66, 66, 66, 66, 66, 66, 66, 66, 66, 66,
  66, 66, 66, 66]

/- What is no digit is an error. -/
def decodeHexChar (c : UInt8) : Option UInt8 :=
  if code '0' ≤ c ∧ c ≤ code '9' then
    some (c - code '0')
  else if code 'A' ≤ c ∧ c ≤ code 'F' then
    some (c - code 'A' + 10)
  else if code 'a' ≤ c ∧ c ≤ code 'f' then
    some (c - code 'a' + 10)
  else
    none

------------------------------------------------------------
-- Base 64
------------------------------------------------------------

/- The size that the text is given, in 64 bits. -/
def base64Size (n : Nat) : Nat :=
  let invPadCount := n % 3
  if invPadCount = 0 then
    n * 2 ^ 2 % 2 ^ 64 / 3
  else
    (n + (3 - invPadCount)) * 2 ^ 2 % 2 ^ 64 / 3

/- Up to three bytes in a word of 32 bits. -/
def base64Word
    (data : List UInt8)
    (x : Nat) : Option UInt32 := do
  let first ← data[x]?
  let temp := first.toUInt32 <<< 16
  let temp ←
    if x + 1 < data.length then do
      let second ← data[x + 1]?
      pure (temp + second.toUInt32 <<< 8)
    else
      pure temp
  if x + 2 < data.length then do
    let third ← data[x + 2]?
    pure (temp + third.toUInt32)
  else
    pure temp

/- One round of the loop. -/
def base64Round
    (data : List UInt8)
    (x : Nat)
    (ret : Filling UInt8) : Option (Filling UInt8) := do
  let temp ← base64Word data x
  let n0 := (temp >>> 18 &&& 63).toUInt8
  let n1 := (temp >>> 12 &&& 63).toUInt8
  let n2 := (temp >>> 6 &&& 63).toUInt8
  let n3 := (temp &&& 63).toUInt8
  let ret ← ret.put (← base64chars[n0.toNat]?)
  let ret ← ret.put (← base64chars[n1.toNat]?)
  let ret ←
    if x + 1 < data.length then
      ret.put (← base64chars[n2.toNat]?)
    else
      pure ret
  if x + 2 < data.length then
    ret.put (← base64chars[n3.toNat]?)
  else
    pure ret

def base64Loop
    (data : List UInt8)
    (x : Nat)
    (ret : Filling UInt8) : Option (Filling UInt8) :=
  if x < data.length then do
    let next ← base64Round data x ret
    base64Loop data (x + 3) next
  else
    some ret
termination_by data.length - x

/- The pads are put until `invPadCount` is three. -/
def base64Pads
    (invPadCount : Nat)
    (ret : Filling UInt8) : Option (Filling UInt8) :=
  if invPadCount < 3 then do
    let next ← ret.put base64pad
    base64Pads (invPadCount + 1) next
  else
    some ret
termination_by 3 - invPadCount

/- No text if a position outside of a table or of the array
   that was sized for it is used. -/
def toBase64 (str : List UInt8) : Option (List UInt8) :=
  if str.length = 0 then
    some []
  else do
    let ret := Filling.blank (base64Size str.length) 0
    let ret ← base64Loop str 0 ret
    let invPadCount := str.length % 3
    let ret ←
      if invPadCount > 0 then
        base64Pads invPadCount ret
      else
        pure ret
    pure ret.buffer

------------------------------------------------------------
-- Digits
------------------------------------------------------------

/- The characters of each byte are put in turn. -/
def byteLoop
    (chars : UInt8 → Option (List UInt8))
    (data : List UInt8)
    (i : Nat)
    (ret : Filling UInt8) : Option (Filling UInt8) :=
  if i < data.length then do
    let c ← data[i]?
    let next ← ret.puts (← chars c)
    byteLoop chars data (i + 1) next
  else
    some ret
termination_by data.length - i

def encodeBytes
    (width : Nat)
    (chars : UInt8 → Option (List UInt8))
    (str : List UInt8) : Option (List UInt8) := do
  let ret :=
    Filling.blank (str.length * width % 2 ^ 64) 0
  let ret ← byteLoop chars str 0 ret
  pure ret.buffer

def hexDigits (c : UInt8) : Option (List UInt8) := do
  let high ← hexChars[(c >>> 4 &&& 0xF).toNat]?
  let low ← hexChars[(c &&& 0xF).toNat]?
  pure [high, low]

def binDigits (c : UInt8) : Option (List UInt8) :=
  some (([0x80, 0x40, 0x20, 0x10, 0x08, 0x04, 0x02,
    0x01] : List UInt8).map fun mask =>
      if c &&& mask ≠ 0 then code '1' else code '0')

/- Reverse bits in byte. -/
def reverse (c : UInt8) : UInt8 :=
  let c := (c &&& 0xF0) >>> 4 ||| (c &&& 0x0F) <<< 4
  let c := (c &&& 0xCC) >>> 2 ||| (c &&& 0x33) <<< 2
  (c &&& 0xAA) >>> 1 ||| (c &&& 0x55) <<< 1

def toHex (str : List UInt8) : Option (List UInt8) :=
  encodeBytes 2 hexDigits str

def toHexReverse (str : List UInt8) : Option (List UInt8) :=
  encodeBytes 2 (fun c => hexDigits (reverse c)) str

def toBin (str : List UInt8) : Option (List UInt8) :=
  encodeBytes 8 binDigits str

def toBinReverse (str : List UInt8) : Option (List UInt8) :=
  encodeBytes 8 (fun c => binDigits (reverse c)) str

end OefCore.Encoders
