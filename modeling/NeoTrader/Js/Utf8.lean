import Mathlib.Tactic.Common

/-!
# Text from bytes

* **`decodeUtf8`**: the text of bytes, where a sequence that is not well formed becomes a replacement
  character.
-/

namespace Js

/-- A character that has begun: its bits so far, how many bytes it still needs, and the range of the
next one. -/
structure Utf8Pending where
  bits : ℕ
  needed : ℕ
  lower : ℕ := 0x80
  upper : ℕ := 0xbf

/-- What a byte can be between two characters. -/
inductive Utf8Lead
  | char (c : Char)
  | more (p : Utf8Pending)
  | bad

/-- A byte between two characters. -/
def utf8Lead (b : ℕ) : Utf8Lead :=
  if b < 0x80 then .char (Char.ofNat b)
  else if 0xc2 ≤ b ∧ b ≤ 0xdf then .more { bits := b - 0xc0, needed := 1 }
  else if b = 0xe0 then .more { bits := 0, needed := 2, lower := 0xa0 }
  else if b = 0xed then .more { bits := 0xd, needed := 2, upper := 0x9f }
  else if 0xe1 ≤ b ∧ b ≤ 0xef then .more { bits := b - 0xe0, needed := 2 }
  else if b = 0xf0 then .more { bits := 0, needed := 3, lower := 0x90 }
  else if b = 0xf4 then .more { bits := 4, needed := 3, upper := 0x8f }
  else if 0xf1 ≤ b ∧ b ≤ 0xf3 then .more { bits := b - 0xf0, needed := 3 }
  else .bad

/-- The characters of the bytes, after a character that may have begun. A byte that does not continue
it is read again as a first byte. -/
def utf8Chars : Option Utf8Pending → List UInt8 → List Char
  | none, [] => []
  | some _, [] => ['\uFFFD']
  | none, b :: s =>
    match utf8Lead b.toNat with
    | .char c => c :: utf8Chars none s
    | .more p => utf8Chars (some p) s
    | .bad => '\uFFFD' :: utf8Chars none s
  | some p, b :: s =>
    if p.lower ≤ b.toNat ∧ b.toNat ≤ p.upper then
      let bits := p.bits * 64 + b.toNat % 64
      if p.needed = 1 then Char.ofNat bits :: utf8Chars none s
      else utf8Chars (some { bits, needed := p.needed - 1 }) s
    else
      match utf8Lead b.toNat with
      | .char c => '\uFFFD' :: c :: utf8Chars none s
      | .more p => '\uFFFD' :: utf8Chars (some p) s
      | .bad => '\uFFFD' :: '\uFFFD' :: utf8Chars none s

/-- **The text of bytes.** -/
def decodeUtf8 (s : List UInt8) : String := String.ofList (utf8Chars none s)

example : decodeUtf8 [0x61, 0xc3, 0xb1, 0xe2, 0x82, 0xac, 0xff] = "añ€\uFFFD" := by decide

end Js
