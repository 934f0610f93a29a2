import Mathlib.Algebra.Order.Floor.Ring
import Mathlib.Algebra.Order.Ring.Rat
import Mathlib.Data.Rat.Floor
import Mathlib.Data.String.Basic
import Mathlib.Tactic.Common

/-!
# The number type of the language

A JavaScript number is a finite number, one of two infinities, or `NaN`. Finite numbers are exact
rationals here: nothing is rounded, there is no negative zero, and a result overflows only where a
numeral does (`ofRat`).

* `Number`, its arithmetic and its comparisons, which are false of `NaN`;
* `Number.floor`, `Number.abs`, `Number.max`, `Number.round` (`Math.*`);
* `Number.ofString`: `Number(s)` of a string.
-/

namespace Js

/-- A number: finite, `NaN`, or an infinity (`true` for the negative one). -/
inductive Number
  | fin (q : ℚ)
  | nan
  | inf (neg : Bool)
  deriving DecidableEq, Repr

namespace Number

instance {n : ℕ} : OfNat Number n := ⟨.fin n⟩

instance : Inhabited Number := ⟨.nan⟩

/-- `Number.isFinite`. -/
def isFinite : Number → Bool
  | .fin _ => true
  | _ => false

@[simp] theorem isFinite_fin (q : ℚ) : (Number.fin q).isFinite = true := rfl
@[simp] theorem isFinite_nan : Number.nan.isFinite = false := rfl
@[simp] theorem isFinite_inf (b : Bool) : (Number.inf b).isFinite = false := rfl

theorem isFinite_iff {a : Number} : a.isFinite = true ↔ ∃ q, a = .fin q := by
  cases a <;> simp

/-- `-a`. -/
def neg : Number → Number
  | .fin q => .fin (-q)
  | .nan => .nan
  | .inf b => .inf (!b)

/-- `a + b`. -/
def add : Number → Number → Number
  | .fin p, .fin q => .fin (p + q)
  | .fin _, .inf b => .inf b
  | .inf b, .fin _ => .inf b
  | .inf b, .inf c => if b = c then .inf b else .nan
  | _, _ => .nan

/-- `a - b`. -/
def sub (a b : Number) : Number := a.add b.neg

/-- An infinity with the sign of `q`, or `NaN` at zero. -/
def infOfSign (b : Bool) (q : ℚ) : Number := if q = 0 then .nan else .inf (b != decide (q < 0))

/-- `a * b`. -/
def mul : Number → Number → Number
  | .fin p, .fin q => .fin (p * q)
  | .fin p, .inf b => infOfSign b p
  | .inf b, .fin q => infOfSign b q
  | .inf b, .inf c => .inf (b != c)
  | _, _ => .nan

/-- `a / b`. -/
def div : Number → Number → Number
  | .fin p, .fin q => if q = 0 then infOfSign false p else .fin (p / q)
  | .fin _, .inf _ => .fin 0
  | .inf b, .fin q => .inf (b != decide (q < 0))
  | _, _ => .nan

/-- `a < b`. -/
def lt : Number → Number → Bool
  | .fin p, .fin q => p < q
  | .fin _, .inf b => !b
  | .inf b, .fin _ => b
  | .inf b, .inf c => b && !c
  | _, _ => false

/-- `a <= b`. -/
def le : Number → Number → Bool
  | .fin p, .fin q => p ≤ q
  | .fin _, .inf b => !b
  | .inf b, .fin _ => b
  | .inf b, .inf c => b || !c
  | _, _ => false

/-- `a > b`. -/
abbrev gt (a b : Number) : Bool := b.lt a

/-- `a >= b`. -/
abbrev ge (a b : Number) : Bool := b.le a

/-- `Math.floor`. -/
def floor : Number → Number
  | .fin q => .fin ⌊q⌋
  | a => a

/-- `Math.round`: the nearest integer, a half goes up. -/
def round : Number → Number
  | .fin q => .fin ⌊q + 1 / 2⌋
  | a => a

/-- `Math.abs`. -/
def abs : Number → Number
  | .fin q => .fin |q|
  | .nan => .nan
  | .inf _ => .inf false

/-- `Math.max`. -/
def max : Number → Number → Number
  | .nan, _ => .nan
  | _, .nan => .nan
  | a, b => if a.lt b then b else a

section Fin

variable (p q : ℚ)

@[simp] theorem neg_fin : (Number.fin p).neg = .fin (-p) := rfl
@[simp] theorem add_fin : (Number.fin p).add (.fin q) = .fin (p + q) := rfl
@[simp] theorem sub_fin : (Number.fin p).sub (.fin q) = .fin (p - q) := by
  simp [sub, sub_eq_add_neg]
@[simp] theorem mul_fin : (Number.fin p).mul (.fin q) = .fin (p * q) := rfl
@[simp] theorem lt_fin : (Number.fin p).lt (.fin q) = decide (p < q) := rfl
@[simp] theorem le_fin : (Number.fin p).le (.fin q) = decide (p ≤ q) := rfl
@[simp] theorem floor_fin : (Number.fin p).floor = .fin ⌊p⌋ := rfl
@[simp] theorem abs_fin : (Number.fin p).abs = .fin |p| := rfl

theorem div_fin {q : ℚ} (hq : q ≠ 0) : (Number.fin p).div (.fin q) = .fin (p / q) := by
  simp [div, hq]

@[simp] theorem max_fin : (Number.fin p).max (.fin q) = .fin (Max.max p q) := by
  by_cases h : p < q
  · simp [max, h, max_eq_right h.le]
  · simp [max, h, max_eq_left (not_lt.1 h)]

end Fin

/-! ## Numerals -/

/-- The least magnitude that a numeral rounds to an infinity. -/
def overflow : ℚ := 2 ^ 1024 - 2 ^ 970

/-- The number of an exact numeral. -/
def ofRat (q : ℚ) : Number := if |q| < overflow then .fin q else .inf (q < 0)

/-- White space that `Number` trims. -/
def isSpace (c : Char) : Bool :=
  c.toNat ∈ [9, 10, 11, 12, 13, 32, 160, 0x1680, 0x2028, 0x2029, 0x202f, 0x205f, 0x3000, 0xfeff] ||
    (0x2000 ≤ c.toNat && c.toNat ≤ 0x200a)

/-- `s.trim()`. -/
def trim (s : List Char) : List Char :=
  ((s.dropWhile isSpace).reverse.dropWhile isSpace).reverse

def digit (c : Char) : Option ℕ :=
  if '0' ≤ c ∧ c ≤ '9' then some (c.toNat - 48)
  else if 'a' ≤ c ∧ c ≤ 'z' then some (c.toNat - 87)
  else if 'A' ≤ c ∧ c ≤ 'Z' then some (c.toNat - 55)
  else none

/-- The digits in base `b` at the front: their value from `v` on, their number, and what follows. -/
def digits (b : ℕ) : List Char → ℕ → ℕ → ℕ × ℕ × List Char
  | [], v, n => (v, n, [])
  | c :: s, v, n =>
    match digit c with
    | some d => if d < b then digits b s (v * b + d) (n + 1) else (v, n, c :: s)
    | none => (v, n, c :: s)

/-- A numeral with the base prefix removed. -/
def ofRadix (b : ℕ) (s : List Char) : Number :=
  match digits b s 0 0 with
  | (v, n, []) => if n = 0 then .nan else ofRat v
  | _ => .nan

/-- The exponent part of a decimal numeral, if it is well formed. -/
def exponent : List Char → Option ℤ
  | [] => some 0
  | c :: s =>
    if c = 'e' ∨ c = 'E' then
      let (neg, s) := match s with
        | '-' :: s => (true, s)
        | '+' :: s => (false, s)
        | s => (false, s)
      match digits 10 s 0 0 with
      | (v, n, rest) => if n = 0 ∨ rest ≠ [] then none else some (if neg then -v else v)
    else none

/-- The number `v · 10 ^ e`; an exponent beyond the range of the type is not computed. -/
def scale (v : ℕ) (e : ℤ) (len : ℕ) : Number :=
  if v = 0 then 0
  else if 400 < e then .inf false
  else if e < -400 - (len : ℤ) then 0
  else ofRat (if 0 ≤ e then v * 10 ^ e.toNat else v / 10 ^ (-e).toNat)

/-- A decimal numeral without a sign. -/
def ofUnsignedDecimal (s : List Char) : Number :=
  if s = "Infinity".toList then .inf false
  else
    let (v, n, rest) := digits 10 s 0 0
    let (v', m, rest) := match rest with
      | '.' :: rest => digits 10 rest v 0
      | rest => (v, 0, rest)
    if n + m = 0 then .nan
    else match exponent rest with
      | some e => scale v' (e - m) (n + m)
      | none => .nan

/-- `Number(s)`. -/
def ofChars (s : List Char) : Number :=
  match trim s with
  | [] => 0
  | '0' :: 'x' :: s => ofRadix 16 s
  | '0' :: 'X' :: s => ofRadix 16 s
  | '0' :: 'o' :: s => ofRadix 8 s
  | '0' :: 'O' :: s => ofRadix 8 s
  | '0' :: 'b' :: s => ofRadix 2 s
  | '0' :: 'B' :: s => ofRadix 2 s
  | '-' :: s => (ofUnsignedDecimal s).neg
  | '+' :: s => ofUnsignedDecimal s
  | s => ofUnsignedDecimal s

/-- `Number(s)` of a string. -/
def ofString (s : String) : Number := ofChars s.toList

example : ofString " 0.25 " = .fin (1 / 4) := by decide +kernel
example : ofString "-1e3" = .fin (-1000) := by decide +kernel
example : ofString "12px" = .nan := by decide

end Number

end Js
