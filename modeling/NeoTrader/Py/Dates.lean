import NeoTrader.Common.Gregorian
import NeoTrader.Backtest.WalkForward
import Mathlib.Data.List.SplitOn

/-!
# Dates of a Python script

* `Unicode`, `strip`, `int`, `slice`: how a text is read, under tables of characters;
* `date`, `fromisoformat`, `isoformat`: dates of the years one to 9999 and their texts;
* `DateTime`, `timedelta`, `shift`: times in microseconds, which overflow outside these years.
-/

namespace Py

open Gregorian

/-! ## Texts -/

/-- The characters of a text: its decimal digits, its white space and its letters in lower case. -/
structure Unicode where
  decimal : Char → Option ℕ
  space : Char → Bool
  lower : String → String

def ascii : Unicode where
  decimal c := if '0' ≤ c ∧ c ≤ '9' then some (c.toNat - 48) else none
  space c := c ∈ [' ', '\t', '\n', '\r']
  lower s := String.ofList (s.toList.map Char.toLower)

section Text

variable (u : Unicode)

/-- `s.strip()`. -/
def strip (s : List Char) : List Char :=
  ((s.dropWhile u.space).reverse.dropWhile u.space).reverse

/-- The digits after the first one, each perhaps after an underscore. -/
def moreDigits : List Char → ℕ → Option ℕ
  | [], n => some n
  | [c], n => (u.decimal c).map fun d => 10 * n + d
  | c :: c' :: s, n =>
    if c = '_' then (u.decimal c').bind fun d => moreDigits s (10 * n + d)
    else (u.decimal c).bind fun d => moreDigits (c' :: s) (10 * n + d)

/-- A numeral with no sign. -/
def natural : List Char → Option ℕ
  | [] => none
  | c :: s => (u.decimal c).bind (moreDigits u s)

/-- `int(s)`. -/
def int (s : List Char) : Option ℤ :=
  match strip u s with
  | '-' :: s => (natural u s).map fun n => -n
  | '+' :: s => (natural u s).map fun n => n
  | s => (natural u s).map fun n => n

end Text

/-- `s[i:j]`. -/
def slice (i j : ℕ) (s : List Char) : List Char := (s.drop i).take (j - i)

/-! ## Dates -/

/-- `date(year, month, day)`. -/
def date (year month day : ℤ) : Option Date :=
  if 1 ≤ year ∧ year ≤ 9999 then Date.of? year month.toNat day.toNat else none

/-- The date of a number, in a year. -/
def dateOfOrdinal (year n : ℤ) : Option Date :=
  (List.range' 1 12).findSome? fun month => (List.range' 1 31).findSome? fun day =>
    (date year month day).filter fun d => d.ordinal = n

def dateOfWeek (year week day : ℕ) : Option Date :=
  if 1 ≤ year ∧ 1 ≤ week ∧ (week ≤ 52 ∨ week = 53 ∧
      isoWeek1Monday (year + 1) - isoWeek1Monday year = 371) ∧ 1 ≤ day ∧ day ≤ 7 then
    let n := isoWeek1Monday year + 7 * (week - 1) + (day - 1)
    [(year : ℤ) - 1, year, year + 1].findSome? fun y => dateOfOrdinal y n
  else none

/-- The number of `n` digits. -/
def digits (n : ℕ) (s : List Char) : Option ℕ :=
  if s.length = n ∧ s.all Char.isDigit then natural ascii s else none

/-- The fields of a text of a date, with dashes between them or none. -/
def isoFields (s : List Char) : List (List Char) :=
  if s[4]? = some '-' then s.splitOn '-'
  else if s[4]? = some 'W' then
    s.take 4 :: slice 4 7 s :: (if 7 < s.length then [s.drop 7] else [])
  else [s.take 4, slice 4 6 s, s.drop 6]

/-- `date.fromisoformat(s)`. -/
def fromisoformat (s : String) : Option Date :=
  match isoFields s.toList with
  | [y, 'W' :: w] => do dateOfWeek (← digits 4 y) (← digits 2 w) 1
  | [y, 'W' :: w, d] => do dateOfWeek (← digits 4 y) (← digits 2 w) (← digits 1 d)
  | [y, m, d] => do date (← digits 4 y) (← digits 2 m) (← digits 2 d)
  | _ => none

/-- A number with zeros in front. -/
def padded (n : ℕ) (x : ℤ) : String :=
  String.ofList (List.replicate (n - (toString x).toList.length) '0') ++ toString x

/-- `str(d)`. -/
def isoformat (d : Date) : String :=
  padded 4 d.year ++ "-" ++ padded 2 d.month ++ "-" ++ padded 2 d.day

/-! ## Times -/

def hourMicros : ℤ := 3600000000

def dayMicros : ℤ := 86400000000

structure DateTime where
  date : Date
  micros : ℕ
  year_pos : 1 ≤ date.year
  year_le : date.year ≤ 9999
  micros_lt : micros < 86400000000

/-- The microseconds from the day before year one on. -/
def instantOf (d : Date) (micros : ℤ) : ℤ := d.ordinal * dayMicros + micros

def DateTime.instant (now : DateTime) : ℤ := instantOf now.date now.micros

def hours (h : ℚ) : ℤ := NeoTrader.roundHalfEven (h * 3600000000)

/-- `timedelta(hours=h)`. -/
def timedelta (h : ℚ) : Except String ℤ :=
  if -999999999 ≤ hours h / dayMicros ∧ hours h / dayMicros ≤ 999999999 then .ok (hours h)
  else .error "OverflowError: days have to be at most 999999999"

/-- A time that is moved by a duration. -/
def shift (t δ : ℤ) : Except String ℤ :=
  if 1 ≤ (t + δ) / dayMicros ∧ (t + δ) / dayMicros ≤ daysBeforeYear 10000 then .ok (t + δ)
  else .error "OverflowError: date value out of range"

end Py
