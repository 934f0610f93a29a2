import Mathlib.Algebra.Order.Field.Power
import Mathlib.Tactic.NormNum
import Mathlib.Tactic.Positivity
import NeoTrader.Js.Json

/-!
# The text of a number

A finite number is written with as few digits as tell it from all others. It is taken to be the
number that these digits say.

* **`ofString_text`**: a number is read as it was written.
-/

namespace Js

namespace Number

/-! ## Digits -/

theorem digit_of_isDigit {c : Char} (h : c.isDigit = true) :
    digit c = some (c.toNat - 48) ∧ c.toNat - 48 < 10 := by
  rw [Char.isDigit_iff_toNat] at h
  have hc : '0' ≤ c ∧ c ≤ '9' := ⟨h.1, h.2⟩
  rw [digit, if_pos hc]
  have hnine : '9'.toNat = 57 := rfl
  exact ⟨rfl, by omega⟩

theorem digits_append {l : List Char} (h : ∀ c ∈ l, c.isDigit = true) (rest : List Char)
    (v n : ℕ) :
    digits 10 (l ++ rest) v n = digits 10 rest (Nat.ofDigitChars 10 l v) (n + l.length) := by
  induction l generalizing v n with
  | nil => rfl
  | cons c l ih =>
    obtain ⟨hdigit, hlt⟩ := digit_of_isDigit (h c List.mem_cons_self)
    rw [List.cons_append, digits, hdigit]
    show (if c.toNat - 48 < 10 then _ else _) = _
    rw [if_pos hlt, ih fun c hc => h c (List.mem_cons_of_mem _ hc)]
    rw [Nat.ofDigitChars_cons, List.length_cons, Nat.add_right_comm, mul_comm v, Nat.add_assoc]
    rfl

/-- A numeral with no more digits. -/
def Stops (rest : List Char) : Prop := ∀ c ∈ rest.head?, c = '.' ∨ c = 'e'

theorem digits_stop {rest : List Char} (h : Stops rest) (v n : ℕ) :
    digits 10 rest v n = (v, n, rest) := by
  cases rest with
  | nil => rfl
  | cons c rest =>
    rcases h c rfl with rfl | rfl <;> rfl

theorem digits_all {l rest : List Char} (h : ∀ c ∈ l, c.isDigit = true) (hstop : Stops rest)
    (v n : ℕ) : digits 10 (l ++ rest) v n = (Nat.ofDigitChars 10 l v, n + l.length, rest) := by
  rw [digits_append h, digits_stop hstop]

/-! ## Numerals -/

def fraction (b : List Char) : List Char := if b = [] then [] else '.' :: b

/-- The power of ten of a numeral. -/
def power (x : ℤ) (marked : Bool) : List Char :=
  if marked then 'e' :: (if x < 0 then '-' else '+') :: Nat.toDigits 10 x.natAbs else []

theorem isDigit_toDigits {n : ℕ} {c : Char} (h : c ∈ Nat.toDigits 10 n) : c.isDigit = true :=
  Nat.isDigit_of_mem_toDigits (by decide) (by decide) h

theorem stops_power (x : ℤ) (marked : Bool) : Stops (power x marked) := by
  cases marked with
  | false => exact fun c hc => by cases hc
  | true => exact fun c hc => Or.inr (Option.mem_some.1 hc).symm

theorem exponent_power {x : ℤ} {marked : Bool} (h : marked = false → x = 0) :
    exponent (power x marked) = some x := by
  cases marked with
  | false => rw [h rfl]; rfl
  | true =>
    have hread : ∀ n : ℕ, digits 10 (Nat.toDigits 10 n) 0 0 =
        (n, (Nat.toDigits 10 n).length, []) := by
      intro n
      have hnil : Stops [] := fun c hc => by cases hc
      have h := digits_all (l := Nat.toDigits 10 n) (fun c hc => isDigit_toDigits hc) hnil 0 0
      rwa [List.append_nil, Nat.ofDigitChars_ten_toDigits, Nat.zero_add] at h
    have hlen : (Nat.toDigits 10 x.natAbs).length ≠ 0 := Nat.length_toDigits_pos.ne'
    rw [power, if_pos rfl]
    by_cases hneg : x < 0
    · rw [if_pos hneg]
      simp only [exponent, hread, hlen]
      simp [abs_of_neg hneg]
    · rw [if_neg hneg]
      simp only [exponent, hread, hlen]
      simp [abs_of_nonneg (not_lt.1 hneg)]

/-- **A numeral is read from its parts.** -/
theorem ofUnsignedDecimal_parts {a b : List Char} (x : ℤ) (marked : Bool)
    (ha : ∀ c ∈ a, c.isDigit = true) (hb : ∀ c ∈ b, c.isDigit = true) (hne : a ≠ [])
    (hx : marked = false → x = 0) :
    ofUnsignedDecimal (a ++ (fraction b ++ power x marked)) =
      scale (Nat.ofDigitChars 10 (a ++ b) 0) (x - b.length) (a.length + b.length) := by
  have hlen : a.length ≠ 0 := fun h => hne (List.length_eq_zero_iff.1 h)
  have hinfinity : a ++ (fraction b ++ power x marked) ≠ "Infinity".toList := by
    obtain ⟨c, a', rfl⟩ := List.exists_cons_of_ne_nil hne
    intro heq
    have hc := ha c List.mem_cons_self
    rw [List.cons_append, show "Infinity".toList = 'I' :: "nfinity".toList from rfl,
      List.cons.injEq] at heq
    rw [heq.1] at hc
    exact absurd hc (by decide)
  have hexp := exponent_power hx
  unfold ofUnsignedDecimal
  rw [if_neg hinfinity]
  by_cases hnil : b = []
  · subst hnil
    rw [fraction, if_pos rfl, List.nil_append, digits_all ha (stops_power x marked),
      List.append_nil]
    cases marked with
    | false =>
      rw [show power x false = [] from rfl] at hexp ⊢
      simp [hlen, hexp]
    | true =>
      rw [power, if_pos rfl] at hexp ⊢
      simp [hlen, hexp]
  · have hstop : Stops (fraction b ++ power x marked) := by
      rw [fraction, if_neg hnil]
      exact fun c hc => Or.inl (Option.mem_some.1 hc).symm
    rw [digits_all ha hstop, fraction, if_neg hnil, List.cons_append]
    simp [digits_all hb (stops_power x marked), hlen, hexp, Nat.ofDigitChars_append]

theorem scale_eq {v : ℕ} {e : ℤ} (hsmall : -400 ≤ e) (hrange : (v : ℚ) * 10 ^ e < overflow)
    (len : ℕ) : scale v e len = .fin (v * 10 ^ e) := by
  by_cases hzero : v = 0
  · rw [scale, if_pos hzero, hzero, Nat.cast_zero, zero_mul]
    rfl
  · have hpos : (1 : ℚ) ≤ v := Nat.one_le_cast.2 (Nat.one_le_iff_ne_zero.2 hzero)
    have hle : e ≤ 400 := by
      by_contra hbig
      have hpow : (10 : ℚ) ^ (400 : ℤ) ≤ 10 ^ e := zpow_le_zpow_right₀ (by norm_num) (by omega)
      have hover : overflow < (10 : ℚ) ^ (400 : ℤ) := by
        have hlt : (2 : ℚ) ^ 1024 < 10 ^ 400 := by
          exact_mod_cast (by decide +kernel : (2 : ℕ) ^ 1024 < 10 ^ 400)
        rw [overflow, show (400 : ℤ) = ((400 : ℕ) : ℤ) from rfl, zpow_natCast]
        exact (sub_lt_self _ (by positivity)).trans hlt
      have hone : (10 : ℚ) ^ e ≤ v * 10 ^ e := le_mul_of_one_le_left (by positivity) hpos
      linarith
    have hvalue : (if 0 ≤ e then (v : ℚ) * 10 ^ e.toNat else v / 10 ^ (-e).toNat) =
        v * 10 ^ e := by
      split_ifs with h
      · rw [← zpow_natCast, Int.toNat_of_nonneg h]
      · rw [← zpow_natCast, Int.toNat_of_nonneg (by omega), zpow_neg, div_inv_eq_mul]
    have hnonneg : (0 : ℚ) ≤ v * 10 ^ e := by positivity
    rw [scale, if_neg hzero, if_neg (by omega), if_neg (by omega), hvalue, ofRat, if_pos]
    rwa [abs_of_nonneg hnonneg]

/-! ## The text -/

/-- A finite number by the digits that it is written with, of which the last is not zero. -/
structure Decimal where
  negative : Bool
  digits : ℕ
  exponent : ℤ
  shortest : digits % 10 ≠ 0 ∨ digits = 0 ∧ exponent = 0
  not_tiny : -400 ≤ exponent
  in_range : (digits : ℚ) * 10 ^ exponent < overflow

namespace Decimal

variable (d : Decimal)

/-- The number. -/
def value : ℚ := if d.negative then -(d.digits * 10 ^ d.exponent) else d.digits * 10 ^ d.exponent

/-- The text of a number with no sign. -/
def unsignedText : List Char :=
  let s := Nat.toDigits 10 d.digits
  let n : ℤ := s.length + d.exponent
  if s.length ≤ n ∧ n ≤ 21 then s ++ List.replicate d.exponent.toNat '0'
  else if 0 < n ∧ n ≤ 21 then s.take n.toNat ++ fraction (s.drop n.toNat)
  else if -6 < n ∧ n ≤ 0 then '0' :: fraction (List.replicate (-n).toNat '0' ++ s)
  else s.take 1 ++ (fraction (s.drop 1) ++ power (n - 1) true)

/-- `String(x)`. -/
def text : String :=
  String.ofList (if d.negative ∧ d.digits ≠ 0 then '-' :: d.unsignedText else d.unsignedText)

theorem isDigit_zeros {n : ℕ} {c : Char} (h : c ∈ List.replicate n '0') : c.isDigit = true := by
  rw [(List.mem_replicate.1 h).2]
  rfl

/-- **A number with no sign is read as it was written.** -/
theorem ofUnsignedDecimal_text :
    ofUnsignedDecimal d.unsignedText = .fin (d.digits * 10 ^ d.exponent) := by
  have hs : ∀ c ∈ Nat.toDigits 10 d.digits, c.isDigit = true := fun c hc => isDigit_toDigits hc
  have hne : Nat.toDigits 10 d.digits ≠ [] := Nat.toDigits_ne_nil
  have hlen : 0 < (Nat.toDigits 10 d.digits).length := Nat.length_toDigits_pos
  have hread : Nat.ofDigitChars 10 (Nat.toDigits 10 d.digits) 0 = d.digits :=
    Nat.ofDigitChars_ten_toDigits
  have hscale : ∀ len, scale d.digits d.exponent len = .fin (d.digits * 10 ^ d.exponent) :=
    scale_eq d.not_tiny d.in_range
  rw [unsignedText]
  generalize Nat.toDigits 10 d.digits = s at *
  split_ifs with hwhole hpoint hsmall
  · have hnonneg : 0 ≤ d.exponent := by omega
    have hpow : ((d.digits * 10 ^ d.exponent.toNat : ℕ) : ℚ) = d.digits * 10 ^ d.exponent := by
      rw [Nat.cast_mul, Nat.cast_pow, ← zpow_natCast, Int.toNat_of_nonneg hnonneg]
      norm_num
    have hparts := ofUnsignedDecimal_parts (a := s ++ List.replicate d.exponent.toNat '0') (b := [])
      0 false (fun c hc => (List.mem_append.1 hc).elim (hs c) isDigit_zeros)
      (fun c hc => by cases hc) (by simp [hne]) (fun _ => rfl)
    rw [show fraction [] = [] from rfl, show power 0 false = [] from rfl, List.append_nil,
      List.append_nil, Nat.ofDigitChars_append, hread,
      Nat.ofDigitChars_replicate_zero, mul_comm, List.length_nil] at hparts
    rw [hparts, Nat.cast_zero, sub_zero, scale_eq (by omega), hpow, zpow_zero, mul_one]
    rw [hpow, zpow_zero, mul_one]
    exact d.in_range
  · have hparts := ofUnsignedDecimal_parts (a := s.take (s.length + d.exponent).toNat)
      (b := s.drop (s.length + d.exponent).toNat) 0 false
      (fun c hc => hs c (List.mem_of_mem_take hc)) (fun c hc => hs c (List.mem_of_mem_drop hc))
      (by rw [Ne, List.take_eq_nil_iff]; simp [hne]; omega) (fun _ => rfl)
    rw [show power 0 false = [] from rfl, List.append_nil, List.take_append_drop, hread] at hparts
    rw [hparts, show (0 : ℤ) - (s.drop (s.length + d.exponent).toNat).length = d.exponent by
      rw [List.length_drop]; omega]
    exact hscale _
  · have hparts := ofUnsignedDecimal_parts (a := ['0'])
      (b := List.replicate (-(s.length + d.exponent)).toNat '0' ++ s) 0 false
      (by simp) (fun c hc => (List.mem_append.1 hc).elim isDigit_zeros (hs c)) (by simp)
      (fun _ => rfl)
    rw [show power 0 false = [] from rfl, List.append_nil] at hparts
    rw [← List.singleton_append, hparts, Nat.ofDigitChars_append, Nat.ofDigitChars_append,
      Nat.ofDigitChars_replicate_zero,
      show Nat.ofDigitChars 10 ['0'] 0 = 0 from rfl, mul_zero, hread,
      show (0 : ℤ) - (List.replicate (-(s.length + d.exponent)).toNat '0' ++ s).length =
        d.exponent by rw [List.length_append, List.length_replicate]; omega]
    exact hscale _
  · have hparts := ofUnsignedDecimal_parts (a := s.take 1) (b := s.drop 1)
      (s.length + d.exponent - 1) true
      (fun c hc => hs c (List.mem_of_mem_take hc)) (fun c hc => hs c (List.mem_of_mem_drop hc))
      (by rw [Ne, List.take_eq_nil_iff]; simp [hne]) (fun h => by cases h)
    rw [List.take_append_drop, hread] at hparts
    rw [hparts, show (s.length : ℤ) + d.exponent - 1 - (s.drop 1).length = d.exponent by
      rw [List.length_drop]; omega]
    exact hscale _

def Numeric (c : Char) : Prop := c.isDigit = true ∨ c ∈ ['.', 'e', '+', '-']

instance (c : Char) : Decidable (Numeric c) := inferInstanceAs (Decidable (_ ∨ _))

theorem numeric_fraction {b : List Char} (h : ∀ c ∈ b, c.isDigit = true) :
    ∀ c ∈ fraction b, Numeric c := by
  intro c hc
  rw [fraction] at hc
  split_ifs at hc with hnil
  · cases hc
  · rcases List.mem_cons.1 hc with rfl | hc
    · decide
    · exact Or.inl (h c hc)

theorem numeric_power (x : ℤ) (marked : Bool) : ∀ c ∈ power x marked, Numeric c := by
  intro c hc
  cases marked with
  | false => cases hc
  | true =>
    rw [power, if_pos rfl] at hc
    rcases List.mem_cons.1 hc with rfl | hc
    · decide
    · rcases List.mem_cons.1 hc with rfl | hc
      · by_cases hneg : x < 0
        · rw [if_pos hneg]
          decide
        · rw [if_neg hneg]
          decide
      · exact Or.inl (isDigit_toDigits hc)

theorem unsignedText_shape : ∃ c rest, d.unsignedText = c :: rest ∧ c.isDigit = true ∧
    ∀ c ∈ d.unsignedText, Numeric c := by
  have hs : ∀ c ∈ Nat.toDigits 10 d.digits, c.isDigit = true := fun c hc => isDigit_toDigits hc
  have hne : Nat.toDigits 10 d.digits ≠ [] := Nat.toDigits_ne_nil
  rw [unsignedText]
  generalize Nat.toDigits 10 d.digits = s at *
  obtain ⟨c, s, rfl⟩ := List.exists_cons_of_ne_nil hne
  have hc := hs c List.mem_cons_self
  have htake : ∀ n, ∀ x ∈ (c :: s).take n, Numeric x := fun n x hx =>
    Or.inl (hs x (List.mem_of_mem_take hx))
  have hdrop : ∀ n, ∀ x ∈ fraction ((c :: s).drop n), Numeric x := fun n =>
    numeric_fraction fun x hx => hs x (List.mem_of_mem_drop hx)
  split_ifs with hwhole hpoint hsmall
  · refine ⟨c, s ++ List.replicate d.exponent.toNat '0', rfl, hc, fun x hx => Or.inl ?_⟩
    exact (List.mem_append.1 hx).elim (hs x) isDigit_zeros
  · obtain ⟨n, hn⟩ := Nat.exists_eq_succ_of_ne_zero
      (by omega : ((c :: s).length + d.exponent).toNat ≠ 0)
    refine ⟨c, s.take n ++ fraction (s.drop n), by rw [hn]; rfl, hc, fun x hx => ?_⟩
    exact (List.mem_append.1 hx).elim (htake _ x) (hdrop _ x)
  · refine ⟨'0', _, rfl, rfl, fun x hx => ?_⟩
    rcases List.mem_cons.1 hx with rfl | hx
    · exact Or.inl rfl
    · exact numeric_fraction (fun y hy => (List.mem_append.1 hy).elim isDigit_zeros (hs y)) x hx
  · refine ⟨c, _, rfl, hc, fun x hx => ?_⟩
    rcases List.mem_append.1 hx with hx | hx
    · exact htake 1 x hx
    · exact (List.mem_append.1 hx).elim (hdrop 1 x) (numeric_power _ _ x)

theorem Numeric.not_space {c : Char} (h : Numeric c) : isSpace c = false := by
  rcases h with h | h
  · rw [Char.isDigit_iff_toNat] at h
    have hlo : 48 ≤ c.toNat := h.1
    have hhi : c.toNat ≤ 57 := h.2
    rw [isSpace, Bool.or_eq_false_iff]
    constructor
    · rw [decide_eq_false_iff_not]
      simp only [List.mem_cons, List.not_mem_nil, or_false]
      omega
    · rw [decide_eq_false (by omega : ¬ 0x2000 ≤ c.toNat)]
      rfl
  · simp only [List.mem_cons, List.not_mem_nil, or_false] at h
    rcases h with rfl | rfl | rfl | rfl <;> rfl

theorem trim_numeric {s : List Char} (h : ∀ c ∈ s, Numeric c) : trim s = s := by
  have hdrop : ∀ l : List Char, (∀ c ∈ l, Numeric c) → l.dropWhile isSpace = l := by
    intro l hl
    cases l with
    | nil => rfl
    | cons c l =>
      rw [List.dropWhile_cons_of_neg]
      simp [(hl c List.mem_cons_self).not_space]
  rw [trim, hdrop s h, hdrop _ fun c hc => h c (List.mem_reverse.1 hc), List.reverse_reverse]

theorem ofChars_unsigned {c : Char} {rest : List Char} (hc : c.isDigit = true)
    (h : ∀ x ∈ c :: rest, Numeric x) : ofChars (c :: rest) = ofUnsignedDecimal (c :: rest) := by
  have hbase : ∀ x ∈ rest, x ∉ ['x', 'X', 'o', 'O', 'b', 'B'] := by
    intro x hx hmem
    have hx := h x (List.mem_cons_of_mem _ hx)
    simp only [List.mem_cons, List.not_mem_nil, or_false] at hmem
    rcases hmem with rfl | rfl | rfl | rfl | rfl | rfl <;> exact absurd hx (by decide)
  unfold ofChars
  rw [trim_numeric h]
  split
  case h_10 => rfl
  case h_1 heq => cases heq
  case h_8 heq | h_9 heq =>
    rw [(List.cons.inj heq).1] at hc
    exact absurd hc (by decide)
  all_goals
    rename_i s heq
    rw [(List.cons.inj heq).2] at hbase
    exact absurd (by decide) (hbase _ List.mem_cons_self)

/-- **A number is read as it was written.** -/
theorem ofString_text : ofString d.text = .fin d.value := by
  obtain ⟨c, rest, htext, hc, hall⟩ := d.unsignedText_shape
  have hread := d.ofUnsignedDecimal_text
  rw [ofString, text, String.toList_ofList]
  by_cases hneg : d.negative = true ∧ d.digits ≠ 0
  · have hminus : ∀ x ∈ '-' :: d.unsignedText, Numeric x :=
      List.forall_mem_cons.2 ⟨by decide, hall⟩
    have hsign : ofChars ('-' :: d.unsignedText) = (ofUnsignedDecimal d.unsignedText).neg := by
      unfold ofChars
      rw [trim_numeric hminus]
      rfl
    rw [if_pos hneg, hsign, hread, value, if_pos hneg.1]
    rfl
  · rw [if_neg hneg, htext, ofChars_unsigned hc (htext ▸ hall), ← htext, hread, value]
    by_cases hnegative : d.negative = true
    · have hzero : d.digits = 0 := not_not.1 fun h => hneg ⟨hnegative, h⟩
      rw [if_pos hnegative, hzero]
      simp
    · rw [if_neg hnegative]

/-- **What is written is no string of JSON.** -/
theorem stringLiteral_text : Json.stringLiteral d.text = none := by
  obtain ⟨c, rest, htext, hc, -⟩ := d.unsignedText_shape
  have hnone : ∀ (c : Char) (l : List Char), Numeric c →
      Json.stringLiteral (String.ofList (c :: l)) = none := by
    intro c l hnum
    have hspace : ¬ Json.isSpace c = true := by
      intro hspace
      simp only [Json.isSpace, decide_eq_true_eq] at hspace
      rcases hspace with rfl | rfl | rfl | rfl <;> exact absurd hnum (by decide)
    unfold Json.stringLiteral
    rw [String.toList_ofList, List.dropWhile_cons_of_neg hspace]
    split
    case h_1 heq =>
      rw [(List.cons.inj heq).1] at hnum
      exact absurd hnum (by decide)
    case h_2 => rfl
  rw [text]
  split_ifs
  · exact hnone _ _ (by decide)
  · rw [htext]
    exact hnone _ _ (Or.inl hc)

end Decimal

end Number

end Js
