import Mathlib.Data.List.Nodup
import NeoTrader.Js.Parse

/-!
# Printed values read back

`JSON.parse` of what `JSON.stringify` prints.

* **`parse_stringify`**: a printed value is read as what it shows;
* **`distinct_parse`**: the objects of a parsed value have different keys.
-/

namespace Js

namespace Json

/-! ## Strings -/

theorem literalUnits_plain {c : Char} (hquote : c ≠ '"') (hslash : c ≠ '\\')
    (hcontrol : ¬ c.toNat < 32) (s : List Char) (acc : List (Char ⊕ ℕ)) :
    literalUnits (c :: s) acc = literalUnits s (.inl c :: acc) := by
  rw [literalUnits]
  · simp [hslash, hcontrol]
  all_goals simp_all

theorem hex4_hexText : ∀ n < 32, ∃ a b c d, hexText n = [a, b, c, d] ∧ hex4 a b c d = some n := by
  intro n hn
  have hlen : (hexText n).length = 4 ∧ hex4 ((hexText n).getD 0 ' ') ((hexText n).getD 1 ' ')
      ((hexText n).getD 2 ' ') ((hexText n).getD 3 ' ') = some n := by
    revert n
    decide
  obtain ⟨a, b, c, d, h⟩ := List.length_eq_four.1 hlen.1
  refine ⟨a, b, c, d, h, ?_⟩
  rw [h] at hlen
  exact hlen.2

theorem literalUnits_quoteChar (c : Char) (s : List Char) (acc : List (Char ⊕ ℕ)) :
    ∃ u, literalUnits (quoteChar c ++ s) acc = literalUnits s (u :: acc) ∧
      ∀ l, joinUnits none (u :: l) = c :: joinUnits none l := by
  by_cases hescaped : c ∈ ['"', '\\', '\x08', '\x0c', '\n', '\r', '\t']
  · refine ⟨.inl c, ?_, fun l => rfl⟩
    simp only [List.mem_cons, List.not_mem_nil, or_false] at hescaped
    rcases hescaped with rfl | rfl | rfl | rfl | rfl | rfl | rfl <;> rfl
  simp only [List.mem_cons, List.not_mem_nil, or_false, not_or] at hescaped
  obtain ⟨h₁, h₂, h₃, h₄, h₅, h₆, h₇⟩ := hescaped
  by_cases hcontrol : c.toNat < 32
  · obtain ⟨x, y, z, w, htext, hhex⟩ := hex4_hexText c.toNat hcontrol
    refine ⟨.inr c.toNat, ?_, fun l => ?_⟩
    · rw [quoteChar, if_neg h₁, if_neg h₂, if_neg h₃, if_neg h₄, if_neg h₅, if_neg h₆, if_neg h₇,
        if_pos hcontrol, htext]
      simp [literalUnits, hhex]
    · have hhigh : isHigh c.toNat = false := by
        simp [isHigh]
        omega
      have hunit : ofUnit c.toNat = c := by
        rw [ofUnit, if_neg (by omega), Char.ofNat_toNat]
      simp [joinUnits, hhigh, hunit]
  · refine ⟨.inl c, ?_, fun l => rfl⟩
    rw [quoteChar, if_neg h₁, if_neg h₂, if_neg h₃, if_neg h₄, if_neg h₅, if_neg h₆, if_neg h₇,
      if_neg hcontrol, List.singleton_append, literalUnits_plain h₁ h₂ hcontrol]

theorem literalUnits_quoted (cs rest : List Char) (acc : List (Char ⊕ ℕ)) :
    ∃ us, literalUnits (cs.flatMap quoteChar ++ '"' :: rest) acc = some (us.reverse ++ acc, rest) ∧
      joinUnits none us = cs := by
  induction cs generalizing acc with
  | nil => exact ⟨[], by simp [literalUnits], rfl⟩
  | cons c cs ih =>
    obtain ⟨u, hread, hjoin⟩ := literalUnits_quoteChar c (cs.flatMap quoteChar ++ '"' :: rest) acc
    obtain ⟨us, hrest, hus⟩ := ih (u :: acc)
    refine ⟨u :: us, ?_, by rw [hjoin, hus]⟩
    rw [List.flatMap_cons, List.append_assoc, hread, hrest]
    simp

/-- **A quoted string reads back.** -/
theorem string_quoted (s : String) (rest : List Char) :
    string (s.toList.flatMap quoteChar ++ '"' :: rest) = some (s, rest) := by
  obtain ⟨us, hread, hjoin⟩ := literalUnits_quoted s.toList rest []
  simp [string, hread, hjoin]

theorem toList_quote (s : String) :
    (quote s).toList = '"' :: (s.toList.flatMap quoteChar ++ ['"']) := by
  simp [quote]

/-! ## Numbers -/

/-- What can stand behind a value. -/
def Stop (rest : List Char) : Prop := ∀ c ∈ rest.head?, c = ',' ∨ c = ']' ∨ c = '\x7d'

theorem stop_nil : Stop [] := by simp [Stop]

theorem stop_cons {c : Char} {rest : List Char} (h : c = ',' ∨ c = ']' ∨ c = '\x7d') :
    Stop (c :: rest) := by simpa [Stop] using h

/-- **The text is read as the number**, whatever stands behind it. -/
def Reads (text : String) (q : ℚ) : Prop :=
  ∀ rest, Stop rest → numeral (text.toList ++ rest) = some (.fin q, rest)

theorem reads_of_stop {text : String} {q : ℚ}
    (hend : numeral text.toList = some (.fin q, []))
    (hstop : ∀ t c, c = ',' ∨ c = ']' ∨ c = '\x7d' →
      numeral (text.toList ++ c :: t) =
        some (Number.ofUnsignedDecimal text.toList, c :: t))
    (hvalue : Number.ofUnsignedDecimal text.toList = .fin q) : Reads text q := by
  intro rest hrest
  cases rest with
  | nil => rw [List.append_nil, hend]
  | cons c t => rw [hstop t c (hrest c rfl), hvalue]

theorem integralPart_head {s : List Char} {x : List Char × List Char}
    (h : integralPart s = some x) : ∃ c t, s = c :: t ∧ c.isDigit = true := by
  unfold integralPart at h
  split at h
  · exact ⟨'0', _, rfl, by decide⟩
  · split_ifs at h with hc
    exact ⟨_, _, rfl, hc⟩
  · cases h

theorem unsignedNumeral_head {s : List Char} {x : Number × List Char}
    (h : unsignedNumeral s = some x) : ∃ c t, s = c :: t ∧ c.isDigit = true := by
  obtain ⟨y, hy, -⟩ := Option.bind_eq_some_iff.1 h
  exact integralPart_head hy

theorem numeral_head {s : List Char} {x : Number × List Char} (h : numeral s = some x) :
    ∃ c t, s = c :: t ∧ (c = '-' ∨ c.isDigit = true) := by
  unfold numeral at h
  split at h
  · exact ⟨'-', _, rfl, .inl rfl⟩
  · obtain ⟨c, t, hs, hc⟩ := unsignedNumeral_head h
    exact ⟨c, t, hs, .inr hc⟩

theorem Reads.head {text : String} {q : ℚ} (h : Reads text q) :
    ∃ c t, text.toList = c :: t ∧ (c = '-' ∨ c.isDigit = true) := by
  have hread := h [] stop_nil
  rw [List.append_nil] at hread
  exact numeral_head hread

theorem ne_of_numeral {c : Char} (hc : c = '-' ∨ c.isDigit = true) {l : List Char}
    (hl : l.all (fun d => !(d == '-' || d.isDigit)) = true) : ∀ d ∈ l, c ≠ d := by
  rintro d hd rfl
  have hd' := List.all_eq_true.mp hl c hd
  rcases hc with rfl | hc
  · exact absurd hd' (by decide)
  · simp [hc] at hd'

theorem value_numeral {c : Char} {s : List Char} (hc : c = '-' ∨ c.isDigit = true) (n : ℕ) :
    value (n + 1) (c :: s) = (numeral (c :: s)).map fun (x, s) => (.num x, s) := by
  have hne : ∀ d ∈ ['n', 't', 'f', '"', '[', '\x7b', ' ', '\t', '\n', '\r'], c ≠ d :=
    ne_of_numeral hc (by decide)
  simp only [List.mem_cons, List.not_mem_nil, or_false, forall_eq_or_imp, forall_eq] at hne
  obtain ⟨h₁, h₂, h₃, h₄, h₅, h₆, h₇, h₈, h₉, h₁₀⟩ := hne
  have hspace : isSpace c = false := by simp [isSpace, h₇, h₈, h₉, h₁₀]
  rw [value, List.dropWhile_cons_of_neg (by simp [hspace])]
  split <;> simp_all

/-! ## Values -/

mutual

/-- The finite numbers of a value. -/
def numbers : Json → List ℚ
  | .num (.fin q) => [q]
  | .arr l => listNumbers l
  | .obj fields => fieldNumbers fields
  | _ => []

/-- The finite numbers of some values. -/
def listNumbers : List Json → List ℚ
  | [] => []
  | v :: l => numbers v ++ listNumbers l

def fieldNumbers : List (String × Json) → List ℚ
  | [] => []
  | (_, v) :: l => numbers v ++ fieldNumbers l

end

mutual

/-- Objects have different keys. -/
def Distinct : Json → Prop
  | .arr l => ListDistinct l
  | .obj fields => (fields.map Prod.fst).Nodup ∧ FieldsDistinct fields
  | _ => True

/-- Objects in some values have different keys. -/
def ListDistinct : List Json → Prop
  | [] => True
  | v :: l => Distinct v ∧ ListDistinct l

/-- Objects in some fields have different keys. -/
def FieldsDistinct : List (String × Json) → Prop
  | [] => True
  | (_, v) :: l => Distinct v ∧ FieldsDistinct l

end

mutual

/-- A value, with `null` for the numbers that have no JSON text. -/
def shown : Json → Json
  | .num (.fin q) => .num (.fin q)
  | .num _ => .null
  | .arr l => .arr (shownList l)
  | .obj fields => .obj (shownFields fields)
  | .null => .null
  | .bool b => .bool b
  | .str s => .str s

/-- Some values, as they are shown. -/
def shownList : List Json → List Json
  | [] => []
  | v :: l => shown v :: shownList l

def shownFields : List (String × Json) → List (String × Json)
  | [] => []
  | (key, v) :: l => (key, shown v) :: shownFields l

end

section Texts

variable {print : Number → String}

/-- The characters of a printed value. -/
def chars (print : Number → String) (v : Json) : List Char := (stringify print v).toList

/-- The characters of printed elements, with commas between them. -/
def elementChars (print : Number → String) : List Json → List Char
  | [] => []
  | [v] => chars print v
  | v :: l => chars print v ++ ',' :: elementChars print l

def fieldChars (print : Number → String) (f : String × Json) : List Char :=
  (quote f.1).toList ++ ':' :: chars print f.2

/-- The characters of printed fields, with commas between them. -/
def memberChars (print : Number → String) : List (String × Json) → List Char
  | [] => []
  | [f] => fieldChars print f
  | f :: l => fieldChars print f ++ ',' :: memberChars print l

theorem chars_elementTexts (l : List Json) :
    [','].intercalate ((elementTexts print l).map String.toList) = elementChars print l := by
  induction l with
  | nil => rfl
  | cons v l ih =>
    cases l with
    | nil => simp [elementTexts, elementChars, chars]
    | cons w l =>
      simp only [elementTexts, List.map_cons] at ih ⊢
      rw [List.intercalate_cons_cons, ih]
      simp [elementChars, chars]

theorem chars_memberTexts (l : List (String × Json)) :
    [','].intercalate ((memberTexts print l).map String.toList) = memberChars print l := by
  induction l with
  | nil => rfl
  | cons f l ih =>
    obtain ⟨key, v⟩ := f
    cases l with
    | nil => simp [memberTexts, memberChars, fieldChars, chars]
    | cons g l =>
      obtain ⟨key', w⟩ := g
      simp only [memberTexts, List.map_cons] at ih ⊢
      rw [List.intercalate_cons_cons, ih]
      simp [memberChars, fieldChars, chars]

@[simp] theorem chars_null : chars print .null = ['n', 'u', 'l', 'l'] := by simp [chars, stringify]

theorem chars_arr (l : List Json) :
    chars print (.arr l) = '[' :: (elementChars print l ++ [']']) := by
  simp [chars, stringify, String.toList_intercalate, chars_elementTexts]

theorem chars_obj (fields : List (String × Json)) :
    chars print (.obj fields) = '\x7b' :: (memberChars print fields ++ ['\x7d']) := by
  simp [chars, stringify, String.toList_intercalate, chars_memberTexts]

/-! ## Reading -/

/-- The numbers are printed so that they read back. -/
def Printed (print : Number → String) (numbers : List ℚ) : Prop :=
  ∀ q ∈ numbers, Reads (print (.fin q)) q

def ReadsValues (print : Number → String) (n : ℕ) : Prop :=
  ∀ v rest, Distinct v → Printed print v.numbers → 2 * (chars print v).length ≤ n → Stop rest →
    value n (chars print v ++ rest) = some (shown v, rest)

def ReadsElements (print : Number → String) (n : ℕ) : Prop :=
  ∀ l rest acc, l ≠ [] → ListDistinct l → Printed print (listNumbers l) →
    2 * (elementChars print l).length + 1 ≤ n →
      elements n (elementChars print l ++ ']' :: rest) acc = some (.arr (acc ++ shownList l), rest)

/-- Printed fields are read with this fuel. -/
def ReadsMembers (print : Number → String) (n : ℕ) : Prop :=
  ∀ l rest acc, l ≠ [] → ((acc ++ l).map Prod.fst).Nodup → FieldsDistinct l →
    Printed print (fieldNumbers l) → 2 * (memberChars print l).length + 1 ≤ n →
      members n (memberChars print l ++ '\x7d' :: rest) acc =
        some (.obj (acc ++ shownFields l), rest)

theorem chars_str (s : String) :
    chars print (.str s) = '"' :: (s.toList.flatMap quoteChar ++ ['"']) := by
  rw [chars, stringify, toList_quote]

theorem chars_bool (b : Bool) :
    chars print (.bool b) = if b then ['t', 'r', 'u', 'e'] else ['f', 'a', 'l', 's', 'e'] := by
  cases b <;> simp [chars, stringify]

theorem chars_num_fin (q : ℚ) : chars print (.num (.fin q)) = (print (.fin q)).toList := by
  rw [chars, stringify]

theorem chars_num_of_ne {x : Number} (h : ∀ q, x ≠ .fin q) :
    chars print (.num x) = ['n', 'u', 'l', 'l'] := by
  cases x with
  | fin q => exact absurd rfl (h q)
  | inf b => simp [chars, stringify]
  | nan => simp [chars, stringify]

theorem digit_head {c : Char} (hc : c = '-' ∨ c.isDigit = true) : isSpace c = false ∧ c ≠ ']' := by
  have hne : ∀ d ∈ [']', ' ', '\t', '\n', '\r'], c ≠ d := ne_of_numeral hc (by decide)
  simp only [List.mem_cons, List.not_mem_nil, or_false, forall_eq_or_imp, forall_eq] at hne
  obtain ⟨hbracket, h₁, h₂, h₃, h₄⟩ := hne
  exact ⟨by simp [isSpace, h₁, h₂, h₃, h₄], hbracket⟩

theorem chars_head (v : Json) (hv : Printed print v.numbers) :
    ∃ c t, chars print v = c :: t ∧ isSpace c = false ∧ c ≠ ']' := by
  cases v with
  | null => exact ⟨_, _, chars_null, by decide, by decide⟩
  | bool b => cases b <;> exact ⟨_, _, chars_bool _, by decide, by decide⟩
  | num x =>
    cases x with
    | fin q =>
      obtain ⟨c, t, htext, hc⟩ := (hv q (by simp [numbers])).head
      exact ⟨c, t, by rw [chars_num_fin, htext], digit_head hc⟩
    | inf b => exact ⟨_, _, chars_num_of_ne (by simp), by decide, by decide⟩
    | nan => exact ⟨_, _, chars_num_of_ne (by simp), by decide, by decide⟩
  | str s => exact ⟨_, _, chars_str s, by decide, by decide⟩
  | arr l => exact ⟨_, _, chars_arr l, by decide, by decide⟩
  | obj fields => exact ⟨_, _, chars_obj fields, by decide, by decide⟩

theorem chars_pos (v : Json) (hv : Printed print v.numbers) : 0 < (chars print v).length := by
  obtain ⟨c, t, h, -⟩ := chars_head v hv
  simp [h]

theorem Printed.append {l l' : List ℚ} :
    Printed print (l ++ l') ↔ Printed print l ∧ Printed print l' := by
  simp [Printed, or_imp, forall_and]

theorem elementChars_head {l : List Json} (hl : l ≠ []) (hp : Printed print (listNumbers l)) :
    ∃ c t, elementChars print l = c :: t ∧ isSpace c = false ∧ c ≠ ']' := by
  cases l with
  | nil => exact absurd rfl hl
  | cons v l =>
    obtain ⟨c, t, h, hc⟩ := chars_head v (Printed.append.1 hp).1
    cases l with
    | nil => exact ⟨c, t, h, hc⟩
    | cons w l => exact ⟨c, t ++ ',' :: elementChars print (w :: l), by simp [elementChars, h], hc⟩

theorem memberChars_head (print : Number → String) {l : List (String × Json)} (hl : l ≠ []) :
    ∃ t, memberChars print l = '"' :: t := by
  cases l with
  | nil => exact absurd rfl hl
  | cons f l => cases l <;> simp [memberChars, fieldChars, toList_quote]

theorem value_null (n : ℕ) (rest : List Char) :
    value (n + 1) ('n' :: 'u' :: 'l' :: 'l' :: rest) = some (.null, rest) := by
  simp [value, isSpace]

theorem value_bool (n : ℕ) (b : Bool) (rest : List Char) :
    value (n + 1) (chars print (.bool b) ++ rest) = some (.bool b, rest) := by
  cases b <;> simp [chars_bool, value, isSpace]

theorem value_str (n : ℕ) (s : String) (rest : List Char) :
    value (n + 1) (chars print (.str s) ++ rest) = some (.str s, rest) := by
  have h := string_quoted s rest
  rw [chars_str]
  simp only [value, List.cons_append, List.append_assoc, List.nil_append]
  rw [List.dropWhile_cons_of_neg (by decide)]
  simp only [h, Option.map_some]

theorem value_elements {c : Char} {t : List Char} (hspace : isSpace c = false) (hc : c ≠ ']')
    (n : ℕ) : value (n + 1) ('[' :: c :: t) = elements n (c :: t) [] := by
  have hopen : isSpace '[' = false := by decide
  simp only [value, List.dropWhile_cons, hopen, hspace, Bool.false_eq_true, if_false]
  split
  · next heq => exact absurd (List.cons.inj heq).1 hc
  · rfl

theorem value_members (n : ℕ) (t : List Char) :
    value (n + 1) ('\x7b' :: '"' :: t) = members n ('"' :: t) [] := by
  have hopen : isSpace '\x7b' = false := by decide
  have hquote : isSpace '"' = false := by decide
  simp only [value, List.dropWhile_cons, hopen, hquote, Bool.false_eq_true, if_false]
  split
  · next heq => exact absurd (List.cons.inj heq).1 (by decide)
  · rfl

theorem ReadsValues.succ {n : ℕ} (helements : ReadsElements print n)
    (hmembers : ReadsMembers print n) : ReadsValues print (n + 1) := by
  intro v rest hd hp hn hstop
  cases v with
  | null =>
    rw [chars_null]
    exact value_null n rest
  | bool b => exact value_bool n b rest
  | num x =>
    cases x with
    | fin q =>
      have hreads := hp q (by simp [numbers])
      obtain ⟨c, t, htext, hc⟩ := hreads.head
      have hread := hreads rest hstop
      rw [chars_num_fin]
      rw [htext, List.cons_append] at hread ⊢
      rw [value_numeral hc, hread]
      rfl
    | inf b =>
      rw [chars_num_of_ne (by simp)]
      exact value_null n rest
    | nan =>
      rw [chars_num_of_ne (by simp)]
      exact value_null n rest
  | str s => exact value_str n s rest
  | arr l =>
    rw [chars_arr] at hn ⊢
    by_cases hl : l = []
    · subst hl
      simp [elementChars, value, isSpace, shown, shownList]
    · obtain ⟨c, t, h, hspace, hc⟩ := elementChars_head hl hp
      have hread := helements l rest [] hl hd hp (by simp at hn; omega)
      simp only [h, List.cons_append, List.append_assoc, List.nil_append] at hread ⊢
      rw [value_elements hspace hc, hread]
      rfl
  | obj fields =>
    rw [chars_obj] at hn ⊢
    by_cases hl : fields = []
    · subst hl
      simp [memberChars, value, isSpace, shown, shownFields]
    · obtain ⟨t, h⟩ := memberChars_head print hl
      have hread := hmembers fields rest [] hl hd.1 hd.2 hp (by simp at hn; omega)
      simp only [h, List.cons_append, List.append_assoc, List.nil_append] at hread ⊢
      rw [value_members, hread]
      rfl

theorem ReadsElements.succ {n : ℕ} (hvalues : ReadsValues print n)
    (helements : ReadsElements print n) : ReadsElements print (n + 1) := by
  intro l rest acc hl hd hp hn
  cases l with
  | nil => exact absurd rfl hl
  | cons v l =>
    obtain ⟨hpv, hpl⟩ := Printed.append.1 hp
    have hbracket : isSpace ']' = false := by decide
    have hcomma : isSpace ',' = false := by decide
    cases l with
    | nil =>
      have hv := hvalues v (']' :: rest) hd.1 hpv (by simp [elementChars] at hn; omega)
        (stop_cons (by decide))
      simp only [elementChars, elements, hv, List.dropWhile_cons, hbracket, Bool.false_eq_true,
        if_false, shownList]
    | cons w l =>
      have hpos := chars_pos v hpv
      simp only [elementChars, List.length_append, List.length_cons] at hn
      have hv := hvalues v (',' :: (elementChars print (w :: l) ++ ']' :: rest)) hd.1 hpv (by omega)
        (stop_cons (by decide))
      have hrest := helements (w :: l) rest (acc ++ [shown v]) (by simp) hd.2 hpl (by omega)
      simp only [elementChars, elements, List.append_assoc, List.cons_append, hv,
        List.dropWhile_cons, hcomma, Bool.false_eq_true, if_false]
      rw [hrest, List.append_assoc]
      rfl

theorem withField_of_new {acc : List (String × Json)} {key : String} (h : key ∉ acc.map Prod.fst)
    (v : Json) : withField acc key v = acc ++ [(key, v)] := by
  have hany : ¬ (acc.any fun f => f.1 = key) = true := by
    rw [List.any_eq_true]
    rintro ⟨f, hf, heq⟩
    exact h (List.mem_map.2 ⟨f, hf, of_decide_eq_true heq⟩)
  rw [withField, if_neg hany]

section Members

variable {n : ℕ} {s t rest : List Char} {key : String} {v : Json} (acc : List (String × Json))

theorem members_comma (hkey : string s = some (key, ':' :: t))
    (hv : value n t = some (v, ',' :: rest)) :
    members (n + 1) ('"' :: s) acc = members n rest (withField acc key v) := by
  have hquote : isSpace '"' = false := by decide
  have hcolon : isSpace ':' = false := by decide
  have hcomma : isSpace ',' = false := by decide
  simp only [members, List.dropWhile_cons, hquote, hcolon, hcomma, Bool.false_eq_true, if_false,
    hkey, hv]

theorem members_close (hkey : string s = some (key, ':' :: t))
    (hv : value n t = some (v, '\x7d' :: rest)) :
    members (n + 1) ('"' :: s) acc = some (.obj (withField acc key v), rest) := by
  have hquote : isSpace '"' = false := by decide
  have hcolon : isSpace ':' = false := by decide
  have hbrace : isSpace '\x7d' = false := by decide
  simp only [members, List.dropWhile_cons, hquote, hcolon, hbrace, Bool.false_eq_true, if_false,
    hkey, hv]

end Members

theorem fieldChars_append (key : String) (v : Json) (rest : List Char) :
    fieldChars print (key, v) ++ rest =
      '"' :: (key.toList.flatMap quoteChar ++ '"' :: ':' :: (chars print v ++ rest)) := by
  simp [fieldChars, toList_quote]

theorem ReadsMembers.succ {n : ℕ} (hvalues : ReadsValues print n)
    (hmembers : ReadsMembers print n) : ReadsMembers print (n + 1) := by
  intro l rest acc hl hkeys hd hp hn
  cases l with
  | nil => exact absurd rfl hl
  | cons f l =>
    obtain ⟨key, v⟩ := f
    obtain ⟨hpv, hpl⟩ := Printed.append.1 hp
    have hnew : key ∉ acc.map Prod.fst := by
      intro hmem
      rw [List.map_append, List.nodup_append] at hkeys
      exact hkeys.2.2 key hmem key (by simp) rfl
    have hadd := withField_of_new hnew (shown v)
    cases l with
    | nil =>
      simp only [memberChars, fieldChars, List.length_append, List.length_cons] at hn
      have hv := hvalues v ('\x7d' :: rest) hd.1 hpv (by omega) (stop_cons (by decide))
      rw [memberChars, fieldChars_append, members_close acc (string_quoted key _) hv, hadd]
      rfl
    | cons g l =>
      simp only [memberChars, fieldChars, List.length_append, List.length_cons] at hn
      have hv := hvalues v (',' :: (memberChars print (g :: l) ++ '\x7d' :: rest)) hd.1 hpv
        (by omega) (stop_cons (by decide))
      have hrest := hmembers (g :: l) rest (acc ++ [(key, shown v)]) (by simp)
        (by simpa using hkeys) hd.2 hpl (by omega)
      rw [memberChars, List.append_assoc, List.cons_append, fieldChars_append,
        members_comma acc (string_quoted key _) hv, hadd, hrest, List.append_assoc]
      · rfl
      · simp

theorem reads_printed (print : Number → String) :
    ∀ n, ReadsValues print n ∧ ReadsElements print n ∧ ReadsMembers print n
  | 0 => by
    refine ⟨fun v rest hd hp hn hstop => ?_, fun l rest acc hl hd hp hn => ?_,
      fun l rest acc hl hkeys hd hp hn => ?_⟩
    · have hpos := chars_pos v hp
      omega
    · omega
    · omega
  | n + 1 =>
    have ⟨hvalues, helements, hmembers⟩ := reads_printed print n
    ⟨.succ helements hmembers, .succ hvalues helements, .succ hvalues hmembers⟩

/-- **A printed value is read** as what it shows. -/
theorem parse_stringify {v : Json} (hd : Distinct v) (hp : Printed print v.numbers) :
    parse (stringify print v) = some (shown v) := by
  have h := (reads_printed print (2 * (chars print v).length + 2)).1 v [] hd hp (by omega) stop_nil
  rw [List.append_nil] at h
  simp only [parse, chars] at h ⊢
  simp [h]

end Texts

/-! ## Keys -/

theorem distinct_bool (b : Bool) : Distinct (.bool b) := trivial

theorem listDistinct_iff {l : List Json} : ListDistinct l ↔ ∀ v ∈ l, Distinct v := by
  induction l with
  | nil => simp [ListDistinct]
  | cons v l ih => simp [ListDistinct, ih]

theorem fieldsDistinct_iff {l : List (String × Json)} :
    FieldsDistinct l ↔ ∀ f ∈ l, Distinct f.2 := by
  induction l with
  | nil => simp [FieldsDistinct]
  | cons f l ih => simp [FieldsDistinct, ih]

theorem mem_fieldNumbers {l : List (String × Json)} {q : ℚ} :
    q ∈ fieldNumbers l ↔ ∃ f ∈ l, q ∈ f.2.numbers := by
  induction l with
  | nil => simp [fieldNumbers]
  | cons f l ih => simp [fieldNumbers, ih]

theorem mem_listNumbers {l : List Json} {q : ℚ} :
    q ∈ listNumbers l ↔ ∃ v ∈ l, q ∈ v.numbers := by
  induction l with
  | nil => simp [listNumbers]
  | cons v l ih => simp [listNumbers, ih]

theorem mem_withField {l : List (String × Json)} {key : String} {v : Json} {f : String × Json} :
    f ∈ withField l key v ↔ f = (key, v) ∨ (f ∈ l ∧ f.1 ≠ key) := by
  by_cases hkey : key ∈ l.map Prod.fst
  · have hany : (l.any fun f => f.1 = key) = true := by
      obtain ⟨g, hg, heq⟩ := List.mem_map.1 hkey
      exact List.any_eq_true.2 ⟨g, hg, decide_eq_true heq⟩
    rw [withField, if_pos hany, List.mem_map]
    constructor
    · rintro ⟨g, hg, rfl⟩
      by_cases heq : g.1 = key
      · exact .inl (if_pos heq)
      · rw [if_neg heq]
        exact .inr ⟨hg, heq⟩
    · rintro (rfl | ⟨hf, hne⟩)
      · obtain ⟨g, hg, heq⟩ := List.mem_map.1 hkey
        exact ⟨g, hg, if_pos heq⟩
      · exact ⟨f, hf, if_neg hne⟩
  · rw [withField_of_new hkey, List.mem_append, List.mem_singleton, or_comm]
    have hne (hf : f ∈ l) : f.1 ≠ key := fun heq => hkey (List.mem_map.2 ⟨f, hf, heq⟩)
    exact or_congr_right ⟨fun hf => ⟨hf, hne hf⟩, fun hf => hf.1⟩

theorem nodup_withField {l : List (String × Json)} (h : (l.map Prod.fst).Nodup) (key : String)
    (v : Json) : ((withField l key v).map Prod.fst).Nodup := by
  by_cases hkey : key ∈ l.map Prod.fst
  · have hany : (l.any fun f => f.1 = key) = true := by
      obtain ⟨f, hf, heq⟩ := List.mem_map.1 hkey
      exact List.any_eq_true.2 ⟨f, hf, decide_eq_true heq⟩
    have hkeys : (withField l key v).map Prod.fst = l.map Prod.fst := by
      rw [withField, if_pos hany, List.map_map]
      refine List.map_congr_left fun f _ => ?_
      show (if f.1 = key then (key, v) else f).1 = f.1
      by_cases hf : f.1 = key
      · rw [if_pos hf, hf]
      · rw [if_neg hf]
    rw [hkeys]
    exact h
  · rw [withField_of_new hkey, List.map_append, List.nodup_append]
    refine ⟨h, by simp, fun k hk k' hk' heq => ?_⟩
    have hlast : k' = key := by simpa using hk'
    rw [heq, hlast] at hk
    exact hkey hk

theorem Distinct.withField {l : List (String × Json)} {v : Json} (h : Distinct (.obj l))
    (hv : Distinct v) (key : String) : Distinct (.obj (Json.withField l key v)) := by
  refine ⟨nodup_withField h.1 key v, fieldsDistinct_iff.2 fun f hf => ?_⟩
  rcases mem_withField.1 hf with rfl | ⟨hf, -⟩
  · exact hv
  · exact fieldsDistinct_iff.1 h.2 f hf

/-- **What the parser reads** has different keys in its objects. The induction is on the fuel, for
values, elements and members at once. -/
theorem distinct_of_read : ∀ n : ℕ,
    (∀ {s r : List Char} {v : Json}, value n s = some (v, r) → Distinct v) ∧
    (∀ {s r : List Char} {l : List Json} {v : Json}, elements n s l = some (v, r) →
      Distinct (.arr l) → Distinct v) ∧
    (∀ {s r : List Char} {l : List (String × Json)} {v : Json}, members n s l = some (v, r) →
      Distinct (.obj l) → Distinct v)
  | 0 => by
    refine ⟨fun h => ?_, fun h => ?_, fun h => ?_⟩
    · cases h
    · cases h
    · cases h
  | n + 1 => by
    obtain ⟨ihvalue, ihelements, ihmembers⟩ := distinct_of_read n
    have hempty : Distinct (.obj []) := ⟨List.nodup_nil, trivial⟩
    refine ⟨fun h => ?_, fun {s r l v} h hl => ?_, fun h hl => ?_⟩
    · unfold value at h
      split at h
      · cases h
        trivial
      · cases h
        trivial
      · cases h
        trivial
      · obtain ⟨⟨t, r'⟩, -, heq⟩ := Option.map_eq_some_iff.1 h
        cases heq
        trivial
      · split at h
        · cases h
          trivial
        · exact ihelements h trivial
      · split at h
        · cases h
          exact hempty
        · exact ihmembers h hempty
      · obtain ⟨⟨x, r'⟩, -, heq⟩ := Option.map_eq_some_iff.1 h
        cases heq
        trivial
    · have happend {w : Json} (hw : Distinct w) : Distinct (.arr (l ++ [w])) := by
        refine listDistinct_iff.2 fun x hx => ?_
        rcases List.mem_append.1 hx with hx | hx
        · exact listDistinct_iff.1 hl x hx
        · rw [List.mem_singleton.1 hx]
          exact hw
      unfold elements at h
      split at h
      · cases h
      · next w s hw =>
        split at h
        · exact ihelements h (happend (ihvalue hw))
        · cases h
          exact happend (ihvalue hw)
        · cases h
    · unfold members at h
      split at h
      · split at h
        · cases h
        · split at h
          · split at h
            · cases h
            · next w s₄ hw =>
              split at h
              · exact ihmembers h (hl.withField (ihvalue hw) _)
              · cases h
                exact hl.withField (ihvalue hw) _
              · cases h
          · cases h
      · cases h

/-- **The objects of a parsed value** have different keys. -/
theorem distinct_parse {s : String} {v : Json} (h : parse s = some v) : Distinct v := by
  unfold parse at h
  split at h
  · next v' rest hvalue =>
    split at h
    · cases h
      exact (distinct_of_read _).1 hvalue
    · cases h
  · cases h

/-! ## Fields -/

theorem field_eq_some_iff {l : List (String × Json)} (h : (l.map Prod.fst).Nodup) {key : String}
    {v : Json} : (Json.obj l).field key = some v ↔ (key, v) ∈ l := by
  simp only [field, Option.map_eq_some_iff]
  constructor
  · rintro ⟨f, hf, rfl⟩
    have hfound := List.find?_some hf
    have hkey : f.1 = key := of_decide_eq_true hfound
    have hmem := List.mem_reverse.1 (List.mem_of_find?_eq_some hf)
    rw [← hkey]
    exact hmem
  · intro hmem
    cases hf : l.reverse.find? fun f => f.1 = key with
    | none =>
      rw [List.find?_eq_none] at hf
      exact absurd (decide_eq_true rfl) (hf _ (List.mem_reverse.2 hmem))
    | some f =>
      have hkey : f.1 = key := by simpa using List.find?_some hf
      have hfmem := List.mem_reverse.1 (List.mem_of_find?_eq_some hf)
      have heq := List.inj_on_of_nodup_map h hfmem hmem hkey
      exact ⟨f, rfl, by rw [heq]⟩

/-- **Setting a field** changes only what stands under its key. -/
theorem field_withField {l : List (String × Json)} (h : (l.map Prod.fst).Nodup)
    (key key' : String) (v : Json) :
    (Json.obj (withField l key v)).field key' =
      if key' = key then some v else (Json.obj l).field key' := by
  ext x
  rw [field_eq_some_iff (nodup_withField h key v), mem_withField]
  by_cases heq : key' = key
  · subst heq
    simp [eq_comm]
  · simp [heq, field_eq_some_iff h]

theorem withField_of_field {l : List (String × Json)} (h : (l.map Prod.fst).Nodup) {key : String}
    {v : Json} (hv : (Json.obj l).field key = some v) : withField l key v = l := by
  have hmem := (field_eq_some_iff h).1 hv
  have hany : (l.any fun f => f.1 = key) = true :=
    List.any_eq_true.2 ⟨_, hmem, decide_eq_true rfl⟩
  rw [withField, if_pos hany]
  conv_rhs => rw [← List.map_id l]
  refine List.map_congr_left fun f hf => ?_
  show (if f.1 = key then (key, v) else f) = f
  by_cases hkey : f.1 = key
  · rw [if_pos hkey, List.inj_on_of_nodup_map h hf hmem hkey]
  · rw [if_neg hkey]

theorem shownFields_eq (l : List (String × Json)) :
    shownFields l = l.map fun f => (f.1, shown f.2) := by
  induction l with
  | nil => rfl
  | cons f l ih => rw [shownFields, ih]; rfl

theorem keys_shownFields (l : List (String × Json)) :
    (shownFields l).map Prod.fst = l.map Prod.fst := by
  rw [shownFields_eq, List.map_map]
  rfl

theorem field_shownFields (l : List (String × Json)) (key : String) :
    (Json.obj (shownFields l)).field key = ((Json.obj l).field key).map shown := by
  simp only [field, shownFields_eq, ← List.map_reverse, List.find?_map, Option.map_map]
  rfl

mutual

/-- **What is shown prints the same.** -/
theorem stringify_shown (print : Number → String) :
    ∀ v : Json, stringify print (shown v) = stringify print v
  | .null => rfl
  | .bool _ => rfl
  | .num (.fin _) => rfl
  | .num (.inf _) => by simp [shown, stringify]
  | .num .nan => by simp [shown, stringify]
  | .str _ => rfl
  | .arr l => by rw [shown, stringify, stringify, elementTexts_shown print l]
  | .obj fields => by rw [shown, stringify, stringify, memberTexts_shown print fields]

theorem elementTexts_shown (print : Number → String) :
    ∀ l : List Json, elementTexts print (shownList l) = elementTexts print l
  | [] => rfl
  | v :: l => by
    rw [shownList, elementTexts, elementTexts, stringify_shown print v, elementTexts_shown print l]

theorem memberTexts_shown (print : Number → String) :
    ∀ l : List (String × Json), memberTexts print (shownFields l) = memberTexts print l
  | [] => rfl
  | (key, v) :: l => by
    rw [shownFields, memberTexts, memberTexts, stringify_shown print v, memberTexts_shown print l]

end

mutual

theorem numbers_shown : ∀ v : Json, (shown v).numbers = v.numbers
  | .null => rfl
  | .bool _ => rfl
  | .num (.fin _) => rfl
  | .num (.inf _) => by simp [shown, numbers]
  | .num .nan => by simp [shown, numbers]
  | .str _ => rfl
  | .arr l => by rw [shown, numbers, numbers, listNumbers_shown l]
  | .obj fields => by rw [shown, numbers, numbers, fieldNumbers_shown fields]

theorem listNumbers_shown : ∀ l : List Json, listNumbers (shownList l) = listNumbers l
  | [] => rfl
  | v :: l => by rw [shownList, listNumbers, listNumbers, numbers_shown v, listNumbers_shown l]

theorem fieldNumbers_shown :
    ∀ l : List (String × Json), fieldNumbers (shownFields l) = fieldNumbers l
  | [] => rfl
  | (key, v) :: l => by
    rw [shownFields, fieldNumbers, fieldNumbers, numbers_shown v, fieldNumbers_shown l]

end

end Json

end Js
