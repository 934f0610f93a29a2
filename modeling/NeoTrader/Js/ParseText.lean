import Mathlib.Data.List.TakeDrop
import Mathlib.Data.List.TakeWhile
import NeoTrader.Js.Parse

/-!
# The lines of a JSON text

A line break of a JSON text stands between two tokens, and no token starts with a backquote.

* `LineOk`, `NoTick`: no line of a text starts with a backquote;
* `noTick_of_value`: what the parser reads has no such line;
* **`noTick_of_parse`**: neither has a text that is a value.
-/

namespace Js

namespace Json

/-- No line break of the text is followed by a backquote. -/
def LineOk (s : List Char) : Prop := ¬ ['\n', '\x60'] <:+: s

/-- No line of the text starts with a backquote. -/
def NoTick (s : List Char) : Prop := LineOk ('\n' :: s)

theorem lineOk_cons {c : Char} {s : List Char} (hc : c ≠ '\n') : LineOk (c :: s) ↔ LineOk s := by
  unfold LineOk
  rw [List.infix_cons_iff, List.cons_prefix_cons, not_or]
  exact ⟨And.right, fun h => ⟨fun hp => hc hp.1.symm, h⟩⟩

theorem NoTick.lineOk {s : List Char} (h : NoTick s) : LineOk s :=
  fun hs => h (List.infix_cons hs)

theorem LineOk.cons {c : Char} {s : List Char} (h : LineOk (c :: s)) (hc : c ≠ '\x60') :
    NoTick (c :: s) := by
  unfold NoTick LineOk
  rw [List.infix_cons_iff, List.cons_prefix_cons, List.cons_prefix_cons, not_or]
  exact ⟨fun hp => hc hp.2.1.symm, h⟩

theorem noTick_cons {c : Char} {s : List Char} (hline : c ≠ '\n') (htick : c ≠ '\x60')
    (h : LineOk s) : NoTick (c :: s) :=
  ((lineOk_cons hline).2 h).cons htick

theorem lineOk_append {s : List Char} : ∀ {w : List Char}, '\n' ∉ w → LineOk s → LineOk (w ++ s)
  | [], _, h => h
  | c :: w, hw, h => by
    rw [List.mem_cons, not_or] at hw
    exact (lineOk_cons (Ne.symm hw.1)).2 (lineOk_append hw.2 h)

theorem noTick_word (c : Char) (w : List Char) {s : List Char}
    (hw : c ≠ '\n' ∧ c ≠ '\x60' ∧ '\n' ∉ w) (h : LineOk s) : NoTick (c :: (w ++ s)) :=
  noTick_cons hw.1 hw.2.1 (lineOk_append hw.2.2 h)

theorem noTick_space {c : Char} {s : List Char} (hc : isSpace c = true) (h : NoTick s) :
    NoTick (c :: s) := by
  by_cases hline : c = '\n'
  · rw [hline]
    exact LineOk.cons h (by decide)
  · refine noTick_cons hline ?_ h.lineOk
    rintro rfl
    exact absurd hc (by decide)

theorem noTick_of_dropWhile : ∀ {s : List Char}, NoTick (s.dropWhile isSpace) → NoTick s
  | [], h => h
  | c :: s, h => by
    rw [List.dropWhile_cons] at h
    split at h
    · next hc => exact noTick_space hc (noTick_of_dropWhile h)
    · exact h

theorem noTick_spaces : ∀ {s : List Char}, s.all isSpace = true → NoTick s
  | [], _ => by simp [NoTick, LineOk, List.infix_cons_iff]
  | c :: s, h => by
    rw [List.all_cons, Bool.and_eq_true] at h
    exact noTick_space h.1 (noTick_spaces h.2)

/-! ## Strings -/

theorem isSome_digit_of_count (b : ℕ) : ∀ (s : List Char) (v n : ℕ),
    (Number.digits b s v n).2.1 = n + s.length → ∀ c ∈ s, (Number.digit c).isSome = true
  | [], _, _, _ => by simp
  | c :: s, v, n, h => by
    unfold Number.digits at h
    split at h
    · next d hd =>
      split at h
      · have ih := isSome_digit_of_count b s (v * b + d) (n + 1)
          (by rw [h, List.length_cons]; omega)
        rw [List.forall_mem_cons]
        exact ⟨by rw [hd]; rfl, ih⟩
      · simp only [List.length_cons] at h
        omega
    · simp only [List.length_cons] at h
      omega

theorem hex4_ne_line {a b c d : Char} {u : ℕ} (h : hex4 a b c d = some u) :
    ∀ x ∈ [a, b, c, d], x ≠ '\n' := by
  unfold hex4 at h
  split at h
  · next v rest hdigits =>
    have hsome := isSome_digit_of_count 16 [a, b, c, d] 0 0 (by rw [hdigits]; rfl)
    rintro x hx rfl
    exact absurd (hsome _ hx) (by decide)
  · cases h

theorem escape_ne_line {e c : Char} (h : escape e = some c) : e ≠ '\n' := by
  rintro rfl
  cases h

theorem lineOk_of_literalUnits {s : List Char} {acc : List (Char ⊕ ℕ)} {units : List (Char ⊕ ℕ)}
    {r : List Char} (h : literalUnits s acc = some (units, r)) (hr : LineOk r) : LineOk s := by
  fun_induction literalUnits s acc with
  | case1 => cases h
  | case2 s acc =>
    cases h
    exact (lineOk_cons (by decide)).2 hr
  | case3 a b c d s acc u hu ih =>
    have hne := hex4_ne_line hu
    rw [lineOk_cons (by decide), lineOk_cons (by decide), lineOk_cons (hne a (by simp)),
      lineOk_cons (hne b (by simp)), lineOk_cons (hne c (by simp)), lineOk_cons (hne d (by simp))]
    exact ih h
  | case4 => cases h
  | case5 e s acc _ c hc ih =>
    rw [lineOk_cons (by decide), lineOk_cons (escape_ne_line hc)]
    exact ih h
  | case6 => cases h
  | case7 => cases h
  | case8 c s acc _ _ _ hc ih =>
    refine (lineOk_cons ?_).2 (ih h)
    rintro rfl
    exact hc (Or.inr (by decide))

theorem lineOk_of_string {s : List Char} {t : String} {r : List Char}
    (h : string s = some (t, r)) (hr : LineOk r) : LineOk s := by
  obtain ⟨⟨units, r'⟩, hunits, heq⟩ := Option.map_eq_some_iff.1 h
  cases heq
  exact lineOk_of_literalUnits hunits hr

/-! ## Numerals -/

theorem lineOk_of_dropWhile_digit :
    ∀ {s : List Char}, LineOk (s.dropWhile Char.isDigit) → LineOk s
  | [], h => h
  | c :: s, h => by
    rw [List.dropWhile_cons] at h
    split at h
    · next hc =>
      refine (lineOk_cons ?_).2 (lineOk_of_dropWhile_digit h)
      rintro rfl
      exact absurd hc (by decide)
    · exact h

theorem lineOk_of_digitsPrefix {s ds r : List Char} (h : digitsPrefix s = (ds, r))
    (hr : LineOk r) : LineOk s := by
  rw [digitsPrefix, List.span_eq_takeWhile_dropWhile, Prod.mk.injEq] at h
  exact lineOk_of_dropWhile_digit (h.2 ▸ hr)

theorem noTick_of_integralPart {s w r : List Char} (h : integralPart s = some (w, r))
    (hr : LineOk r) : NoTick s := by
  unfold integralPart at h
  split at h
  · cases h
    exact noTick_cons (by decide) (by decide) hr
  · next c s _ =>
    split at h
    · next hc =>
      refine LineOk.cons (lineOk_of_digitsPrefix (Option.some.inj h) hr) ?_
      rintro rfl
      exact absurd hc (by decide)
    · cases h
  · cases h

theorem lineOk_of_fractionalPart {s w r : List Char} (h : fractionalPart s = some (w, r))
    (hr : LineOk r) : LineOk s := by
  unfold fractionalPart at h
  split at h
  · split at h
    · cases h
    · next ds s' _ hdigits =>
      cases h
      exact (lineOk_cons (by decide)).2 (lineOk_of_digitsPrefix hdigits hr)
  · cases h
    exact hr

theorem lineOk_of_exponentPart {s w r : List Char} (h : exponentPart s = some (w, r))
    (hr : LineOk r) : LineOk s := by
  unfold exponentPart at h
  split at h
  · next c s =>
    split at h
    · next hc =>
      refine (lineOk_cons (by rcases hc with rfl | rfl <;> decide)).2 ?_
      split at h
      next sign s' hsign =>
      split at h
      · cases h
      · next ds s'' _ hdigits =>
        cases h
        have hs' := lineOk_of_digitsPrefix hdigits hr
        split at hsign
        all_goals cases hsign
        · exact (lineOk_cons (by decide)).2 hs'
        · exact (lineOk_cons (by decide)).2 hs'
        · exact hs'
    · cases h
      exact hr
  · cases h
    exact hr

theorem noTick_of_unsignedNumeral {s r : List Char} {x : Number}
    (h : unsignedNumeral s = some (x, r)) (hr : LineOk r) : NoTick s := by
  obtain ⟨⟨whole, s₁⟩, hwhole, h⟩ := Option.bind_eq_some_iff.1 h
  obtain ⟨⟨fraction, s₂⟩, hfraction, h⟩ := Option.bind_eq_some_iff.1 h
  obtain ⟨⟨exponent, s₃⟩, hexponent, h⟩ := Option.bind_eq_some_iff.1 h
  cases h
  exact noTick_of_integralPart hwhole
    (lineOk_of_fractionalPart hfraction (lineOk_of_exponentPart hexponent hr))

theorem noTick_of_numeral {s r : List Char} {x : Number} (h : numeral s = some (x, r))
    (hr : LineOk r) : NoTick s := by
  unfold numeral at h
  split at h
  · obtain ⟨⟨y, r'⟩, hy, heq⟩ := Option.map_eq_some_iff.1 h
    cases heq
    exact noTick_cons (by decide) (by decide) (noTick_of_unsignedNumeral hy hr).lineOk
  · exact noTick_of_unsignedNumeral h hr

/-! ## Values -/

/-- **What the parser reads** has no line that starts with a backquote. The induction is on the
fuel, for values, elements and members at once. -/
theorem noTick_of_read : ∀ n : ℕ,
    (∀ {s r : List Char} {v : Json}, value n s = some (v, r) → LineOk r → NoTick s) ∧
    (∀ {s r : List Char} {l : List Json} {v : Json}, elements n s l = some (v, r) → LineOk r →
      NoTick s) ∧
    (∀ {s r : List Char} {l : List (String × Json)} {v : Json}, members n s l = some (v, r) →
      LineOk r → NoTick s)
  | 0 => by
    refine ⟨fun h => ?_, fun h => ?_, fun h => ?_⟩
    · cases h
    · cases h
    · cases h
  | n + 1 => by
    obtain ⟨ihvalue, ihelements, ihmembers⟩ := noTick_of_read n
    refine ⟨fun h hr => ?_, fun h hr => ?_, fun h hr => ?_⟩
    · apply noTick_of_dropWhile
      unfold value at h
      split at h
      · next s' heq =>
        cases h
        rw [heq]
        exact noTick_word 'n' ['u', 'l', 'l'] (by decide) hr
      · next s' heq =>
        cases h
        rw [heq]
        exact noTick_word 't' ['r', 'u', 'e'] (by decide) hr
      · next s' heq =>
        cases h
        rw [heq]
        exact noTick_word 'f' ['a', 'l', 's', 'e'] (by decide) hr
      · next s' heq =>
        obtain ⟨⟨t, r'⟩, ht, heq'⟩ := Option.map_eq_some_iff.1 h
        cases heq'
        rw [heq]
        exact noTick_cons (by decide) (by decide) (lineOk_of_string ht hr)
      · next s' heq =>
        rw [heq]
        refine noTick_cons (by decide) (by decide) (noTick_of_dropWhile ?_).lineOk
        split at h
        · next s'' hclose =>
          cases h
          rw [hclose]
          exact noTick_cons (by decide) (by decide) hr
        · exact ihelements h hr
      · next s' heq =>
        rw [heq]
        refine noTick_cons (by decide) (by decide) (noTick_of_dropWhile ?_).lineOk
        split at h
        · next s'' hclose =>
          cases h
          rw [hclose]
          exact noTick_cons (by decide) (by decide) hr
        · exact ihmembers h hr
      · obtain ⟨⟨x, r'⟩, hx, heq'⟩ := Option.map_eq_some_iff.1 h
        cases heq'
        exact noTick_of_numeral hx hr
    · unfold elements at h
      split at h
      · cases h
      · next v s hv =>
        refine ihvalue hv (noTick_of_dropWhile ?_).lineOk
        split at h
        · next s' heq =>
          rw [heq]
          exact noTick_cons (by decide) (by decide) (ihelements h hr).lineOk
        · next s' heq =>
          cases h
          rw [heq]
          exact noTick_cons (by decide) (by decide) hr
        · cases h
    · apply noTick_of_dropWhile
      unfold members at h
      split at h
      · next s₁ hquote =>
        rw [hquote]
        refine noTick_cons (by decide) (by decide) ?_
        split at h
        · cases h
        · next key s₂ hkey =>
          refine lineOk_of_string hkey (noTick_of_dropWhile ?_).lineOk
          split at h
          · next s₃ hcolon =>
            rw [hcolon]
            refine noTick_cons (by decide) (by decide) ?_
            split at h
            · cases h
            · next v s₄ hv =>
              refine (ihvalue hv (noTick_of_dropWhile ?_).lineOk).lineOk
              split at h
              · next s₅ hcomma =>
                rw [hcomma]
                exact noTick_cons (by decide) (by decide) (ihmembers h hr).lineOk
              · next s₅ hclose =>
                cases h
                rw [hclose]
                exact noTick_cons (by decide) (by decide) hr
              · cases h
          · cases h
      · cases h

theorem noTick_of_value {n : ℕ} {s r : List Char} {v : Json} (h : value n s = some (v, r))
    (hr : LineOk r) : NoTick s :=
  (noTick_of_read n).1 h hr

/-- **No line of a JSON text** starts with a backquote. -/
theorem noTick_of_parse {s : String} {v : Json} (h : parse s = some v) : NoTick s.toList := by
  unfold parse at h
  split at h
  · next v' rest hvalue =>
    split at h
    · next hrest => exact noTick_of_value hvalue (noTick_spaces hrest).lineOk
    · cases h
  · cases h

theorem obj_of_members : ∀ {n : ℕ} {s r : List Char} {l : List (String × Json)} {v : Json},
    members n s l = some (v, r) → ∃ fields, v = .obj fields
  | 0, _, _, _, _, h => by cases h
  | n + 1, s, r, l, v, h => by
    unfold members at h
    split at h
    · split at h
      · cases h
      · split at h
        · split at h
          · cases h
          · split at h
            · exact obj_of_members h
            · cases h
              exact ⟨_, rfl⟩
            · cases h
        · cases h
    · cases h

/-! ## Trimmed texts -/

theorem exists_trim (s : List Char) : ∃ w₁ w₂, s = w₁ ++ (Number.trim s ++ w₂) ∧
    (∀ c ∈ w₁, Number.isSpace c = true) ∧ (∀ c ∈ w₂, Number.isSpace c = true) ∧
    s.dropWhile Number.isSpace = Number.trim s ++ w₂ := by
  have hsplit : s.dropWhile Number.isSpace = Number.trim s ++
      ((s.dropWhile Number.isSpace).reverse.takeWhile Number.isSpace).reverse := by
    rw [Number.trim, ← List.reverse_append, List.takeWhile_append_dropWhile, List.reverse_reverse]
  refine ⟨s.takeWhile Number.isSpace, _, ?_, fun c hc => List.mem_takeWhile_imp hc, fun c hc => ?_,
    hsplit⟩
  · rw [← hsplit, List.takeWhile_append_dropWhile]
  · exact List.mem_takeWhile_imp (List.mem_reverse.1 hc)

theorem isSpace_of_trim {s t : List Char} {c : Char} (h : Number.trim s = c :: t) :
    Number.isSpace c = false := by
  obtain ⟨w₁, w₂, -, -, -, hdrop⟩ := exists_trim s
  have hhead := List.head?_dropWhile_not Number.isSpace s
  rw [hdrop, h] at hhead
  exact hhead

theorem isSpace_trimmed {c : Char} (h : isSpace c = true) : Number.isSpace c = true := by
  simp only [isSpace, decide_eq_true_eq] at h
  rcases h with rfl | rfl | rfl | rfl <;> decide

theorem tick_not_mem {w : List Char} (h : ∀ c ∈ w, Number.isSpace c = true) : '\x60' ∉ w :=
  fun hmem => absurd (h _ hmem) (by decide)

theorem lineOk_append_space {w : List Char} (hw : '\x60' ∉ w) :
    ∀ {s : List Char}, LineOk s → LineOk (s ++ w)
  | [], _ => fun h => hw (h.subset (by simp))
  | c :: s, h => by
    intro hs
    rw [List.cons_append, List.infix_cons_iff] at hs
    rcases hs with hs | hs
    · rw [List.cons_prefix_cons] at hs
      cases s with
      | nil => exact hw (hs.2.subset (by simp))
      | cons d s =>
        rw [List.cons_append, List.cons_prefix_cons] at hs
        refine h (List.infix_cons_iff.2 (Or.inl ?_))
        rw [hs.1, hs.2.1]
        exact List.prefix_append _ s
    · exact lineOk_append_space hw (fun h' => h (List.infix_cons h')) hs

theorem noTick_append_space {w s : List Char} (hw : '\x60' ∉ w) (h : NoTick s) : NoTick (s ++ w) :=
  lineOk_append_space hw h

theorem noTick_space_append : ∀ {w s : List Char}, '\x60' ∉ w → NoTick s → NoTick (w ++ s)
  | [], _, _, h => h
  | c :: w, s, hw, h => by
    rw [List.mem_cons, not_or] at hw
    have ih := noTick_space_append hw.2 h
    by_cases hline : c = '\n'
    · rw [hline]
      exact LineOk.cons ih (by decide)
    · exact noTick_cons hline (Ne.symm hw.1) ih.lineOk

/-- **No line of a text** that trims to a JSON text starts with a backquote. -/
theorem noTick_of_parse_trim {s : List Char} {v : Json}
    (h : parse (String.ofList (Number.trim s)) = some v) : NoTick s := by
  obtain ⟨w₁, w₂, hs, hw₁, hw₂, -⟩ := exists_trim s
  have htrim := noTick_of_parse h
  rw [String.toList_ofList] at htrim
  rw [hs]
  exact noTick_space_append (tick_not_mem hw₁) (noTick_append_space (tick_not_mem hw₂) htrim)

theorem bracket_of_parse_trim {s : List Char} {l : List Json}
    (h : parse (String.ofList (Number.trim s)) = some (.arr l)) :
    ∃ t, Number.trim s = '[' :: t := by
  rw [parse, String.toList_ofList] at h
  have hdrop : (Number.trim s).dropWhile isSpace = Number.trim s := by
    cases htrim : Number.trim s with
    | nil => rfl
    | cons c t =>
      refine List.dropWhile_cons_of_neg fun hc => ?_
      have := isSpace_of_trim htrim
      rw [isSpace_trimmed hc] at this
      cases this
  split at h
  · next v rest hvalue =>
    split at h
    · cases h
      unfold value at hvalue
      rw [hdrop] at hvalue
      split at hvalue
      · cases hvalue
      · cases hvalue
      · cases hvalue
      · obtain ⟨⟨t, r⟩, -, heq⟩ := Option.map_eq_some_iff.1 hvalue
        cases heq
      · next t heq => exact ⟨t, heq⟩
      · split at hvalue
        · cases hvalue
        · obtain ⟨fields, hobj⟩ := obj_of_members hvalue
          cases hobj
      · obtain ⟨⟨x, r⟩, -, heq⟩ := Option.map_eq_some_iff.1 hvalue
        cases heq
    · cases h
  · cases h

end Json

end Js
