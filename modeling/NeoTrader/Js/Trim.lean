import NeoTrader.Js.Number

/-!
# Trimmed texts

* `dropWhile_eq_self`, `head_dropWhile`: when nothing is dropped in front;
* `trim_trim`: what is trimmed stays as it is;
* `trim_of_forall`: a text without white space;
* `trim_infix`: what is left is a part of the text.
-/

namespace Js.Number

theorem isSpace_newline : isSpace '\n' = true := by decide

theorem trim_cons_newline (s : List Char) : trim ('\n' :: s) = trim s := by
  rw [trim, List.dropWhile_cons_of_pos isSpace_newline, trim]

theorem trim_append_newline (s : List Char) : trim (s ++ ['\n']) = trim s := by
  rw [trim, trim, List.dropWhile_append]
  by_cases h : (s.dropWhile isSpace).isEmpty
  · rw [if_pos h, List.isEmpty_iff.mp h]
    decide
  · rw [if_neg h, List.reverse_append, List.reverse_singleton, List.singleton_append,
      List.dropWhile_cons_of_pos isSpace_newline]

theorem dropWhile_eq_self {p : Char → Bool} {s : List Char} (h : ∀ c ∈ s.head?, p c = false) :
    s.dropWhile p = s := by
  cases s with
  | nil => rfl
  | cons c s =>
    have hc := h c rfl
    rw [List.dropWhile_cons_of_neg (by simp [hc])]

theorem head_dropWhile (p : Char → Bool) (s : List Char) :
    ∀ c ∈ (s.dropWhile p).head?, p c = false := by
  induction s with
  | nil =>
    intro c hc
    cases hc
  | cons d s ih =>
    intro c hc
    by_cases hd : p d = true
    · rw [List.dropWhile_cons_of_pos hd] at hc
      exact ih c hc
    · rw [List.dropWhile_cons_of_neg hd] at hc
      cases hc
      exact Bool.eq_false_iff.mpr hd

theorem trim_front (s : List Char) : trim s <+: s.dropWhile isSpace := by
  rw [trim, ← List.reverse_suffix, List.reverse_reverse]
  exact List.dropWhile_suffix isSpace

theorem trim_infix (s : List Char) : trim s <:+: s :=
  (trim_front s).isInfix.trans (List.dropWhile_suffix isSpace).isInfix

theorem trim_trim (s : List Char) : trim (trim s) = trim s := by
  have hfront : (trim s).dropWhile isSpace = trim s := by
    apply dropWhile_eq_self
    intro c hc
    obtain ⟨rest, hrest⟩ := trim_front s
    have hhead : (s.dropWhile isSpace).head? = some c := by
      rw [← hrest, List.head?_append]
      exact congrArg (Option.or · _) hc
    exact head_dropWhile isSpace s c hhead
  rw [trim, hfront, trim, List.reverse_reverse]
  rw [dropWhile_eq_self (head_dropWhile _ _)]

theorem trim_of_forall {s : List Char} (h : ∀ c ∈ s, isSpace c = false) : trim s = s := by
  have hback : ∀ c ∈ s.reverse.head?, isSpace c = false := fun c hc =>
    h c (List.mem_reverse.mp (List.mem_of_mem_head? hc))
  rw [trim, dropWhile_eq_self fun c hc => h c (List.mem_of_mem_head? hc), dropWhile_eq_self hback,
    List.reverse_reverse]

end Js.Number
