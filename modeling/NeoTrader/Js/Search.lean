import Mathlib.Data.List.Infix
import Mathlib.Data.Nat.Notation

/-!
# The first occurrence of a pattern

`s.indexOf(pat)`, as the two parts of a text that lie around the first occurrence.

* **`breakOn_of_head`**, **`breakOn_of_last`**: the occurrence that follows a text without one, for a
  pattern whose first element, or whose last one, occurs in it only once.
-/

namespace Js

variable {α : Type} [DecidableEq α]

/-- What is before the first occurrence of a pattern, and what is after it. -/
def breakOn (pat : List α) : List α → Option (List α × List α)
  | [] => if pat = [] then some ([], []) else none
  | c :: s =>
    if pat.isPrefixOf (c :: s) then some ([], (c :: s).drop pat.length)
    else (breakOn pat s).map fun (before, after) => (c :: before, after)

theorem breakOn_cons_self {pat s : List α} {c : α} (h : pat <+: c :: s) :
    breakOn pat (c :: s) = some ([], (c :: s).drop pat.length) := by
  rw [breakOn, if_pos (List.isPrefixOf_iff_prefix.2 h)]

theorem breakOn_cons_of_not {pat s : List α} {c : α} (h : ¬ pat <+: c :: s) :
    breakOn pat (c :: s) = (breakOn pat s).map fun (before, after) => (c :: before, after) := by
  rw [breakOn, if_neg fun hp => h (List.isPrefixOf_iff_prefix.1 hp)]

theorem breakOn_eq_append {pat : List α} :
    ∀ {s before after : List α}, breakOn pat s = some (before, after) → s = before ++ pat ++ after
  | [], before, after, h => by
    unfold breakOn at h
    split at h
    · next hpat =>
      cases h
      rw [hpat]
      rfl
    · cases h
  | c :: s, before, after, h => by
    by_cases hp : pat <+: c :: s
    · rw [breakOn_cons_self hp] at h
      cases h
      obtain ⟨rest, hrest⟩ := hp
      rw [← hrest, List.drop_left, List.nil_append]
    · rw [breakOn_cons_of_not hp, Option.map_eq_some_iff] at h
      obtain ⟨⟨before', after'⟩, h, heq⟩ := h
      cases heq
      rw [breakOn_eq_append h]
      rfl

theorem breakOn_eq_none_iff {pat : List α} :
    ∀ {s : List α}, breakOn pat s = none ↔ ¬ pat <:+: s
  | [] => by
    unfold breakOn
    rw [List.infix_nil]
    split <;> simp_all
  | c :: s => by
    by_cases hp : pat <+: c :: s
    · rw [breakOn_cons_self hp]
      exact iff_of_false nofun fun h => h hp.isInfix
    · rw [breakOn_cons_of_not hp, Option.map_eq_none_iff, breakOn_eq_none_iff, List.infix_cons_iff,
        not_or]
      exact ⟨fun h => ⟨hp, h⟩, And.right⟩

theorem exists_breakOn {pat s : List α} (h : pat <:+: s) :
    ∃ before after, breakOn pat s = some (before, after) := by
  cases hs : breakOn pat s with
  | none => exact absurd h (breakOn_eq_none_iff.1 hs)
  | some parts => exact ⟨parts.1, parts.2, rfl⟩

theorem breakOn_self_append (a : α) (pat t : List α) :
    breakOn (a :: pat) (a :: pat ++ t) = some ([], t) := by
  have hp : (a :: pat) <+: a :: (pat ++ t) := List.prefix_append (a :: pat) t
  have hdrop : (a :: (pat ++ t)).drop (a :: pat).length = t := List.drop_left
  rw [List.cons_append, breakOn_cons_self hp, hdrop]

theorem breakOn_length_le {pat : List α} :
    ∀ {s before after first rest : List α}, breakOn pat s = some (before, after) →
      s = first ++ pat ++ rest → before.length ≤ first.length
  | [], before, after, first, rest, h, _ => by
    have hs := breakOn_eq_append h
    have : before = [] := by simp_all
    simp [this]
  | c :: s, before, after, first, rest, h, hs => by
    by_cases hp : pat <+: c :: s
    · rw [breakOn_cons_self hp] at h
      cases h
      exact Nat.zero_le _
    · rw [breakOn_cons_of_not hp, Option.map_eq_some_iff] at h
      obtain ⟨⟨before', after'⟩, h, heq⟩ := h
      cases heq
      cases first with
      | nil => exact absurd ⟨rest, by rw [hs, List.nil_append]⟩ hp
      | cons d first =>
        rw [List.cons_append, List.cons_append, List.cons.injEq] at hs
        exact Nat.succ_le_succ (breakOn_length_le h hs.2)

theorem not_infix_of_breakOn {pat s before after : List α} (hpat : pat ≠ [])
    (h : breakOn pat s = some (before, after)) : ¬ pat <:+: before := by
  rintro ⟨first, rest, hbefore⟩
  have hs : s = first ++ pat ++ (rest ++ pat ++ after) := by
    rw [breakOn_eq_append h, ← hbefore]
    simp only [List.append_assoc]
  have hle := breakOn_length_le h hs
  have hpos := List.length_pos_of_ne_nil hpat
  rw [← hbefore, List.length_append, List.length_append] at hle
  omega

section Head

variable {a : α} {pat : List α} (ha : a ∉ pat)
include ha

omit [DecidableEq α] in
theorem not_prefix_of_head {s t : List α} (hs : s ≠ []) (h : ¬ (a :: pat) <:+: s) :
    ¬ (a :: pat) <+: s ++ a :: t := by
  intro hp
  rcases List.prefix_or_prefix_of_prefix hp (List.prefix_append s (a :: t)) with hle | hle
  · exact h hle.isInfix
  · obtain ⟨rest, hrest⟩ := hle
    cases rest with
    | nil =>
      rw [List.append_nil] at hrest
      exact h (hrest ▸ List.infix_refl s)
    | cons b rest =>
      -- the element after the text is the first one of the pattern, and is in its tail
      have hb : b = a := by
        obtain ⟨tail, htail⟩ := hp
        rw [← hrest, List.append_assoc, List.append_cancel_left_eq, List.cons_append] at htail
        exact (List.cons.inj htail).1
      cases s with
      | nil => exact hs rfl
      | cons c s =>
        rw [List.cons_append] at hrest
        refine ha ?_
        rw [← (List.cons.inj hrest).2, hb]
        simp

/-- **The first occurrence** after a text without one. -/
theorem breakOn_of_head (t : List α) :
    ∀ {s : List α}, ¬ (a :: pat) <:+: s → breakOn (a :: pat) (s ++ (a :: pat) ++ t) = some (s, t)
  | [], _ => breakOn_self_append a pat t
  | c :: s, h => by
    have hnot : ¬ (a :: pat) <+: c :: (s ++ (a :: pat) ++ t) := by
      have happend : c :: (s ++ (a :: pat) ++ t) = (c :: s) ++ a :: (pat ++ t) := by simp
      rw [happend]
      exact not_prefix_of_head ha (List.cons_ne_nil c s) h
    rw [List.cons_append, List.cons_append, breakOn_cons_of_not hnot,
      breakOn_of_head t fun hs => h (List.infix_cons hs)]
    rfl

end Head

section Last

variable {z : α} {pat : List α} (hz : z ∉ pat)
include hz

omit [DecidableEq α] in
theorem not_prefix_of_last {s t : List α} (hs : s ≠ []) (h : ¬ (pat ++ [z]) <:+: s) :
    ¬ (pat ++ [z]) <+: s ++ (pat ++ t) := by
  intro hp
  rcases List.prefix_or_prefix_of_prefix hp (List.prefix_append s (pat ++ t)) with hle | hle
  · exact h hle.isInfix
  · obtain ⟨rest, hrest⟩ := hle
    obtain ⟨tail, htail⟩ := hp
    rw [← hrest, List.append_assoc, List.append_cancel_left_eq] at htail
    have hlength := congrArg List.length hrest
    rw [List.length_append, List.length_append, List.length_singleton] at hlength
    have hpos := List.length_pos_of_ne_nil hs
    -- what is after the text is at most as long as the pattern without its last element
    have hrest' : rest <+: pat := List.prefix_of_prefix_length_le ⟨tail, htail⟩
      (List.prefix_append pat t) (by omega)
    rcases List.eq_nil_or_concat rest with hnil | ⟨front, last, hlast⟩
    · rw [hnil, List.append_nil] at hrest
      exact h (hrest ▸ List.infix_refl s)
    · rw [hlast, List.concat_eq_append, ← List.append_assoc] at hrest
      have hz' := (List.append_inj' hrest rfl).2
      rw [hlast, List.concat_eq_append, hz'] at hrest'
      exact hz (hrest'.subset (List.mem_append_right _ (List.mem_singleton_self z)))

/-- **The first occurrence** after a text without one. -/
theorem breakOn_of_last (t : List α) :
    ∀ {s : List α}, ¬ (pat ++ [z]) <:+: s →
      breakOn (pat ++ [z]) (s ++ (pat ++ [z]) ++ t) = some (s, t)
  | [], _ => by
    cases pat with
    | nil => exact breakOn_self_append z [] t
    | cons a pat => exact breakOn_self_append a (pat ++ [z]) t
  | c :: s, h => by
    have hnot : ¬ (pat ++ [z]) <+: c :: (s ++ (pat ++ [z]) ++ t) := by
      have happend : c :: (s ++ (pat ++ [z]) ++ t) = (c :: s) ++ (pat ++ ([z] ++ t)) := by simp
      rw [happend]
      exact not_prefix_of_last hz (List.cons_ne_nil c s) h
    rw [List.cons_append, List.cons_append, breakOn_cons_of_not hnot,
      breakOn_of_last t fun hs => h (List.infix_cons hs)]
    rfl

end Last

end Js
