import Mathlib.Data.List.Infix
import Mathlib.Data.Nat.Notation
import Mathlib.Tactic.Common

/-!
# Matched delimiters

A scan counts opening and closing delimiters, and takes a text up to the one that closes all.

* **`extract_eq_some_iff`**: a text that starts with a delimiter is taken iff it is matched.
-/

namespace Delimited

variable {α : Type} [DecidableEq α] {o c : α}

variable (o c) in
/-- The text up to the delimiter that closes all those open; `depth` of them are open before it. -/
def scan : ℕ → List α → Option (List α)
  | _, [] => none
  | depth, x :: s =>
    if x = o then (scan (depth + 1) s).map (x :: ·)
    else if x = c then
      if depth - 1 = 0 then some [x] else (scan (depth - 1) s).map (x :: ·)
    else (scan depth s).map (x :: ·)

variable (o c) in
/-- The text from the first opening delimiter to the one that closes it. -/
def extract (s : List α) : Option (List α) := scan o c 0 (s.dropWhile (· ≠ o))

variable (o c) in
/-- With `depth` open before, the delimiters of a text are closed at its end for the first time. -/
structure Closes (depth : ℕ) (s : List α) : Prop where
  total : depth + s.count o = s.count c
  inner : ∀ first rest, s = first ++ rest → rest ≠ [] → first.count c < depth + first.count o

variable (o c) in
/-- A text that starts with a delimiter, and ends where it is closed. -/
def Matched (s : List α) : Prop := ∃ t, s = o :: t ∧ Closes o c 1 t

theorem scan_open (o c : α) (depth : ℕ) (s : List α) :
    scan o c depth (o :: s) = (scan o c (depth + 1) s).map (o :: ·) := by
  rw [scan, if_pos rfl]

theorem scan_close (hoc : o ≠ c) (depth : ℕ) (s : List α) : scan o c depth (c :: s) =
    if depth - 1 = 0 then some [c] else (scan o c (depth - 1) s).map (c :: ·) := by
  rw [scan, if_neg hoc.symm, if_pos rfl]

theorem scan_other {x : α} (ho : x ≠ o) (hc : x ≠ c) (depth : ℕ) (s : List α) :
    scan o c depth (x :: s) = (scan o c depth s).map (x :: ·) := by
  rw [scan, if_neg ho, if_neg hc]

/-- One element read, where something is still open after it. -/
theorem closes_cons {depth depth' : ℕ} {x : α} {s : List α} (hdepth : 0 < depth)
    (hstep : ∀ first : List α, depth' + first.count o + (x :: first).count c =
      depth + (x :: first).count o + first.count c) :
    Closes o c depth (x :: s) ↔ Closes o c depth' s := by
  constructor
  · rintro ⟨htotal, hinner⟩
    refine ⟨?_, fun first rest hsplit hrest => ?_⟩
    · have := hstep s
      omega
    · have := hinner (x :: first) rest (by rw [hsplit, List.cons_append]) hrest
      have := hstep first
      omega
  · rintro ⟨htotal, hinner⟩
    refine ⟨?_, fun first rest hsplit hrest => ?_⟩
    · have := hstep s
      omega
    · cases first with
      | nil =>
        rw [List.count_nil, List.count_nil]
        exact hdepth
      | cons y first =>
        rw [List.cons_append, List.cons.injEq] at hsplit
        obtain ⟨rfl, hsplit⟩ := hsplit
        have := hinner first rest hsplit hrest
        have := hstep first
        omega

theorem closes_cons_open (hoc : o ≠ c) {depth : ℕ} {s : List α} (hdepth : 0 < depth) :
    Closes o c depth (o :: s) ↔ Closes o c (depth + 1) s := by
  refine closes_cons hdepth fun first => ?_
  rw [List.count_cons_self, List.count_cons_of_ne hoc]
  omega

theorem closes_cons_close (hoc : o ≠ c) {depth : ℕ} {s : List α} :
    Closes o c (depth + 2) (c :: s) ↔ Closes o c (depth + 1) s := by
  refine closes_cons (Nat.succ_pos _) fun first => ?_
  rw [List.count_cons_self, List.count_cons_of_ne hoc.symm]
  omega

theorem closes_cons_other {x : α} (ho : x ≠ o) (hc : x ≠ c) {depth : ℕ} {s : List α}
    (hdepth : 0 < depth) : Closes o c depth (x :: s) ↔ Closes o c depth s := by
  refine closes_cons hdepth fun first => ?_
  rw [List.count_cons_of_ne ho, List.count_cons_of_ne hc]

/-- The last delimiter closes the text. -/
theorem closes_one (hoc : o ≠ c) {s : List α} : Closes o c 1 (c :: s) ↔ s = [] := by
  constructor
  · rintro ⟨htotal, hinner⟩
    by_contra hs
    have := hinner [c] s rfl hs
    rw [List.count_cons_self, List.count_cons_of_ne hoc.symm, List.count_nil,
      List.count_nil] at this
    omega
  · rintro rfl
    refine ⟨?_, fun first rest hsplit hrest => ?_⟩
    · rw [List.count_cons_self, List.count_cons_of_ne hoc.symm, List.count_nil, List.count_nil]
    · cases first with
      | nil => exact Nat.one_pos
      | cons y first =>
        rw [List.cons_append, List.cons.injEq] at hsplit
        exact absurd (List.append_eq_nil_iff.1 hsplit.2.symm).2 hrest

theorem not_closes_nil {depth : ℕ} (hdepth : 0 < depth) : ¬ Closes o c depth [] := by
  rintro ⟨htotal, -⟩
  rw [List.count_nil, List.count_nil] at htotal
  omega

/-- **The scan takes a text that closes.** -/
theorem scan_append (hoc : o ≠ c) (t : List α) : ∀ {s : List α} {depth : ℕ}, 0 < depth →
    Closes o c depth s → scan o c depth (s ++ t) = some s
  | [], _, hdepth, h => absurd h (not_closes_nil hdepth)
  | x :: s, depth, hdepth, h => by
    rw [List.cons_append]
    by_cases ho : x = o
    · rw [ho] at h ⊢
      rw [scan_open, scan_append hoc t (Nat.succ_pos _) ((closes_cons_open hoc hdepth).1 h)]
      rfl
    by_cases hc : x = c
    · rw [hc] at h ⊢
      rw [scan_close hoc]
      obtain _ | _ | depth := depth
      · exact absurd hdepth (lt_irrefl 0)
      · rw [if_pos rfl, (closes_one hoc).1 h]
      · have hrest := scan_append hoc t (Nat.succ_pos _) ((closes_cons_close hoc).1 h)
        exact (if_neg (Nat.succ_ne_zero depth)).trans (congrArg (Option.map (c :: ·)) hrest)
    · rw [scan_other ho hc, scan_append hoc t hdepth ((closes_cons_other ho hc hdepth).1 h)]
      rfl

/-- What the scan takes closes. -/
theorem closes_of_scan (hoc : o ≠ c) : ∀ {s r : List α} {depth : ℕ}, 0 < depth →
    scan o c depth s = some r → Closes o c depth r
  | x :: s, r, depth, hdepth, h => by
    by_cases ho : x = o
    · rw [ho, scan_open, Option.map_eq_some_iff] at h
      obtain ⟨r', h, rfl⟩ := h
      exact (closes_cons_open hoc hdepth).2 (closes_of_scan hoc (Nat.succ_pos _) h)
    by_cases hc : x = c
    · rw [hc, scan_close hoc] at h
      obtain _ | _ | depth := depth
      · exact absurd hdepth (lt_irrefl 0)
      · rw [if_pos rfl, Option.some.injEq] at h
        rw [← h]
        exact (closes_one hoc).2 rfl
      · have hmap := (if_neg (Nat.succ_ne_zero depth)).symm.trans h
        rw [Option.map_eq_some_iff] at hmap
        obtain ⟨r', hscan, rfl⟩ := hmap
        exact (closes_cons_close hoc).2 (closes_of_scan hoc (Nat.succ_pos _) hscan)
    · rw [scan_other ho hc, Option.map_eq_some_iff] at h
      obtain ⟨r', h, rfl⟩ := h
      exact (closes_cons_other ho hc hdepth).2 (closes_of_scan hoc hdepth h)

theorem dropWhile_append_open {before : List α} (hbefore : o ∉ before) (s : List α) :
    (before ++ o :: s).dropWhile (· ≠ o) = o :: s := by
  rw [List.dropWhile_append_of_pos, List.dropWhile_cons_of_neg (by simp)]
  intro x hx
  refine decide_eq_true ?_
  rintro rfl
  exact hbefore hx

/-- **The texts that are taken** are the matched ones. -/
theorem extract_eq_some_iff (hoc : o ≠ c) {before s : List α} (after : List α)
    (hbefore : o ∉ before) :
    extract o c (before ++ (o :: s) ++ after) = some (o :: s) ↔ Matched o c (o :: s) := by
  rw [extract, List.append_assoc, List.cons_append, dropWhile_append_open hbefore, scan_open,
    Option.map_eq_some_iff]
  constructor
  · rintro ⟨r, hscan, hr⟩
    rw [List.cons.injEq] at hr
    rw [hr.2] at hscan
    exact ⟨s, rfl, closes_of_scan hoc Nat.one_pos hscan⟩
  · rintro ⟨t, ht, hcloses⟩
    rw [List.cons.injEq] at ht
    rw [← ht.2] at hcloses
    exact ⟨s, scan_append hoc after Nat.one_pos hcloses, rfl⟩

end Delimited
