import Mathlib.Algebra.Order.Group.Basic
import Mathlib.Data.List.Basic
import Mathlib.Data.List.Induction
import Mathlib.Tactic.Abel

/-!
# Sliding windows

Times are counted while they are recent. A count prunes the times that are too old, and a reset
forgets all of them.

* **`lt_length_window_iff`**: more than `k` times are remembered exactly where the `k` marks before
  the last one are counts as well, and recent.
-/

namespace SlidingWindow

variable {T : Type*}

/-- A time that is counted, or a reset. -/
inductive Mark (T : Type*)
  | reset
  | hit (t : T)
  deriving DecidableEq

def times (l : List (Mark T)) : List T := l.filterMap fun m =>
  match m with
  | .reset => none
  | .hit t => some t

/-- What is counted since the last reset. -/
def streak (l : List (Mark T)) : List T := l.foldl (fun s m =>
  match m with
  | .reset => []
  | .hit t => s ++ [t]) []

@[simp] theorem streak_nil : streak ([] : List (Mark T)) = [] := rfl

@[simp] theorem streak_snoc_reset (l : List (Mark T)) : streak (l ++ [.reset]) = [] := by
  simp [streak]

@[simp] theorem streak_snoc_hit (l : List (Mark T)) (t : T) :
    streak (l ++ [.hit t]) = streak l ++ [t] := by
  simp [streak]

@[simp] theorem times_snoc_hit (l : List (Mark T)) (t : T) :
    times (l ++ [.hit t]) = times l ++ [t] := by
  simp [times]

@[simp] theorem times_snoc_reset (l : List (Mark T)) : times (l ++ [.reset]) = times l := by
  simp [times]

/-- The counts of the streak are the last marks. -/
theorem exists_streak (l : List (Mark T)) : ∃ l₀, l = l₀ ++ (streak l).map .hit := by
  induction l using List.reverseRecOn with
  | nil => exact ⟨[], rfl⟩
  | append_singleton l m ih =>
    cases m with
    | reset => exact ⟨l ++ [.reset], by simp⟩
    | hit t =>
      obtain ⟨l₀, hl⟩ := ih
      refine ⟨l₀, ?_⟩
      rw [streak_snoc_hit, List.map_append, ← List.append_assoc, ← hl]
      rfl

/-- Counts that end a sequence end its streak. -/
theorem streak_append_hits (l : List (Mark T)) (ts : List T) :
    streak (l ++ ts.map .hit) = streak l ++ ts := by
  induction ts using List.reverseRecOn with
  | nil => simp
  | append_singleton ts t ih =>
    rw [List.map_append, ← List.append_assoc, List.map_singleton, streak_snoc_hit, ih,
      List.append_assoc]

theorem streak_sublist (l : List (Mark T)) : (streak l).Sublist (times l) := by
  induction l using List.reverseRecOn with
  | nil => exact List.Sublist.refl _
  | append_singleton l m ih =>
    cases m with
    | reset => simp
    | hit t =>
      rw [streak_snoc_hit, times_snoc_hit]
      exact ih.append_right [t]

/-- The last `k` marks are counts exactly where the streak has `k` of them. -/
theorem le_length_streak_iff {l : List (Mark T)} {k : ℕ} :
    k ≤ (streak l).length ↔ ∃ l₀, ∃ ts : List T, l = l₀ ++ ts.map .hit ∧ ts.length = k := by
  constructor
  · intro hk
    obtain ⟨l₀, hl₀⟩ := exists_streak l
    generalize streak l = s at hk hl₀
    refine ⟨l₀ ++ (s.take (s.length - k)).map .hit, s.drop (s.length - k), ?_, ?_⟩
    · rw [List.append_assoc, ← List.map_append, List.take_append_drop, ← hl₀]
    · rw [List.length_drop]
      omega
  · rintro ⟨l₀, ts, rfl, rfl⟩
    rw [streak_append_hits, List.length_append]
    omega

section Window

variable [AddCommGroup T] [LinearOrder T] (width : T)

def recent (now t : T) : Bool := now - t ≤ width

/-- One more mark. -/
def push (w : List T) : Mark T → List T
  | .reset => []
  | .hit now => w.filter (recent width now) ++ [now]

/-- **What is remembered.** -/
def window (l : List (Mark T)) : List T := l.foldl (push width) []

@[simp] theorem window_nil : window width [] = [] := rfl

@[simp] theorem window_snoc (l : List (Mark T)) (m : Mark T) :
    window width (l ++ [m]) = push width (window width l) m := by
  simp [window]

variable {width} [IsOrderedAddMonoid T]

/-- What is recent later was recent before. -/
theorem recent_of_le {now later t : T} (hle : now ≤ later) (h : recent width later t = true) :
    recent width now t = true := by
  rw [recent, decide_eq_true_eq] at h ⊢
  exact (sub_le_sub_right hle t).trans h

theorem recent_of_ge {now t t' : T} (hle : t ≤ t') (h : recent width now t = true) :
    recent width now t' = true := by
  rw [recent, decide_eq_true_eq] at h ⊢
  exact (sub_le_sub_left hle now).trans h

/-- **Pruning drops nothing that still counts.** -/
theorem filter_window {l : List (Mark T)} (hl : (times l).Pairwise (· ≤ ·)) {now : T}
    (hnow : ∀ t ∈ times l, t ≤ now) :
    (window width l).filter (recent width now) = (streak l).filter (recent width now) := by
  induction l using List.reverseRecOn generalizing now with
  | nil => rfl
  | append_singleton l m ih =>
    cases m with
    | reset => simp [push]
    | hit t =>
      rw [times_snoc_hit] at hl hnow
      have hle : t ≤ now := hnow t (by simp)
      have hbefore : ∀ u ∈ times l, u ≤ now := fun u hu => hnow u (by simp [hu])
      rw [window_snoc, push, streak_snoc_hit, List.filter_append, List.filter_append,
        ← ih (List.pairwise_append.1 hl).1 hbefore, List.filter_filter]
      congr 1
      refine List.filter_congr fun u _ => ?_
      by_cases hu : recent width now u = true
      · rw [hu, recent_of_le hle hu, Bool.and_true]
      · rw [Bool.not_eq_true] at hu
        rw [hu, Bool.false_and]

/-- The last of times in order are the recent ones. -/
theorem exists_filter_recent {s : List T} (hs : s.Pairwise (· ≤ ·)) (now : T) :
    ∃ old, s = old ++ s.filter (recent width now) := by
  induction s with
  | nil => exact ⟨[], rfl⟩
  | cons t s ih =>
    rw [List.pairwise_cons] at hs
    by_cases ht : recent width now t = true
    · have hall : ∀ u ∈ t :: s, recent width now u = true := by
        intro u hu
        rcases List.mem_cons.1 hu with rfl | hu
        · exact ht
        · exact recent_of_ge (hs.1 u hu) ht
      exact ⟨[], by rw [List.filter_eq_self.2 hall, List.nil_append]⟩
    · obtain ⟨old, hold⟩ := ih hs.2
      refine ⟨t :: old, ?_⟩
      rw [List.filter_cons_of_neg ht, List.cons_append, ← hold]

/-- **More than `k` times are remembered** exactly where the `k` marks before the last count are
counts, and recent. -/
theorem lt_length_window_iff {l : List (Mark T)} {now : T} {k : ℕ}
    (hl : (times (l ++ [.hit now])).Pairwise (· ≤ ·)) :
    k < (window width (l ++ [.hit now])).length ↔
      ∃ l₀, ∃ ts : List T, l = l₀ ++ ts.map .hit ∧ ts.length = k ∧ ∀ t ∈ ts, now - t ≤ width := by
  rw [times_snoc_hit, List.pairwise_append] at hl
  have hnow : ∀ t ∈ times l, t ≤ now := fun t ht => hl.2.2 t ht now (List.mem_singleton_self now)
  rw [window_snoc, push, filter_window hl.1 hnow, List.length_append, List.length_singleton]
  constructor
  · intro hk
    obtain ⟨l₀, hl₀⟩ := exists_streak l
    obtain ⟨old, hold⟩ : ∃ old, streak l = old ++ (streak l).filter (recent width now) :=
      exists_filter_recent (hl.1.sublist (streak_sublist l)) now
    generalize hrec : (streak l).filter (recent width now) = new at hk hold
    refine ⟨l₀ ++ (old ++ new.take (new.length - k)).map .hit, new.drop (new.length - k),
      ?_, ?_, ?_⟩
    · rw [List.append_assoc, ← List.map_append, List.append_assoc, List.take_append_drop, ← hold,
        ← hl₀]
    · rw [List.length_drop]
      omega
    · intro t ht
      have hmem : t ∈ (streak l).filter (recent width now) := hrec ▸ List.drop_subset _ _ ht
      exact of_decide_eq_true (List.mem_filter.1 hmem).2
  · rintro ⟨l₀, ts, rfl, rfl, hts⟩
    have hall : ts.filter (recent width now) = ts :=
      List.filter_eq_self.2 fun t ht => by
        rw [recent, decide_eq_true_eq]
        exact hts t ht
    rw [streak_append_hits, List.filter_append, hall, List.length_append]
    omega

end Window

end SlidingWindow
