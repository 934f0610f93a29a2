import Mathlib.Algebra.Order.BigOperators.Group.List
import Mathlib.Tactic.Linarith
import NeoTrader.Py.Value

/-!
# Batches

A loop over a batch keeps running totals in its state. What it answers with is counted again.

* `answer`, `collect_eq`: what a loop collects is what its elements are answered with, in order;
  **`sum_collect`** is its sum;
* **`mapState_run`**: what one step keeps of the answers so far and of the state, the loop keeps;
* `Dict.value`, `Dict.total`, `Dict.gap`: a dictionary of numbers as an account, and how far two
  accounts of the same keys are apart.
-/

namespace Py

/-! ## Loops that collect -/

section Collect

variable {α β : Type} {f : α → Except String (Option β)} {x : α} {l : List α} {l' : List β}

variable (f x) in
def answer : List β :=
  match f x with
  | .ok y => y.toList
  | .error _ => []

theorem answer_ok {y : Option β} (h : f x = .ok y) : answer f x = y.toList := by
  rw [answer, h]

theorem collect_eq (h : collect f l = .ok l') : l' = l.flatMap (answer f) := by
  induction l generalizing l' with
  | nil =>
    cases h
    rfl
  | cons x rest ih =>
    obtain ⟨y, hy, h⟩ := bind_eq_ok.1 h
    obtain ⟨others, hothers, h⟩ := bind_eq_ok.1 h
    cases h
    rw [List.flatMap_cons, answer_ok hy, ← ih hothers]

theorem exists_collect (h : ∀ x ∈ l, ∃ y, f x = .ok y) : ∃ l', collect f l = .ok l' := by
  induction l with
  | nil => exact ⟨[], rfl⟩
  | cons x rest ih =>
    rw [List.forall_mem_cons] at h
    obtain ⟨y, hy⟩ := h.1
    obtain ⟨others, hothers⟩ := ih h.2
    exact ⟨_, bind_eq_ok.2 ⟨y, hy, bind_eq_ok.2 ⟨others, hothers, rfl⟩⟩⟩

theorem exists_mapM {g : α → Except String β} (h : ∀ x ∈ l, ∃ y, g x = .ok y) :
    ∃ l', l.mapM g = .ok l' := by
  induction l with
  | nil => exact ⟨[], rfl⟩
  | cons x rest ih =>
    rw [List.forall_mem_cons] at h
    obtain ⟨y, hy⟩ := h.1
    obtain ⟨others, hothers⟩ := ih h.2
    exact ⟨y :: others, List.mapM_cons.trans (by rw [hy, hothers]; rfl)⟩

/-- **The sum of what is collected**, element by element. -/
theorem sum_collect (h : collect f l = .ok l') (value : β → ℚ) :
    (l'.map value).sum = (l.map fun x => ((answer f x).map value).sum).sum := by
  rw [collect_eq h]
  induction l generalizing l' with
  | nil => rfl
  | cons x rest ih =>
    obtain ⟨y, -, h⟩ := bind_eq_ok.1 h
    obtain ⟨others, hothers, -⟩ := bind_eq_ok.1 h
    rw [List.flatMap_cons, List.map_append, List.sum_append, ih hothers, List.map_cons,
      List.sum_cons]

end Collect

/-! ## Loops with a state -/

section Loops

variable {σ α β : Type} {step : σ → α → Except String (β × σ)} {p : σ → α → Prop}

variable (step p) in
/-- Each element meets the condition, in the state that the loop has come to. -/
def Along : σ → List α → Prop
  | _, [] => True
  | st, x :: rest => p st x ∧ ∀ y st', step st x = .ok (y, st') → Along st' rest

theorem Along.of_forall (h : ∀ st x, p st x) (st : σ) (l : List α) : Along step p st l := by
  induction l generalizing st with
  | nil => trivial
  | cons x rest ih => exact ⟨h st x, fun _ st' _ => ih st'⟩

theorem Along.and_forall {q : α → Prop} {st : σ} {l : List α} (h : Along step p st l)
    (hq : ∀ x ∈ l, q x) : Along step (fun st x => q x ∧ p st x) st l := by
  induction l generalizing st with
  | nil => trivial
  | cons x rest ih =>
    rw [List.forall_mem_cons] at hq
    exact ⟨⟨hq.1, h.1⟩, fun y st' hy => ih (h.2 y st' hy) hq.2⟩

theorem Along.take {st : σ} {l : List α} (h : Along step p st l) (k : ℕ) :
    Along step p st (l.take k) := by
  induction l generalizing st k with
  | nil => simpa using h
  | cons x rest ih =>
    cases k with
    | zero => trivial
    | succ k => exact ⟨h.1, fun y st' hy => ih (h.2 y st' hy) k⟩

theorem mapState_take {st : σ} {l : List α} {l' : List β} (h : mapState step st l = .ok l')
    (k : ℕ) : mapState step st (l.take k) = .ok (l'.take k) := by
  induction l generalizing st l' k with
  | nil =>
    cases h
    simp [mapState]
  | cons x rest ih =>
    obtain ⟨⟨y, st'⟩, hy, h⟩ := bind_eq_ok.1 h
    obtain ⟨ys, hys, h⟩ := bind_eq_ok.1 h
    cases h
    cases k with
    | zero => rfl
    | succ k =>
      rw [List.take_succ_cons, List.take_succ_cons, mapState, hy]
      show (mapState step st' (rest.take k) >>= fun ys => .ok (y :: ys)) = _
      rw [ih hys k]
      rfl

/-- **What one step keeps** of the answers so far and of the state, the loop keeps. -/
theorem mapState_run {I : List β → σ → Prop}
    (hstep : ∀ outs st x y st', I outs st → p st x → step st x = .ok (y, st') → I (outs ++ [y]) st')
    {outs : List β} {st : σ} (hI : I outs st) {l : List α} (hl : Along step p st l) {l' : List β}
    (h : mapState step st l = .ok l') : ∃ st', I (outs ++ l') st' := by
  induction l generalizing st l' outs with
  | nil =>
    cases h
    exact ⟨st, by simpa using hI⟩
  | cons x rest ih =>
    obtain ⟨⟨y, st'⟩, hy, h⟩ := bind_eq_ok.1 h
    obtain ⟨ys, hys, h⟩ := bind_eq_ok.1 h
    cases h
    have hnext := ih (hstep outs st x y st' hI hl.1 hy) (hl.2 y st' hy) hys
    rwa [List.append_assoc] at hnext

end Loops

/-! ## Accounts -/

namespace Dict

variable {d d' : Dict ℚ} {key k : String} {v v' : ℚ}

/-- What an account holds under a key. -/
def value (d : Dict ℚ) (key : String) : ℚ := (get? d key).getD 0

/-- What an account comes to. -/
def total (d : Dict ℚ) : ℚ := (d.map Prod.snd).sum

/-- How far two accounts of the same keys are apart. -/
def gap (d d' : Dict ℚ) : ℚ := (List.zipWith (fun e e' => |e.2 - e'.2|) d d').sum

@[simp] theorem value_nil : value [] key = 0 := rfl

theorem value_cons (e : String × ℚ) :
    value (e :: d) key = if e.1 = key then e.2 else value d key := by
  rw [value, get?_cons]
  split <;> rfl

@[simp] theorem value_set_self : value (set key v d) key = v := by simp [value]

theorem value_set_of_ne (h : k ≠ key) : value (set key v d) k = value d k := by
  rw [value, get?_set_of_ne _ h, value]

theorem total_cons (e : String × ℚ) : total (e :: d) = e.2 + total d := by simp [total]

theorem gap_cons (e e' : String × ℚ) : gap (e :: d) (e' :: d') = |e.2 - e'.2| + gap d d' := by
  simp [gap]

theorem total_set : total (set key v d) = total d - value d key + v := by
  induction d with
  | nil => simp [set, total]
  | cons e rest ih =>
    by_cases h : e.1 = key
    · rw [set, if_pos h, total_cons, total_cons, value_cons, if_pos h]
      ring
    · rw [set, if_neg h, total_cons, total_cons, value_cons, if_neg h, ih]
      ring

theorem keys_set_congr (h : d.map Prod.fst = d'.map Prod.fst) :
    (set key v d).map Prod.fst = (set key v' d').map Prod.fst := by
  induction d generalizing d' with
  | nil =>
    cases d' with
    | nil => rfl
    | cons e' rest' => cases h
  | cons e rest ih =>
    cases d' with
    | nil => cases h
    | cons e' rest' =>
      obtain ⟨hkey, hrest⟩ := List.cons.inj h
      by_cases hk : e.1 = key
      · rw [set, if_pos hk, set, if_pos (hkey ▸ hk), List.map_cons, List.map_cons, hrest]
      · rw [set, if_neg hk, set, if_neg (hkey ▸ hk), List.map_cons, List.map_cons, hkey, ih hrest]

theorem gap_set (h : d.map Prod.fst = d'.map Prod.fst) : gap (set key v d) (set key v' d') =
    gap d d' - |value d key - value d' key| + |v - v'| := by
  induction d generalizing d' with
  | nil =>
    cases d' with
    | nil => simp [set, gap]
    | cons e' rest' => cases h
  | cons e rest ih =>
    cases d' with
    | nil => cases h
    | cons e' rest' =>
      obtain ⟨hkey, hrest⟩ := List.cons.inj h
      by_cases hk : e.1 = key
      · have hk' : e'.1 = key := hkey ▸ hk
        rw [set, if_pos hk, set, if_pos hk', gap_cons, gap_cons, value_cons, if_pos hk, value_cons,
          if_pos hk']
        ring
      · have hk' : ¬ e'.1 = key := hkey ▸ hk
        rw [set, if_neg hk, set, if_neg hk', gap_cons, gap_cons, value_cons, if_neg hk, value_cons,
          if_neg hk', ih hrest]
        ring

theorem gap_self : gap d d = 0 := by
  induction d with
  | nil => rfl
  | cons e rest ih => simp [gap_cons, ih]

theorem gap_nonneg : 0 ≤ gap d d' := by
  refine List.sum_nonneg fun x hx => ?_
  obtain ⟨i, hi, rfl⟩ := List.mem_iff_getElem.1 hx
  simp

theorem abs_value_sub_le (h : d.map Prod.fst = d'.map Prod.fst) :
    |value d key - value d' key| ≤ gap d d' := by
  have hset : 0 ≤ gap (set key 0 d) (set key 0 d') := gap_nonneg
  rw [gap_set h] at hset
  simp only [sub_self, abs_zero] at hset
  linarith

theorem total_le_add_gap (h : d.map Prod.fst = d'.map Prod.fst) :
    total d ≤ total d' + gap d d' := by
  induction d generalizing d' with
  | nil =>
    cases d' with
    | nil => simp [total, gap]
    | cons e' rest' => cases h
  | cons e rest ih =>
    cases d' with
    | nil => cases h
    | cons e' rest' =>
      have hrest := ih (List.cons.inj h).2
      have habs := le_abs_self (e.2 - e'.2)
      rw [total_cons, total_cons, gap_cons]
      linarith

theorem countP_le_of_gap (h : d.map Prod.fst = d'.map Prod.fst) {slack : ℚ}
    (hgap : gap d d' ≤ slack) : (d.countP fun e => slack < e.2) ≤ d'.countP fun e => 0 < e.2 := by
  induction d generalizing d' with
  | nil => simp
  | cons e rest ih =>
    cases d' with
    | nil => cases h
    | cons e' rest' =>
      rw [gap_cons] at hgap
      have hnonneg : 0 ≤ gap rest rest' := gap_nonneg
      have habs := abs_nonneg (e.2 - e'.2)
      have hle := le_abs_self (e.2 - e'.2)
      have hrest := ih (List.cons.inj h).2 (by linarith)
      rw [List.countP_cons, List.countP_cons]
      by_cases hheld : slack < e.2
      · have hheld' : 0 < e'.2 := by linarith
        simpa [hheld, hheld'] using hrest
      · have hskip : decide (slack < e.2) = false := decide_eq_false hheld
        rw [hskip]
        simp only [Bool.false_eq_true, if_false]
        omega

theorem countP_set_le (h : 0 < v → 0 < value d key) :
    ((set key v d).countP fun e => 0 < e.2) ≤ d.countP fun e => 0 < e.2 := by
  induction d with
  | nil =>
    have hv : ¬ 0 < v := fun hv => absurd (h hv) (lt_irrefl _)
    simp [set, hv]
  | cons e rest ih =>
    rw [value_cons] at h
    by_cases hk : e.1 = key
    · rw [if_pos hk] at h
      rw [set, if_pos hk, List.countP_cons, List.countP_cons]
      by_cases hv : 0 < v
      · simp [hv, h hv]
      · simp [hv]
    · rw [if_neg hk] at h
      rw [set, if_neg hk, List.countP_cons, List.countP_cons]
      exact Nat.add_le_add_right (ih h) _

theorem countP_set_le_succ :
    ((set key v d).countP fun e => 0 < e.2) ≤ (d.countP fun e => 0 < e.2) + 1 := by
  induction d with
  | nil =>
    rw [set]
    exact List.countP_le_length
  | cons e rest ih =>
    by_cases hk : e.1 = key
    · rw [set, if_pos hk, List.countP_cons, List.countP_cons]
      split <;> split <;> omega
    · rw [set, if_neg hk, List.countP_cons, List.countP_cons]
      omega

theorem nonneg_set (h : ∀ e ∈ d, 0 ≤ e.2) (hv : 0 ≤ v) : ∀ e ∈ set key v d, 0 ≤ e.2 := by
  induction d with
  | nil =>
    intro e he
    rw [set, List.mem_singleton] at he
    rw [he]
    exact hv
  | cons e rest ih =>
    rw [List.forall_mem_cons] at h
    by_cases hk : e.1 = key
    · rw [set, if_pos hk, List.forall_mem_cons]
      exact ⟨hv, h.2⟩
    · rw [set, if_neg hk, List.forall_mem_cons]
      exact ⟨h.1, ih h.2⟩

theorem value_nonneg (h : ∀ e ∈ d, 0 ≤ e.2) : 0 ≤ value d key := by
  induction d with
  | nil => exact le_refl _
  | cons e rest ih =>
    rw [List.forall_mem_cons] at h
    rw [value_cons]
    split
    · exact h.1
    · exact ih h.2

theorem value_le_total (h : ∀ e ∈ d, 0 ≤ e.2) : value d key ≤ total d := by
  have hset : 0 ≤ total (set key 0 d) := by
    refine List.sum_nonneg fun x hx => ?_
    obtain ⟨e, he, rfl⟩ := List.mem_map.1 hx
    exact nonneg_set h (le_refl _) e he
  rw [total_set] at hset
  linarith

end Dict

/-! ## Rounding -/

theorem abs_roundHalfEven_sub_le (x : ℚ) : |(NeoTrader.roundHalfEven x : ℚ) - x| ≤ 1 / 2 := by
  have hlo : (⌊x⌋ : ℚ) ≤ x := Int.floor_le x
  have hhi : x < (⌊x⌋ : ℚ) + 1 := Int.lt_floor_add_one x
  dsimp only [NeoTrader.roundHalfEven]
  rw [abs_le]
  split_ifs
  all_goals
    push_cast
    constructor <;> linarith

/-- **Rounding** moves a number by half a unit at most. -/
theorem abs_roundTo_sub_le (n : ℕ) (x : ℚ) : |roundTo n x - x| ≤ 1 / (2 * 10 ^ n) := by
  have hunit : (0 : ℚ) < 10 ^ n := by positivity
  have hround := abs_roundHalfEven_sub_le (10 ^ n * x)
  have hscale : roundTo n x - x =
      ((NeoTrader.roundHalfEven (10 ^ n * x) : ℚ) - 10 ^ n * x) / 10 ^ n := by
    rw [roundTo]
    field_simp
  rw [hscale, abs_div, abs_of_pos hunit, div_le_iff₀ hunit]
  refine hround.trans (le_of_eq ?_)
  field_simp

end Py
