import Mathlib.Algebra.Order.BigOperators.Group.List
import NeoTrader.Common.Ladder
import NeoTrader.Disciplines.PositionSizing

/-!
# The plan of a pyramid and its adds

The plan of an entry and the adds to an open position are two computations of one schedule. The plan
takes no more than what remains of the total size and keeps to the stop of the entry; an add takes
its whole part, and its trigger is at the stop that the position has by then.

* `Terms.calculateTranches`, `Terms.evaluateAdd`: both computations before they are rounded;
  `sizePyramid_eq` and `addTo_eq` are what the hook makes of them;
* **`emitted_follows_iff`**: the adds follow the plan exactly on terms that fit.
-/

namespace NeoTrader.Pyramid

open Js Py Ladder

/-! ## The two schedules -/

/-- The entry of a position and what is configured for its pyramid. -/
structure Terms where
  entryPrice : ℚ
  stopLoss : ℚ
  totalSizePct : ℚ
  entryPct : ℚ
  addPct : ℚ
  maxTranches : ℤ
  addTriggerR : ℚ
  trailStopAfterAdd : Bool
  entry_ne : entryPrice ≠ 0
  stop_ne : stopLoss ≠ 0
  entryPct_pos : 0 < entryPct
  entryPct_le : entryPct ≤ 100
  addPct_pos : 0 < addPct
  addPct_le : addPct ≤ 100

structure Tranche where
  number : ℕ
  sizePct : ℚ
  triggerPrice : ℚ
  deriving DecidableEq

namespace Terms

variable (t : Terms)

/-- The initial entry. -/
def first : Tranche := ⟨1, t.totalSizePct * (t.entryPct / 100), t.entryPrice⟩

/-- The tranches after the first, from the tranche `i` on. -/
def plannedAdds : ℕ → ℕ → ℚ → List Tranche
  | 0, _, _ => []
  | n + 1, i, allocatedPct =>
    let remaining := 100 - allocatedPct
    if remaining ≤ 0 then []
    else
      let thisAdd := min t.addPct remaining
      ⟨i, t.totalSizePct * (thisAdd / 100),
        t.entryPrice + stopDistance t.entryPrice t.stopLoss * t.addTriggerR * (i - 1)⟩ ::
      plannedAdds n (i + 1) (allocatedPct + thisAdd)

/-- The number of tranches after the first, at most. -/
def adds : ℕ := (t.maxTranches - 1).toNat

/-- **`calculate_tranches`**. -/
def calculateTranches : List Tranche := t.first :: t.plannedAdds t.adds 2 t.entryPct

/-- A position: how many tranches are executed, and its stop by then. -/
structure Position where
  executed : ℕ
  stopLoss : ℚ

/-- The next tranche of a position, whether its trigger is reached or not. -/
def next (pos : Position) : Tranche :=
  ⟨pos.executed + 1, t.totalSizePct * (t.addPct / 100),
    t.entryPrice + stopDistance t.entryPrice pos.stopLoss * t.addTriggerR * pos.executed⟩

/-- The stop after a tranche is added. -/
def newStop (stopLoss : ℚ) : ℚ :=
  if t.trailStopAfterAdd then max stopLoss (t.entryPrice - stopDistance t.entryPrice stopLoss / 2)
  else stopLoss

/-- The position after a tranche is added. -/
def added (pos : Position) : Position := ⟨pos.executed + 1, t.newStop pos.stopLoss⟩

/-- A price that the position has, and that reaches the trigger of a tranche. -/
def Reaches (price : ℚ) (tranche : Tranche) : Prop := price ≠ 0 ∧ tranche.triggerPrice ≤ price

instance (price : ℚ) (tranche : Tranche) : Decidable (Reaches price tranche) :=
  inferInstanceAs (Decidable (_ ∧ _))

/-- **`evaluate_add`**, where the plan is not complete: the tranche that is added at a price. -/
def evaluateAdd (pos : Position) (price : ℚ) : Option Tranche :=
  if t.maxTranches ≤ pos.executed then none
  else if Reaches price (t.next pos) then some (t.next pos)
  else none

/-- What is added to a position along a path of prices. -/
def life (pos : Position) : List ℚ → List Tranche
  | [] => []
  | price :: prices =>
    match t.evaluateAdd pos price with
    | none => life pos prices
    | some tranche => tranche :: life (t.added pos) prices

/-- **The tranches that are emitted over the life of a position**, the entry first. -/
def emitted (prices : List ℚ) : List Tranche := t.first :: t.life ⟨1, t.stopLoss⟩ prices

/-- The tranches of the plan that are due along a path of prices, in order. -/
def planned (prices : List ℚ) : List Tranche :=
  t.first :: climb Reaches t.calculateTranches.tail prices

end Terms

/-- The sizes of the tranches together. -/
def totalOf (tranches : List Tranche) : ℚ := (tranches.map Tranche.sizePct).sum

/-! ## What the hook makes of them -/

/-- A tranche of a plan as it is kept with the entry. -/
def Tranche.json (tranche : Tranche) : Json :=
  .obj [("number", .num (.fin tranche.number)),
    ("size_pct", .num (.fin (roundTo 2 tranche.sizePct))),
    ("trigger_price", .num (.fin (roundTo 4 tranche.triggerPrice)))]

structure Terms.Configured (t : Terms) (config : Obj) : Prop where
  entryPct : numberField config "entry_pct" 40 = .ok t.entryPct
  addPct : numberField config "add_pct" 30 = .ok t.addPct
  maxTranches : getD config "max_tranches" (.num 3) = .num (.fin t.maxTranches)
  addTriggerR : numberField config "add_trigger_r" 1 = .ok t.addTriggerR
  trailStop : flagField config "trail_stop_after_add" true = t.trailStopAfterAdd

structure Terms.Entered (t : Terms) (sig : Obj) : Prop where
  entryPrice : firstPrice sig "entry_price" "price" = .num (.fin t.entryPrice)
  stopLoss : getD sig "stop_loss" (.num 0) = .num (.fin t.stopLoss)
  totalSizePct : numberField sig "size_pct" 10 = .ok t.totalSizePct

section Hook

variable {t : Terms} {config sig position : Obj} {pos : Terms.Position} {price : ℚ}

theorem truthy_fin {q : ℚ} : truthy (.num (.fin q)) = decide (q ≠ 0) := by
  show decide (Number.fin q ≠ Number.fin (0 : ℕ)) = decide (q ≠ 0)
  simp

theorem laterTranches_eq (t : Terms) (n i : ℕ) (allocated : ℚ) :
    laterTranches t.entryPrice (stopDistance t.entryPrice t.stopLoss) t.totalSizePct t.addPct
      t.addTriggerR n i allocated = (t.plannedAdds n i allocated).map Tranche.json := by
  induction n generalizing i allocated with
  | zero => rfl
  | succ n ih =>
    rw [laterTranches, Terms.plannedAdds]
    dsimp only
    split_ifs with hleft
    · rfl
    · rw [List.map_cons, ih]
      rfl

/-- **An entry is emitted with its first tranche and the rest of its plan.** -/
theorem sizePyramid_eq (hconfig : t.Configured config) (hentered : t.Entered sig) :
    sizePyramid config sig = .ok (some (sig ++
      [("size_pct", .num (.fin (roundTo 2 t.first.sizePct))),
        ("pyramid_plan", .obj [("total_tranches", .num (.fin t.calculateTranches.length)),
          ("executed_tranches", .num 1),
          ("remaining_tranches", .arr (t.calculateTranches.tail.map Tranche.json))])])) := by
  have hmax : wholeNumber (getD config "max_tranches" (.num 3)) = .ok t.maxTranches := by
    rw [hconfig.maxTranches]
    rfl
  unfold sizePyramid
  dsimp only
  rw [hentered.entryPrice, hentered.stopLoss, truthy_fin, truthy_fin,
    if_neg (by simp [t.entry_ne])]
  refine bind_eq_ok.2 ⟨t.entryPrice, rfl, ?_⟩
  rw [if_neg (by simp [t.stop_ne])]
  refine bind_eq_ok.2 ⟨t.stopLoss, rfl, ?_⟩
  refine bind_eq_ok.2 ⟨_, hentered.totalSizePct, ?_⟩
  refine bind_eq_ok.2 ⟨_, hconfig.entryPct, ?_⟩
  refine bind_eq_ok.2 ⟨_, hmax, ?_⟩
  refine bind_eq_ok.2 ⟨_, hconfig.addPct, ?_⟩
  refine bind_eq_ok.2 ⟨_, hconfig.addTriggerR, ?_⟩
  rw [← Terms.adds, laterTranches_eq, Terms.calculateTranches, List.length_map]
  simp [Terms.first]
  rfl

end Hook

/-! ## The two schedules compared -/

section Schedules

variable {t : Terms} {n k : ℕ} {stop allocated price : ℚ}

namespace Terms

/-- All the adds to a position, each with the stop of its time. -/
def liveAdds (t : Terms) : ℕ → Position → List Tranche
  | 0, _ => []
  | n + 1, pos => t.next pos :: liveAdds t n (t.added pos)

theorem life_eq_climb (t : Terms) (pos : Position) (prices : List ℚ) :
    t.life pos prices =
      climb Reaches (t.liveAdds (t.maxTranches - pos.executed).toNat pos) prices := by
  induction prices generalizing pos with
  | nil => simp [life]
  | cons price prices ih =>
    rw [life, evaluateAdd]
    by_cases hdone : t.maxTranches ≤ pos.executed
    · rw [if_pos hdone, Int.toNat_of_nonpos (by omega), liveAdds, nil_climb]
      simp [ih pos, Int.toNat_of_nonpos (show t.maxTranches - pos.executed ≤ 0 by omega), liveAdds]
    · obtain ⟨m, hm⟩ : ∃ m : ℕ, (t.maxTranches - pos.executed).toNat = m + 1 :=
        ⟨(t.maxTranches - pos.executed).toNat - 1, by omega⟩
      have hm' : (t.maxTranches - (t.added pos).executed).toNat = m := by
        simp only [added]
        omega
      rw [if_neg hdone, hm, liveAdds]
      by_cases hreach : Reaches price (t.next pos)
      · rw [if_pos hreach, climb_cons_of_pos hreach]
        simp [ih, hm']
      · rw [if_neg hreach, climb_cons_of_neg hreach]
        simp [ih, hm, liveAdds]

theorem exists_reaches (l : List Tranche) : ∃ price, ∀ tranche ∈ l, Reaches price tranche := by
  induction l with
  | nil => exact ⟨0, fun _ h => by cases h⟩
  | cons a l ih =>
    obtain ⟨price, hprice⟩ := ih
    refine ⟨max 1 (max a.triggerPrice price), fun b hb => ⟨?_, ?_⟩⟩
    · exact (lt_of_lt_of_le one_pos (le_max_left 1 _)).ne'
    · rcases List.mem_cons.1 hb with rfl | hb
      · exact (le_max_left _ _).trans (le_max_right 1 _)
      · exact (hprice b hb).2.trans ((le_max_right _ _).trans (le_max_right 1 _))

theorem emitted_eq_planned_iff (t : Terms) :
    (∀ prices, t.emitted prices = t.planned prices) ↔
      t.plannedAdds t.adds 2 t.entryPct = t.liveAdds t.adds ⟨1, t.stopLoss⟩ := by
  have hlive : ∀ prices, t.emitted prices =
      t.first :: climb Reaches (t.liveAdds t.adds ⟨1, t.stopLoss⟩) prices := fun prices => by
    rw [emitted, life_eq_climb]
    rfl
  refine ⟨fun h => climb_injective exists_reaches fun prices => ?_, fun h prices => ?_⟩
  · have hprices := h prices
    rw [hlive, planned] at hprices
    exact (List.cons.inj hprices).2.symm
  · rw [hlive, planned, calculateTranches, List.tail_cons, h]

/-! ### Their sizes and their triggers -/

/-- The parts of `n` more tranches after what is allocated leave no remainder to be cut. -/
def SizesFit (t : Terms) (n : ℕ) (allocated : ℚ) : Prop :=
  n = 0 ∨ (allocated + (n - 1) * t.addPct < 100 ∧
    (t.totalSizePct = 0 ∨ allocated + n * t.addPct ≤ 100))

/-- The triggers of `n` more tranches are those at the stop of the entry. -/
def TriggersFit (t : Terms) (n k : ℕ) (stop : ℚ) : Prop :=
  ∀ j < n, stopDistance t.entryPrice t.stopLoss * t.addTriggerR * (k + j) =
    stopDistance t.entryPrice (t.newStop^[j] stop) * t.addTriggerR * (k + j)

theorem triggersFit_succ : t.TriggersFit (n + 1) k stop ↔
    stopDistance t.entryPrice t.stopLoss * t.addTriggerR * k =
      stopDistance t.entryPrice stop * t.addTriggerR * k ∧
      t.TriggersFit n (k + 1) (t.newStop stop) := by
  constructor
  · refine fun h => ⟨by simpa using h 0 n.succ_pos, fun j hj => ?_⟩
    have hnext := h (j + 1) (Nat.succ_lt_succ hj)
    rw [Function.iterate_succ_apply] at hnext
    push_cast at hnext ⊢
    rw [show (k : ℚ) + 1 + j = k + (j + 1) by ring]
    exact hnext
  · rintro ⟨hfirst, hrest⟩ j hj
    cases j with
    | zero => simpa using hfirst
    | succ j =>
      have hnext := hrest j (Nat.lt_of_succ_lt_succ hj)
      rw [Function.iterate_succ_apply]
      push_cast at hnext ⊢
      rw [show (k : ℚ) + (j + 1) = k + 1 + j by ring]
      exact hnext

theorem sizesFit_of_full (hfull : 100 ≤ allocated) : t.SizesFit n allocated ↔ n = 0 := by
  refine or_iff_left_of_imp fun h => ?_
  by_contra hn
  have hone : (1 : ℚ) ≤ n := by exact_mod_cast Nat.one_le_iff_ne_zero.2 hn
  have hadd : 0 ≤ (n - 1) * t.addPct := mul_nonneg (by linarith) t.addPct_pos.le
  linarith [h.1]

theorem sizesFit_succ_of_le (hcut : t.addPct ≤ 100 - allocated) :
    t.SizesFit (n + 1) allocated ↔ t.SizesFit n (allocated + t.addPct) := by
  have hadd := t.addPct_pos
  cases n with
  | zero =>
    refine iff_of_true (Or.inr ?_) (Or.inl rfl)
    norm_num
    exact ⟨by linarith, Or.inr (by linarith)⟩
  | succ n =>
    simp only [SizesFit, Nat.add_one_ne_zero, false_or]
    push_cast
    rw [show allocated + t.addPct + ((n : ℚ) + 1 - 1) * t.addPct =
      allocated + ((n : ℚ) + 1 + 1 - 1) * t.addPct by ring,
      show allocated + t.addPct + ((n : ℚ) + 1) * t.addPct =
      allocated + ((n : ℚ) + 1 + 1) * t.addPct by ring]

theorem sizesFit_succ_of_lt (hcut : 100 - allocated < t.addPct) (hleft : allocated < 100) :
    t.SizesFit (n + 1) allocated ↔ t.totalSizePct = 0 ∧ n = 0 := by
  have hadd := t.addPct_pos
  simp only [SizesFit, Nat.add_one_ne_zero, false_or]
  push_cast
  rw [add_sub_cancel_right]
  constructor
  · rintro ⟨hlast, hwhole⟩
    have hn : n = 0 := by
      by_contra hn
      have hone : (1 : ℚ) ≤ n := by exact_mod_cast Nat.one_le_iff_ne_zero.2 hn
      have hmore : t.addPct ≤ n * t.addPct := le_mul_of_one_le_left hadd.le hone
      linarith
    refine ⟨hwhole.resolve_right fun h => ?_, hn⟩
    rw [hn, Nat.cast_zero, zero_add, one_mul] at h
    linarith
  · rintro ⟨htotal, rfl⟩
    exact ⟨by simpa using hleft, Or.inl htotal⟩

theorem cut_size_iff (hcut : 100 - allocated < t.addPct) :
    t.totalSizePct * ((100 - allocated) / 100) = t.totalSizePct * (t.addPct / 100) ↔
      t.totalSizePct = 0 := by
  constructor
  · intro h
    have hzero : t.totalSizePct * (t.addPct - (100 - allocated)) = 0 := by linarith
    exact (mul_eq_zero.1 hzero).resolve_right (by linarith)
  · intro h
    rw [h, zero_mul, zero_mul]

theorem sizesFit_succ (hleft : allocated < 100) : t.SizesFit (n + 1) allocated ↔
    t.totalSizePct * (min t.addPct (100 - allocated) / 100) = t.totalSizePct * (t.addPct / 100) ∧
      t.SizesFit n (allocated + min t.addPct (100 - allocated)) := by
  by_cases hcut : t.addPct ≤ 100 - allocated
  · rw [min_eq_left hcut, sizesFit_succ_of_le hcut]
    simp
  · have hmore : 100 - allocated < t.addPct := not_le.1 hcut
    rw [min_eq_right hmore.le, sizesFit_succ_of_lt hmore hleft, cut_size_iff hmore,
      sizesFit_of_full (by linarith)]

/-- **The two schedules are the same** where their sizes and their triggers are. -/
theorem plannedAdds_eq_liveAdds (t : Terms) (n k : ℕ) (allocated stop : ℚ) :
    t.plannedAdds n (k + 1) allocated = t.liveAdds n ⟨k, stop⟩ ↔
      t.SizesFit n allocated ∧ t.TriggersFit n k stop := by
  induction n generalizing k allocated stop with
  | zero => simp [plannedAdds, liveAdds, SizesFit, TriggersFit]
  | succ n ih =>
    rw [plannedAdds, liveAdds]
    dsimp only
    by_cases hleft : 100 - allocated ≤ 0
    · rw [if_pos hleft]
      refine iff_of_false nofun fun h => ?_
      exact n.succ_ne_zero ((sizesFit_of_full (by linarith)).1 h.1)
    · rw [if_neg hleft, List.cons_eq_cons, added, next, Tranche.mk.injEq, ih,
        sizesFit_succ (by linarith), triggersFit_succ]
      dsimp only
      rw [show ((k + 1 : ℕ) : ℚ) - 1 = k by push_cast; ring]
      simp only [true_and, add_right_inj]
      exact and_and_and_comm

/-! ### The stop of a position -/

/-- The stop is above the entry, or at a positive one: it is never trailed. -/
def StopAbove (t : Terms) : Prop :=
  t.entryPrice < t.stopLoss ∨ t.entryPrice = t.stopLoss ∧ 0 < t.entryPrice

theorem newStop_of_stopAbove (h : t.StopAbove) : t.newStop t.stopLoss = t.stopLoss := by
  rw [newStop, ite_eq_right_iff]
  refine fun _ => max_eq_left ?_
  rcases h with h | ⟨h, hpos⟩
  · have hdistance : 0 ≤ stopDistance t.entryPrice t.stopLoss := by
      rw [stopDistance, if_neg (abs_ne_zero.2 (sub_ne_zero.2 h.ne))]
      exact abs_nonneg _
    linarith
  · rw [stopDistance, h, sub_self, abs_zero, if_pos rfl]
    linarith

theorem stopDistance_newStop_ne (htrail : t.trailStopAfterAdd = true) (h : ¬ t.StopAbove) :
    stopDistance t.entryPrice (t.newStop t.stopLoss) ≠
      stopDistance t.entryPrice t.stopLoss := by
  have hentry := t.entry_ne
  rw [newStop, if_pos htrail]
  obtain ⟨hle, hpos⟩ := not_or.1 h
  rcases (not_lt.1 hle).eq_or_lt with heq | hlt
  · have hneg : t.entryPrice < 0 :=
      lt_of_le_of_ne (not_lt.1 fun hlt => hpos ⟨heq.symm, hlt⟩) hentry
    have hat : stopDistance t.entryPrice t.stopLoss = t.entryPrice / 100 := by
      rw [stopDistance, heq, sub_self, abs_zero, if_pos rfl]
    rw [hat, heq, max_eq_right (by linarith), stopDistance, if_neg]
    · exact (lt_of_lt_of_le (by linarith) (abs_nonneg _)).ne'
    · rw [abs_eq_zero]
      intro hzero
      linarith
  · have hbelow : stopDistance t.entryPrice t.stopLoss = t.entryPrice - t.stopLoss := by
      rw [stopDistance, abs_of_pos (sub_pos.2 hlt), if_neg (sub_pos.2 hlt).ne']
    have hhalf : 0 < t.entryPrice - (t.entryPrice - (t.entryPrice - t.stopLoss) / 2) := by linarith
    rw [hbelow, max_eq_right (by linarith), stopDistance, abs_of_pos hhalf, if_neg hhalf.ne']
    intro h
    linarith

/-- **The triggers keep to the stop of the entry** where nothing is added after the stop is
trailed, the triggers do not depend on it, or it is not trailed. -/
theorem triggersFit_iff : t.TriggersFit n 1 t.stopLoss ↔
    n ≤ 1 ∨ t.trailStopAfterAdd = false ∨ t.addTriggerR = 0 ∨ t.StopAbove := by
  constructor
  · intro h
    by_contra hnot
    simp only [not_or, not_le, Bool.not_eq_false] at hnot
    obtain ⟨hn, htrail, hr, habove⟩ := hnot
    have hsecond := h 1 hn
    rw [Function.iterate_one] at hsecond
    have hpos : ((1 : ℕ) : ℚ) + (1 : ℕ) ≠ 0 := by norm_num
    exact stopDistance_newStop_ne htrail habove
      (mul_right_cancel₀ hr (mul_right_cancel₀ hpos hsecond)).symm
  · rintro (hn | htrail | hr | habove) j hj
    · obtain rfl : j = 0 := by omega
      rfl
    · have hid : t.newStop t.stopLoss = t.stopLoss := by simp [newStop, htrail]
      rw [Function.iterate_fixed hid]
    · rw [hr, mul_zero, mul_zero]
    · rw [Function.iterate_fixed (newStop_of_stopAbove habove)]

/-! ### The sum of the sizes -/

theorem plannedAdds_nonneg (htotal : 0 ≤ t.totalSizePct) (n i : ℕ) (allocated : ℚ) :
    ∀ tranche ∈ t.plannedAdds n i allocated, 0 ≤ tranche.sizePct := by
  induction n generalizing i allocated with
  | zero => exact fun _ h => by cases h
  | succ n ih =>
    rw [plannedAdds]
    dsimp only
    split_ifs with hleft
    · exact fun _ h => by cases h
    · intro tranche htranche
      rcases List.mem_cons.1 htranche with rfl | htranche
      · have hadd : 0 < min t.addPct (100 - allocated) := lt_min t.addPct_pos (not_le.1 hleft)
        positivity
      · exact ih _ _ tranche htranche

theorem totalOf_plannedAdds_le (htotal : 0 ≤ t.totalSizePct) (hallocated : allocated ≤ 100)
    (i : ℕ) :
    totalOf (t.plannedAdds n i allocated) ≤ t.totalSizePct * ((100 - allocated) / 100) := by
  have hrest : 0 ≤ t.totalSizePct * ((100 - allocated) / 100) :=
    mul_nonneg htotal (by linarith)
  induction n generalizing i allocated with
  | zero => exact hrest
  | succ n ih =>
    rw [plannedAdds]
    dsimp only
    split_ifs with hleft
    · exact hrest
    · have hmin : min t.addPct (100 - allocated) ≤ 100 - allocated := min_le_right _ _
      have hnext := ih (show allocated + min t.addPct (100 - allocated) ≤ 100 by linarith)
        (i + 1) (mul_nonneg htotal (by linarith))
      rw [totalOf, List.map_cons, List.sum_cons, ← totalOf]
      linarith

/-- **What the plan has come due with is never more than the total size.** -/
theorem totalOf_planned_le (htotal : 0 ≤ t.totalSizePct) (prices : List ℚ) :
    totalOf (t.planned prices) ≤ t.totalSizePct := by
  obtain ⟨rest, hrest⟩ := exists_append_climb Reaches t.calculateTranches.tail prices
  have hall : totalOf t.calculateTranches.tail ≤
      t.totalSizePct * ((100 - t.entryPct) / 100) :=
    totalOf_plannedAdds_le htotal t.entryPct_le 2
  have hlater : 0 ≤ totalOf rest := by
    refine List.sum_nonneg fun size hsize => ?_
    obtain ⟨tranche, htranche, rfl⟩ := List.mem_map.1 hsize
    refine plannedAdds_nonneg htotal t.adds 2 t.entryPct tranche ?_
    have hmem : tranche ∈ t.calculateTranches.tail := by
      rw [hrest]
      exact List.mem_append_right _ htranche
    exact hmem
  have hsum : totalOf t.calculateTranches.tail =
      totalOf (climb Reaches t.calculateTranches.tail prices) + totalOf rest := by
    conv_lhs => rw [hrest, totalOf, List.map_append, List.sum_append]
    rfl
  rw [planned, totalOf, List.map_cons, List.sum_cons, ← totalOf, first]
  linarith

end Terms

end Schedules

/-! ## Terms that fit -/

/-- Terms whose adds follow their plan. -/
structure Terms.Fits (t : Terms) : Prop where
  total : 0 ≤ t.totalSizePct ∨ t.entryPct = 100
  sizes : t.maxTranches ≤ 1 ∨ t.entryPct + (t.maxTranches - 2) * t.addPct < 100 ∧
    (t.totalSizePct = 0 ∨ t.entryPct + (t.maxTranches - 1) * t.addPct ≤ 100)
  triggers : t.maxTranches ≤ 2 ∨ t.trailStopAfterAdd = false ∨ t.addTriggerR = 0 ∨ t.StopAbove

theorem Terms.sizesFit_adds (t : Terms) : t.SizesFit t.adds t.entryPct ↔
    t.maxTranches ≤ 1 ∨ t.entryPct + (t.maxTranches - 2) * t.addPct < 100 ∧
      (t.totalSizePct = 0 ∨ t.entryPct + (t.maxTranches - 1) * t.addPct ≤ 100) := by
  by_cases hone : t.maxTranches ≤ 1
  · exact iff_of_true (Or.inl (Int.toNat_of_nonpos (by omega))) (Or.inl hone)
  · have hadds : t.adds ≠ 0 := by
      rw [Terms.adds]
      omega
    have hcast : (t.adds : ℚ) = t.maxTranches - 1 := by
      rw [Terms.adds, ← Int.cast_natCast, Int.toNat_of_nonneg (by omega)]
      push_cast
      rfl
    rw [Terms.SizesFit, hcast, or_iff_right hadds, or_iff_right hone]
    rw [show (t.maxTranches : ℚ) - 1 - 1 = t.maxTranches - 2 by ring]

/-- **The adds follow the plan, and stay within the total size, exactly on terms that fit**: the
configured parts leave no remainder that the plan cuts, and the trailed stop moves no trigger. -/
theorem emitted_follows_iff (t : Terms) :
    (∀ prices, t.emitted prices = t.planned prices ∧
      totalOf (t.emitted prices) ≤ t.totalSizePct) ↔ t.Fits := by
  have hschedules := t.emitted_eq_planned_iff.trans
    (t.plannedAdds_eq_liveAdds t.adds 1 t.entryPct t.stopLoss)
  rw [t.sizesFit_adds, Terms.triggersFit_iff] at hschedules
  have hadds : t.adds ≤ 1 ↔ t.maxTranches ≤ 2 := by
    rw [Terms.adds]
    omega
  rw [hadds] at hschedules
  constructor
  · intro h
    obtain ⟨hsizes, htriggers⟩ := hschedules.1 fun prices => (h prices).1
    refine ⟨?_, hsizes, htriggers⟩
    have hentry := (h []).2
    rw [Terms.emitted, Terms.life, totalOf, List.map_singleton, List.sum_singleton,
      Terms.first] at hentry
    by_contra hnot
    obtain ⟨hneg, hpart⟩ := not_or.1 hnot
    have hless := lt_of_le_of_ne t.entryPct_le hpart
    nlinarith
  · intro hfits prices
    have heq := hschedules.2 ⟨hfits.sizes, hfits.triggers⟩
    refine ⟨heq prices, ?_⟩
    rw [heq prices]
    by_cases htotal : 0 ≤ t.totalSizePct
    · exact Terms.totalOf_planned_le htotal prices
    · have hwhole := hfits.total.resolve_left htotal
      have hnone : t.calculateTranches.tail = [] := by
        rw [Terms.calculateTranches, List.tail_cons, hwhole]
        cases t.adds <;> simp [Terms.plannedAdds]
      rw [Terms.planned, hnone, nil_climb, totalOf, List.map_singleton, List.sum_singleton,
        Terms.first, hwhole]
      linarith

/-- The terms of the documented example: three tranches of 40, 30 and 30 percent, a trailed stop. -/
def documented : Terms where
  entryPrice := 100
  stopLoss := 90
  totalSizePct := 9
  entryPct := 40
  addPct := 30
  maxTranches := 3
  addTriggerR := 1
  trailStopAfterAdd := true
  entry_ne := by norm_num
  stop_ne := by norm_num
  entryPct_pos := by norm_num
  entryPct_le := by norm_num
  addPct_pos := by norm_num
  addPct_le := by norm_num

/-- The second add comes at 110, where the plan has it at 120. -/
theorem documented_trailed : ¬ ∀ (t : Terms) (prices : List ℚ),
    t.emitted prices = t.planned prices ∧ totalOf (t.emitted prices) ≤ t.totalSizePct := by
  intro h
  have hearly : documented.emitted [110, 110] ≠ documented.planned [110, 110] := by
    decide +kernel
  exact hearly (h documented [110, 110]).1

/-- Two adds of 40 percent after an entry of 50 percent are emitted whole. -/
example : totalOf (({ documented with
    entryPct := 50, addPct := 40, trailStopAfterAdd := false
    entryPct_pos := by norm_num, entryPct_le := by norm_num
    addPct_pos := by norm_num, addPct_le := by norm_num } : Terms).emitted [110, 120]) =
      117 / 10 := by
  decide +kernel

end NeoTrader.Pyramid
