import Mathlib.Tactic.Linarith
import NeoTrader.Backtest.WalkForward

/-!
# When `ROBUSTO` is deserved

The verdict counts ratios, not the signs of what they are ratios of.

* **`robusto_deserved_iff`**: where it is so.
-/

namespace NeoTrader

/-! ## What the verdict depends on -/

/-- A window: the two Sharpe ratios, and whether it counts. -/
structure Tested where
  isSharpe : ℚ
  oosSharpe : ℚ
  valid : Bool

namespace Tested

variable (x : Tested)

/-- The rounded ratio is at least one half. -/
def passes : Bool := 1 / 2 ≤ round3 (computeRobustnessRatio x.oosSharpe x.isSharpe)

/-- **The strategy wins** in both parts, and keeps half of its Sharpe ratio. -/
def wins : Bool := 0 < x.isSharpe ∧ 0 < x.oosSharpe ∧ 1 / 2 * x.isSharpe ≤ x.oosSharpe

end Tested

/-- The number of valid windows. -/
def validCount (l : List Tested) : ℕ := l.countP Tested.valid

/-- The number of valid windows that pass. -/
def passCount (l : List Tested) : ℕ := l.countP fun x => x.valid ∧ x.passes

/-- The number of valid windows in which the strategy wins. -/
def winCount (l : List Tested) : ℕ := l.countP fun x => x.valid ∧ x.wins

def verdictOf (l : List Tested) : Verdict := computeVerdict (passCount l) (validCount l)

/-- The windows of the engine of single symbols. -/
def Fold.tested (minTrades : ℕ) (f : Fold) : Tested :=
  ⟨f.inSample.sharpeRatio, f.outOfSample.sharpeRatio, minTrades ≤ f.outOfSample.totalTrades⟩

/-- The windows of the portfolio engine. -/
def CrossSectionalFold.tested (f : CrossSectionalFold) : Tested :=
  ⟨f.isSharpe, f.oosSharpe, f.isOk ∧ f.oosOk⟩

theorem walkForwardSummary_verdict (minTrades : ℕ) (folds : List Fold) :
    (walkForwardSummary minTrades folds).verdict =
      verdictOf (folds.map (Fold.tested minTrades)) := by
  cases folds with
  | nil => rfl
  | cons f folds =>
    simp only [walkForwardSummary, List.map_cons, List.isEmpty_cons, Bool.false_eq_true, if_false]
    rw [verdictOf, ← List.countP_eq_length_filter, List.countP_filter]
    congr 1
    · simp only [passCount, ← List.map_cons, List.countP_map]
      congr 1
      funext g
      rw [Function.comp_apply, Function.comp_apply, Bool.eq_iff_iff]
      simp [Fold.result, Fold.tested, Tested.passes, and_comm]
      exact fun _ => decide_eq_true_iff
    · simp only [validCount, ← List.map_cons, List.countP_map]
      rfl

theorem crossSectionalSummary_verdict (folds : List CrossSectionalFold) :
    (crossSectionalSummary folds).verdict = verdictOf (folds.map CrossSectionalFold.tested) := by
  cases folds with
  | nil => rfl
  | cons f folds =>
    simp only [crossSectionalSummary, List.isEmpty_cons, Bool.false_eq_true, if_false]
    rw [verdictOf, ← List.countP_eq_length_filter, List.countP_filter]
    congr 1
    · simp only [passCount, List.countP_map]
      congr 1
      funext g
      by_cases hok : g.isOk ∧ g.oosOk
      · simp [CrossSectionalFold.robustnessRatio, CrossSectionalFold.tested, Tested.passes, hok]
      · simp [CrossSectionalFold.tested, hok]
    · simp only [validCount, List.countP_map]
      rfl

/-! ## Rounded ratios -/

theorem le_roundHalfEven_iff {x : ℚ} : 500 ≤ roundHalfEven x ↔ 999 / 2 ≤ x := by
  have hlo : (⌊x⌋ : ℚ) ≤ x := Int.floor_le x
  have hhi : x < (⌊x⌋ : ℚ) + 1 := Int.lt_floor_add_one x
  rcases lt_trichotomy ⌊x⌋ 499 with hf | hf | hf
  · have hcast : (⌊x⌋ : ℚ) + 1 ≤ 499 := by exact_mod_cast hf
    have hround : roundHalfEven x ≤ ⌊x⌋ + 1 := by
      dsimp only [roundHalfEven]
      split_ifs <;> omega
    constructor <;> intro h
    · omega
    · linarith
  · -- a tie goes to 500
    rw [roundHalfEven, hf]
    push_cast
    by_cases h1 : x - 499 < 1 / 2
    · rw [if_pos h1]
      exact ⟨fun h => absurd h (by norm_num), fun h => by linarith⟩
    · have h500 : (if 1 / 2 < x - 499 then (500 : ℤ) else 500) = 500 := ite_self _
      rw [if_neg h1]
      norm_num only [h500]
      exact ⟨fun _ => by linarith, fun _ => trivial⟩
  · have hcast : (500 : ℚ) ≤ ⌊x⌋ := by exact_mod_cast hf
    have hround : ⌊x⌋ ≤ roundHalfEven x := by
      dsimp only [roundHalfEven]
      split_ifs <;> omega
    constructor <;> intro h
    · linarith
    · omega

theorem half_le_round3_iff {x : ℚ} : 1 / 2 ≤ round3 x ↔ 999 / 2000 ≤ x := by
  have hcast : (1 : ℚ) / 2 ≤ round3 x ↔ 500 ≤ roundHalfEven (1000 * x) := by
    rw [round3, le_div_iff₀ (by norm_num : (0 : ℚ) < 1000)]
    have h500 : (1 : ℚ) / 2 * 1000 = ((500 : ℤ) : ℚ) := by norm_num
    rw [h500, Int.cast_le]
  rw [hcast, le_roundHalfEven_iff]
  constructor <;> intro h <;> linarith

/-- **A window that counts as robust**: its in-sample ratio is not near zero, and the
out-of-sample one is on the same side, about half as far from zero or farther. -/
theorem Tested.passes_iff {x : Tested} : x.passes ↔
    robustnessThreshold < |x.isSharpe| ∧ 999 / 2000 ≤ x.oosSharpe / x.isSharpe := by
  have hpass : x.passes ↔ 999 / 2000 ≤ computeRobustnessRatio x.oosSharpe x.isSharpe := by
    rw [Tested.passes, decide_eq_true_iff, half_le_round3_iff]
  rw [hpass, computeRobustnessRatio]
  by_cases h : |x.isSharpe| ≤ robustnessThreshold
  · rw [if_pos h]
    refine ⟨fun h0 => absurd h0 (by norm_num), fun hand => absurd h (not_le.2 hand.1)⟩
  · rw [if_neg h]
    exact ⟨fun hr => ⟨not_le.1 h, hr⟩, fun hand => hand.2⟩

theorem Tested.passes_mono {x : Tested} (hx : x.passes) (hpos : 0 ≤ x.isSharpe) {oos : ℚ}
    (hle : x.oosSharpe ≤ oos) : ({ x with oosSharpe := oos } : Tested).passes := by
  rw [Tested.passes_iff] at hx ⊢
  exact ⟨hx.1, hx.2.trans (div_le_div_of_nonneg_right hle hpos)⟩

theorem Tested.oos_neg_of_passes {x : Tested} (hx : x.passes) (hneg : x.isSharpe < 0) :
    x.oosSharpe < 0 := by
  have hratio := (Tested.passes_iff.1 hx).2
  by_contra hpos
  have hle : x.oosSharpe / x.isSharpe ≤ 0 := div_nonpos_of_nonneg_of_nonpos (not_lt.1 hpos) hneg.le
  linarith

theorem Tested.zero_not_passes {x : Tested} :
    ¬ ({ x with oosSharpe := 0 } : Tested).passes := by
  rw [Tested.passes_iff]
  rintro ⟨-, hratio⟩
  rw [zero_div] at hratio
  norm_num at hratio

/-! ## Verdicts -/

theorem verdictOf_robusto {l : List Tested} :
    verdictOf l = .robusto ↔ 2 ≤ validCount l ∧ validCount l ≤ 2 * passCount l := by
  have hhalf (hpos : 0 < validCount l) : (1 / 2 ≤ (passCount l : ℚ) / validCount l) ↔
      validCount l ≤ 2 * passCount l := by
    have hposQ : (0 : ℚ) < validCount l := by exact_mod_cast hpos
    rw [le_div_iff₀ hposQ]
    constructor <;> intro h
    · have hcast : (validCount l : ℚ) ≤ 2 * passCount l := by linarith
      exact_mod_cast hcast
    · have hcast : (validCount l : ℚ) ≤ 2 * passCount l := by exact_mod_cast h
      linarith
  rw [verdictOf, computeVerdict]
  by_cases h2 : validCount l < 2
  · rw [if_pos h2]
    exact ⟨fun h => by (cases h), fun h => absurd h.1 (by omega)⟩
  · rw [if_neg h2]
    have hiff := hhalf (by omega)
    by_cases hr : 1 / 2 ≤ (passCount l : ℚ) / validCount l
    · rw [if_pos hr]
      exact ⟨fun _ => ⟨by omega, hiff.1 hr⟩, fun _ => rfl⟩
    · rw [if_neg hr]
      exact ⟨fun h => by (cases h), fun h => absurd (hiff.2 h.2) hr⟩

theorem verdictOf_sobreajustado {l : List Tested} :
    verdictOf l = .sobreajustado ↔ 2 ≤ validCount l ∧ 2 * passCount l < validCount l := by
  have hrobusto := verdictOf_robusto (l := l)
  by_cases h2 : validCount l < 2
  · have hfew : verdictOf l = .insuficienteDatos := by rw [verdictOf, computeVerdict, if_pos h2]
    rw [hfew]
    exact ⟨fun h => by (cases h), fun h => absurd h.1 (by omega)⟩
  · by_cases hr : verdictOf l = .robusto
    · have hcount := hrobusto.1 hr
      rw [hr]
      exact ⟨fun h => by (cases h), fun h => absurd h.2 (by omega)⟩
    · have hcount : ¬ validCount l ≤ 2 * passCount l := fun h => hr (hrobusto.2 ⟨by omega, h⟩)
      refine ⟨fun _ => ⟨by omega, by omega⟩, fun _ => ?_⟩
      rw [verdictOf, computeVerdict, if_neg h2] at hr ⊢
      split_ifs at hr ⊢
      · exact absurd rfl hr
      · rfl

/-- **Where the verdict is deserved.** -/
def Deserving (l : List Tested) : Prop :=
  2 ≤ validCount l → validCount l ≤ 2 * passCount l → validCount l ≤ 2 * winCount l ∧
    ((∃ x ∈ l, x.valid ∧ x.passes ∧ x.isSharpe < 0) → validCount l + 2 ≤ 2 * passCount l)

/-! ## One window changes -/

/-- The window with another out-of-sample result. -/
def Tested.withOos (x : Tested) (oos : ℚ) : Tested := { x with oosSharpe := oos }

section Change

variable {l₁ l₂ : List Tested} (x : Tested)

theorem validCount_withOos (oos : ℚ) :
    validCount (l₁ ++ x.withOos oos :: l₂) = validCount (l₁ ++ x :: l₂) := by
  simp only [validCount, List.countP_append, List.countP_cons, Tested.withOos]

theorem passCount_split (hx : x.valid) : passCount (l₁ ++ x :: l₂) =
    passCount l₁ + passCount l₂ + if x.passes then 1 else 0 := by
  simp only [passCount, List.countP_append, List.countP_cons, hx, true_and, decide_eq_true_eq]
  omega

end Change

section Deserved

variable {F : Type}

/-- **The verdict is deserved**: `ROBUSTO` is given only where the strategy wins in at least half of
at least two valid windows, and it does not turn into `SOBREAJUSTADO` where the out-of-sample result
of one valid window becomes larger. -/
def Deserved (verdict : List F → Verdict) (tested : F → Tested) (withOos : F → ℚ → F)
    (folds : List F) : Prop :=
  (verdict folds = .robusto → 2 ≤ validCount (folds.map tested) ∧
    validCount (folds.map tested) ≤ 2 * winCount (folds.map tested)) ∧
  ∀ l₁ x l₂ oos, folds = l₁ ++ x :: l₂ → (tested x).valid → (tested x).oosSharpe < oos →
    verdict folds = .robusto → verdict (l₁ ++ withOos x oos :: l₂) ≠ .sobreajustado

theorem deserved_iff {verdict : List F → Verdict} {tested : F → Tested} {withOos : F → ℚ → F}
    (hverdict : ∀ l, verdict l = verdictOf (l.map tested))
    (hwith : ∀ x oos, tested (withOos x oos) = (tested x).withOos oos) (folds : List F) :
    Deserved verdict tested withOos folds ↔ Deserving (folds.map tested) := by
  constructor
  · rintro ⟨hwins, hmono⟩ h2 hpass
    have hrobusto : verdict folds = .robusto := (hverdict _).trans (verdictOf_robusto.2 ⟨h2, hpass⟩)
    refine ⟨(hwins hrobusto).2, ?_⟩
    rintro ⟨y, hy, hvalid, hpasses, hneg⟩
    obtain ⟨x, hx, rfl⟩ := List.mem_map.1 hy
    obtain ⟨l₁, l₂, rfl⟩ := List.append_of_mem hx
    -- the out-of-sample result becomes zero
    have hoos := Tested.oos_neg_of_passes hpasses hneg
    have hnot := hmono l₁ x l₂ 0 rfl hvalid hoos hrobusto
    have hzero : ¬ ((tested x).withOos 0).passes := Tested.zero_not_passes
    rw [hverdict, List.map_append, List.map_cons, hwith, Ne, verdictOf_sobreajustado,
      validCount_withOos, passCount_split ((tested x).withOos 0) hvalid, if_neg hzero] at hnot
    rw [List.map_append, List.map_cons] at h2 ⊢
    rw [passCount_split _ hvalid, if_pos hpasses]
    omega
  · intro hd
    refine ⟨fun hrobusto => ?_, ?_⟩
    · obtain ⟨h2, hpass⟩ := verdictOf_robusto.1 ((hverdict _).symm.trans hrobusto)
      exact ⟨h2, (hd h2 hpass).1⟩
    · rintro l₁ x l₂ oos rfl hvalid hlt hrobusto hsobre
      obtain ⟨h2, hpass⟩ := verdictOf_robusto.1 ((hverdict _).symm.trans hrobusto)
      obtain ⟨-, hfew⟩ := verdictOf_sobreajustado.1 ((hverdict _).symm.trans hsobre)
      have hd := hd h2 hpass
      simp only [List.map_append, List.map_cons] at h2 hpass hfew hd
      have hvalid' : ((tested x).withOos oos).valid := hvalid
      rw [hwith, validCount_withOos, passCount_split _ hvalid'] at hfew
      rw [passCount_split _ hvalid] at hpass hd
      by_cases hpasses : (tested x).passes
      · rw [if_pos hpasses] at hpass hd
        by_cases hneg : (tested x).isSharpe < 0
        · have hmore := hd.2 ⟨tested x, by simp, hvalid, hpasses, hneg⟩
          omega
        · have hstill : ((tested x).withOos oos).passes :=
            Tested.passes_mono hpasses (not_lt.1 hneg) hlt.le
          rw [if_pos hstill] at hfew
          omega
      · rw [if_neg hpasses] at hpass
        omega

end Deserved

/-! ## The two runs -/

def Fold.withOos (f : Fold) (oos : ℚ) : Fold :=
  { f with outOfSample := { f.outOfSample with sharpeRatio := oos } }

def CrossSectionalFold.withOos (f : CrossSectionalFold) (oos : ℚ) : CrossSectionalFold :=
  { f with oosSharpe := oos }

/-- **Where `ROBUSTO` is deserved**, in both runs and for every list of windows. -/
theorem robusto_deserved_iff (minTrades : ℕ) (folds : List Fold) (folds' : List CrossSectionalFold) :
    (Deserved (fun l => (walkForwardSummary minTrades l).verdict) (Fold.tested minTrades)
      Fold.withOos folds ↔ Deserving (folds.map (Fold.tested minTrades))) ∧
    (Deserved (fun l => (crossSectionalSummary l).verdict) CrossSectionalFold.tested
      CrossSectionalFold.withOos folds' ↔ Deserving (folds'.map CrossSectionalFold.tested)) :=
  ⟨deserved_iff (walkForwardSummary_verdict minTrades) (fun _ _ => rfl) folds,
    deserved_iff crossSectionalSummary_verdict (fun _ _ => rfl) folds'⟩

/-! ## A losing strategy -/

def losingFold : Fold := ⟨⟨0, 50, 60⟩, ⟨-1, 10⟩, ⟨-1, 10⟩⟩

/-- **A strategy that loses in every window is `ROBUSTO`.** -/
theorem robusto_losing : ¬ ∀ (minTrades : ℕ) (folds : List Fold),
    Deserved (fun l => (walkForwardSummary minTrades l).verdict) (Fold.tested minTrades)
      Fold.withOos folds := by
  intro hall
  have hrobusto : (walkForwardSummary 10 [losingFold, losingFold]).verdict = .robusto := by
    decide +kernel
  have hwins := ((hall 10 [losingFold, losingFold]).1 hrobusto).2
  have hno : ¬ validCount ([losingFold, losingFold].map (Fold.tested 10)) ≤
      2 * winCount ([losingFold, losingFold].map (Fold.tested 10)) := by
    decide
  exact hno hwins

end NeoTrader
