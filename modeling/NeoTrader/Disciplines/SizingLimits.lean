import Mathlib.Algebra.BigOperators.Ring.List
import NeoTrader.Common.WholeShares
import NeoTrader.Disciplines.PositionSizing
import NeoTrader.Py.Batch

/-!
# The ceilings of the position sizing

Every mode but the pyramid buys whole shares for a part of the capital, and every mode caps this
part in a place of its own. Each long signal that is sized has a ceiling, at whatever price.

* `Setup.Sound`: no long signal falls back on a safety size above the ceiling, and the parts of the
  longs by their volatility make up no more than the whole;
* **`within_iff_sound`**: the ceilings are kept at all prices exactly where the setup is sound.
-/

namespace NeoTrader.SizingLimits

open Js Py WholeShares

/-! ## A run of the hook -/

/-- A number of a configuration that is a percentage. -/
structure Percentage (config : Obj) (key : String) (default : ℚ) where
  value : ℚ
  read : numberField config key default = .ok value
  pos : 0 < value
  le : value ≤ 100

/-- What is written for `max_position_pct` where it is not configured. -/
def maxDefault : SizingMode → ℚ
  | .fixed => 15
  | _ => 10

/-- A configuration of one of the modes with its percentages, and the capital that it is for. -/
structure Setup where
  mode : SizingMode
  config : Obj
  capital : ℚ
  tradeHistory : Json
  mode_eq : sizingMode config = .ok mode
  mode_ne : mode ≠ .pyramid
  capital_pos : 0 < capital
  maxPosition : Percentage config "max_position_pct" (maxDefault mode)
  safetySize : Percentage config "safety_size_pct" 2
  fixed : Percentage config "fixed_pct" 5
  riskPerTrade : Percentage config "risk_per_trade_pct" 1

/-- The entries of a list that are long. -/
def longs (signals : List Obj) : List Obj := signals.filter (actionIs · "long")

namespace Setup

variable (s : Setup)

def capitalJson : Json := .num (.fin s.capital)

/-- What the hook answers some pending signals with. -/
def run (signals : List Obj) : Except String (List Obj) :=
  positionSizingOnCycle [("pending_signals", .arr (signals.map .obj)),
    ("portfolio_value", s.capitalJson), ("config", .obj s.config),
    ("trade_history", s.tradeHistory)]

/-- How one long signal is sized in such a run. -/
def size (signals : List Obj) : Except String (Obj → Except String (Option Obj)) :=
  match s.mode with
  | .kelly => do
    return sizeKelly s.config s.capitalJson (← kellyFraction s.tradeHistory s.config)
  | .fixed => .ok (sizeFixed s.config s.capitalJson)
  | .fixedFractionalRisk => .ok (sizeRisk s.config s.capitalJson)
  | .volTarget => do
    let vols ← volatilitiesOf s.config (longs signals) []
    return sizeVolTarget s.config s.capitalJson vols (computeInverseVolWeights vols (1 / 100))
  | .pyramid => .ok (sizePyramid s.config)

/-- The key of a position in a signal that is sized. -/
def key : String :=
  match s.mode with
  | .kelly => "kelly"
  | .fixed => "fixed"
  | .fixedFractionalRisk => "fixed_fractional_risk"
  | .volTarget => "vol_target"
  | .pyramid => "pyramid_plan"

def priceOf (sig : Obj) : Except String ℚ :=
  if s.mode = .fixedFractionalRisk then number (firstPrice sig "price" "entry_price")
  else numberField sig "price" 0

/-- The most that a position may be worth. -/
def ceiling : ℚ := s.capital * (s.maxPosition.value / 100)

/-- A position of a signal keeps its ceilings. -/
structure Capped (sig fields : Obj) (shares : ℤ) : Prop where
  shares_eq : fields.get "shares" = some (.num (.fin shares))
  nonneg : 0 ≤ shares
  worth : ∀ price, s.priceOf sig = .ok price → shares * price ≤ s.ceiling
  risk : s.mode = .fixedFractionalRisk → ∀ price stop source, s.priceOf sig = .ok price →
    resolveStopPrice sig price (actionIs sig "short") s.config = .ok (some (stop, source)) →
    shares * |price - stop| ≤ s.capital * (s.riskPerTrade.value / 100)

/-- What a sized long of the mode `vol_target` costs. -/
def costOf (s' : Obj) : ℚ :=
  match (s'.get "vol_target").bind (·.field "shares"), numberField s' "price" 0 with
  | some (.num (.fin shares)), .ok price => shares * price
  | _, _ => 0

/-- **What some signals are answered with keeps the ceilings.** -/
structure Within (signals out : List Obj) : Prop where
  positions : ∀ size, s.size signals = .ok size → ∀ sig ∈ longs signals, ∀ fields,
    size sig = .ok (some (sig ++ [(s.key, .obj fields)])) → ∃ shares, s.Capped sig fields shares
  total : s.mode = .volTarget → ((longs out).map costOf).sum ≤ s.capital

/-! ## What it takes -/

/-- A long signal is sized by the safety size: there is no fraction of Kelly, or no stop. -/
def FallsBack (fraction : Option ℚ) (sig : Obj) : Prop :=
  ∃ stopLossPct takeProfitPct, numberField sig "stop_loss_pct" 2 = .ok stopLossPct ∧
    numberField sig "take_profit_pct" 3 = .ok takeProfitPct ∧
    ∀ f, fraction = some f → f ≤ 0 ∨ stopLossPct ≤ 0

def symbolOf (sig : Obj) : String :=
  match textField sig "symbol" "?" with
  | .ok symbol => symbol
  | .error _ => ""

/-- The part of the capital for a signal by its weight among some volatilities. -/
def partOf (vols : Dict ℚ) (sig : Obj) : ℚ :=
  min (Dict.value (computeInverseVolWeights vols (1 / 100)) (symbolOf sig))
    (s.maxPosition.value / 100)

/-- **The signals are sized soundly**, whatever their prices are. -/
structure Sound (signals : List Obj) : Prop where
  safety : s.mode = .kelly → s.safetySize.value ≤ s.maxPosition.value ∨
    ∀ fraction, kellyFraction s.tradeHistory s.config = .ok fraction →
      ∀ sig ∈ longs signals, ¬ FallsBack fraction sig
  parts : s.mode = .volTarget → ∀ vols, volatilitiesOf s.config (longs signals) [] = .ok vols →
    ((longs signals).map (s.partOf vols)).sum ≤ 1

end Setup

/-- The same signal, at another price. -/
def Repriced (sig sig' : Obj) : Prop := ∀ key, key ≠ "price" → sig'.get key = sig.get key

/-! ## Weights -/

section Weights

variable {vols : Dict ℚ} {volFloor : ℚ}

theorem weights_nonneg (hfloor : 0 < volFloor) :
    ∀ e ∈ computeInverseVolWeights vols volFloor, 0 ≤ e.2 := by
  have hinv : ∀ e : String × ℚ, 0 ≤ 1 / max e.2 volFloor := fun e =>
    one_div_nonneg.2 (hfloor.le.trans (le_max_right _ _))
  intro e he
  rw [computeInverseVolWeights] at he
  split_ifs at he with htotal
  · obtain ⟨e', -, rfl⟩ := List.mem_map.1 he
    positivity
  · obtain ⟨e', he', rfl⟩ := List.mem_map.1 he
    obtain ⟨e'', -, rfl⟩ := List.mem_map.1 he'
    exact div_nonneg (hinv e'') (not_le.1 htotal).le

end Weights

/-! ## What one signal is sized to -/

section Sizes

variable {config sig s' : Obj} {capital price target stop take : ℚ} {fraction : Option ℚ}
  {vols weights : Dict ℚ}

theorem sizeKelly_cases (h : sizeKelly config (.num (.fin capital)) fraction sig = .ok (some s')) :
    ∃ price target stop take, numberField sig "price" 0 = .ok price ∧ 0 < price ∧
      kellyTarget config sig fraction = .ok target ∧
      numberField sig "stop_loss_pct" 2 = .ok stop ∧
      numberField sig "take_profit_pct" 3 = .ok take ∧
      s' = sig ++ [("kelly", .obj ((BoughtShares.buy capital price target).fields stop take))] := by
  obtain ⟨price, hprice, h⟩ := bind_eq_ok.1 h
  split_ifs at h with hpos
  · cases h
  · obtain ⟨c, hc, h⟩ := bind_eq_ok.1 h
    obtain ⟨target, htarget, h⟩ := bind_eq_ok.1 h
    obtain ⟨stop, hstop, h⟩ := bind_eq_ok.1 h
    obtain ⟨take, htake, h⟩ := bind_eq_ok.1 h
    cases hc
    cases h
    exact ⟨price, target, stop, take, hprice, not_le.1 hpos, htarget, hstop, htake, rfl⟩

theorem sizeFixed_cases (h : sizeFixed config (.num (.fin capital)) sig = .ok (some s')) :
    ∃ price fixed max stop take, numberField sig "price" 0 = .ok price ∧ 0 < price ∧
      numberField config "fixed_pct" 5 = .ok fixed ∧
      numberField config "max_position_pct" 15 = .ok max ∧
      s' = sig ++ [("fixed",
        .obj ((BoughtShares.buy capital price (min fixed max / 100)).fields stop take))] := by
  obtain ⟨price, hprice, h⟩ := bind_eq_ok.1 h
  split_ifs at h with hpos
  · cases h
  · obtain ⟨fixed, hfixed, h⟩ := bind_eq_ok.1 h
    obtain ⟨max, hmax, h⟩ := bind_eq_ok.1 h
    obtain ⟨c, hc, h⟩ := bind_eq_ok.1 h
    obtain ⟨stop, -, h⟩ := bind_eq_ok.1 h
    obtain ⟨take, -, h⟩ := bind_eq_ok.1 h
    cases hc
    cases h
    exact ⟨price, fixed, max, stop, take, hprice, not_le.1 hpos, hfixed, hmax, rfl⟩

theorem sizeRisk_cases (h : sizeRisk config (.num (.fin capital)) sig = .ok (some s')) :
    s' = sig ∨ ∃ price stop source fields,
      number (firstPrice sig "price" "entry_price") = .ok price ∧ 0 < price ∧
      resolveStopPrice sig price (actionIs sig "short") config = .ok (some (stop, source)) ∧
      fixedFractionalRisk capital price stop config = .ok fields ∧
      s' = sig ++ [("fixed_fractional_risk", .obj (fields.set "stop_source" (.str source)))] := by
  obtain ⟨price, hprice, h⟩ := bind_eq_ok.1 h
  split_ifs at h with hpos
  · cases h
    exact Or.inl rfl
  · obtain ⟨resolved, hresolved, h⟩ := bind_eq_ok.1 h
    rcases resolved with - | ⟨stop, source⟩
    · cases h
      exact Or.inl rfl
    · obtain ⟨c, hc, hsize⟩ := bind_eq_ok.1 h
      cases hc
      obtain ⟨fields, hfields, hsized⟩ := bind_eq_ok.1 hsize
      cases hsized
      exact Or.inr ⟨price, stop, source, fields, hprice, not_le.1 hpos, hresolved, hfields, rfl⟩

theorem sizeVolTarget_cases
    (h : sizeVolTarget config (.num (.fin capital)) vols weights sig = .ok (some s')) :
    ∃ symbol price max used capped, textField sig "symbol" "?" = .ok symbol ∧
      numberField sig "price" 0 = .ok price ∧ 0 < price ∧
      numberField config "max_position_pct" 10 = .ok max ∧
      s' = sig ++ [("vol_target", .obj
        [("weight", .num (.fin (roundTo 4 ((Dict.get? weights symbol).getD 0)))),
          ("volatility_used", used),
          ("shares", .num (.fin (BoughtShares.buy capital price
            (min ((Dict.get? weights symbol).getD 0) (max / 100))).shares)),
          ("position_usd", .num (.fin (roundTo 2 (BoughtShares.buy capital price
            (min ((Dict.get? weights symbol).getD 0) (max / 100))).usd))),
          ("position_pct", .num (.fin (roundTo 2 (BoughtShares.buy capital price
            (min ((Dict.get? weights symbol).getD 0) (max / 100))).pct))),
          ("capped_at_max", capped)])] := by
  obtain ⟨symbol, hsymbol, h⟩ := bind_eq_ok.1 h
  obtain ⟨price, hprice, h⟩ := bind_eq_ok.1 h
  dsimp only at h
  split_ifs at h with hpos
  · cases h
  · obtain ⟨max, hmax, h⟩ := bind_eq_ok.1 h
    obtain ⟨c, hc, h⟩ := bind_eq_ok.1 h
    cases hc
    cases h
    exact ⟨symbol, price, max, _, _, hsymbol, hprice, not_le.1 hpos, hmax, rfl⟩

theorem action_append {key : String} {v : Json} (hkey : key ≠ "action")
    (h : s' = sig ++ [(key, v)]) : s'.get "action" = sig.get "action" := by
  rw [h]
  exact Obj.get_set_of_ne sig hkey.symm v

theorem sizeKelly_action (h : sizeKelly config (.num (.fin capital)) fraction sig = .ok (some s')) :
    s'.get "action" = sig.get "action" := by
  obtain ⟨_, _, _, _, -, -, -, -, -, hs'⟩ := sizeKelly_cases h
  exact action_append (by decide) hs'

theorem sizeFixed_action (h : sizeFixed config (.num (.fin capital)) sig = .ok (some s')) :
    s'.get "action" = sig.get "action" := by
  obtain ⟨_, _, _, _, _, -, -, -, -, hs'⟩ := sizeFixed_cases h
  exact action_append (by decide) hs'

theorem sizeRisk_action (h : sizeRisk config (.num (.fin capital)) sig = .ok (some s')) :
    s'.get "action" = sig.get "action" := by
  rcases sizeRisk_cases h with rfl | ⟨_, _, _, _, -, -, -, -, hs'⟩
  · rfl
  · exact action_append (by decide) hs'

theorem sizeVolTarget_action
    (h : sizeVolTarget config (.num (.fin capital)) vols weights sig = .ok (some s')) :
    s'.get "action" = sig.get "action" := by
  obtain ⟨_, _, _, _, _, -, -, -, -, hs'⟩ := sizeVolTarget_cases h
  exact action_append (by decide) hs'

end Sizes

/-! ## A position under its ceiling -/

section Positions

variable {s : Setup} {sig fields : Obj} {price target : ℚ} {fraction : Option ℚ} {vols : Dict ℚ}

namespace Setup

theorem maxPosition_read {mode : SizingMode} (hmode : s.mode = mode) :
    numberField s.config "max_position_pct" (maxDefault mode) = .ok s.maxPosition.value := by
  subst hmode
  exact s.maxPosition.read

theorem maxPart_pos (s : Setup) : 0 < s.maxPosition.value / 100 :=
  div_pos s.maxPosition.pos (by norm_num)

theorem capped_of_part (hmode : s.mode ≠ .fixedFractionalRisk) (hprice : s.priceOf sig = .ok price)
    (hpos : 0 < price) (hnonneg : 0 ≤ target) (hle : target ≤ s.maxPosition.value / 100)
    (hshares : fields.get "shares" =
      some (.num (.fin (BoughtShares.buy s.capital price target).shares))) :
    s.Capped sig fields (BoughtShares.buy s.capital price target).shares where
  shares_eq := hshares
  nonneg := floor_nonneg (mul_nonneg s.capital_pos.le hnonneg) hpos.le
  worth price' hprice' := by
    obtain rfl : price = price' := Except.ok.inj (hprice.symm.trans hprice')
    exact (floor_mul_le hpos).trans (mul_le_mul_of_nonneg_left hle s.capital_pos.le)
  risk hrisk := absurd hrisk hmode

theorem fields_eq {key : String} {v w : Obj}
    (h : sig ++ [(key, Json.obj v)] = sig ++ [(key, Json.obj w)]) : v = w := by
  have hlast := List.append_cancel_left h
  simpa using hlast

/-! ### Kelly -/

theorem kellyTarget_bounds (hmode : s.mode = .kelly) {config : Obj} (hconfig : s.config = config)
    (hsound : s.safetySize.value ≤ s.maxPosition.value ∨
      ∃ f stop, fraction = some f ∧ 0 < f ∧ numberField sig "stop_loss_pct" 2 = .ok stop ∧ 0 < stop)
    (h : kellyTarget config sig fraction = .ok target) :
    0 ≤ target ∧ target ≤ s.maxPosition.value / 100 := by
  subst hconfig
  have hmax : numberField s.config "max_position_pct" 10 = .ok s.maxPosition.value :=
    maxPosition_read hmode
  have hsafety := s.safetySize.read
  have hpos := s.safetySize.pos
  have hfall : s.safetySize.value ≤ s.maxPosition.value →
      (do return (← numberField s.config "safety_size_pct" 2) / 100) = Except.ok target →
      0 ≤ target ∧ target ≤ s.maxPosition.value / 100 := by
    intro hle h
    rw [hsafety] at h
    cases h
    exact ⟨by positivity, by linarith⟩
  obtain ⟨stop, hstop, h⟩ := bind_eq_ok.1 h
  cases fraction with
  | none =>
    refine hfall (hsound.resolve_right ?_) h
    rintro ⟨f, stop, hf, -⟩
    cases hf
  | some f =>
    dsimp only at h
    split_ifs at h with hfallback
    · refine hfall (hsound.resolve_right ?_) h
      rintro ⟨f', stop', hf, hfpos, hstop', hstoppos⟩
      cases hf
      obtain rfl : stop = stop' := Except.ok.inj (hstop.symm.trans hstop')
      exact hfallback.elim (not_le.2 hfpos) (not_le.2 hstoppos)
    · rw [hmax] at h
      cases h
      obtain ⟨hf, hstop'⟩ := not_or.1 hfallback
      refine ⟨le_min ?_ s.maxPart_pos.le, min_le_right _ _⟩
      exact div_nonneg (not_le.1 hf).le (div_nonneg (not_le.1 hstop').le (by norm_num))

theorem kelly_capped (hmode : s.mode = .kelly)
    (hsound : s.safetySize.value ≤ s.maxPosition.value ∨ ¬ FallsBack fraction sig)
    (h : sizeKelly s.config s.capitalJson fraction sig =
      .ok (some (sig ++ [("kelly", .obj fields)]))) : ∃ shares, s.Capped sig fields shares := by
  obtain ⟨price, target, stop, take, hprice, hpos, htarget, hstop, htake, hfields⟩ :=
    sizeKelly_cases h
  obtain rfl := fields_eq hfields
  have hsafe : s.safetySize.value ≤ s.maxPosition.value ∨ ∃ f stop, fraction = some f ∧ 0 < f ∧
      numberField sig "stop_loss_pct" 2 = .ok stop ∧ 0 < stop := by
    refine hsound.imp_right fun hnot => ?_
    by_contra hnone
    refine hnot ⟨stop, take, hstop, htake, fun f hf => ?_⟩
    by_contra hboth
    obtain ⟨hfpos, hstoppos⟩ := not_or.1 hboth
    exact hnone ⟨f, stop, hf, not_le.1 hfpos, hstop, not_le.1 hstoppos⟩
  obtain ⟨hnonneg, hle⟩ := kellyTarget_bounds hmode rfl hsafe htarget
  have hread : s.priceOf sig = .ok price := by
    rw [priceOf, hmode]
    exact hprice
  exact ⟨_, capped_of_part (by rw [hmode]; decide) hread hpos hnonneg hle rfl⟩

/-! ### A fixed part -/

theorem fixed_capped (hmode : s.mode = .fixed)
    (h : sizeFixed s.config s.capitalJson sig = .ok (some (sig ++ [("fixed", .obj fields)]))) :
    ∃ shares, s.Capped sig fields shares := by
  obtain ⟨price, fixed, max, stop, take, hprice, hpos, hfixed, hmax, hfields⟩ := sizeFixed_cases h
  obtain rfl := fields_eq hfields
  obtain rfl : s.fixed.value = fixed := Except.ok.inj (s.fixed.read.symm.trans hfixed)
  obtain rfl : s.maxPosition.value = max :=
    Except.ok.inj ((maxPosition_read hmode).symm.trans hmax)
  have hread : s.priceOf sig = .ok price := by
    rw [priceOf, hmode]
    exact hprice
  have hnonneg : 0 ≤ min s.fixed.value s.maxPosition.value / 100 :=
    div_nonneg (le_min s.fixed.pos.le s.maxPosition.pos.le) (by norm_num)
  have hle : min s.fixed.value s.maxPosition.value / 100 ≤ s.maxPosition.value / 100 :=
    div_le_div_of_nonneg_right (min_le_right _ _) (by norm_num)
  exact ⟨_, capped_of_part (by rw [hmode]; decide) hread hpos hnonneg hle rfl⟩

/-! ### A part at risk -/

theorem fixedFractionalRisk_bounds (hmode : s.mode = .fixedFractionalRisk) {stop : ℚ}
    (hpos : 0 < price) (h : fixedFractionalRisk s.capital price stop s.config = .ok fields) :
    ∃ shares : ℤ, fields.get "shares" = some (.num (.fin shares)) ∧ 0 ≤ shares ∧
      shares * price ≤ s.ceiling ∧
      shares * |price - stop| ≤ s.capital * (s.riskPerTrade.value / 100) := by
  have hcapital := s.capital_pos
  have hbudget : 0 < s.capital * (s.riskPerTrade.value / 100) :=
    mul_pos hcapital (div_pos s.riskPerTrade.pos (by norm_num))
  have hceiling : 0 < s.ceiling := mul_pos hcapital s.maxPart_pos
  rw [fixedFractionalRisk] at h
  dsimp only at h
  split_ifs at h with hinvalid
  · cases h
    exact ⟨0, rfl, le_rfl, by simpa using hceiling.le, by simpa using hbudget.le⟩
  · have hrisk : 0 < |price - stop| :=
      not_le.1 fun hle => hinvalid (Or.inr (Or.inr hle))
    obtain ⟨risk, hread, h⟩ := bind_eq_ok.1 h
    obtain rfl : s.riskPerTrade.value = risk := Except.ok.inj (s.riskPerTrade.read.symm.trans hread)
    obtain ⟨max, hmax, h⟩ := bind_eq_ok.1 h
    obtain rfl : s.maxPosition.value = max :=
      Except.ok.inj ((maxPosition_read hmode).symm.trans hmax)
    cases h
    refine ⟨_, rfl, ?_⟩
    rw [← ceiling]
    have hloss : (⌊s.capital * (s.riskPerTrade.value / 100) / |price - stop|⌋ : ℚ) *
        |price - stop| ≤ s.capital * (s.riskPerTrade.value / 100) := floor_mul_le hrisk
    split_ifs with hcapped
    · have hfewer := floor_le_of_lt_mul hpos hcapped
      refine ⟨floor_nonneg hceiling.le hpos.le, floor_mul_le hpos, le_trans ?_ hloss⟩
      exact mul_le_mul_of_nonneg_right (by exact_mod_cast hfewer) hrisk.le
    · exact ⟨floor_nonneg hbudget.le hrisk.le, not_lt.1 hcapped, hloss⟩

theorem risk_capped (hmode : s.mode = .fixedFractionalRisk)
    (h : sizeRisk s.config s.capitalJson sig =
      .ok (some (sig ++ [("fixed_fractional_risk", .obj fields)]))) :
    ∃ shares, s.Capped sig fields shares := by
  rcases sizeRisk_cases h with hsame | ⟨price, stop, source, fields', hprice, hpos, hresolved,
    hfields', hfields⟩
  · simp at hsame
  · obtain rfl := fields_eq hfields
    obtain ⟨shares, hshares, hnonneg, hworth, hrisk⟩ :=
      fixedFractionalRisk_bounds hmode hpos hfields'
    have hread : s.priceOf sig = .ok price := by
      rw [priceOf, if_pos hmode]
      exact hprice
    refine ⟨shares, ?_, hnonneg, fun price' hprice' => ?_, fun _ price' stop' source' hprice'
      hresolved' => ?_⟩
    · rw [Obj.get_set_of_ne _ (by decide)]
      exact hshares
    · obtain rfl : price = price' := Except.ok.inj (hread.symm.trans hprice')
      exact hworth
    · obtain rfl : price = price' := Except.ok.inj (hread.symm.trans hprice')
      cases hresolved.symm.trans hresolved'
      exact hrisk

/-! ### By the volatility -/

theorem partOf_nonneg (s : Setup) (vols : Dict ℚ) (sig : Obj) : 0 ≤ s.partOf vols sig :=
  le_min (Dict.value_nonneg (weights_nonneg (by norm_num))) s.maxPart_pos.le

theorem partOf_le (s : Setup) (vols : Dict ℚ) (sig : Obj) :
    s.partOf vols sig ≤ s.maxPosition.value / 100 := min_le_right _ _

theorem volTarget_cases (hmode : s.mode = .volTarget) {s' : Obj}
    (h : sizeVolTarget s.config s.capitalJson vols (computeInverseVolWeights vols (1 / 100)) sig =
      .ok (some s')) :
    ∃ (price : ℚ) (fields : Obj), numberField sig "price" 0 = .ok price ∧ 0 < price ∧
      s' = sig ++ [("vol_target", .obj fields)] ∧ fields.get "shares" =
        some (.num (.fin (BoughtShares.buy s.capital price (s.partOf vols sig)).shares)) := by
  obtain ⟨symbol, price, max, used, capped, hsymbol, hprice, hpos, hmax, hs'⟩ :=
    sizeVolTarget_cases h
  obtain rfl : s.maxPosition.value = max :=
    Except.ok.inj ((maxPosition_read hmode).symm.trans hmax)
  refine ⟨price, _, hprice, hpos, hs', ?_⟩
  rw [partOf, symbolOf, hsymbol]
  rfl

theorem volTarget_capped (hmode : s.mode = .volTarget)
    (h : sizeVolTarget s.config s.capitalJson vols (computeInverseVolWeights vols (1 / 100)) sig =
      .ok (some (sig ++ [("vol_target", .obj fields)]))) :
    ∃ shares, s.Capped sig fields shares := by
  obtain ⟨price, fields', hprice, hpos, hfields, hshares⟩ := volTarget_cases hmode h
  obtain rfl := fields_eq hfields
  have hread : s.priceOf sig = .ok price := by
    rw [priceOf, hmode]
    exact hprice
  exact ⟨_, capped_of_part (by rw [hmode]; decide) hread hpos (s.partOf_nonneg vols sig)
    (s.partOf_le vols sig) hshares⟩

end Setup

end Positions

/-! ## The longs of a run -/

section Run

variable {s : Setup} {signals out : List Obj}

theorem sizeEach_longs {actions : List String} {size : Obj → Except String (Option Obj)}
    (hactions : "long" ∈ actions)
    (hkeeps : ∀ sig s', size sig = .ok (some s') → s'.get "action" = sig.get "action")
    (h : sizeEach actions size signals = .ok out) :
    collect size (longs signals) = .ok (longs out) := by
  have haction : ∀ {sig s' : Obj}, s'.get "action" = sig.get "action" →
      actionIs s' "long" = actionIs sig "long" := fun h => by
    unfold actionIs
    rw [h]
  induction signals generalizing out with
  | nil =>
    cases h
    rfl
  | cons sig rest ih =>
    obtain ⟨y, hy, h⟩ := bind_eq_ok.1 h
    obtain ⟨others, hothers, h⟩ := bind_eq_ok.1 h
    cases h
    rw [longs, longs, List.filter_cons, List.filter_append]
    by_cases hlong : actionIs sig "long" = true
    · rw [sizeOne, if_pos (List.any_eq_true.2 ⟨_, hactions, hlong⟩)] at hy
      rw [if_pos hlong]
      have hkept : y.toList.filter (actionIs · "long") = y.toList := by
        cases y with
        | none => rfl
        | some s' => simp [haction (hkeeps sig s' hy), hlong]
      rw [hkept]
      exact bind_eq_ok.2 ⟨y, hy, bind_eq_ok.2 ⟨_, ih hothers, rfl⟩⟩
    · have hnone : y.toList.filter (actionIs · "long") = [] := by
        rw [sizeOne] at hy
        cases y with
        | none => rfl
        | some s' =>
          have hs' : s'.get "action" = sig.get "action" := by
            split_ifs at hy with hany
            · exact hkeeps sig s' hy
            · cases hy
              rfl
          simp [haction hs', hlong]
      rw [if_neg hlong, hnone]
      exact ih hothers

theorem longs_longs (signals : List Obj) : longs (longs signals) = longs signals := by
  simp [longs]

/-- **The longs that the hook answers with are what the pending longs are sized to.** -/
theorem run_longs (h : s.run signals = .ok out) :
    ∃ size, s.size signals = .ok size ∧ collect size (longs signals) = .ok (longs out) := by
  obtain ⟨signals', hsignals, h⟩ := bind_eq_ok.1 h
  have hpending : signals' = signals := by
    have hread := (mapM_asDict signals).symm.trans hsignals
    cases hread
    rfl
  subst hpending
  obtain ⟨config, hconfig, h⟩ := bind_eq_ok.1 h
  obtain rfl : s.config = config := by
    cases hconfig
    rfl
  obtain ⟨mode, hmode, h⟩ := bind_eq_ok.1 h
  rw [s.mode_eq] at hmode
  have hne := s.mode_ne
  cases hmode
  unfold Setup.size
  cases hs : s.mode with
  | pyramid => exact absurd hs hne
  | kelly =>
    rw [hs] at h
    obtain ⟨fraction, hfraction, h⟩ := bind_eq_ok.1 h
    refine ⟨_, bind_eq_ok.2 ⟨fraction, hfraction, rfl⟩, ?_⟩
    exact sizeEach_longs (by decide) (fun _ _ => sizeKelly_action) h
  | fixed =>
    rw [hs] at h
    exact ⟨_, rfl, sizeEach_longs (by decide) (fun _ _ => sizeFixed_action) h⟩
  | fixedFractionalRisk =>
    rw [hs] at h
    exact ⟨_, rfl, sizeEach_longs (by decide) (fun _ _ => sizeRisk_action) h⟩
  | volTarget =>
    rw [hs] at h
    obtain ⟨vols, hvols, h⟩ := bind_eq_ok.1 h
    obtain ⟨sized, hsized, h⟩ := bind_eq_ok.1 h
    cases h
    refine ⟨_, bind_eq_ok.2 ⟨vols, hvols, rfl⟩, ?_⟩
    have hlongs := sizeEach_longs (by decide) (fun _ _ => sizeVolTarget_action) hsized
    rw [← longs, longs_longs] at hlongs
    have hothers : longs (signals'.filter fun sig => !actionIs sig "long") = [] := by
      simp [longs]
    rw [show longs (_ ++ sized) = longs _ ++ longs sized from List.filter_append _ _, hothers]
    exact hlongs

end Run

/-! ## Other prices -/

section Repriced

variable {s : Setup} {sig sig' : Obj} {signals signals' : List Obj} {key : String}
  {vols : Dict ℚ}

theorem repriced_set (sig : Obj) (v : Json) : Repriced sig (sig.set "price" v) :=
  fun _ hkey => Obj.get_set_of_ne sig hkey v

theorem Repriced.numberField_eq (h : Repriced sig sig') (hkey : key ≠ "price") (default : ℚ) :
    numberField sig' key default = numberField sig key default := by
  rw [numberField, numberField, h key hkey]

theorem Repriced.actionIs_eq (h : Repriced sig sig') (action : String) :
    actionIs sig' action = actionIs sig action := by
  rw [actionIs, actionIs, h "action" (by decide)]

theorem Repriced.textField_eq (h : Repriced sig sig') :
    textField sig' "symbol" "?" = textField sig "symbol" "?" := by
  rw [textField, textField, h "symbol" (by decide)]

theorem Repriced.volatilityOf_eq (h : Repriced sig sig') (config : Obj) :
    volatilityOf config sig' = volatilityOf config sig := by
  rw [volatilityOf, volatilityOf, h "volatility_12m" (by decide), h "volatility" (by decide)]

theorem Repriced.partOf_eq (h : Repriced sig sig') (s : Setup) (vols : Dict ℚ) :
    s.partOf vols sig' = s.partOf vols sig := by
  rw [Setup.partOf, Setup.partOf, Setup.symbolOf, Setup.symbolOf, h.textField_eq]

theorem Repriced.fallsBack_iff (h : Repriced sig sig') {fraction : Option ℚ} :
    Setup.FallsBack fraction sig' ↔ Setup.FallsBack fraction sig := by
  unfold Setup.FallsBack
  rw [h.numberField_eq (by decide), h.numberField_eq (by decide)]

theorem longs_repriced (h : List.Forall₂ Repriced signals signals') :
    List.Forall₂ Repriced (longs signals) (longs signals') :=
  List.rel_filter (fun sig sig' hsig => by
    show actionIs sig "long" = true ↔ actionIs sig' "long" = true
    rw [hsig.actionIs_eq]) h

theorem exists_of_forall₂ {R : Obj → Obj → Prop} (h : List.Forall₂ R signals signals')
    (hsig : sig' ∈ signals') : ∃ sig ∈ signals, R sig sig' := by
  induction h with
  | nil => cases hsig
  | cons hr _ ih =>
    rcases List.mem_cons.1 hsig with rfl | hsig
    · exact ⟨_, List.mem_cons_self, hr⟩
    · obtain ⟨sig, hmem, hr'⟩ := ih hsig
      exact ⟨sig, List.mem_cons_of_mem _ hmem, hr'⟩

theorem volatilitiesOf_repriced (h : List.Forall₂ Repriced signals signals') (config : Obj)
    (vols : Dict ℚ) : volatilitiesOf config signals' vols = volatilitiesOf config signals vols := by
  induction h generalizing vols with
  | nil => rfl
  | cons hsig _ ih =>
    rw [volatilitiesOf, volatilitiesOf, hsig.volatilityOf_eq, hsig.textField_eq]
    simp only [ih]

theorem map_partOf_repriced (h : List.Forall₂ Repriced signals signals') (s : Setup)
    (vols : Dict ℚ) : signals'.map (s.partOf vols) = signals.map (s.partOf vols) := by
  induction h with
  | nil => rfl
  | cons hsig _ ih => rw [List.map_cons, List.map_cons, hsig.partOf_eq, ih]

theorem Setup.Sound.repriced (hsound : s.Sound signals)
    (h : List.Forall₂ Repriced signals signals') : s.Sound signals' := by
  have hlongs := longs_repriced h
  refine ⟨fun hmode => (hsound.safety hmode).imp_right fun hnone fraction hfraction sig' hsig' =>
    ?_, fun hmode => ?_⟩
  · obtain ⟨sig, hsig, hre⟩ := exists_of_forall₂ hlongs hsig'
    exact fun hfalls => hnone fraction hfraction sig hsig (hre.fallsBack_iff.1 hfalls)
  · rw [volatilitiesOf_repriced hlongs]
    intro vols hvols
    rw [map_partOf_repriced hlongs]
    exact hsound.parts hmode vols hvols

end Repriced

/-! ## A sound setup keeps the ceilings -/

section Sound

variable {s : Setup} {sig fields : Obj} {signals out : List Obj} {vols : Dict ℚ} {price : ℚ}
  {shares : ℤ}

namespace Setup

theorem costOf_sized (hprice : numberField sig "price" 0 = .ok price)
    (hshares : fields.get "shares" = some (.num (.fin shares))) :
    costOf (sig ++ [("vol_target", .obj fields)]) = shares * price := by
  have hfield : ((Obj.get (sig ++ [("vol_target", .obj fields)]) "vol_target").bind
      fun v => v.field "shares") = some (.num (.fin shares)) := by
    rw [← Obj.set, Obj.get_set_self]
    exact hshares
  have hread : numberField (sig ++ [("vol_target", .obj fields)]) "price" 0 = .ok price := by
    rw [← hprice, numberField, numberField, ← Obj.set, Obj.get_set_of_ne _ (by decide)]
  rw [costOf, hfield, hread]

theorem cost_le (hmode : s.mode = .volTarget) (vols : Dict ℚ) (sig : Obj) :
    ((answer (sizeVolTarget s.config s.capitalJson vols
      (computeInverseVolWeights vols (1 / 100))) sig).map costOf).sum ≤
      s.capital * s.partOf vols sig := by
  have hnonneg : 0 ≤ s.capital * s.partOf vols sig :=
    mul_nonneg s.capital_pos.le (s.partOf_nonneg vols sig)
  rw [answer]
  cases h : sizeVolTarget s.config s.capitalJson vols (computeInverseVolWeights vols (1 / 100))
    sig with
  | error e => exact hnonneg
  | ok y =>
    cases y with
    | none => exact hnonneg
    | some s' =>
      obtain ⟨price, fields, hprice, hpos, rfl, hshares⟩ := volTarget_cases hmode h
      show (List.map costOf [_]).sum ≤ _
      rw [List.map_singleton, List.sum_singleton, costOf_sized hprice hshares]
      exact floor_mul_le hpos

theorem size_volTarget (hmode : s.mode = .volTarget) {size : Obj → Except String (Option Obj)}
    (h : s.size signals = .ok size) :
    ∃ vols, volatilitiesOf s.config (longs signals) [] = .ok vols ∧ size =
      sizeVolTarget s.config s.capitalJson vols (computeInverseVolWeights vols (1 / 100)) := by
  rw [Setup.size, hmode] at h
  obtain ⟨vols, hvols, h⟩ := bind_eq_ok.1 h
  cases h
  exact ⟨vols, hvols, rfl⟩

theorem total_le (hmode : s.mode = .volTarget) (hsound : s.Sound signals)
    (h : s.run signals = .ok out) : ((longs out).map costOf).sum ≤ s.capital := by
  obtain ⟨size, hsize, hcollect⟩ := run_longs h
  obtain ⟨vols, hvols, rfl⟩ := size_volTarget hmode hsize
  rw [sum_collect hcollect]
  calc ((longs signals).map _).sum
      ≤ ((longs signals).map fun sig => s.capital * s.partOf vols sig).sum :=
        List.sum_le_sum fun sig _ => cost_le hmode vols sig
    _ = s.capital * ((longs signals).map (s.partOf vols)).sum := List.sum_map_mul_left ..
    _ ≤ s.capital * 1 :=
        mul_le_mul_of_nonneg_left (hsound.parts hmode vols hvols) s.capital_pos.le
    _ = s.capital := mul_one _

/-- **A sound setup keeps the ceilings.** -/
theorem within_of_sound (hsound : s.Sound signals) (h : s.run signals = .ok out) :
    s.Within signals out where
  positions size hsize sig hsig fields hsized := by
    have hne := s.mode_ne
    rw [key] at hsized
    cases hmode : s.mode with
    | kelly =>
      rw [Setup.size, hmode] at hsize
      rw [hmode] at hsized
      obtain ⟨fraction, hfraction, hsize⟩ := bind_eq_ok.1 hsize
      cases hsize
      exact kelly_capped hmode ((hsound.safety hmode).imp_right fun hnone =>
        hnone fraction hfraction sig hsig) hsized
    | fixed =>
      rw [Setup.size, hmode] at hsize
      rw [hmode] at hsized
      cases hsize
      exact fixed_capped hmode hsized
    | fixedFractionalRisk =>
      rw [Setup.size, hmode] at hsize
      rw [hmode] at hsized
      cases hsize
      exact risk_capped hmode hsized
    | volTarget =>
      rw [hmode] at hsized
      obtain ⟨vols, -, rfl⟩ := size_volTarget hmode hsize
      exact volTarget_capped hmode hsized
    | pyramid => exact absurd hmode hne
  total hmode := total_le hmode hsound h

/-! ### Two ways to be sound by the volatility -/

end Setup

end Sound

/-! ## Prices at which an unsound one does not -/

section Unsound

variable {s : Setup} {sig : Obj} {signals : List Obj} {vols : Dict ℚ} {fraction : Option ℚ}
  {price : ℚ}

def withPrices (price : Obj → ℚ) (signals : List Obj) : List Obj :=
  signals.map fun sig => sig.set "price" (.num (.fin (price sig)))

theorem withPrices_repriced (price : Obj → ℚ) (signals : List Obj) :
    List.Forall₂ Repriced signals (withPrices price signals) := by
  rw [withPrices, List.forall₂_map_right_iff]
  exact List.forall₂_same.2 fun sig _ => repriced_set sig _

theorem price_set (sig : Obj) (price : ℚ) :
    numberField (sig.set "price" (.num (.fin price))) "price" 0 = .ok price := by
  rw [numberField, Obj.get_set_self]
  rfl

namespace Setup

theorem sizeKelly_fallsBack {config : Obj} {safety capital : ℚ}
    (hsafety : numberField config "safety_size_pct" 2 = .ok safety)
    (hprice : numberField sig "price" 0 = .ok price) (hpos : 0 < price)
    (hfalls : FallsBack fraction sig) : ∃ stop take,
      sizeKelly config (.num (.fin capital)) fraction sig = .ok (some (sig ++
        [("kelly", .obj ((BoughtShares.buy capital price (safety / 100)).fields stop take))])) := by
  obtain ⟨stop, take, hstop, htake, hfraction⟩ := hfalls
  have htarget : kellyTarget config sig fraction = .ok (safety / 100) := by
    refine bind_eq_ok.2 ⟨stop, hstop, ?_⟩
    cases fraction with
    | none => exact bind_eq_ok.2 ⟨safety, hsafety, rfl⟩
    | some f =>
      dsimp only
      rw [if_pos (hfraction f rfl)]
      exact bind_eq_ok.2 ⟨safety, hsafety, rfl⟩
  refine ⟨stop, take, bind_eq_ok.2 ⟨price, hprice, ?_⟩⟩
  rw [if_neg (not_le.2 hpos)]
  exact bind_eq_ok.2 ⟨capital, rfl, bind_eq_ok.2 ⟨_, htarget, bind_eq_ok.2 ⟨stop, hstop,
    bind_eq_ok.2 ⟨take, htake, rfl⟩⟩⟩⟩

theorem sizeKelly_unpriced {config : Obj} {capital : Json}
    (hprice : numberField sig "price" 0 = .ok 0) :
    sizeKelly config capital fraction sig = .ok none :=
  bind_eq_ok.2 ⟨0, hprice, if_pos le_rfl⟩

theorem run_kelly (hmode : s.mode = .kelly) {out : List Obj}
    (h : runKelly signals s.capitalJson s.tradeHistory s.config = .ok out) :
    s.run signals = .ok out := by
  refine bind_eq_ok.2 ⟨signals, mapM_asDict signals, bind_eq_ok.2 ⟨s.config, rfl, ?_⟩⟩
  refine bind_eq_ok.2 ⟨.kelly, hmode ▸ s.mode_eq, h⟩

theorem run_volTarget (hmode : s.mode = .volTarget) {out : List Obj}
    (h : runVolTarget signals s.capitalJson s.config = .ok out) : s.run signals = .ok out := by
  refine bind_eq_ok.2 ⟨signals, mapM_asDict signals, bind_eq_ok.2 ⟨s.config, rfl, ?_⟩⟩
  refine bind_eq_ok.2 ⟨.volTarget, hmode ▸ s.mode_eq, h⟩

/-- A long that falls back on a safety size above the ceiling exceeds it at some price: where the
safety size pays for one share, and for nothing of the other signals. -/
theorem exceeds_of_fallsBack (hmode : s.mode = .kelly)
    (hover : s.maxPosition.value < s.safetySize.value)
    (hfraction : kellyFraction s.tradeHistory s.config = .ok fraction) (hsig : sig ∈ longs signals)
    (hfalls : FallsBack fraction sig) : ∃ signals', List.Forall₂ Repriced signals signals' ∧
      ∃ out, s.run signals' = .ok out ∧ ¬ s.Within signals' out := by
  obtain ⟨p, hp⟩ : ∃ p, p = s.capital * (s.safetySize.value / 100) := ⟨_, rfl⟩
  have hpos : 0 < p := hp ▸ mul_pos s.capital_pos (div_pos s.safetySize.pos (by norm_num))
  obtain ⟨price, hprice, hzero⟩ :
      ∃ price : Obj → ℚ, price sig = p ∧ ∀ x, x ≠ sig → price x = 0 := by
    classical
    exact ⟨fun x => if x = sig then p else 0, if_pos rfl, fun x hx => if_neg hx⟩
  refine ⟨withPrices price signals, withPrices_repriced price signals, ?_⟩
  obtain ⟨stop, take, hsize⟩ : ∃ stop take, sizeKelly s.config s.capitalJson fraction
      (sig.set "price" (.num (.fin (price sig)))) =
        .ok (some (sig.set "price" (.num (.fin (price sig))) ++ [("kelly", .obj
          ((BoughtShares.buy s.capital p (s.safetySize.value / 100)).fields stop take))])) := by
    rw [hprice]
    exact sizeKelly_fallsBack s.safetySize.read (price_set sig p) hpos
      ((repriced_set sig _).fallsBack_iff.2 hfalls)
  have hanswers : ∀ x ∈ withPrices price signals,
      ∃ y, sizeOne ["long"] (sizeKelly s.config s.capitalJson fraction) x = .ok y := by
    intro x hx
    obtain ⟨x, -, rfl⟩ := List.mem_map.1 hx
    rw [sizeOne]
    split_ifs
    · by_cases hx : x = sig
      · rw [hx]
        exact ⟨_, hsize⟩
      · rw [hzero x hx]
        exact ⟨_, sizeKelly_unpriced (price_set x 0)⟩
    · exact ⟨_, rfl⟩
  obtain ⟨out, hout⟩ := exists_collect hanswers
  refine ⟨out, run_kelly hmode (bind_eq_ok.2 ⟨fraction, hfraction, hout⟩), fun hwithin => ?_⟩
  have hmem : sig.set "price" (.num (.fin (price sig))) ∈ longs (withPrices price signals) := by
    obtain ⟨hpending, hlong⟩ := List.mem_filter.1 hsig
    refine List.mem_filter.2 ⟨List.mem_map_of_mem hpending, ?_⟩
    rw [(repriced_set sig _).actionIs_eq]
    exact hlong
  obtain ⟨shares, hcapped⟩ := hwithin.positions _
    (by rw [Setup.size, hmode]; exact bind_eq_ok.2 ⟨fraction, hfraction, rfl⟩) _ hmem _
    (by rw [key, hmode]; exact hsize)
  have hone : shares = 1 := by
    have hbought : (BoughtShares.buy s.capital p (s.safetySize.value / 100)).shares = 1 := by
      rw [BoughtShares.buy, ← hp]
      exact floor_self hpos.ne'
    have hread : some (Json.num (.fin (BoughtShares.buy s.capital p
        (s.safetySize.value / 100)).shares)) = some (.num (.fin shares)) := hcapped.shares_eq
    rw [hbought] at hread
    simp at hread
    exact_mod_cast hread.symm
  have hworth := hcapped.worth p (by
    rw [priceOf, hmode, hprice]
    exact price_set sig p)
  rw [hone, Int.cast_one, one_mul, ceiling, hp] at hworth
  have hle := le_of_mul_le_mul_left hworth s.capital_pos
  linarith

/-! ### By the volatility -/

theorem volatilitiesOf_reads {config : Obj} {vols vols' : Dict ℚ}
    (h : volatilitiesOf config signals vols = .ok vols') :
    ∀ sig ∈ signals, ∃ symbol, textField sig "symbol" "?" = .ok symbol := by
  induction signals generalizing vols with
  | nil => exact fun _ hsig => by cases hsig
  | cons sig rest ih =>
    obtain ⟨vol, -, h⟩ := bind_eq_ok.1 h
    obtain ⟨symbol, hsymbol, h⟩ := bind_eq_ok.1 h
    exact List.forall_mem_cons.2 ⟨⟨symbol, hsymbol⟩, ih h⟩

theorem cost_eq (hmode : s.mode = .volTarget) (hsymbol : ∃ symbol,
    textField sig "symbol" "?" = .ok symbol)
    (hprice : numberField sig "price" 0 = .ok (s.capital * s.partOf vols sig)) :
    (∃ y, sizeVolTarget s.config s.capitalJson vols (computeInverseVolWeights vols (1 / 100)) sig =
      .ok y) ∧ ((answer (sizeVolTarget s.config s.capitalJson vols
        (computeInverseVolWeights vols (1 / 100))) sig).map costOf).sum =
      s.capital * s.partOf vols sig := by
  obtain ⟨symbol, hsymbol⟩ := hsymbol
  have hnonneg : 0 ≤ s.capital * s.partOf vols sig :=
    mul_nonneg s.capital_pos.le (s.partOf_nonneg vols sig)
  by_cases hpos : s.capital * s.partOf vols sig ≤ 0
  · have hsize : sizeVolTarget s.config s.capitalJson vols
        (computeInverseVolWeights vols (1 / 100)) sig = .ok none :=
      bind_eq_ok.2 ⟨symbol, hsymbol, bind_eq_ok.2 ⟨_, hprice, if_pos hpos⟩⟩
    refine ⟨⟨none, hsize⟩, ?_⟩
    rw [answer_ok hsize]
    exact (le_antisymm hpos hnonneg).symm
  · obtain ⟨s', hsize⟩ : ∃ s', sizeVolTarget s.config s.capitalJson vols
        (computeInverseVolWeights vols (1 / 100)) sig = .ok (some s') := by
      apply Exists.intro
      refine bind_eq_ok.2 ⟨symbol, hsymbol, bind_eq_ok.2 ⟨_, hprice, (if_neg hpos).trans ?_⟩⟩
      exact bind_eq_ok.2 ⟨_, maxPosition_read hmode, bind_eq_ok.2 ⟨s.capital, rfl, rfl⟩⟩
    refine ⟨⟨_, hsize⟩, ?_⟩
    rw [answer_ok hsize]
    obtain ⟨price, fields, hprice', -, rfl, hshares⟩ := volTarget_cases hmode hsize
    obtain rfl := Except.ok.inj (hprice.symm.trans hprice')
    have hone : (BoughtShares.buy s.capital (s.capital * s.partOf vols sig)
        (s.partOf vols sig)).shares = 1 := floor_self (not_le.1 hpos).ne'
    rw [hone] at hshares
    show (List.map costOf [_]).sum = _
    rw [List.map_singleton, List.sum_singleton, costOf_sized hprice hshares, Int.cast_one, one_mul]

/-- Longs whose parts make up more than the whole cost more than the capital at some prices: where
the part of each pays for one share. -/
theorem exceeds_of_parts (hmode : s.mode = .volTarget)
    (hvols : volatilitiesOf s.config (longs signals) [] = .ok vols)
    (hover : 1 < ((longs signals).map (s.partOf vols)).sum) :
    ∃ signals', List.Forall₂ Repriced signals signals' ∧
      ∃ out, s.run signals' = .ok out ∧ ¬ s.Within signals' out := by
  have hre := withPrices_repriced (fun sig => s.capital * s.partOf vols sig) signals
  have hlongs := longs_repriced hre
  refine ⟨_, hre, ?_⟩
  have hvols' : volatilitiesOf s.config
      (longs (withPrices (fun sig => s.capital * s.partOf vols sig) signals)) [] = .ok vols :=
    (volatilitiesOf_repriced hlongs s.config []).trans hvols
  have hcosts : ∀ sig ∈ longs (withPrices (fun sig => s.capital * s.partOf vols sig) signals),
      (∃ y, sizeVolTarget s.config s.capitalJson vols
        (computeInverseVolWeights vols (1 / 100)) sig = .ok y) ∧
      ((answer (sizeVolTarget s.config s.capitalJson vols
        (computeInverseVolWeights vols (1 / 100))) sig).map costOf).sum =
        s.capital * s.partOf vols sig := by
    intro sig hsig
    refine cost_eq hmode (volatilitiesOf_reads hvols' sig hsig) ?_
    obtain ⟨x, -, rfl⟩ := List.mem_map.1 (List.mem_filter.1 hsig).1
    rw [(repriced_set x _).partOf_eq]
    exact price_set x _
  have hanswers : ∀ x ∈ longs (withPrices (fun sig => s.capital * s.partOf vols sig) signals),
      ∃ y, sizeOne ["long"] (sizeVolTarget s.config s.capitalJson vols
        (computeInverseVolWeights vols (1 / 100))) x = .ok y := by
    intro x hx
    rw [sizeOne]
    split_ifs
    · exact (hcosts x hx).1
    · exact ⟨_, rfl⟩
  obtain ⟨sized, hsized⟩ := exists_collect hanswers
  refine ⟨_, run_volTarget hmode (bind_eq_ok.2 ⟨vols, hvols', bind_eq_ok.2 ⟨sized, hsized, rfl⟩⟩),
    fun hwithin => ?_⟩
  have htotal := hwithin.total hmode
  obtain ⟨size, hsize, hcollect⟩ := run_longs (run_volTarget hmode
    (bind_eq_ok.2 ⟨vols, hvols', bind_eq_ok.2 ⟨sized, hsized, rfl⟩⟩))
  obtain ⟨vols', hread, rfl⟩ := size_volTarget hmode hsize
  obtain rfl := Except.ok.inj (hvols'.symm.trans hread)
  rw [sum_collect hcollect, List.map_congr_left fun sig hsig => (hcosts sig hsig).2,
    List.sum_map_mul_left, map_partOf_repriced hlongs] at htotal
  have hmore := mul_lt_mul_of_pos_left hover s.capital_pos
  linarith

end Setup

end Unsound

/-- **The ceilings are kept at all prices exactly where the setup is sound**: no long signal falls
back on a safety size above the ceiling, and the parts of the longs by their volatility make up no
more than the whole. -/
theorem within_iff_sound (s : Setup) (signals : List Obj) :
    (∀ signals', List.Forall₂ Repriced signals signals' → ∀ out, s.run signals' = .ok out →
      s.Within signals' out) ↔ s.Sound signals := by
  constructor
  · intro h
    have hkept : ¬ ∃ signals', List.Forall₂ Repriced signals signals' ∧
        ∃ out, s.run signals' = .ok out ∧ ¬ s.Within signals' out :=
      fun ⟨signals', hre, out, hout, hnot⟩ => hnot (h signals' hre out hout)
    refine ⟨fun hmode => or_iff_not_imp_left.2 fun hover fraction hfraction sig hsig hfalls => ?_,
      fun hmode vols hvols => ?_⟩
    · exact hkept (Setup.exceeds_of_fallsBack hmode (not_le.1 hover) hfraction hsig hfalls)
    · by_contra hover
      exact hkept (Setup.exceeds_of_parts hmode hvols (not_le.1 hover))
  · intro hsound signals' hre out hout
    exact Setup.within_of_sound (hsound.repriced hre) hout

/-- Kelly without a history, and a safety size of 20 percent over a ceiling of 5. -/
def safetySetup : Setup where
  mode := .kelly
  config := [("mode", .str "kelly"), ("max_position_pct", .num (.fin 5)),
    ("safety_size_pct", .num (.fin 20))]
  capital := 10000
  tradeHistory := .arr []
  mode_eq := rfl
  mode_ne := by decide
  capital_pos := by norm_num
  maxPosition := ⟨5, rfl, by norm_num, by norm_num⟩
  safetySize := ⟨20, rfl, by norm_num, by norm_num⟩
  fixed := ⟨5, rfl, by norm_num, by norm_num⟩
  riskPerTrade := ⟨1, rfl, by norm_num, by norm_num⟩

def pendingLong : Obj :=
  [("symbol", .str "A"), ("action", .str "long"), ("price", .num (.fin 100))]

/-- Twenty shares at 100 are worth more than 5 percent of 10000. -/
theorem safety_over_ceiling : ¬ ∀ (s : Setup) (signals out : List Obj),
    s.run signals = .ok out → s.Within signals out := by
  intro h
  have hfalls : Setup.FallsBack none pendingLong := ⟨2, 3, rfl, rfl, nofun⟩
  obtain ⟨stop, take, hsize⟩ : ∃ stop take,
      sizeKelly safetySetup.config safetySetup.capitalJson none pendingLong =
        .ok (some (pendingLong ++
          [("kelly", .obj ((BoughtShares.buy 10000 100 (20 / 100)).fields stop take))])) :=
    Setup.sizeKelly_fallsBack rfl rfl (by norm_num) hfalls
  have hrun : safetySetup.run [pendingLong] = .ok [pendingLong ++
      [("kelly", .obj ((BoughtShares.buy 10000 100 (20 / 100)).fields stop take))]] :=
    Setup.run_kelly rfl (bind_eq_ok.2 ⟨none, rfl, bind_eq_ok.2 ⟨_, hsize, rfl⟩⟩)
  obtain ⟨shares, hcapped⟩ := (h safetySetup _ _ hrun).positions _ rfl pendingLong
    (List.mem_singleton.2 rfl) _ hsize
  have hone : (BoughtShares.buy 10000 100 (20 / 100)).shares = 20 := by decide +kernel
  have hread : some (Json.num (.fin (BoughtShares.buy 10000 100 (20 / 100)).shares)) =
      some (.num (.fin shares)) := hcapped.shares_eq
  have hworth : shares * 100 ≤ (10000 : ℚ) * (5 / 100) := hcapped.worth 100 rfl
  rw [hone] at hread
  simp at hread
  rw [← hread] at hworth
  norm_num at hworth

end NeoTrader.SizingLimits
