import Mathlib.Tactic.Linarith
import Mathlib.Tactic.Ring
import NeoTrader.Backtest.Engine

/-!
# The costs of a trade

Costs are added to what an entry costs and taken from what an exit brings. For a short position the
two have changed places.

* `PositionCosted`, `TradeCosted`: what open positions and completed trades have to do with their
  prices; **`replay_costed`**: they do, in every replay;
* `grossPnl`: the profit of a trade without costs;
* **`costs_never_help_iff`**: a trade is no better than without costs iff it is long, or there are
  none; **`short_helped`**: a short that is closed at its own price earns money.
-/

namespace NeoTrader.Engine

open Books

def PositivePrices (prices : Prices Bar) : Prop :=
  ∀ p ∈ prices, ∀ b ∈ p.2, 0 < b.openPrice ∧ 0 < b.closePrice

/-- An open position has cost its shares, with the costs of the entry. -/
structure PositionCosted (cfg : Config) (pos : OpenPosition) : Prop where
  shares : 0 < pos.shares
  price : 0 < pos.entryPrice
  cost : pos.cost = pos.shares * pos.entryPrice * (1 + cfg.costPct)

/-- What a trade has paid for its entry and got for its exit. -/
structure TradeCosted (cfg : Config) (t : CompletedTrade) : Prop where
  shares : 0 < t.shares
  entry : 0 < t.entryPrice
  exit : 0 < t.exitPrice
  long : t.direction = .long → t.pnl =
    t.shares * t.exitPrice * (1 - cfg.costPct) - t.shares * t.entryPrice * (1 + cfg.costPct)
  short : t.direction = .short → t.pnl =
    t.shares * t.entryPrice * (1 + cfg.costPct) - t.shares * t.exitPrice * (1 - cfg.costPct)

/-- The open positions and the completed trades of an account. -/
structure Costed (cfg : Config) (a : Account) : Prop where
  positions : ∀ pos ∈ a.positions.entries, PositionCosted cfg pos
  trades : ∀ t ∈ a.trades, TradeCosted cfg t

section Steps

variable {cfg : Config} {a : Account} {pos : OpenPosition} {price : ℚ} {symbol d d' : String}

theorem closingPnl_long (h : pos.direction = .long) :
    closingPnl cfg pos price = pos.shares * price - closingCost cfg pos price - pos.cost := by
  rw [closingPnl, h]

theorem closingPnl_short (h : pos.direction = .short) :
    closingPnl cfg pos price = pos.cost - (pos.shares * price - closingCost cfg pos price) := by
  rw [closingPnl, h]

theorem Costed.settle (h : Costed cfg a) (hpos : PositionCosted cfg pos) (hprice : 0 < price) :
    Costed cfg (a.settle cfg pos price d d') := by
  refine ⟨h.positions, fun t ht => ?_⟩
  rw [Account.settle, List.mem_append, List.mem_singleton] at ht
  rcases ht with ht | rfl
  · exact h.trades t ht
  · refine ⟨hpos.shares, hpos.price, hprice, fun hlong => ?_, fun hshort => ?_⟩
    · dsimp only
      rw [closingPnl_long hlong, closingCost, hpos.cost]
      ring
    · dsimp only
      rw [closingPnl_short hshort, closingCost, hpos.cost]
      ring

theorem Costed.closeAt (h : Costed cfg a) (hprice : 0 < price) :
    Costed cfg (a.closeAt cfg symbol price d d') := by
  unfold Account.closeAt
  split
  · exact h
  · next pos hpos =>
    have hsettled : Costed cfg (a.settle cfg pos price d d') :=
      h.settle (h.positions pos (mem_of_holding hpos)) hprice
    exact ⟨fun p hp => h.positions p (close_sublist.subset hp), hsettled.trades⟩

theorem sizing_cost (hcost : 0 ≤ cfg.costPct) (hprice : 0 < price) :
    (a.sizing cfg price).2 = (a.sizing cfg price).1 * price * (1 + cfg.costPct) := by
  have hfactor : 1 + cfg.commissionPct + cfg.slippagePct = 1 + cfg.costPct := by
    rw [Config.costPct, add_assoc]
  unfold Account.sizing
  dsimp only
  rw [hfactor]
  split
  · have hne : 1 + cfg.costPct ≠ 0 := by linarith
    field_simp
  · rfl

theorem Costed.openAt {direction : Direction} (h : Costed cfg a) (hcost : 0 ≤ cfg.costPct)
    (hprice : 0 < price) (hnone : a.positions.entry symbol = none) :
    Costed cfg (a.openAt cfg symbol direction price d) := by
  rcases openAt_cases cfg direction price d hnone with
    hsame | ⟨shares, cost, hsizing, hshares, -, -, -, hentries, htrades, -⟩
  · rw [hsame]
    exact h
  · have hpair := sizing_cost (a := a) hcost hprice
    rw [← hsizing] at hpair
    refine ⟨fun pos hpos => ?_, by rw [htrades]; exact h.trades⟩
    rw [hentries, List.mem_append, List.mem_singleton] at hpos
    rcases hpos with hpos | rfl
    · exact h.positions pos hpos
    · exact ⟨hshares, hprice, hpair⟩

end Steps

/-! ## Replays -/

section Replays

variable {cfg : Config} {prices : Prices Bar} {signals : List Signal}

theorem PositivePrices.bar {symbol : String} {b : Bar} (h : PositivePrices prices)
    (hb : b ∈ barsOf prices symbol) : 0 < b.openPrice ∧ 0 < b.closePrice := by
  obtain ⟨p, hp, -, hmem⟩ := barsOf_mem hb
  exact h p hp b hmem

theorem afterSignals_costed (hprices : PositivePrices prices) (hcost : 0 ≤ cfg.costPct) :
    Costed cfg (afterSignals cfg prices signals) :=
  afterSignals_induction ⟨List.forall_mem_nil _, List.forall_mem_nil _⟩
    (fun _ _ _ _ h hbar => h.closeAt (hprices.bar hbar).1)
    (fun _ _ _ _ h hbar hnone => h.openAt hcost (hprices.bar hbar).1 hnone) signals

/-- **Open positions and completed trades** have to do with their prices, in every replay. -/
theorem replay_costed (hprices : PositivePrices prices) (hcost : 0 ≤ cfg.costPct) :
    Costed cfg (replay cfg prices signals) := by
  have hafter : Costed cfg (afterSignals cfg prices signals) := afterSignals_costed hprices hcost
  exact replay_induction hafter fun a pos bar h hpos hbar =>
    h.settle (hafter.positions pos hpos) (hprices.bar hbar).2

/-! ## What costs do -/

/-- The profit of a trade without costs. -/
def grossPnl (t : CompletedTrade) : ℚ :=
  match t.direction with
  | .long => t.shares * (t.exitPrice - t.entryPrice)
  | .short => t.shares * (t.entryPrice - t.exitPrice)

theorem TradeCosted.pnl_eq {t : CompletedTrade} (h : TradeCosted cfg t) :
    t.pnl = grossPnl t + (if t.direction = .long then -1 else 1) *
      (cfg.costPct * (t.shares * (t.entryPrice + t.exitPrice))) := by
  rw [grossPnl]
  cases hdirection : t.direction with
  | long =>
    rw [h.long hdirection, if_pos rfl]
    ring
  | short =>
    rw [h.short hdirection, if_neg nofun]
    ring

/-- **The costs of a trade never help it** iff it is long, or there are none. -/
theorem costs_never_help_iff (hprices : PositivePrices prices)
    (hcost : 0 ≤ cfg.costPct ∧ cfg.costPct < 1) :
    ∀ t ∈ (runBacktest cfg prices signals).trades,
      t.pnl ≤ grossPnl t ↔ t.direction = .long ∨ cfg.costPct = 0 := by
  intro t ht
  have hcosted := (replay_costed hprices hcost.1).trades t ht
  have hvolume : 0 < t.shares * (t.entryPrice + t.exitPrice) :=
    mul_pos hcosted.shares (add_pos hcosted.entry hcosted.exit)
  have hcharged : 0 ≤ cfg.costPct * (t.shares * (t.entryPrice + t.exitPrice)) :=
    mul_nonneg hcost.1 hvolume.le
  rw [hcosted.pnl_eq]
  by_cases hlong : t.direction = .long
  · rw [if_pos hlong]
    exact iff_of_true (by linarith) (.inl hlong)
  · rw [if_neg hlong]
    constructor
    · intro hle
      have hzero : cfg.costPct * (t.shares * (t.entryPrice + t.exitPrice)) = 0 := by linarith
      exact .inr ((mul_eq_zero.1 hzero).resolve_right hvolume.ne')
    · rintro (h | h)
      · exact absurd h hlong
      · rw [h]
        linarith

end Replays

/-! ## A short position at an unchanged price -/

def flatPrices : Prices Bar :=
  [("SPY", [⟨"2024-01-02", 100, 100, 100, 100, 1⟩, ⟨"2024-01-03", 100, 100, 100, 100, 1⟩,
    ⟨"2024-01-04", 100, 100, 100, 100, 1⟩])]

theorem flatPrices_positive : PositivePrices flatPrices := by
  unfold PositivePrices
  decide

def shortSignal : Signal := ⟨"SPY", "short", "2024-01-02"⟩

def longSignal : Signal := ⟨"SPY", "long", "2024-01-02"⟩

/-- A long trade pays its costs. -/
theorem costs_never_help_long : ∃ t ∈ (runBacktest {} flatPrices [longSignal]).trades,
    t.pnl ≤ grossPnl t := by
  have hlong : ∃ t ∈ (runBacktest {} flatPrices [longSignal]).trades, t.direction = .long := by
    decide +kernel
  obtain ⟨t, ht, hdirection⟩ := hlong
  refine ⟨t, ht, ?_⟩
  exact (costs_never_help_iff flatPrices_positive (by decide +kernel) t ht).2 (.inl hdirection)

/-- **A short that is closed at its own price** earns money. -/
theorem short_helped : ¬ ∀ (cfg : Config) (prices : Prices Bar) (signals : List Signal),
    PositivePrices prices → 0 ≤ cfg.costPct ∧ cfg.costPct < 1 →
    ∀ t ∈ (runBacktest cfg prices signals).trades, t.pnl ≤ grossPnl t := by
  intro h
  have hbound := h {} flatPrices [shortSignal] flatPrices_positive (by decide +kernel)
  revert hbound
  decide +kernel

end NeoTrader.Engine
