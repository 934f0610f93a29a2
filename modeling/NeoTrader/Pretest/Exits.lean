import NeoTrader.Pretest.Effects

/-!
# Exits of a pretest

An exit closes the position of its symbol. The rebalance trades of the same cycle, which are computed
from the positions held before, come after it.

* `TakesAll`: a trade for the whole position; `entry_applyTrades_closing`: after one of them the symbol
  has no position;
* **`exit_closed_iff`**: the symbol stays closed exactly if the rebalance does not reopen it;
  **`exit_reopened`**: it may.
-/

namespace NeoTrader

open Js Books

/-! ## Exits -/

/-- **The tool calls exit a symbol**: one of them is an exit that fills, and none of them enters. -/
structure Exits (s : PretestState) (i : CycleInput) (symbol : String) : Prop where
  exits : ∃ tc ∈ i.toolCalls, tc.symbol? = some symbol ∧ tc.rawAction = some "exit" ∧
    (simulateFill (runCycle s i).floor.state i.effectivePolicy i.referenceCloses tc).isSome
  quiet : ∀ tc ∈ i.toolCalls, tc.symbol? = some symbol →
    tc.rawAction ≠ some "long" ∧ tc.rawAction ≠ some "short" ∧ tc.rawAction ≠ some "buy"

/-- **The rebalance buys the symbol**, and the cash covers the purchase when its turn comes. -/
def Reopens (s : PretestState) (i : CycleInput) (symbol : String) : Prop :=
  ∃ earlier t later, (runCycle s i).rebalanceTrades = earlier ++ t :: later ∧
    t.symbol = symbol ∧ t.action = .buy ∧
    t.price * (1 + i.effectivePolicy.commissionPct) * t.quantity ≤
      ((runCycle s i).floor.state.applyTrades ((runCycle s i).trades ++ earlier)
        i.effectivePolicy.commissionPct).cash

/-! ## TakesAll trades -/

/-- A trade for the whole of a position. -/
def TakesAll (pos : PretestPosition) (t : PretestTrade) : Prop :=
  (t.action = .sell ∨ t.action = .close) ∧ 0 < pos.quantity ∧ t.quantity = pos.quantity ∨
    t.action = .cover ∧ pos.quantity < 0 ∧ t.quantity = -pos.quantity

section TakesAll

variable {s : PretestState} {t : PretestTrade} {c : ℚ} {pos : PretestPosition} {symbol : String}

theorem entry_applyTrade_of_ne (ht : t.Sized) (h : symbol ≠ t.symbol) :
    (s.applyTrade t c).positions.entry symbol = s.positions.entry symbol :=
  Effect.entry_of_ne (applyTrade_effect ht) h

theorem applyTrade_of_none (h : s.positions.entry t.symbol = none) (hbuy : t.action ≠ .buy)
    (hshort : t.action ≠ .short) : s.applyTrade t c = s := by
  unfold PretestState.applyTrade PretestState.applyTrade?
  cases haction : t.action with
  | buy => exact absurd haction hbuy
  | short => exact absurd haction hshort
  | sell | close => simp only [PretestState.applySell, h, Option.getD_none]
  | cover => simp only [PretestState.applyCover, h, Option.filter_none, Option.getD_none]

/-- **A closing trade takes the position out.** -/
theorem entry_applyTrade_closing (h : s.positions.entry t.symbol = some pos) (ht : TakesAll pos t) :
    (s.applyTrade t c).positions.entry t.symbol = none := by
  unfold PretestState.applyTrade PretestState.applyTrade?
  rcases ht with ⟨haction, hlong, hquantity⟩ | ⟨haction, hshort, hquantity⟩
  · have hsell : (s.applySell t c).isSome ∧
        ((s.applySell t c).getD s).positions.entry t.symbol = none := by
      simp only [PretestState.applySell, h, hquantity, min_self, sub_self, le_refl, decide_true,
        Option.isSome_some, Option.getD_some, true_and]
      rw [positions_settle_true, Book.entry_close]
    rcases haction with haction | haction <;> rw [haction] <;> exact hsell.2
  · have habs : |pos.quantity| = -pos.quantity := abs_of_neg hshort
    rw [haction]
    simp only [PretestState.applyCover, h, Option.filter_some, hshort, decide_true, if_true, hquantity,
      habs, min_self, if_neg (not_le.2 (neg_pos.2 hshort)), add_neg_cancel, le_refl,
      Option.getD_some]
    rw [positions_settle_true, Book.entry_close]

theorem entry_applyTrades_closing {trades : List PretestTrade}
    (h : s.positions.entry symbol = some pos ∨ s.positions.entry symbol = none)
    (htrades : ∀ t ∈ trades, t.Sized ∧ (t.symbol = symbol → TakesAll pos t))
    (hsome : s.positions.entry symbol = none ∨ ∃ t ∈ trades, t.symbol = symbol) :
    (s.applyTrades trades c).positions.entry symbol = none := by
  induction trades generalizing s with
  | nil => simpa using hsome
  | cons t trades ih =>
    obtain ⟨⟨ht, hclosing⟩, htrades⟩ := List.forall_mem_cons.1 htrades
    by_cases hsymbol : t.symbol = symbol
    · have hgone : (s.applyTrade t c).positions.entry symbol = none := by
        have hwhole := hclosing hsymbol
        rw [← hsymbol] at h ⊢
        rcases h with h | h
        · exact entry_applyTrade_closing h hwhole
        · have haction : t.action ≠ .buy ∧ t.action ≠ .short := by
            rcases hwhole with ⟨haction | haction, -⟩ | ⟨haction, -⟩ <;> simp [haction]
          rw [applyTrade_of_none h haction.1 haction.2]
          exact h
      exact ih (.inr hgone) htrades (.inl hgone)
    · have hsame := entry_applyTrade_of_ne (s := s) (c := c) ht (Ne.symm hsymbol)
      rw [← hsame] at h hsome
      refine ih h htrades (hsome.imp_right ?_)
      rintro ⟨t', ht', heq⟩
      rcases List.mem_cons.1 ht' with rfl | ht'
      · exact absurd heq hsymbol
      · exact ⟨t', ht', heq⟩

end TakesAll

/-! ## The trades of the tool calls -/

section Calls

variable {s : PretestState} {policy : PretestPolicy} {refs : String → Option ℚ} {tc : PretestCall}
  {t : PretestTrade} {last : ℚ}

/-- **A call that does not enter** closes the whole position, if it fills. -/
theorem closing_of_fill (h : FillOf s policy refs tc t last) (hlong : tc.rawAction ≠ some "long")
    (hshort : tc.rawAction ≠ some "short") (hbuy : tc.rawAction ≠ some "buy") :
    ∃ pos, s.positions.entry t.symbol = some pos ∧ TakesAll pos t := by
  have hsized := h.sized
  have hquantity := h.quantity
  have hmap := h.action
  cases haction : t.action with
  | buy =>
    rw [haction, mapIntentAction_buy] at hmap
    exact absurd hmap (not_or.2 ⟨hlong, hbuy⟩)
  | short =>
    rw [haction, mapIntentAction_short] at hmap
    exact absurd hmap hshort
  | sell | close =>
    rw [haction] at hquantity
    simp only [calcQuantity] at hquantity
    split at hquantity
    · next pos hpos =>
      split_ifs at hquantity with hlong
      · exact ⟨pos, hpos, .inl ⟨by simp [haction], hlong, hquantity⟩⟩
      · exact absurd hquantity hsized.ne'
    · exact absurd hquantity hsized.ne'
  | cover =>
    rw [haction] at hquantity
    simp only [calcQuantity] at hquantity
    split at hquantity
    · next pos hpos =>
      split_ifs at hquantity with hneg
      · exact ⟨pos, hpos, .inr ⟨haction, hneg, hquantity.trans (abs_of_neg hneg)⟩⟩
      · exact absurd hquantity hsized.ne'
    · exact absurd hquantity hsized.ne'

variable {i : CycleInput} {symbol : String}

/-- **After the fills of the tool calls the symbol has no position.** -/
theorem entry_fills_none (h : Exits s i symbol) : ((runCycle s i).floor.state.applyTrades
    (runCycle s i).trades i.effectivePolicy.commissionPct).positions.entry symbol = none := by
  obtain ⟨tc, htc, hsymbol, hexit, hfills⟩ := h.exits
  obtain ⟨t, ht⟩ := Option.isSome_iff_exists.1 hfills
  obtain ⟨last, hfill⟩ := simulateFill_cases ht
  have hsame : t.symbol = symbol := Option.some.inj (hfill.symbol.symm.trans hsymbol)
  obtain ⟨pos, hpos, -⟩ := closing_of_fill hfill (by simp [hexit]) (by simp [hexit])
    (by simp [hexit])
  rw [hsame] at hpos
  have hin : t ∈ (runCycle s i).trades := by
    refine List.mem_filterMap.2 ⟨tc, floor_exempt htc ?_, ht⟩
    rw [PretestCall.entrySymbol?, if_neg (by simp [hexit])]
  refine entry_applyTrades_closing (.inl hpos) (fun t ht => ?_) (.inr ⟨t, hin, hsame⟩)
  obtain ⟨tc, htc, last, hfill⟩ := mem_trades ht
  refine ⟨hfill.trade_sized, fun hsymbol => ?_⟩
  rw [← hsymbol] at hpos
  obtain ⟨hlong, hshort, hbuy⟩ := h.quiet tc htc (hsymbol ▸ hfill.symbol)
  obtain ⟨pos', hpos', hclosing⟩ := closing_of_fill hfill hlong hshort hbuy
  rw [hpos] at hpos'
  cases hpos'
  exact hclosing

end Calls

/-! ## The rebalance -/

section Rebalance

variable {s : PretestState} {i : CycleInput} {c : ℚ} {symbol : String}

theorem map_filterMap_sublist {A B K : Type} {f : A → Option B} {g : B → K} {h : A → K}
    (hf : ∀ a b, f a = some b → g b = h a) (l : List A) :
    ((l.filterMap f).map g).Sublist (l.map h) := by
  induction l with
  | nil => exact .slnil
  | cons a l ih =>
    cases ha : f a with
    | none =>
      rw [List.filterMap_cons_none ha]
      exact ih.cons _
    | some b =>
      rw [List.filterMap_cons_some ha, List.map_cons, List.map_cons, hf a b ha]
      exact ih.cons_cons _

/-- **The rebalance has at most one trade for each symbol.** -/
theorem distinct_rebalance : ((i.rebalance s).map PretestTrade.symbol).Nodup := by
  unfold CycleInput.rebalance
  split
  · exact List.nodup_nil
  · unfold buildVolTargetRebalanceTrades
    dsimp only
    split_ifs
    · exact List.nodup_nil
    · exact List.nodup_nil
    · exact List.nodup_nil
    · refine (map_filterMap_sublist (fun pos t ht => (oneRebalanceTrade_cases ht).1) _).nodup ?_
      exact (List.filter_sublist.map _).nodup s.positions.distinct

/-- **Trades that do not buy a symbol for what the cash covers** leave it without a position. -/
theorem entry_applyTrades_none {trades : List PretestTrade}
    (h : s.positions.entry symbol = none)
    (htrades : ∀ t ∈ trades, t.Sized ∧ t.action ≠ .short)
    (hbuys : EachTrade (fun s t => t.symbol = symbol → t.action = .buy →
      s.cash < t.price * (1 + c) * t.quantity) c s trades) :
    (s.applyTrades trades c).positions.entry symbol = none := by
  induction trades generalizing s with
  | nil => exact h
  | cons t trades ih =>
    obtain ⟨hbuy, hbuys⟩ := hbuys
    obtain ⟨⟨ht, hshort⟩, htrades⟩ := List.forall_mem_cons.1 htrades
    rw [applyTrades_cons]
    refine ih ?_ htrades hbuys
    by_cases hsymbol : t.symbol = symbol
    · rw [← hsymbol] at h ⊢
      by_cases haction : t.action = .buy
      · rw [PretestState.applyTrade, PretestState.applyTrade?, haction]
        simp only [applyBuy_eq ht, if_pos (hbuy hsymbol haction), Option.getD_none]
        exact h
      · rw [applyTrade_of_none h haction hshort]
        exact h
    · rw [entry_applyTrade_of_ne ht (Ne.symm hsymbol)]
      exact h

theorem entry_applyTrades_of_ne {trades : List PretestTrade}
    (htrades : ∀ t ∈ trades, t.Sized ∧ t.symbol ≠ symbol) :
    (s.applyTrades trades c).positions.entry symbol = s.positions.entry symbol := by
  induction trades generalizing s with
  | nil => rfl
  | cons t trades ih =>
    obtain ⟨⟨ht, hne⟩, htrades⟩ := List.forall_mem_cons.1 htrades
    rw [applyTrades_cons, ih htrades, entry_applyTrade_of_ne ht (Ne.symm hne)]

theorem entry_applyTrade_buy {t : PretestTrade} (ht : t.Sized) (haction : t.action = .buy)
    (hcash : t.price * (1 + c) * t.quantity ≤ s.cash) :
    ((s.applyTrade t c).positions.entry t.symbol).isSome := by
  rw [PretestState.applyTrade, PretestState.applyTrade?, haction]
  simp only [applyBuy_eq ht, if_neg (not_lt.2 hcash), Option.getD_some, entry_added,
    Option.isSome_some]

end Rebalance

/-! ## Exits and the rebalance -/

section Exit

variable {s : PretestState} {i : CycleInput} {symbol : String}

theorem state_runCycle : (runCycle s i).state = i.mark (((runCycle s i).floor.state.applyTrades
    (runCycle s i).trades i.effectivePolicy.commissionPct).applyTrades (runCycle s i).rebalanceTrades
      i.effectivePolicy.commissionPct) := by
  rw [← applyTrades_append]
  rfl

theorem entry_mark_none :
    (i.mark s).positions.entry symbol = none ↔ s.positions.entry symbol = none := by
  rw [CycleInput.mark, updateEquityMetrics]
  dsimp only
  rw [markedPositions, Book.entry_map, Option.map_eq_none_iff]

/-- **An exit stays closed within its cycle exactly if the rebalance does not reopen the symbol.** -/
theorem exit_closed_iff (h : Exits s i symbol) :
    (runCycle s i).state.positions.entry symbol = none ↔ ¬ Reopens s i symbol := by
  have hclosed := entry_fills_none h
  have hrebalance : ∀ t ∈ (runCycle s i).rebalanceTrades, t.Sized ∧ t.action ≠ .short := by
    intro t ht
    obtain ⟨-, haction, hsized⟩ := mem_rebalance ht
    exact ⟨hsized, by rcases haction with haction | haction <;> simp [haction]⟩
  rw [state_runCycle, entry_mark_none]
  constructor
  · rintro hnone ⟨earlier, t, later, heq, rfl, haction, hcash⟩
    rw [heq, applyTrades_append, applyTrades_cons] at hnone
    rw [applyTrades_append] at hcash
    obtain ⟨ht, -⟩ := hrebalance t (by simp [heq])
    have hdistinct : ((runCycle s i).rebalanceTrades.map PretestTrade.symbol).Nodup :=
      distinct_rebalance
    rw [heq, List.map_append, List.map_cons, List.nodup_append, List.nodup_cons] at hdistinct
    have hlater : ∀ t' ∈ later, t'.Sized ∧ t'.symbol ≠ t.symbol := by
      intro t' ht'
      refine ⟨(hrebalance t' (by simp [heq, ht'])).1, fun hsame => hdistinct.2.1.1 ?_⟩
      rw [← hsame]
      exact List.mem_map_of_mem ht'
    have hbought := entry_applyTrade_buy ht haction hcash
    rw [entry_applyTrades_of_ne hlater] at hnone
    rw [hnone] at hbought
    cases hbought
  · intro hreopens
    refine entry_applyTrades_none hclosed hrebalance
      (eachTrade_iff.2 fun earlier t later heq hsymbol haction => ?_)
    rw [← applyTrades_append, ← not_le]
    exact fun hcash => hreopens ⟨earlier, t, later, heq, hsymbol, haction, hcash⟩

end Exit

/-! ## An exit under an exposure scalar -/

/-- A cycle of one call for `SPY` at 100, with an exposure scalar of 1. -/
def scaledCall (action : String) (prices : List ℚ) : CycleInput :=
  { toolCalls := [{ symbol := some "SPY", action := some action, view := some ⟨prices, 0⟩
                    quote := some 100 }]
    riskPolicy := defaultExecutionPolicy.risk, policy := readPolicy (.obj [])
    exposure := some (some (.num (.fin 1))) }

def boughtFive : PretestState := (runCycle (defaultState 10000) (scaledCall "long" [])).state

theorem exits_boughtFive : Exits boughtFive (scaledCall "exit" [100]) "SPY" := by
  have hfills : (simulateFill (runCycle boughtFive (scaledCall "exit" [100])).floor.state
      (scaledCall "exit" [100]).effectivePolicy (scaledCall "exit" [100]).referenceCloses
      { symbol := some "SPY", action := some "exit", view := some ⟨[100], 0⟩
        quote := some 100 }).isSome := by decide +kernel
  refine ⟨⟨_, List.mem_singleton_self _, rfl, rfl, hfills⟩, fun tc htc _ => ?_⟩
  rw [List.mem_singleton.1 htc]
  decide

theorem exit_closed_boughtFive :
    (runCycle boughtFive (scaledCall "exit" [100])).state.positions.entry "SPY" = none ↔
      ¬ Reopens boughtFive (scaledCall "exit" [100]) "SPY" := exit_closed_iff exits_boughtFive

/-- **The rebalance of the same cycle buys what the exit has sold.** -/
theorem exit_reopened : ¬ ∀ s i symbol, Exits s i symbol →
    (runCycle s i).state.positions.entry symbol = none := by
  intro h
  exact absurd (h _ _ _ exits_boughtFive) (by decide +kernel)

end NeoTrader
