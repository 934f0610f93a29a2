import NeoTrader.Pretest.Cycle
import NeoTrader.Trade.PaperBooks

/-!
# What the trades of a pretest do

* **`floor_onAccount`**: the risk floor leaves cash, positions and results as they are;
* `simulateFill_cases`, `rebalance_cases`: where a trade comes from; `PretestTrade.Sized`: **the trades
  of a cycle** are priced and not empty;
* `Shrinks`: a position is closed or made smaller; **`applyTrade_cases`**: a trade is skipped, adds
  shares, or shrinks a position.
-/

namespace NeoTrader

open Books

/-! ## The risk floor -/

section Floor

variable {riskPolicy : RiskPolicy} {s : PretestState}

theorem onAccount_account : s.onAccount s.account = s := rfl

theorem onAccount_onAccount {a b : PaperState} : (s.onAccount a).onAccount b = s.onAccount b := rfl

theorem floor_step_onAccount {f : Floor} {tc : PretestCall} :
    ∃ a, (f.step riskPolicy tc).state = f.state.onAccount a := by
  unfold Floor.step
  split
  · exact ⟨f.state.account, rfl⟩
  · refine ⟨(gateResult f.state.account riskPolicy tc.view).state, ?_⟩
    dsimp only
    split
    · rfl
    · split_ifs <;> rfl

theorem floor_step_outcomes {f : Floor} {tc : PretestCall} :
    ∃ outcome, (f.step riskPolicy tc).outcomes = f.outcomes ++ [(tc, outcome)] ∧
      (tc.entrySymbol? = none → outcome = .exempt) := by
  unfold Floor.step
  split
  · exact ⟨_, rfl, fun _ => rfl⟩
  · next symbol hsymbol =>
    rw [hsymbol]
    dsimp only
    split
    · exact ⟨_, rfl, fun h => by cases h⟩
    · split_ifs
      all_goals exact ⟨_, rfl, fun h => by cases h⟩

variable (riskPolicy s) in
/-- **Each call has an outcome.** -/
theorem floor_calls (calls : List PretestCall) :
    (applyKernelRiskFloor riskPolicy calls s).outcomes.map Prod.fst = calls := by
  suffices ∀ f : Floor, (calls.foldl (Floor.step riskPolicy) f).outcomes.map Prod.fst =
      f.outcomes.map Prod.fst ++ calls from this { state := s }
  induction calls with
  | nil => exact fun f => (List.append_nil _).symm
  | cons tc calls ih =>
    intro f
    obtain ⟨outcome, houtcomes, -⟩ : ∃ outcome, (f.step riskPolicy tc).outcomes =
      f.outcomes ++ [(tc, outcome)] ∧ _ := floor_step_outcomes
    rw [List.foldl_cons, ih, houtcomes, List.map_append, List.append_assoc]
    rfl

/-- **A call that is not an entry** is let through. -/
theorem floor_exempt {calls : List PretestCall} {tc : PretestCall} (hmem : tc ∈ calls)
    (h : tc.entrySymbol? = none) : tc ∈ (applyKernelRiskFloor riskPolicy calls s).toolCalls := by
  have hexempt : ∀ x ∈ (applyKernelRiskFloor riskPolicy calls s).outcomes,
      x.1.entrySymbol? = none → x.2 = .exempt := by
    refine List.foldlRecOn (motive := fun f : Floor => ∀ x ∈ f.outcomes,
      x.1.entrySymbol? = none → x.2 = .exempt) calls _ (List.forall_mem_nil _)
        fun f hf tc _ x hx => ?_
    obtain ⟨outcome, houtcomes, hstep⟩ : ∃ outcome, (f.step riskPolicy tc).outcomes =
      f.outcomes ++ [(tc, outcome)] ∧ _ := floor_step_outcomes
    rw [houtcomes] at hx
    rcases List.mem_append.1 hx with hx | hx
    · exact hf x hx
    · rw [List.mem_singleton.1 hx]
      exact hstep
  rw [← floor_calls riskPolicy s calls] at hmem
  obtain ⟨x, hx, rfl⟩ := List.mem_map.1 hmem
  refine List.mem_map.2 ⟨x, List.mem_filter.2 ⟨hx, ?_⟩, rfl⟩
  rw [hexempt x hx h]
  rfl

theorem floor_foldl_onAccount {calls : List PretestCall} {f : Floor} {a : PaperState}
    (h : f.state = s.onAccount a) :
    ∃ a, (calls.foldl (Floor.step riskPolicy) f).state = s.onAccount a := by
  induction calls generalizing f a with
  | nil => exact ⟨a, h⟩
  | cons tc calls ih =>
    obtain ⟨b, hb⟩ : ∃ b, (f.step riskPolicy tc).state = f.state.onAccount b :=
      floor_step_onAccount
    rw [h, onAccount_onAccount] at hb
    exact ih hb

variable (riskPolicy s) in
/-- **The floor leaves cash, positions and results as they are.** -/
theorem floor_onAccount (calls : List PretestCall) :
    ∃ a, (applyKernelRiskFloor riskPolicy calls s).state = s.onAccount a :=
  floor_foldl_onAccount onAccount_account.symm

end Floor

/-! ## Where trades come from -/

/-- A trade for some shares; a purchase has a price. -/
structure PretestTrade.Sized (t : PretestTrade) : Prop where
  quantity : 0 < t.quantity
  price : t.action = .buy → 0 < t.price

section Origin

variable {s : PretestState} {policy : PretestPolicy} {refs quotes : String → Option ℚ}
  {tc : PretestCall} {t : PretestTrade}

/-- **The trade of a call**: the call has a symbol, an action and a plausible quote, and the trade has
the price and the quantity that these give. -/
structure FillOf (s : PretestState) (policy : PretestPolicy) (refs : String → Option ℚ)
    (tc : PretestCall) (t : PretestTrade) (last : ℚ) : Prop where
  symbol : tc.symbol? = some t.symbol
  action : mapIntentAction tc.rawAction t.symbol s = some t.action
  quote : tc.quote = some last
  positive : 0 < last
  checked : isQuotePlausible t.symbol last refs = true
  price : t.price = fillPrice t.action last policy
  quantity : t.quantity = calcQuantity t.action t.symbol t.price s policy
  sized : 0 < t.quantity

theorem simulateFill_cases (h : simulateFill s policy refs tc = some t) :
    ∃ last, FillOf s policy refs tc t last := by
  unfold simulateFill at h
  split at h
  · cases h
  · next symbol hsymbol =>
    split at h
    · next action last haction hquote =>
      split_ifs at h with hlast hplausible
      unfold tradeAt at h
      simp only at h
      split_ifs at h with hquantity
      cases h
      exact ⟨last, hsymbol, haction, hquote, not_le.1 hlast, hplausible, rfl, rfl,
        not_le.1 hquantity⟩
    · cases h

theorem mapIntentAction_buy {a : Option String} {symbol : String} :
    mapIntentAction a symbol s = some .buy ↔ a = some "long" ∨ a = some "buy" := by
  cases a with
  | none => simp [mapIntentAction]
  | some a => grind [mapIntentAction]

theorem mapIntentAction_short {a : Option String} {symbol : String} :
    mapIntentAction a symbol s = some .short ↔ a = some "short" := by
  cases a with
  | none => simp [mapIntentAction]
  | some a => grind [mapIntentAction]

theorem fillPrice_buy_pos {last : ℚ} (h : 0 < last) : 0 < fillPrice .buy last policy := by
  have hslippage := policy.slippage_mem.1
  rw [fillPrice, if_pos (.inl rfl)]
  positivity

theorem FillOf.trade_sized {last : ℚ} (h : FillOf s policy refs tc t last) : t.Sized := by
  refine ⟨h.sized, fun hbuy => ?_⟩
  rw [h.price, hbuy]
  exact fillPrice_buy_pos h.positive

/-- **The rebalance trade of a position** buys or sells at the mark of the position. -/
theorem oneRebalanceTrade_cases {pos : PretestPosition} {price delta : ℚ}
    (h : oneRebalanceTrade pos price delta = some t) :
    t.symbol = pos.symbol ∧ (t.action = .buy ∨ t.action = .sell) ∧ 0 < t.price ∧ 0 < t.quantity := by
  unfold oneRebalanceTrade at h
  simp only at h
  split_ifs at h with hprice hdelta hqty hqty
  · cases h
    exact ⟨rfl, .inl rfl, not_le.1 hprice, hqty⟩
  · cases h
    exact ⟨rfl, .inr rfl, not_le.1 hprice, hqty⟩

theorem rebalance_cases {scalar : ℚ}
    (h : t ∈ buildVolTargetRebalanceTrades s scalar quotes refs) :
    (∃ pos ∈ s.positions.entries, 0 < pos.quantity ∧ t.symbol = pos.symbol) ∧
      (t.action = .buy ∨ t.action = .sell) ∧ t.Sized := by
  unfold buildVolTargetRebalanceTrades at h
  simp only at h
  split_ifs at h
  · cases h
  · cases h
  · cases h
  · obtain ⟨pos, hpos, ht⟩ := List.mem_filterMap.1 h
    obtain ⟨hsymbol, haction, hprice, hquantity⟩ := oneRebalanceTrade_cases ht
    obtain ⟨hmem, hlong⟩ := List.mem_filter.1 hpos
    exact ⟨⟨pos, hmem, of_decide_eq_true hlong, hsymbol⟩, haction, hquantity, fun _ => hprice⟩

variable {i : CycleInput} {calls : List PretestCall}

theorem mem_rebalance (h : t ∈ i.rebalance s) :
    (∃ pos ∈ s.positions.entries, 0 < pos.quantity ∧ t.symbol = pos.symbol) ∧
      (t.action = .buy ∨ t.action = .sell) ∧ t.Sized := by
  unfold CycleInput.rebalance at h
  split at h
  · cases h
  · exact rebalance_cases h

theorem mem_fills (h : t ∈ i.fills s calls) :
    ∃ tc ∈ calls, ∃ last, FillOf s i.effectivePolicy i.referenceCloses tc t last := by
  obtain ⟨tc, htc, ht⟩ := List.mem_filterMap.1 h
  exact ⟨tc, htc, simulateFill_cases ht⟩

/-- **The trades of the tool calls** of a cycle. -/
theorem mem_trades (h : t ∈ (runCycle s i).trades) : ∃ tc ∈ i.toolCalls, ∃ last,
    FillOf (runCycle s i).floor.state i.effectivePolicy i.referenceCloses tc t last := by
  obtain ⟨tc, htc, hfill⟩ := mem_fills h
  obtain ⟨x, hx, rfl⟩ := List.mem_map.1 htc
  refine ⟨x.1, ?_, hfill⟩
  rw [← floor_calls i.riskPolicy s i.toolCalls]
  exact List.mem_map_of_mem (List.mem_of_mem_filter hx)

/-- **The trades of a cycle** are priced and not empty. -/
theorem sized_of_mem (h : t ∈ i.fills s calls ++ i.rebalance s) : t.Sized := by
  rcases List.mem_append.1 h with h | h
  · obtain ⟨tc, -, last, hfill⟩ := mem_fills h
    exact hfill.trade_sized
  · exact (mem_rebalance h).2.2

end Origin

/-! ## Shares are added -/

/-- The position with more shares at a price, fewer where the number is negative. -/
def PretestPosition.add (p : PretestPosition) (n price : ℚ) : PretestPosition :=
  { p with toPaperPosition := p.toPaperPosition.add n price }

theorem PretestPosition.symbol_add {p : PretestPosition} {n price : ℚ} {symbol : String}
    (h : p.symbol = symbol) : (p.add n price).symbol = symbol := h

/-- The state after shares have been added at a price. -/
def PretestState.added (s : PretestState) (t : PretestTrade) (n price : ℚ) : PretestState :=
  { s with
    cash := s.cash - price * n
    trades := s.trades ++ [t]
    positions := s.positions.put t.symbol (fun p => p.add n price)
      { symbol := t.symbol, quantity := n, avgPrice := price }
      (fun _ h => PretestPosition.symbol_add h) rfl }

section Added

variable {s : PretestState} {t : PretestTrade} {c n price : ℚ}

theorem positions_added : (s.added t n price).positions = s.positions.put t.symbol
    (fun p => p.add n price) { symbol := t.symbol, quantity := n, avgPrice := price }
    (fun _ h => PretestPosition.symbol_add h) rfl := rfl

theorem entry_added_of_ne {symbol : String} (h : symbol ≠ t.symbol) :
    (s.added t n price).positions.entry symbol = s.positions.entry symbol := by
  rw [positions_added, Book.entry_put_of_ne h]

theorem entry_added : (s.added t n price).positions.entry t.symbol =
    some ((s.positions.entry t.symbol).elim
      { symbol := t.symbol, quantity := n, avgPrice := price } fun p => p.add n price) := by
  rw [positions_added, Book.entry_put]

theorem applyBuy_eq (ht : t.Sized) : s.applyBuy t c =
    if s.cash < t.price * (1 + c) * t.quantity then none
    else some (s.added t t.quantity (t.price * (1 + c))) := by
  have hquantity := ht.quantity.ne'
  have hcost : t.price * t.quantity + t.price * t.quantity * c = t.price * (1 + c) * t.quantity := by
    ring
  have hbasis : t.price * (1 + c) * t.quantity / t.quantity = t.price * (1 + c) := by
    field_simp
  unfold PretestState.applyBuy
  simp only [hcost, hbasis]
  rfl

theorem put_congr {b : Positions} {k : String} {f g : PretestPosition → PretestPosition}
    {e : PretestPosition} {hf : ∀ e, e.symbol = k → (f e).symbol = k}
    {hg : ∀ e, e.symbol = k → (g e).symbol = k} {he : e.symbol = k}
    (hfg : ∀ p, b.entry k = some p → f p = g p) : b.put k f e hf he = b.put k g e hg he := by
  cases h : b.entry k with
  | none =>
    rw [Book.put, Book.put, dif_pos h, dif_pos h]
  | some p =>
    rw [Book.put_of_some h, Book.put_of_some h, Book.amend, Book.amend]
    congr 1
    exact amend_congr h (hfg p h)

theorem applyShort_eq (ht : t.Sized) : s.applyShort t c =
    if ((s.positions.entry t.symbol).any fun p => 0 < p.quantity) ∨ t.price * (1 - c) ≤ 0 then none
    else some (s.added t (-t.quantity) (t.price * (1 - c))) := by
  have hquantity := ht.quantity
  have hnet : t.price * t.quantity - t.price * t.quantity * c =
      t.price * (1 - c) * t.quantity := by ring
  have hbasis : t.price * (1 - c) * t.quantity / t.quantity = t.price * (1 - c) := by
    field_simp
  have hsign : t.price * (1 - c) * t.quantity ≤ 0 ∨ t.quantity ≤ 0 ↔ t.price * (1 - c) ≤ 0 := by
    constructor
    · rintro (h | h)
      · exact nonpos_of_mul_nonpos_left h hquantity
      · exact absurd hquantity (not_lt.2 h)
    · exact fun h => .inl (mul_nonpos_of_nonpos_of_nonneg h hquantity.le)
  unfold PretestState.applyShort
  simp only [hnet, hbasis, hsign]
  by_cases hlong : (s.positions.entry t.symbol).any fun p => decide (0 < p.quantity)
  · rw [if_pos hlong, if_pos (.inl hlong)]
  · by_cases hprice : t.price * (1 - c) ≤ 0
    · rw [if_neg hlong, if_pos hprice, if_pos (.inr hprice)]
    · rw [if_neg hlong, if_neg hprice, if_neg (not_or.2 ⟨hlong, hprice⟩), PretestState.added]
      refine congrArg some ?_
      rw [PretestState.mk.injEq]
      refine ⟨rfl, by ring, put_congr fun p hp => ?_, rfl, rfl, rfl, rfl, rfl, rfl, rfl, rfl, rfl, rfl,
        rfl, rfl, rfl⟩
      have hshort : p.quantity ≤ 0 := by
        rw [hp] at hlong
        simpa using hlong
      have hden : p.quantity + -t.quantity ≠ 0 := by linarith
      have hden' : -p.quantity + t.quantity ≠ 0 := by linarith
      simp only [PretestPosition.add, PaperPosition.add, abs_of_nonpos hshort,
        PretestPosition.mk.injEq, PaperPosition.mk.injEq, true_and, and_true]
      refine ⟨by ring, ?_⟩
      rw [div_eq_div_iff hden' hden]
      ring

end Added

/-! ## Shares are taken out -/

/-- The position with `left` shares. -/
def PretestPosition.leave (p : PretestPosition) (left : ℚ) : PretestPosition :=
  { p with quantity := left }

theorem PretestPosition.symbol_leave {p : PretestPosition} {left : ℚ} {symbol : String}
    (h : p.symbol = symbol) : (p.leave left).symbol = symbol := h

section Settle

variable {s : PretestState} {t : PretestTrade} {pos : PretestPosition} {paid pnl left : ℚ}

theorem positions_settle_true :
    (s.settle t pos paid pnl left true).positions = s.positions.close t.symbol := rfl

theorem positions_settle_false : (s.settle t pos paid pnl left false).positions =
    s.positions.amend t.symbol (fun p => p.leave left)
      fun _ h => PretestPosition.symbol_leave h := rfl

theorem entry_settle_of_ne {closed : Bool} {symbol : String} (h : symbol ≠ t.symbol) :
    (s.settle t pos paid pnl left closed).positions.entry symbol = s.positions.entry symbol := by
  cases closed with
  | true => rw [positions_settle_true, Book.entry_close_of_ne h]
  | false => rw [positions_settle_false, Book.entry_amend_of_ne _ h]

end Settle

/-! ## What one trade does -/

/-- **What one trade does**: nothing, shares are bought or sold short, or some of a position is taken
out and `left` of it stay. -/
inductive Effect (s : PretestState) (t : PretestTrade) (c : ℚ) : PretestState → Prop
  | skipped : Effect s t c s
  | bought : t.action = .buy → t.price * (1 + c) * t.quantity ≤ s.cash →
      Effect s t c (s.added t t.quantity (t.price * (1 + c)))
  | sold : t.action = .short → (∀ p, s.positions.entry t.symbol = some p → p.quantity ≤ 0) →
      0 < t.price * (1 - c) → Effect s t c (s.added t (-t.quantity) (t.price * (1 - c)))
  | shrunk {pos : PretestPosition} {paid pnl left : ℚ} {closed : Bool} :
      s.positions.entry t.symbol = some pos → paid = pos.avgPrice * (pos.quantity - left) + pnl →
      (closed = true → left = 0) → (closed = false → left ≠ 0 ∧ |left| ≤ |pos.quantity|) →
      Effect s t c (s.settle t pos paid pnl left closed)

section Effect

variable {s : PretestState} {t : PretestTrade} {c : ℚ}

theorem applySell_effect (ht : t.Sized) : Effect s t c ((s.applySell t c).getD s) := by
  unfold PretestState.applySell
  split
  · exact .skipped
  · next pos hpos =>
    have hle := min_le_right t.quantity pos.quantity
    refine .shrunk hpos (by ring) (fun hclosed => ?_) fun hopen => ?_
    · have := of_decide_eq_true hclosed
      linarith
    · have hleft := not_le.1 (of_decide_eq_false hopen)
      have hlt : t.quantity < pos.quantity := by
        by_contra hge
        rw [min_eq_right (not_lt.1 hge)] at hleft
        linarith
      rw [min_eq_left hlt.le] at hleft ⊢
      have hpositive := ht.quantity
      rw [abs_of_pos hleft, abs_of_pos (hpositive.trans hlt)]
      exact ⟨hleft.ne', by linarith⟩

theorem applyCover_effect (ht : t.Sized) : Effect s t c ((s.applyCover t c).getD s) := by
  unfold PretestState.applyCover
  split
  · exact .skipped
  · next pos hpos =>
    obtain ⟨hpos, hshort⟩ := Option.filter_eq_some_iff.1 hpos
    have hneg : pos.quantity < 0 := of_decide_eq_true hshort
    have hpositive := ht.quantity
    have hle := min_le_right t.quantity |pos.quantity|
    rw [abs_of_neg hneg] at hle ⊢
    have hqty : 0 < min t.quantity (-pos.quantity) := lt_min hpositive (neg_pos.2 hneg)
    simp only [if_neg (not_le.2 hqty)]
    refine .shrunk hpos (by ring) (fun hclosed => ?_) fun hopen => ?_
    · have := of_decide_eq_true hclosed
      linarith
    · have hleft := not_le.1 (of_decide_eq_false hopen)
      rw [abs_of_neg hleft, abs_of_neg hneg]
      exact ⟨hleft.ne, by linarith⟩

/-- **Each trade has one of the effects.** -/
theorem applyTrade_effect (ht : t.Sized) : Effect s t c (s.applyTrade t c) := by
  unfold PretestState.applyTrade PretestState.applyTrade?
  cases haction : t.action with
  | buy =>
    simp only [applyBuy_eq ht]
    split_ifs with hcash
    · exact .skipped
    · exact .bought haction (not_lt.1 hcash)
  | sell | close => exact applySell_effect ht
  | short =>
    simp only [applyShort_eq ht]
    split_ifs with h
    · exact .skipped
    · obtain ⟨hlong, hprice⟩ := not_or.1 h
      refine .sold haction (fun p hp => ?_) (not_le.1 hprice)
      rw [hp] at hlong
      simpa using hlong
  | cover => exact applyCover_effect ht

theorem Effect.entry_of_ne {s' : PretestState} {symbol : String} (h : Effect s t c s')
    (hne : symbol ≠ t.symbol) : s'.positions.entry symbol = s.positions.entry symbol := by
  cases h with
  | skipped => rfl
  | bought | sold => exact entry_added_of_ne hne
  | shrunk => exact entry_settle_of_ne hne

/-! ## One trade after another -/

/-- **A property of each trade** and of the state when its turn comes. -/
def EachTrade (P : PretestState → PretestTrade → Prop) (c : ℚ) :
    PretestState → List PretestTrade → Prop
  | _, [] => True
  | s, t :: trades => P s t ∧ EachTrade P c (s.applyTrade t c) trades

@[simp] theorem applyTrades_nil : s.applyTrades [] c = s := rfl

@[simp] theorem applyTrades_cons {trades : List PretestTrade} :
    s.applyTrades (t :: trades) c = (s.applyTrade t c).applyTrades trades c := rfl

theorem applyTrades_append {l₁ l₂ : List PretestTrade} :
    s.applyTrades (l₁ ++ l₂) c = (s.applyTrades l₁ c).applyTrades l₂ c := List.foldl_append

theorem eachTrade_iff {P : PretestState → PretestTrade → Prop} {trades : List PretestTrade} :
    EachTrade P c s trades ↔
      ∀ l₁ t l₂, trades = l₁ ++ t :: l₂ → P (s.applyTrades l₁ c) t := by
  induction trades generalizing s with
  | nil => simp [EachTrade]
  | cons t trades ih =>
    rw [EachTrade, ih]
    constructor
    · rintro ⟨ht, hrest⟩ l₁ t' l₂ heq
      cases l₁ with
      | nil =>
        cases heq
        exact ht
      | cons t₁ l₁ =>
        cases heq
        exact hrest l₁ t' l₂ rfl
    · exact fun h => ⟨h [] t trades rfl, fun l₁ t' l₂ heq => h (t :: l₁) t' l₂ (by rw [heq]; rfl)⟩

end Effect

end NeoTrader
