import NeoTrader.Pretest.Accounting

/-!
# The significance of a pretest

The metrics of the significance gate are computed from the log of the trades; the running counters
are kept by the trades themselves.

* `realizedTrades`: the trades of the log that have realized a profit; `LogCounted`: the counters are
  those of these trades; **`counted_of_run`**: they are, in every run;
* `CoversAll`: the metrics count every trade that the counters count;
  **`coversAll_iff`**: they do exactly where the log has no cover;
* `CoversNothing`: no cover of a cycle finds a short position;
  **`coversAll_of_run`**: in the runs in which no short position is covered, nothing is left out;
  **`cover_left_out`**: a cover is.
-/

namespace NeoTrader

/-! ## The metrics -/

structure SignificanceMetrics where
  sharpe : ℚ
  profitFactor : Option ℚ
  winRate : ℚ
  maxDd : ℚ
  nTrades : ℕ
  lossTrades : ℕ
  alphaPct : Option ℚ
  avgWin : ℚ
  avgLoss : ℚ
  payoffRatio : Option ℚ
  expectancy : ℚ

structure WinLossStats where
  profitFactor : Option ℚ
  winRate : ℚ
  losses : ℕ
  avgWin : ℚ
  avgLoss : ℚ
  payoffRatio : Option ℚ
  expectancy : ℚ

/-- A sale or a closing that has realized a profit. -/
def PretestTrade.isClosing (t : PretestTrade) : Bool :=
  (t.action = .sell || t.action = .close) && t.pnl.isSome

/-- The trades that the metrics count. -/
def closingTrades (s : PretestState) : List PretestTrade := s.trades.filter PretestTrade.isClosing

def PretestTrade.profit (t : PretestTrade) : ℚ := t.pnl.getD 0

/-- `Math.round(x * scale) / scale`. -/
def roundTo (scale x : ℚ) : ℚ := ⌊x * scale + 1 / 2⌋ / scale

/-- Wins and losses of `n` trades. -/
def computeWinLossStats (trades : List PretestTrade) (n : ℕ) : WinLossStats :=
  let wins := trades.filter fun t => 0 < t.profit
  let losses := trades.filter fun t => t.profit < 0
  let sumPos := (wins.map PretestTrade.profit).sum
  let sumNeg := (losses.map fun t => |t.profit|).sum
  let winRate : ℚ := wins.length / n
  let lossRate : ℚ := losses.length / n
  let avgWin := if 0 < wins.length then sumPos / wins.length else 0
  let avgLoss := if 0 < losses.length then sumNeg / losses.length else 0
  { profitFactor := if 0 < sumNeg then some (sumPos / sumNeg) else none
    winRate
    losses := losses.length
    avgWin := roundTo 100 avgWin
    avgLoss := roundTo 100 avgLoss
    payoffRatio := if 0 < avgLoss then some (roundTo 10000 (avgWin / avgLoss)) else none
    expectancy := roundTo 100 (winRate * avgWin - lossRate * avgLoss) }

def PretestTrade.returnOf (t : PretestTrade) : ℚ :=
  let costBasis := t.entryPrice.getD t.price * t.quantity
  if 0 < costBasis then t.profit / costBasis else 0

/-- The Sharpe ratio of some returns; a deviation that is negligible counts as none. -/
def sharpeOf (sqrt : ℚ → ℚ) (returns : List ℚ) : ℚ :=
  let n : ℚ := returns.length
  let mean := returns.sum / n
  if returns.length < 2 then 0
  else
    let std := sqrt ((returns.map fun r => (r - mean) ^ 2).sum / (n - 1))
    if std ≤ 1 / 10 ^ 10 ∨ 0 < |mean| ∧ std / |mean| ≤ 1 / 10 ^ 10 then 0 else mean / std

/-- **The significance of a state.** -/
def computeSignificance (sqrt : ℚ → ℚ) (s : PretestState) (initialCapital : Option ℚ) :
    SignificanceMetrics :=
  let alphaPct := match s.benchmarkReturnPct, initialCapital with
    | some benchmark, some capital =>
      if 0 < capital then some ((s.equity - capital) / capital * 100 - benchmark) else none
    | _, _ => none
  let trades := closingTrades s
  let n := trades.length
  if n = 0 then
    { sharpe := 0, profitFactor := none, winRate := 0, maxDd := s.maxDrawdownPct, nTrades := 0
      lossTrades := 0, alphaPct, avgWin := 0, avgLoss := 0, payoffRatio := none, expectancy := 0 }
  else
    let winLoss := computeWinLossStats trades n
    { sharpe := sharpeOf sqrt (trades.map PretestTrade.returnOf)
      profitFactor := winLoss.profitFactor, winRate := winLoss.winRate, maxDd := s.maxDrawdownPct
      nTrades := n, lossTrades := winLoss.losses, alphaPct, avgWin := winLoss.avgWin
      avgLoss := winLoss.avgLoss, payoffRatio := winLoss.payoffRatio
      expectancy := winLoss.expectancy }

theorem nTrades_eq (sqrt : ℚ → ℚ) (s : PretestState) (initialCapital : Option ℚ) :
    (computeSignificance sqrt s initialCapital).nTrades = (closingTrades s).length := by
  unfold computeSignificance
  dsimp only
  split
  · next h => exact h.symm
  · rfl

/-! ## The counters -/

def realizedTrades (s : PretestState) : List PretestTrade := s.trades.filter fun t => t.pnl.isSome

/-- **The counters are those of the log**, and only sales, closings and covers realize a profit. -/
structure LogCounted (s : PretestState) : Prop where
  count : s.winTrades + s.lossTrades = (realizedTrades s).length
  profit : s.realizedPnl = ((realizedTrades s).map PretestTrade.profit).sum
  actions : ∀ t ∈ realizedTrades s, t.action = .sell ∨ t.action = .close ∨ t.action = .cover

section Step

variable {s s' : PretestState} {t : PretestTrade} {c : ℚ}

/-- **What a trade adds to the log**: nothing, an opening trade, or one that settles a profit. -/
inductive Logged (s : PretestState) (t : PretestTrade) : PretestState → Prop
  | skipped : Logged s t s
  | opened {s' : PretestState} : s'.trades = s.trades ++ [t] → s'.realizedPnl = s.realizedPnl →
      s'.winTrades = s.winTrades → s'.lossTrades = s.lossTrades → t.action ≠ .cover → Logged s t s'
  | settled {pos : PretestPosition} {paid pnl left : ℚ} {closed : Bool} :
      t.action = .sell ∨ t.action = .close ∨ t.action = .cover →
      (t.action = .cover → s.positions.entry t.symbol = some pos ∧ pos.quantity < 0) →
      Logged s t (s.settle t pos paid pnl left closed)

theorem applySell_logged (haction : t.action = .sell ∨ t.action = .close) :
    Logged s t ((s.applySell t c).getD s) := by
  unfold PretestState.applySell
  split
  · exact .skipped
  · refine .settled (haction.imp_right .inl) fun hcover => ?_
    rcases haction with h | h
    all_goals
      rw [h] at hcover
      cases hcover

theorem applyCover_logged (haction : t.action = .cover) :
    Logged s t ((s.applyCover t c).getD s) := by
  unfold PretestState.applyCover
  split
  · exact .skipped
  · next pos hpos =>
    obtain ⟨hentry, hshort⟩ := Option.filter_eq_some_iff.1 hpos
    dsimp only
    split
    · exact .skipped
    · exact .settled (.inr (.inr haction)) fun _ => ⟨hentry, of_decide_eq_true hshort⟩

/-- **Each trade is logged.** -/
theorem applyTrade_logged : Logged s t (s.applyTrade t c) := by
  unfold PretestState.applyTrade PretestState.applyTrade?
  cases haction : t.action with
  | buy =>
    dsimp only [PretestState.applyBuy]
    split
    · exact .skipped
    · exact .opened rfl rfl rfl rfl (fun hcover => by cases haction.symm.trans hcover)
  | short =>
    dsimp only [PretestState.applyShort]
    split
    · exact .skipped
    · split
      · exact .skipped
      · exact .opened rfl rfl rfl rfl (fun hcover => by cases haction.symm.trans hcover)
  | sell => exact applySell_logged (.inl haction)
  | close => exact applySell_logged (.inr haction)
  | cover => exact applyCover_logged haction

theorem LogCounted.logged (h : LogCounted s) (hpnl : t.pnl = none) (hlog : Logged s t s') :
    LogCounted s' := by
  cases hlog with
  | skipped => exact h
  | opened htrades hrealized hwin hloss _ =>
    have hsame : realizedTrades s' = realizedTrades s := by
      rw [realizedTrades, htrades, List.filter_append]
      simp [hpnl, realizedTrades]
    exact ⟨by rw [hwin, hloss, hsame, h.count], by rw [hrealized, hsame, h.profit],
      by rw [hsame]; exact h.actions⟩
  | @settled pos paid pnl left closed haction _ =>
    have hmore : realizedTrades (s.settle t pos paid pnl left closed) = realizedTrades s ++
        [{ t with pnl := some pnl, entryPrice := some pos.avgPrice }] := by
      rw [realizedTrades, PretestState.settle, List.filter_append]
      rfl
    refine ⟨?_, ?_, ?_⟩
    · rw [hmore, List.length_append, ← h.count, PretestState.settle]
      dsimp only
      split <;> simp only [List.length_singleton] <;> omega
    · rw [hmore, List.map_append, List.sum_append, ← h.profit]
      simp [PretestState.settle, PretestTrade.profit]
    · intro t' ht'
      rw [hmore, List.mem_append, List.mem_singleton] at ht'
      rcases ht' with ht' | rfl
      · exact h.actions t' ht'
      · exact haction

end Step

/-! ## Runs -/

section Runs

variable {s : PretestState} {i : CycleInput} {calls : List PretestCall} {t : PretestTrade} {c : ℚ}

theorem simulateFill_pnl {policy : PretestPolicy} {refs : String → Option ℚ} {tc : PretestCall}
    (h : simulateFill s policy refs tc = some t) : t.pnl = none := by
  unfold simulateFill at h
  split at h
  · cases h
  · split at h
    · split_ifs at h
      unfold tradeAt at h
      dsimp only at h
      split_ifs at h
      cases h
      rfl
    · cases h

theorem oneRebalanceTrade_pnl {pos : PretestPosition} {price delta : ℚ}
    (h : oneRebalanceTrade pos price delta = some t) : t.pnl = none := by
  unfold oneRebalanceTrade at h
  dsimp only at h
  split_ifs at h
  all_goals
    cases h
    rfl

theorem batch_pnl (h : t ∈ i.batch s calls) : t.pnl = none := by
  rcases List.mem_append.1 h with h | h
  · obtain ⟨tc, -, htc⟩ := List.mem_filterMap.1 h
    exact simulateFill_pnl htc
  · unfold CycleInput.rebalance buildVolTargetRebalanceTrades at h
    dsimp only at h
    split at h
    · cases h
    · split_ifs at h
      · cases h
      · cases h
      · cases h
      · obtain ⟨pos, -, htrade⟩ := List.mem_filterMap.1 h
        exact oneRebalanceTrade_pnl htrade

theorem LogCounted.applyTrades {trades : List PretestTrade} (h : LogCounted s)
    (hpnl : ∀ t ∈ trades, t.pnl = none) : LogCounted (s.applyTrades trades c) := by
  induction trades generalizing s with
  | nil => exact h
  | cons t trades ih =>
    rw [List.forall_mem_cons] at hpnl
    exact ih (h.logged hpnl.1 applyTrade_logged) hpnl.2

/-- **The counters are those of the log**, in every run. -/
theorem counted_of_run {A : CycleInput → List PretestCall → PretestState → Prop}
    {capital charged : ℚ} (h : PretestRun A capital charged s) : LogCounted s := by
  induction h with
  | start => exact ⟨rfl, rfl, List.forall_mem_nil _⟩
  | floor riskPolicy calls hrun ih =>
    obtain ⟨a, ha⟩ := floor_onAccount riskPolicy _ calls
    rw [ha]
    exact ⟨ih.count, ih.profit, ih.actions⟩
  | @cycle _ s i calls hrun _ ih =>
    have htraded : LogCounted (i.traded s calls) := ih.applyTrades fun t ht => batch_pnl ht
    exact ⟨htraded.count, htraded.profit, htraded.actions⟩

/-! ## What the metrics leave out -/

/-- **The metrics count every trade that has realized a profit.** -/
structure CoversAll (s : PretestState) : Prop where
  count : ∀ sqrt initialCapital,
    (computeSignificance sqrt s initialCapital).nTrades = s.winTrades + s.lossTrades
  profit : ((closingTrades s).map PretestTrade.profit).sum = s.realizedPnl

theorem closingTrades_eq (s : PretestState) : closingTrades s =
    (realizedTrades s).filter fun t => t.action = .sell || t.action = .close := by
  rw [closingTrades, realizedTrades, List.filter_filter]
  rfl

/-- **The covers are left out**, and nothing else. -/
theorem coversAll_iff (h : LogCounted s) :
    CoversAll s ↔ ∀ t ∈ realizedTrades s, t.action ≠ .cover := by
  constructor
  · intro hall t ht hcover
    have hcount := hall.count id none
    rw [nTrades_eq, h.count, closingTrades_eq, List.length_filter_eq_length_iff] at hcount
    have hclosing := hcount t ht
    rw [hcover] at hclosing
    cases hclosing
  · intro hnone
    have hsame : closingTrades s = realizedTrades s := by
      rw [closingTrades_eq, List.filter_eq_self]
      intro t ht
      rcases h.actions t ht with haction | haction | haction
      · rw [haction]
        rfl
      · rw [haction]
        rfl
      · exact absurd haction (hnone t ht)
    exact ⟨fun sqrt initialCapital => by rw [nTrades_eq, hsame, h.count], by rw [hsame, h.profit]⟩

def FindsNoShort (s : PretestState) (t : PretestTrade) : Prop :=
  t.action = .cover → ∀ p, s.positions.entry t.symbol = some p → 0 ≤ p.quantity

/-- **No short position is covered**: no cover of a cycle finds one when its turn comes. -/
def CoversNothing (i : CycleInput) (toolCalls : List PretestCall) (s : PretestState) : Prop :=
  EachTrade FindsNoShort i.effectivePolicy.commissionPct s (i.batch s toolCalls)

theorem no_cover_logged {s' : PretestState} (hs : ∀ t ∈ s.trades, t.action ≠ .cover)
    (ht : FindsNoShort s t) (hlog : Logged s t s') : ∀ t ∈ s'.trades, t.action ≠ .cover := by
  cases hlog with
  | skipped => exact hs
  | opened htrades _ _ _ hne =>
    rw [htrades, List.forall_mem_append, List.forall_mem_singleton]
    exact ⟨hs, hne⟩
  | @settled pos paid pnl left closed _ hshort =>
    have htrades : (s.settle t pos paid pnl left closed).trades = s.trades ++
        [{ t with pnl := some pnl, entryPrice := some pos.avgPrice }] := rfl
    rw [htrades, List.forall_mem_append, List.forall_mem_singleton]
    refine ⟨hs, fun hcover => ?_⟩
    obtain ⟨hentry, hneg⟩ := hshort hcover
    exact absurd (ht hcover pos hentry) (not_le.2 hneg)

theorem no_cover_applyTrades {trades : List PretestTrade} (hs : ∀ t ∈ s.trades, t.action ≠ .cover)
    (h : EachTrade FindsNoShort c s trades) :
    ∀ t ∈ (s.applyTrades trades c).trades, t.action ≠ .cover := by
  induction trades generalizing s with
  | nil => exact hs
  | cons t trades ih => exact ih (no_cover_logged hs h.1 applyTrade_logged) h.2

theorem no_cover_of_run {capital charged : ℚ} (h : PretestRun CoversNothing capital charged s) :
    ∀ t ∈ s.trades, t.action ≠ .cover := by
  induction h with
  | start => exact List.forall_mem_nil _
  | floor riskPolicy calls hrun ih =>
    obtain ⟨a, ha⟩ := floor_onAccount riskPolicy _ calls
    rw [ha]
    exact ih
  | cycle i calls hrun hcovers ih => exact no_cover_applyTrades ih hcovers

/-- **Where no short position is covered**, the metrics count every trade that has realized a
profit, in every state of the run. -/
theorem coversAll_of_run {capital charged : ℚ} (h : PretestRun CoversNothing capital charged s) :
    CoversAll s :=
  (coversAll_iff (counted_of_run h)).2 fun t ht =>
    no_cover_of_run h t (List.mem_of_mem_filter ht)

end Runs

/-! ## A round trip on either side -/

def boughtFirst : PretestState :=
  (runCycle (defaultState 10000) (oneCallCycle (spyCall "long" []))).state

def soldAgain : PretestState := (runCycle boughtFirst (oneCallCycle (spyCall "exit" []))).state

def covered : PretestState := (runCycle soldShort (oneCallCycle (spyCall "exit" []))).state

theorem coversNothing_bought {s : PretestState} {i : CycleInput} {calls : List PretestCall}
    (h : (i.batch s calls).all fun t => t.action ≠ .cover) : CoversNothing i calls s := by
  refine eachTrade_iff.2 fun l₁ t l₂ heq hcover => ?_
  rw [List.all_eq_true] at h
  have hne := h t (heq ▸ List.mem_append_right l₁ List.mem_cons_self)
  exact absurd hcover (of_decide_eq_true hne)

/-- A purchase and a sale are counted. -/
theorem coversAll_soldAgain : CoversAll soldAgain := by
  obtain ⟨charged, hbought⟩ := (PretestRun.start : PretestRun CoversNothing 10000 0 _).runCycle
    (oneCallCycle (spyCall "long" [])) (coversNothing_bought (by decide +kernel))
  obtain ⟨charged, hsold⟩ := hbought.runCycle (oneCallCycle (spyCall "exit" []))
    (coversNothing_bought (by decide +kernel))
  exact coversAll_of_run hsold

theorem covered_counters : covered.winTrades + covered.lossTrades = 1 ∧
    (closingTrades covered).length = 0 := by decide +kernel

/-- **A cover is left out.** -/
theorem cover_left_out : ¬ ∀ capital charged s,
    PretestRun (fun _ _ _ => True) capital charged s → CoversAll s := by
  intro h
  obtain ⟨charged, hsold⟩ := (PretestRun.start : PretestRun (fun _ _ _ => True) 10000 0 _).runCycle
    (oneCallCycle (spyCall "short" [])) trivial
  obtain ⟨charged, hcovered⟩ := hsold.runCycle (oneCallCycle (spyCall "exit" [])) trivial
  have hcount : (computeSignificance id covered none).nTrades =
      covered.winTrades + covered.lossTrades := (h _ _ _ hcovered).count id none
  obtain ⟨hone, hzero⟩ := covered_counters
  rw [nTrades_eq, hone, hzero] at hcount
  cases hcount

end NeoTrader
