import NeoTrader.Pretest.Portfolio

/-!
# One cycle of a pretest

The fills of the tool calls, the rebalance trades of the exposure scalar, their application one after
another, and the revaluation of the portfolio.

* `mapIntentAction`, `calcQuantity`, **`simulateFill`**: the trade of one call;
* `applyBuy`, `applySell`, `applyShort`, `applyCover`, **`applyTrade`**: what one trade does, if it is
  not skipped;
* `updateEquityMetrics`, **`runCycle`**.
-/

namespace NeoTrader

open Js Books

/-! ## Quotes -/

/-- The largest deviation of a quote from its reference close. -/
def maxFillPriceDeviation : ℚ := 1 / 2

/-- The benchmark of the alpha gate. -/
def benchmarkSymbol : String := "SPY"

/-- A quote is close to its reference; without one it cannot be checked. -/
def isQuotePlausible (symbol : String) (last : ℚ) (referenceCloses : String → Option ℚ) : Bool :=
  match referenceCloses symbol with
  | none => true
  | some ref => ref ≤ 0 || |last / ref - 1| ≤ maxFillPriceDeviation

/-- A quote that can price a position. -/
def freshMark (symbol : String) (quote : Option ℚ) (referenceCloses : String → Option ℚ) :
    Option ℚ :=
  quote.filter fun last => 0 < last && isQuotePlausible symbol last referenceCloses

/-- The fresh mark of a position, or its last known price, or its cost basis. -/
def PretestPosition.markOf (pos : PretestPosition) (quotes referenceCloses : String → Option ℚ) :
    ℚ :=
  (freshMark pos.symbol (quotes pos.symbol) referenceCloses).getD
    (pos.currentPrice.getD pos.avgPrice)

/-! ## The fills of the tool calls -/

/-- The action of a call in the vocabulary of the fill engine; an exit goes by the side of the
position. -/
def mapIntentAction (rawAction : Option String) (symbol : String) (state : PretestState) :
    Option FillAction :=
  match rawAction with
  | none => none
  | some action =>
    if action = "hold" then none
    else if action = "long" then some .buy
    else if action = "short" then some .short
    else if action = "exit" then
      match state.positions.entry symbol with
      | none => none
      | some pos =>
        if pos.quantity = 0 then none else if 0 < pos.quantity then some .close else some .cover
    else if action = "buy" then some .buy
    else if action = "sell" then some .sell
    else if action = "close" then some .close
    else if action = "cover" then some .cover
    else none

/-- The shares of a trade: those that the budget buys, or those that are held. -/
def calcQuantity (action : FillAction) (symbol : String) (price : ℚ) (state : PretestState)
    (policy : PretestPolicy) : ℚ :=
  match action with
  | .buy =>
    let budget := state.cash * policy.sizingPct
    let costPerShare := price * (1 + policy.commissionPct)
    if 0 < costPerShare then ⌊budget / costPerShare⌋ else 0
  | .short =>
    let budget := state.cash * policy.sizingPct
    let notionalPerShare := price * (1 + policy.commissionPct)
    if 0 < notionalPerShare then ⌊budget / notionalPerShare⌋ else 0
  | .cover =>
    match state.positions.entry symbol with
    | some pos => if pos.quantity < 0 then |pos.quantity| else 0
    | none => 0
  | .sell | .close =>
    match state.positions.entry symbol with
    | some pos => if 0 < pos.quantity then pos.quantity else 0
    | none => 0

/-- The price of a fill, with slippage against the trader. -/
def fillPrice (action : FillAction) (last : ℚ) (policy : PretestPolicy) : ℚ :=
  if action = .buy ∨ action = .cover then last * (1 + policy.slippagePct)
  else last * (1 - policy.slippagePct)

/-- A trade at a quote, unless it is empty. -/
def tradeAt (action : FillAction) (symbol : String) (last : ℚ) (state : PretestState)
    (policy : PretestPolicy) : Option PretestTrade :=
  let price := fillPrice action last policy
  let quantity := calcQuantity action symbol price state policy
  if quantity ≤ 0 then none else some { symbol, action, price, quantity }

/-- **The trade of one tool call.** -/
def simulateFill (state : PretestState) (policy : PretestPolicy)
    (referenceCloses : String → Option ℚ) (tc : PretestCall) : Option PretestTrade :=
  match tc.symbol? with
  | none => none
  | some symbol =>
    match mapIntentAction tc.rawAction symbol state, tc.quote with
    | some action, some last =>
      if last ≤ 0 then none
      else if ¬ isQuotePlausible symbol last referenceCloses then none
      else tradeAt action symbol last state policy
    | _, _ => none

/-- The trades of the tool calls, all of them sized by the state before the first one. -/
def simulateFills (toolCalls : List PretestCall) (state : PretestState) (policy : PretestPolicy)
    (referenceCloses : String → Option ℚ) : List PretestTrade :=
  toolCalls.filterMap (simulateFill state policy referenceCloses)

/-! ## The rebalance -/

/-- The trade of a position towards its share of the change. -/
def oneRebalanceTrade (pos : PretestPosition) (price symbolDeltaUsd : ℚ) : Option PretestTrade :=
  if price ≤ 0 then none
  else if 0 < symbolDeltaUsd then
    let qty : ℚ := ⌊symbolDeltaUsd / price⌋
    if 0 < qty then some { symbol := pos.symbol, action := .buy, price, quantity := qty } else none
  else
    let qty := min pos.quantity ⌊|symbolDeltaUsd| / price⌋
    if 0 < qty then some { symbol := pos.symbol, action := .sell, price, quantity := qty } else none

/-- **The rebalance trades** of the long positions towards the scalar's share of the equity. -/
def buildVolTargetRebalanceTrades (state : PretestState) (exposureScalar : ℚ)
    (quotes referenceCloses : String → Option ℚ) : List PretestTrade :=
  let longPositions := state.positions.entries.filter fun p => 0 < p.quantity
  if longPositions = [] ∨ exposureScalar < 0 then []
  else
    let priceOf (pos : PretestPosition) := pos.markOf quotes referenceCloses
    let currentInvested := (longPositions.map fun p => p.quantity * priceOf p).sum
    if currentInvested ≤ 0 then []
    else
      let delta := exposureScalar * state.equity - currentInvested
      if |delta| < 1 then []
      else longPositions.filterMap fun pos =>
        oneRebalanceTrade pos (priceOf pos) (delta * (pos.quantity * priceOf pos / currentInvested))

/-! ## The application of a trade -/

namespace PretestState

variable (state : PretestState) (trade : PretestTrade)

/-- A closing trade: what it pays, its profit, and what is left of the position. -/
def settle (pos : PretestPosition) (paid pnl left : ℚ) (closed : Bool) : PretestState :=
  { state with
    cash := state.cash + paid
    realizedPnl := state.realizedPnl + pnl
    winTrades := if 0 < pnl then state.winTrades + 1 else state.winTrades
    lossTrades := if 0 < pnl then state.lossTrades else state.lossTrades + 1
    positions :=
      if closed then state.positions.close trade.symbol
      else state.positions.amend trade.symbol (fun p => { p with quantity := left }) fun _ h => h
    trades := state.trades ++ [{ trade with pnl := some pnl, entryPrice := some pos.avgPrice }] }

/-- Buys, if the cash is enough. -/
def applyBuy (commissionPct : ℚ) : Option PretestState :=
  let notional := trade.price * trade.quantity
  let buyCommission := notional * commissionPct
  let totalCost := notional + buyCommission
  if state.cash < totalCost then none
  else
    let costBasisPrice := (notional + buyCommission) / trade.quantity
    some { state with
      cash := state.cash - totalCost
      trades := state.trades ++ [trade]
      positions := state.positions.put trade.symbol
        (fun p => { p with
          avgPrice := (p.avgPrice * p.quantity + costBasisPrice * trade.quantity) /
            (p.quantity + trade.quantity)
          quantity := p.quantity + trade.quantity })
        { symbol := trade.symbol, quantity := trade.quantity, avgPrice := costBasisPrice }
        (fun _ h => h) rfl }

/-- Sells what is held, at most the quantity of the trade. -/
def applySell (commissionPct : ℚ) : Option PretestState :=
  match state.positions.entry trade.symbol with
  | none => none
  | some pos =>
    let qty := min trade.quantity pos.quantity
    let proceeds := trade.price * qty
    let commissionCost := proceeds * commissionPct
    let pnl := (trade.price - pos.avgPrice) * qty - commissionCost
    some (state.settle trade pos (proceeds - commissionCost) pnl (pos.quantity - qty)
      (pos.quantity - qty ≤ 0))

/-- Sells short, unless the symbol is held long. -/
def applyShort (commissionPct : ℚ) : Option PretestState :=
  if (state.positions.entry trade.symbol).any fun p => 0 < p.quantity then none
  else
    let notional := trade.price * trade.quantity
    let sellCommission := notional * commissionPct
    let netProceeds := notional - sellCommission
    if netProceeds ≤ 0 ∨ trade.quantity ≤ 0 then none
    else
      let costBasisPrice := netProceeds / trade.quantity
      some { state with
        cash := state.cash + netProceeds
        trades := state.trades ++ [trade]
        positions := state.positions.put trade.symbol
          (fun p => { p with
            avgPrice := (p.avgPrice * |p.quantity| + costBasisPrice * trade.quantity) /
              (|p.quantity| + trade.quantity)
            quantity := -(|p.quantity| + trade.quantity) })
          { symbol := trade.symbol, quantity := -trade.quantity, avgPrice := costBasisPrice }
          (fun _ h => h) rfl }

/-- Buys back a short position, at most the quantity of the trade. -/
def applyCover (commissionPct : ℚ) : Option PretestState :=
  match (state.positions.entry trade.symbol).filter fun p => p.quantity < 0 with
  | none => none
  | some pos =>
    let qty := min trade.quantity |pos.quantity|
    if qty ≤ 0 then none
    else
      let cost := trade.price * qty
      let commissionCost := cost * commissionPct
      let pnl := (pos.avgPrice - trade.price) * qty - commissionCost
      some (state.settle trade pos (-(cost + commissionCost)) pnl (pos.quantity + qty)
        (0 ≤ pos.quantity + qty))

/-- **One trade**; `none` where it is skipped. -/
def applyTrade? (commissionPct : ℚ) : Option PretestState :=
  match trade.action with
  | .buy => state.applyBuy trade commissionPct
  | .sell | .close => state.applySell trade commissionPct
  | .short => state.applyShort trade commissionPct
  | .cover => state.applyCover trade commissionPct

/-- A skipped trade changes nothing. -/
def applyTrade (commissionPct : ℚ) : PretestState :=
  (state.applyTrade? trade commissionPct).getD state

/-- **The trades are applied one after another.** -/
def applyTrades (trades : List PretestTrade) (commissionPct : ℚ) : PretestState :=
  trades.foldl (fun s t => s.applyTrade t commissionPct) state

end PretestState

/-! ## The revaluation -/

/-- The fee of a short position for one cycle. -/
def borrowCost (policy : PretestPolicy) (pos : PretestPosition) (marketPrice : ℚ) : ℚ :=
  if pos.quantity < 0 ∧ 0 < policy.borrowCostPct then
    |pos.quantity| * marketPrice * policy.borrowCostPct
  else 0

/-- The fees of all short positions. -/
def borrowCosts (policy : PretestPolicy) (quotes referenceCloses : String → Option ℚ)
    (state : PretestState) : ℚ :=
  (state.positions.entries.map fun pos =>
    borrowCost policy pos (pos.markOf quotes referenceCloses)).sum

def markedPositions (quotes referenceCloses : String → Option ℚ) (positions : Positions) :
    Positions :=
  positions.map (fun pos => { pos with
    currentPrice := some (pos.markOf quotes referenceCloses)
    unrealizedPnl := some ((pos.markOf quotes referenceCloses - pos.avgPrice) * pos.quantity) })
    fun _ => rfl

/-- **The revaluation**: marks, borrow fees, equity, benchmark, drawdown. -/
def updateEquityMetrics (state : PretestState) (policy : PretestPolicy)
    (quotes : String → Option ℚ) (benchmark : Option ℚ) (referenceCloses : String → Option ℚ) :
    PretestState :=
  let positions := markedPositions quotes referenceCloses state.positions
  let cash := state.cash - borrowCosts policy quotes referenceCloses state
  let posValue := (positions.entries.map fun p =>
    p.currentPrice.getD p.avgPrice * p.quantity).sum
  let equity := cash + posValue
  let bench := freshMark benchmarkSymbol benchmark referenceCloses
  let benchmarkStartPrice := state.benchmarkStartPrice.or bench
  let maxEquity := if state.maxEquity < equity then equity else state.maxEquity
  let dd := if 0 < maxEquity then (maxEquity - equity) / maxEquity * 100 else 0
  { state with
    positions, cash, equity, maxEquity, benchmarkStartPrice
    benchmarkReturnPct := match bench with
      | none => state.benchmarkReturnPct
      | some last => benchmarkStartPrice.map fun start => (last - start) / start * 100
    maxDrawdownPct := if state.maxDrawdownPct < dd then dd else state.maxDrawdownPct }

/-! ## The cycle -/

/-- What a cycle works with: the merged tool calls, the policies, the answer of the exposure hook
where a plugin has one, and what is observed: reference closes, the quotes of the rebalance and of the
revaluation, and the benchmark. -/
structure CycleInput where
  toolCalls : List PretestCall
  riskPolicy : RiskPolicy
  policy : PretestPolicy
  exposure : Option (Option Json) := none
  referenceCloses : String → Option ℚ := fun _ => none
  rebalanceQuotes : String → Option ℚ := fun _ => none
  quotes : String → Option ℚ := fun _ => none
  benchmark : Option ℚ := none

/-- A scalar that is not a number of at least 0 is 0. -/
def scalarOf : Option Json → ℚ
  | some (.num (.fin raw)) => if 0 ≤ raw then raw else 0
  | _ => 0

theorem scalarOf_nonneg (raw : Option Json) : 0 ≤ scalarOf raw := by
  unfold scalarOf
  split
  · split_ifs with h
    · exact h
    · exact le_rfl
  · exact le_rfl

/-- The policy of the fills; an exposure scalar throttles new entries. -/
def CycleInput.effectivePolicy (i : CycleInput) : PretestPolicy :=
  match i.exposure with
  | none => i.policy
  | some raw =>
    if scalarOf raw = 1 then i.policy else i.policy.scaled (scalarOf raw) (scalarOf_nonneg raw)

structure CycleResult where
  floor : Floor
  trades : List PretestTrade
  rebalanceTrades : List PretestTrade
  state : PretestState

/-- The rebalance trades of a cycle, where a plugin has an exposure scalar. -/
def CycleInput.rebalance (i : CycleInput) (state : PretestState) : List PretestTrade :=
  match i.exposure with
  | none => []
  | some raw =>
    buildVolTargetRebalanceTrades state (scalarOf raw) i.rebalanceQuotes i.referenceCloses

/-- The fills of some tool calls. -/
def CycleInput.fills (i : CycleInput) (state : PretestState) (toolCalls : List PretestCall) :
    List PretestTrade :=
  simulateFills toolCalls state i.effectivePolicy i.referenceCloses

/-- The revaluation at the end of a cycle. -/
def CycleInput.mark (i : CycleInput) (state : PretestState) : PretestState :=
  updateEquityMetrics state i.effectivePolicy i.quotes i.benchmark i.referenceCloses

/-- **One cycle**: risk floor, fills, rebalance, application, revaluation. -/
def runCycle (state : PretestState) (i : CycleInput) : CycleResult :=
  let gated := applyKernelRiskFloor i.riskPolicy i.toolCalls state
  let trades := i.fills gated.state gated.toolCalls
  let rebalanceTrades := i.rebalance gated.state
  let newState := gated.state.applyTrades (trades ++ rebalanceTrades) i.effectivePolicy.commissionPct
  { floor := gated, trades, rebalanceTrades, state := i.mark newState }

end NeoTrader
