import NeoTrader.Trade.Rows

/-!
# The governed paper account

The pure part of the shared paper-execution core: the entry gate of an account whose open positions
have been priced, and the fill of an order.

* `PaperState`, `mtmOf`, `syncPeriodBaselines`, `lossBreaker`, `gateOf`;
* `executeFill`: long, short, exit and hold;
* `PaperWrite`, `PaperWrite.apply`: the two ways in which the account's row changes, as functions of
  the state before the change and of the quotes and the time observed.
-/

namespace NeoTrader

open Js

/-- An open position; the quantity is signed. -/
structure PaperPosition where
  symbol : String
  quantity : ℚ
  avgPrice : ℚ
  deriving DecidableEq

/-- The paper account. The period keys are the numbers of the UTC day and of the UTC Monday. -/
structure PaperState where
  equity : ℚ
  cash : ℚ
  positions : List PaperPosition
  hwm : Option ℚ := none
  dayKey : Option ℤ := none
  dayStartEquity : Option ℚ := none
  weekKey : Option ℤ := none
  weekStartEquity : Option ℚ := none
  deriving DecidableEq

def paperPortfolioInitialCapital : ℚ := 10000

/-- The account of a portfolio that has no row yet. -/
def PaperState.initial : PaperState :=
  { equity := paperPortfolioInitialCapital, cash := paperPortfolioInitialCapital, positions := [] }

/-- The kernel risk floor. -/
structure RiskPolicy where
  maxPositionPct : ℚ
  maxOpenPositions : ℤ
  maxDrawdownHaltPct : ℚ
  maxShortNotionalPct : ℚ
  lossCircuitBreakerEnabled : Bool
  maxDailyLossPct : ℚ
  maxWeeklyLossPct : ℚ
  deriving DecidableEq

/-! ## The entry gate -/

/-- The high-water mark, which a fresh account does not have yet. -/
def PaperState.baseHwm (s : PaperState) : ℚ := s.hwm.getD s.equity

/-- Drawdown from the high-water mark, in percent. -/
def computeDrawdownPct (s : PaperState) : ℚ :=
  if 0 < s.baseHwm then max 0 ((s.baseHwm - s.equity) / s.baseHwm * 100) else 0

/-- Mark-to-market of the open positions at the given prices, one for each position. -/
def mtmOf (s : PaperState) (prices : List ℚ) : ℚ × ℚ :=
  if s.positions = [] then (s.equity, max s.baseHwm s.equity)
  else
    let equity := s.cash + (List.zipWith (fun p pos => p * pos.quantity) prices s.positions).sum
    (equity, max s.baseHwm equity)

/-- The UTC day of a time in milliseconds. -/
def dayKey (now : ℤ) : ℤ := now / 86400000

/-- The Monday of the UTC week. Day 0 of the epoch was a Thursday. -/
def weekKey (now : ℤ) : ℤ := dayKey now - (dayKey now + 3) % 7

/-- Rolls the day and week baselines forward when the period has changed. -/
def syncPeriodBaselines (s : PaperState) (mtmEquity : ℚ) (now : ℤ) : PaperState × Bool :=
  let dayChanged := s.dayKey ≠ some (dayKey now)
  let weekChanged := s.weekKey ≠ some (weekKey now)
  if ¬ dayChanged ∧ ¬ weekChanged then (s, false)
  else
    ({ s with
      dayKey := some (dayKey now)
      dayStartEquity := if dayChanged then some mtmEquity else s.dayStartEquity
      weekKey := some (weekKey now)
      weekStartEquity := if weekChanged then some mtmEquity else s.weekStartEquity }, true)

inductive Period
  | daily | weekly
  deriving DecidableEq

def Period.toString : Period → String
  | .daily => "daily"
  | .weekly => "weekly"

/-- `x.toFixed(2)` of a positive number. -/
def fixed2 (q : ℚ) : ℚ := ⌊q * 100 + 1 / 2⌋ / 100

/-- One period of the loss circuit-breaker: the reason of a trip. -/
def checkPeriodLossLimit (startEquity : Option ℚ) (currentEquity maxLossPct : ℚ) (label : Period) :
    Option Text :=
  match startEquity with
  | none => none
  | some start =>
    if start ≤ 0 then none
    else
      let lossPct := (start - currentEquity) / start
      if maxLossPct ≤ lossPct then
        some [.lit s!"circuit breaker: {label.toString} loss ", .num (.fin (fixed2 (lossPct * 100))),
          .lit "% >= ", .num (.fin (fixed2 (maxLossPct * 100))),
          .lit ("% — new entries blocked until the next " ++
            (if label = .daily then "day" else "week") ++ " (UTC)")]
      else none

/-- The loss circuit-breaker: the period that trips, and why. -/
def lossBreaker (s : PaperState) (mtmEquity : ℚ) (policy : RiskPolicy) : Option (Period × Text) :=
  if policy.lossCircuitBreakerEnabled then
    match checkPeriodLossLimit s.dayStartEquity mtmEquity policy.maxDailyLossPct .daily with
    | some reason => some (.daily, reason)
    | none =>
      (checkPeriodLossLimit s.weekStartEquity mtmEquity policy.maxWeeklyLossPct .weekly).map
        fun reason => (.weekly, reason)
  else none

/-- What the entry gate says: the reason of a refusal, the account to go on with, whether a period
baseline was reset, and the period whose loss tripped the breaker. -/
structure EntryGateResult where
  refusal : Option Text
  state : PaperState
  baselineChanged : Bool
  tripped : Option (Period × Text) := none

def EntryGateResult.pass (g : EntryGateResult) : Bool := g.refusal.isNone

theorem pass_iff {g : EntryGateResult} : g.pass = true ↔ g.refusal = none := by
  simp [EntryGateResult.pass]

/-- What the entry gate observes: one price for each open position, and the time. -/
structure GateView where
  prices : List ℚ
  now : ℤ

/-- **The entry gate of a priced account**: loss circuit-breaker, drawdown halt, position count. -/
def gateOf (s : PaperState) (policy : RiskPolicy) (v : GateView) : EntryGateResult :=
  let mtm := mtmOf s v.prices
  let synced := syncPeriodBaselines s mtm.1 v.now
  match lossBreaker synced.1 mtm.1 policy with
  | some (period, reason) =>
    { refusal := some reason, state := synced.1, baselineChanged := synced.2
      tripped := some (period, reason) }
  | none =>
    let fresh := { synced.1 with equity := mtm.1, hwm := some mtm.2 }
    let drawdown := computeDrawdownPct fresh
    if policy.maxDrawdownHaltPct ≤ drawdown then
      { refusal := some [.lit "circuit breaker: drawdown ", .num (.fin drawdown), .lit "% >= ",
          .num (.fin policy.maxDrawdownHaltPct), .lit "%"]
        state := fresh, baselineChanged := synced.2 }
    else if policy.maxOpenPositions ≤ fresh.positions.length then
      { refusal := some [.lit "max open positions reached (",
          .num (.fin fresh.positions.length), .lit "/", .num (.fin policy.maxOpenPositions),
          .lit ")"]
        state := fresh, baselineChanged := synced.2 }
    else { refusal := none, state := fresh, baselineChanged := synced.2 }

/-! ## Fills -/

/-- The ceiling on an entry: at most `pct` of the equity. -/
def clampToCeiling (qty equity price pct : ℚ) : ℚ :=
  if qty ≤ 0 then qty
  else
    let maxQty : ℚ := ⌊equity * pct / price⌋
    if maxQty < qty then maxQty else qty

/-- No entry exceeds `maxPositionPct` of the equity. -/
def clampToPositionCeiling (qty equity price maxPositionPct : ℚ) : ℚ :=
  clampToCeiling qty equity price maxPositionPct

/-- No short entry exceeds `maxShortNotionalPct` of the equity either. -/
def clampToShortNotionalCeiling (qty equity price maxShortNotionalPct : ℚ) : ℚ :=
  clampToCeiling qty equity price maxShortNotionalPct

/-- The value of the positions, the traded symbol at the fill price, the others at their average. -/
def positionsValue (positions : List PaperPosition) (fillPrice : ℚ) (tradedSymbol : String) : ℚ :=
  positions.foldl (fun sum p =>
    sum + (if p.symbol = tradedSymbol then fillPrice else p.avgPrice) * p.quantity) 0

/-- Rewrite the first position of the symbol. -/
def updateFirst (symbol : String) (f : PaperPosition → PaperPosition) :
    List PaperPosition → List PaperPosition
  | [] => []
  | p :: ps => if p.symbol = symbol then f p :: ps else p :: updateFirst symbol f ps

structure FillResult where
  quantity : ℚ
  realizedPnl : Option ℚ
  newState : PaperState
  noPosition : Bool := false

/-- Nothing traded: only the high-water mark is kept up. -/
def FillResult.nothing (s : PaperState) (baseHwm : ℚ) (noPosition : Bool := false) : FillResult :=
  { quantity := 0, realizedPnl := none
    newState := { s with hwm := some (max baseHwm s.equity) }, noPosition }

/-- The account revalued at the fill price. -/
def PaperState.revalue (s : PaperState) (baseHwm fillPrice : ℚ) (symbol : String) : PaperState :=
  let equity := s.cash + positionsValue s.positions fillPrice symbol
  { s with equity, hwm := some (max baseHwm equity) }

/-- Buys `⌊cash · sizingPct / price⌋` shares under the ceiling; refuses on top of a short. -/
def executeLong (symbol : String) (fillPrice : ℚ) (s : PaperState) (baseHwm sizingPct
    maxPositionPct baseEquity commissionPct : ℚ) : FillResult :=
  let existing := s.positions.find? fun p => p.symbol = symbol
  if existing.any fun p => p.quantity < 0 then .nothing s baseHwm
  else
    let budget := s.cash * sizingPct
    let costPerShare := fillPrice * (1 + commissionPct)
    let quantity := clampToPositionCeiling
      (if 0 < costPerShare then ⌊budget / costPerShare⌋ else 0) baseEquity fillPrice maxPositionPct
    if quantity ≤ 0 then .nothing s baseHwm
    else
      let notional := fillPrice * quantity
      let commission := notional * commissionPct
      let costBasisPrice := (notional + commission) / quantity
      let positions := match existing with
        | some _ => updateFirst symbol (fun p => { p with
            avgPrice := (p.avgPrice * p.quantity + costBasisPrice * quantity) /
              (p.quantity + quantity)
            quantity := p.quantity + quantity }) s.positions
        | none => s.positions ++ [⟨symbol, quantity, costBasisPrice⟩]
      { quantity, realizedPnl := none
        newState := { s with cash := s.cash - (notional + commission), positions }.revalue
          baseHwm fillPrice symbol }

/-- Sells to open under both ceilings; refuses on top of a long. -/
def executeShort (symbol : String) (fillPrice : ℚ) (s : PaperState) (baseHwm sizingPct
    maxPositionPct maxShortNotionalPct baseEquity commissionPct : ℚ) : FillResult :=
  let existing := s.positions.find? fun p => p.symbol = symbol
  if existing.any fun p => 0 < p.quantity then .nothing s baseHwm
  else
    let budget := s.cash * sizingPct
    let notionalPerShare := fillPrice * (1 + commissionPct)
    let quantity := clampToShortNotionalCeiling
      (clampToPositionCeiling (if 0 < notionalPerShare then ⌊budget / notionalPerShare⌋ else 0)
        baseEquity fillPrice maxPositionPct) baseEquity fillPrice maxShortNotionalPct
    if quantity ≤ 0 then .nothing s baseHwm
    else
      let notional := fillPrice * quantity
      let commission := notional * commissionPct
      let netProceeds := notional - commission
      let costBasisPrice := netProceeds / quantity
      let positions := match existing with
        | some _ => updateFirst symbol (fun p => { p with
            avgPrice := (p.avgPrice * |p.quantity| + costBasisPrice * quantity) /
              (|p.quantity| + quantity)
            quantity := -(|p.quantity| + quantity) }) s.positions
        | none => s.positions ++ [⟨symbol, -quantity, costBasisPrice⟩]
      { quantity, realizedPnl := none
        newState := { s with cash := s.cash + netProceeds, positions }.revalue
          baseHwm fillPrice symbol }

/-- Closes the entire position, long or short. -/
def executeExit (symbol : String) (fillPrice : ℚ) (s : PaperState) (baseHwm commissionPct : ℚ) :
    FillResult :=
  match s.positions.find? fun p => p.symbol = symbol with
  | none => .nothing s baseHwm true
  | some pos =>
    let proceeds := fillPrice * pos.quantity
    let commissionCost := |proceeds| * commissionPct
    { quantity := pos.quantity
      realizedPnl := some ((fillPrice - pos.avgPrice) * pos.quantity - commissionCost)
      newState := { s with
        cash := s.cash + (proceeds - commissionCost)
        positions := s.positions.eraseP fun p => p.symbol = symbol }.revalue
          baseHwm fillPrice symbol }

/-- **Applies a trade to the account.** -/
def executeFill (action : TradeAction) (symbol : String) (fillPrice : ℚ) (s : PaperState)
    (sizingPct maxPositionPct maxShortNotionalPct : ℚ) (commissionPct : ℚ := 0) : FillResult :=
  match action with
  | .long => executeLong symbol fillPrice s s.baseHwm sizingPct maxPositionPct s.equity
      commissionPct
  | .short => executeShort symbol fillPrice s s.baseHwm sizingPct maxPositionPct
      maxShortNotionalPct s.equity commissionPct
  | .exit => executeExit symbol fillPrice s s.baseHwm commissionPct
  | .hold => .nothing s s.baseHwm

/-! ## The changes of the account's row -/

/-- A fill of an intent at an observed price, after the entry gate for an entry. -/
structure PaperFill where
  intentId : String
  action : TradeAction
  symbol : String
  price : ℚ
  gate : Option (RiskPolicy × GateView)
  sizingPct : ℚ
  maxPositionPct : ℚ
  maxShortNotionalPct : ℚ

/-- The account that the fill is applied to. -/
def PaperFill.gated (f : PaperFill) (s : PaperState) : PaperState :=
  match f.gate with
  | none => s
  | some (policy, v) => (gateOf s policy v).state

def PaperFill.fill (f : PaperFill) (s : PaperState) : FillResult :=
  executeFill f.action f.symbol f.price (f.gated s) f.sizingPct f.maxPositionPct
    f.maxShortNotionalPct

/-- A change of the account's row: a fill, or the baselines that a refused entry has reset. -/
inductive PaperWrite
  | fill (f : PaperFill)
  | baseline (intentId : String) (policy : RiskPolicy) (v : GateView)

/-- **The account after a change.** -/
def PaperWrite.apply (s : PaperState) : PaperWrite → PaperState
  | .fill f => (f.fill s).newState
  | .baseline _ policy v => (gateOf s policy v).state

/-- The fills among the changes. -/
def PaperWrite.fill? : PaperWrite → Option PaperFill
  | .fill f => some f
  | .baseline .. => none

end NeoTrader
