import NeoTrader.Trade.RealOrder

/-!
# The execution policy and the gates of real money

* `ExecutionPolicy`, `policyOf`, `readExecutionPolicy`: twelve settings, each with its default and
  its bounds;
* `checkWalkForwardGate`, `effectiveMode`: a real entry needs a fresh `ROBUSTO` verdict;
* `getRealAccountState`: the latest snapshot of the real account, if it is fresh.
-/

namespace NeoTrader

open Js Await

structure ExecutionPolicy where
  autonomous : Bool := true
  maxPositionPct : ℚ := 1 / 10
  maxOpenPositions : ℤ := 10
  maxDrawdownHaltPct : ℚ := 25
  real : Bool := false
  brokerPluginId : String := ""
  maxOrderNotional : ℚ := 1000
  maxShortNotionalPct : ℚ := 1 / 10
  allowRealShort : Bool := false
  lossCircuitBreakerEnabled : Bool := true
  maxDailyLossPct : ℚ := 3 / 100
  maxWeeklyLossPct : ℚ := 6 / 100
  deriving DecidableEq

def defaultExecutionPolicy : ExecutionPolicy := {}

/-- The raw settings of the policy, in the order in which they are read. -/
structure PolicySettings where
  autonomous : Option String
  maxPositionPct : Option String
  maxOpenPositions : Option String
  maxDrawdownHaltPct : Option String
  real : Option String
  brokerPluginId : Option String
  maxOrderNotional : Option String
  maxShortNotionalPct : Option String
  allowRealShort : Option String
  lossCircuitBreakerEnabled : Option String
  maxDailyLossPct : Option String
  maxWeeklyLossPct : Option String

/-- A fraction setting outside `(0, hi]` is the default. -/
def boundedSetting (raw : Option String) (default hi : ℚ) : ℚ :=
  let q := kvNum raw default
  if q ≤ 0 ∨ hi < q then default else q

/-- `s.trim()`. -/
def trimmed (s : String) : String := String.ofList (Number.trim s.toList)

/-- **The policy of the settings.** -/
def policyOf (raw : PolicySettings) : ExecutionPolicy :=
  let d := defaultExecutionPolicy
  let maxOpenPositions : ℤ := ⌊kvNum raw.maxOpenPositions d.maxOpenPositions + 1 / 2⌋
  let maxOrderNotional := kvNum raw.maxOrderNotional d.maxOrderNotional
  { autonomous := kvBool raw.autonomous d.autonomous
    maxPositionPct := boundedSetting raw.maxPositionPct d.maxPositionPct 1
    maxOpenPositions := if maxOpenPositions < 1 then 1 else maxOpenPositions
    maxDrawdownHaltPct := boundedSetting raw.maxDrawdownHaltPct d.maxDrawdownHaltPct 100
    real := kvBool raw.real d.real
    brokerPluginId := trimmed ((kvStr raw.brokerPluginId).getD "")
    maxOrderNotional := if maxOrderNotional ≤ 0 then d.maxOrderNotional else maxOrderNotional
    maxShortNotionalPct := boundedSetting raw.maxShortNotionalPct d.maxShortNotionalPct 1
    allowRealShort := kvBool raw.allowRealShort d.allowRealShort
    lossCircuitBreakerEnabled :=
      kvBool raw.lossCircuitBreakerEnabled d.lossCircuitBreakerEnabled
    maxDailyLossPct := boundedSetting raw.maxDailyLossPct d.maxDailyLossPct 1
    maxWeeklyLossPct := boundedSetting raw.maxWeeklyLossPct d.maxWeeklyLossPct 1 }

/-- The keys of the settings. -/
def policyKey (name : String) : String := "execution." ++ name

def readExecutionPolicy : Trade ExecutionPolicy := do
  let autonomous ← await (.kvGet (policyKey "autonomous"))
  let maxPositionPct ← await (.kvGet (policyKey "max_position_pct"))
  let maxOpenPositions ← await (.kvGet (policyKey "max_open_positions"))
  let maxDrawdownHaltPct ← await (.kvGet (policyKey "max_drawdown_halt_pct"))
  let real ← await (.kvGet (policyKey "real"))
  let brokerPluginId ← await (.kvGet (policyKey "broker_plugin_id"))
  let maxOrderNotional ← await (.kvGet (policyKey "max_order_notional"))
  let maxShortNotionalPct ← await (.kvGet (policyKey "max_short_notional_pct"))
  let allowRealShort ← await (.kvGet (policyKey "allow_real_short"))
  let lossCircuitBreakerEnabled ← await (.kvGet (policyKey "loss_circuit_breaker_enabled"))
  let maxDailyLossPct ← await (.kvGet (policyKey "max_daily_loss_pct"))
  let maxWeeklyLossPct ← await (.kvGet (policyKey "max_weekly_loss_pct"))
  return policyOf
    { autonomous, maxPositionPct, maxOpenPositions, maxDrawdownHaltPct, real, brokerPluginId
      maxOrderNotional, maxShortNotionalPct, allowRealShort, lossCircuitBreakerEnabled
      maxDailyLossPct, maxWeeklyLossPct }

def ExecutionPolicy.risk (p : ExecutionPolicy) : RiskPolicy :=
  { maxPositionPct := p.maxPositionPct, maxOpenPositions := p.maxOpenPositions
    maxDrawdownHaltPct := p.maxDrawdownHaltPct, maxShortNotionalPct := p.maxShortNotionalPct
    lossCircuitBreakerEnabled := p.lossCircuitBreakerEnabled
    maxDailyLossPct := p.maxDailyLossPct, maxWeeklyLossPct := p.maxWeeklyLossPct }

/-! ## Freshness windows -/

/-- A setting clamped to `[lo, hi]`; one that cannot be read is the default. -/
def readClamped (key : String) (default lo hi : ℚ) : Trade ℚ := do
  let raw ← (await (.kvGet key)).attempt
  return max lo (min hi (kvNum (raw.toOption.join) default))

def readWalkForwardMaxAgeDays : Trade ℚ :=
  readClamped (policyKey "walk_forward_max_age_days") 30 1 3650

/-- The freshness window of the real-account state, in milliseconds. -/
def readRealStateMaxAgeMs : Trade ℚ :=
  readClamped (policyKey "real_state_max_age_ms") 300000 30000 3600000

/-! ## The walk-forward gate -/

def requiredWalkForwardVerdict : String := "ROBUSTO"

def msPerDay : ℚ := 86400000

/-- **The walk-forward gate**: the reason why it does not pass, if so. It never throws on a failing
lookup. -/
def checkWalkForwardGate : Trade (Option Text) := do
  let raw ← (await (.kvGet "strategy.applied")).attempt
  match (kvStr raw.toOption.join).filter (· ≠ "") with
  | none => return some [.lit "no applied strategy (KV strategy.applied unset)"]
  | some strategyId =>
    match ← (await (.strategyFind strategyId)).attempt with
    | .error _ => return some [.lit s!"strategy lookup failed for '{strategyId}'"]
    | .ok none => return some [.lit s!"applied strategy '{strategyId}' has no matching row"]
    | .ok (some row) =>
      if row.walkForwardVerdict ≠ some requiredWalkForwardVerdict then
        return some [.lit ("walk-forward verdict is " ++ row.walkForwardVerdict.getD "null" ++
          s!" (need {requiredWalkForwardVerdict})")]
      else
        match row.walkForwardCheckedAt with
        | none => return some [.lit "walk-forward verdict has no checked_at timestamp"]
        | some checkedAt =>
          let maxAgeDays ← readWalkForwardMaxAgeDays
          let now : ℤ ← await .now
          let ageMs : ℚ := now - checkedAt
          if maxAgeDays * msPerDay < ageMs then
            return some [.lit "walk-forward verdict is stale (", .num (.fin ⌊ageMs / msPerDay⌋),
              .lit "d old > ", .num (.fin maxAgeDays), .lit "d window)"]
          else return none

/-- Best-effort audit of a demotion from real to paper. -/
def auditDemotion (intentId : String) (reason : Text) : Trade Unit := do
  let _ ← (await (.auditLog "walk_forward_gate_demotion" intentId reason)).attempt
  return ()

inductive Mode
  | paper | real
  deriving DecidableEq

def realShortReason : Text :=
  [.lit "real short-selling requires execution.allow_real_short=true"]

/-- **The execution mode of the policy.** -/
def effectiveMode (policy : ExecutionPolicy) (contextId : String) (action : TradeAction) :
    Trade Mode := do
  if ¬ (policy.real ∧ policy.brokerPluginId ≠ "") then return .paper
  else if action = .exit ∨ action = .hold then return .real
  else
    match ← checkWalkForwardGate with
    | some reason => do
      auditDemotion contextId reason
      return .paper
    | none =>
      if action = .short ∧ ¬ policy.allowRealShort then do
        auditDemotion contextId realShortReason
        return .paper
      else return .real

/-! ## The real account -/

/-- The real account, as the risk gates see it. -/
structure RealAccountState where
  equity : Number
  hwm : Number
  buyingPower : Number
  openPositionsCount : ℕ

def RealNavSnapshot.state (s : RealNavSnapshot) (openPositionsCount : ℕ) : RealAccountState :=
  { equity := .fin s.equity, hwm := .fin s.hwm, buyingPower := .fin s.buyingPower
    openPositionsCount }

/-- **The state of the real account**, unless the latest snapshot is missing or stale. -/
def getRealAccountState (brokerPluginId : String) : Trade (Option RealAccountState) := do
  match ← await (.navFindLatest brokerPluginId) with
  | none => return none
  | some snapshot =>
    let now : ℤ ← await .now
    let ageMs : ℚ := now - snapshot.ts
    let maxAgeMs ← readRealStateMaxAgeMs
    if maxAgeMs < ageMs then return none
    else
      let openPositionsCount ← await (.positionCount brokerPluginId)
      return some (snapshot.state openPositionsCount)

/-- Drawdown of the real account from its high-water mark, in percent. -/
def realDrawdownPct (s : RealAccountState) : Number :=
  if s.hwm.gt 0 then Number.max 0 (((s.hwm.sub s.equity).div s.hwm).mul 100) else 0

/-- **The risk gate of a real entry**: the reason of a refusal. -/
def passesAutoRisk (s : RealAccountState) (policy : ExecutionPolicy) : Option Text :=
  if (realDrawdownPct s).ge (.fin policy.maxDrawdownHaltPct) then
    some [.lit "circuit breaker: drawdown ", .num (realDrawdownPct s), .lit "% >= ",
      .num (.fin policy.maxDrawdownHaltPct), .lit "%"]
  else if policy.maxOpenPositions ≤ s.openPositionsCount then
    some [.lit "max open positions reached (", .num (.fin s.openPositionsCount), .lit "/",
      .num (.fin policy.maxOpenPositions), .lit ")"]
  else none

end NeoTrader
