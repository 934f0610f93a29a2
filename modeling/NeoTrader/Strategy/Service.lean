import NeoTrader.Auth.Guards
import NeoTrader.Trade.Policy

/-!
# Strategies and the settings that they apply

A strategy is a named bundle of settings. Applying it writes its settings, whatever their keys are,
into the global key-value store; a walk-forward run records its verdict on the strategy's row.

* `create`, `update`, `remove`, `setActive`, **`apply`**, `recordWalkForward`;
* `setConfig` of the cycle, `setPolicy` of the execution, `clearRealExecutionHalt`,
  `BacktestService.runWalkForward`;
* `Request`, **`Request.body`**: the requests, behind their guards.
-/

namespace NeoTrader

open Js Await

/-! ## Rows -/

/-- A map of settings: the entries of an object, whose keys are different. A value that is not a
string can be stored, but not applied. -/
structure StrategyConfig where
  entries : List (String × Json)
  nodup : (entries.map Prod.fst).Nodup

/-- The value of a key. -/
def StrategyConfig.get? (c : StrategyConfig) (key : String) : Option Json :=
  (c.entries.find? fun e => e.1 = key).map Prod.snd

/-- A named bundle of settings; a stored `null` is `none`. -/
structure Strategy where
  id : String
  name : String
  description : Option String
  config : Option StrategyConfig
  active : Bool
  mode : String
  walkForwardVerdict : Option String
  walkForwardCheckedAt : Option ℤ

/-- The settings that make up a strategy. -/
def strategyConfigKeys : List String :=
  ["cycle.universe", "cycle.data_provider", "cycle.timeframe", "cycle.bars", "cycle.capital",
    "execution.autonomous", "execution.real", "execution.broker_plugin_id",
    "execution.max_position_pct", "execution.max_open_positions",
    "execution.max_drawdown_halt_pct", "execution.max_order_notional",
    "llm.backend", "llm.model", "react.max_turns", "debate.enabled", "debate.fail_mode",
    "debate.max_roles", "debate.min_notional_pct"]

/-! ## Bodies of requests -/

structure CreateStrategyDto where
  name : String
  description : Option String := none
  config : Option StrategyConfig := none
  mode : Option String := none

/-- What an update changes; a `config` of `null` is `some none`. -/
structure UpdateStrategyDto where
  name : Option String := none
  description : Option String := none
  config : Option (Option StrategyConfig) := none
  mode : Option String := none

/-- The market-data settings of the cycle; a number is given as the text that is stored for it. -/
structure UpdateCycleConfigDto where
  cycleUniverse : Option (List String) := none
  dataProvider : Option String := none
  timeframe : Option String := none
  bars : Option String := none
  capital : Option String := none

/-- The execution policy; a number or a boolean is given as the text that is stored for it. -/
structure PolicyPatch where
  autonomous : Option String := none
  real : Option String := none
  brokerPluginId : Option String := none
  maxPositionPct : Option String := none
  maxOpenPositions : Option String := none
  maxDrawdownHaltPct : Option String := none
  maxOrderNotional : Option String := none
  maxShortNotionalPct : Option String := none
  allowRealShort : Option String := none
  lossCircuitBreakerEnabled : Option String := none
  maxDailyLossPct : Option String := none
  maxWeeklyLossPct : Option String := none

/-- A backtest: the symbols, and the row that a walk-forward verdict is recorded on. -/
structure RunBacktestDto where
  strategy : String
  symbols : List String
  strategyRowId : Option String := none

/-! ## Operations -/

inductive StrategyOp
  | kvGet (key : String)
  | kvSet (key value : String)
  | kvDelete (key : String)
  | strategyFindUnique (id : String)
  | strategyCreate (dto : CreateStrategyDto) (config : Option StrategyConfig)
  | strategyUpdate (id : String) (dto : UpdateStrategyDto)
  | strategySetActive (id : String) (active : Bool)
  | strategyDelete (id : String)
  | strategyRecord (id verdict : String)
  -- prices and the sandbox: the verdict of a walk-forward run, or a finished backtest
  | runWalkForward (dto : RunBacktestDto)
  | runBacktest (dto : RunBacktestDto)

def StrategyOp.Ans : StrategyOp → Type
  | kvGet _ => Option String
  | kvSet _ _ => Unit
  | kvDelete _ => Unit
  | strategyFindUnique _ => Option Strategy
  | strategyCreate _ _ => Strategy
  | strategyUpdate _ _ => Strategy
  | strategySetActive _ _ => Strategy
  | strategyDelete _ => Unit
  | strategyRecord _ _ => Unit
  | runWalkForward _ => String
  | runBacktest _ => Unit

/-- The signature of the strategy services. -/
def strategySig : Sig := ⟨StrategyOp, StrategyOp.Ans, Err⟩

/-- A program of the strategy services. -/
abbrev Service (α : Type) : Type := Prog strategySig α

/-- Await one operation of the strategy services. -/
abbrev call (op : StrategyOp) : Service op.Ans := Prog.perform (S := strategySig) op

structure StrategyWorld where
  kv : String → Option String
  strategies : List Strategy := []

/-- What one operation meets outside: the time, a fresh id, a failure, the sandbox. -/
structure StrategyOracle where
  time : ℤ := 0
  newId : String := ""
  failure : Option Err := none
  verdict : String := ""

def StrategyWorld.strategy? (w : StrategyWorld) (id : String) : Option Strategy :=
  w.strategies.find? fun s => s.id = id

def StrategyWorld.updateRow (w : StrategyWorld) (id : String) (f : Strategy → Strategy) :
    Except Err (Strategy × StrategyWorld) :=
  match w.strategy? id with
  | none => .error recordNotFound
  | some s => .ok (f s, { w with strategies := Store.modify (fun s => s.id = id) f w.strategies })

def UpdateStrategyDto.apply (d : UpdateStrategyDto) (s : Strategy) : Strategy :=
  { s with
    name := d.name.getD s.name
    description := d.description <|> s.description
    config := d.config.getD s.config
    mode := d.mode.getD s.mode }

def CreateStrategyDto.row (d : CreateStrategyDto) (id : String) (config : Option StrategyConfig) :
    Strategy :=
  { id, name := d.name, description := d.description, config, active := false
    mode := d.mode.getD "test", walkForwardVerdict := none, walkForwardCheckedAt := none }

/-- The name of an update belongs to another strategy. -/
def StrategyWorld.nameTaken (w : StrategyWorld) (id : String) (name : Option String) : Bool :=
  w.strategies.any fun s => s.id ≠ id ∧ some s.name = name

/-- A statement: it fails as a whole or takes effect as a whole. -/
def statement {α : Type} (o : StrategyOracle) (w : StrategyWorld) (x : Except Err (α × StrategyWorld)) :
    Except Err α × StrategyWorld :=
  match o.failure, x with
  | some e, _ => (.error e, w)
  | none, .error e => (.error e, w)
  | none, .ok (a, w') => (.ok a, w')

/-- **One operation**: its outcome and the world after it. -/
def handleStrategy (o : StrategyOracle) : (op : StrategyOp) → StrategyWorld →
    Except Err op.Ans × StrategyWorld
  | .kvGet key, w => statement o w (.ok (w.kv key, w))
  | .kvSet key value, w =>
    statement o w (.ok ((), { w with kv := Function.update w.kv key (some value) }))
  | .kvDelete key, w => statement o w (.ok ((), { w with kv := Function.update w.kv key none }))
  | .strategyFindUnique id, w => statement o w (.ok (w.strategy? id, w))
  | .strategyCreate dto config, w => statement o w <|
    if w.strategies.any fun s => s.id = o.newId ∨ s.name = dto.name then .error uniqueViolation
    else .ok (dto.row o.newId config,
      { w with strategies := w.strategies ++ [dto.row o.newId config] })
  | .strategyUpdate id dto, w => statement o w <|
    if w.nameTaken id dto.name then .error uniqueViolation else w.updateRow id dto.apply
  | .strategySetActive id active, w => statement o w (w.updateRow id fun s => { s with active })
  | .strategyDelete id, w =>
    statement o w (.ok ((), { w with strategies := w.strategies.filter fun s => s.id ≠ id }))
  | .strategyRecord id verdict, w => statement o w <|
    (w.updateRow id fun s => { s with
      walkForwardVerdict := some verdict, walkForwardCheckedAt := some o.time }).map
      fun x => ((), x.2)
  | .runWalkForward _, w => statement o w (.ok (o.verdict, w))
  | .runBacktest _, w => statement o w (.ok ((), w))

/-- The semantics of the strategy services, where the oracles satisfy `A`. -/
def strategySem (A : StrategyOracle → Prop) : Sem strategySig StrategyWorld :=
  Sem.ofHandler (S := strategySig) handleStrategy fun o _ _ => A o

/-! ## The service -/

/-- The strategy of an id, or the exception. -/
def getStrategy (id : String) : Service Strategy := do
  match ← call (.strategyFindUnique id) with
  | some s => return s
  | none => .throw (notFound s!"Estrategia {id} no existe")

/-- The entries of the keys that have a value. -/
def presentEntries : List String → List (Option String) → List (String × Json)
  | k :: keys, some v :: values => (k, .str v) :: presentEntries keys values
  | _ :: keys, none :: values => presentEntries keys values
  | _, _ => []

theorem presentEntries_keys (keys : List String) (values : List (Option String)) :
    ((presentEntries keys values).map Prod.fst).Sublist keys := by
  fun_induction presentEntries keys values with
  | case1 k keys v values ih => exact ih.cons_cons k
  | case2 k keys values ih => exact ih.cons k
  | case3 => exact List.nil_sublist _

/-- The map of the strategy's settings, from their values in order. -/
def capturedConfig (values : List (Option String)) : StrategyConfig where
  entries := presentEntries strategyConfigKeys values
  nodup := (presentEntries_keys _ _).nodup (by decide)

/-- The current values of the strategy's settings. -/
def captureCurrentConfig : Service StrategyConfig := do
  let values ← Prog.collect strategyConfigKeys fun k => call (.kvGet k)
  return capturedConfig values

/-- A unique name is taken. -/
def nameConflict (name : String) : Err := conflict s!"Ya existe una estrategia llamada \"{name}\""

/-- The row of a new strategy; a name that is taken is a conflict. -/
def insertStrategy (dto : CreateStrategyDto) (config : StrategyConfig) : Service Strategy := do
  match ← (call (.strategyCreate dto (some config))).attempt with
  | .ok s => return s
  | .error e => .throw (if isUniqueViolation e then nameConflict dto.name else e)

/-- Creates a strategy; without a map it captures the current settings. -/
def createStrategy (dto : CreateStrategyDto) : Service Strategy := do
  let config ← match dto.config with
    | some config => pure config
    | none => captureCurrentConfig
  insertStrategy dto config

/-- Updates a strategy; its verdict stays. -/
def updateStrategy (id : String) (dto : UpdateStrategyDto) : Service Strategy := do
  let _ ← getStrategy id
  match ← (call (.strategyUpdate id dto)).attempt with
  | .ok s => return s
  | .error e => .throw (if isUniqueViolation e then nameConflict (dto.name.getD "") else e)

def removeStrategy (id : String) : Service Unit := do
  let _ ← getStrategy id
  call (.strategyDelete id)

/-- Records a walk-forward verdict; a failure is swallowed. -/
def recordWalkForward (strategyRowId verdict : String) : Service Unit := do
  let _ ← (call (.strategyRecord strategyRowId verdict)).attempt
  return ()

def setActive (id : String) (active : Bool) : Service Strategy := do
  let _ ← getStrategy id
  call (.strategySetActive id active)

/-- Writes one entry of the map: a value that is not a string is refused by the store. -/
def applyEntry (e : String × Json) : Service Unit :=
  match e.2 with
  | .str v => call (.kvSet e.1 v)
  | _ => .throw invalidValue

def strategyAppliedKey : String := "strategy.applied"

/-- **Applies the settings of a strategy**, every one of them, and marks it as the applied one. -/
def applyStrategy (id : String) : Service Unit := do
  let s ← getStrategy id
  match s.config with
  | none => .throw nullPropertyError
  | some config =>
    Prog.forEach config.entries applyEntry
    call (.kvSet strategyAppliedKey id)

/-! ## Settings -/

def writeSettings (l : List (String × Option String)) : Service Unit :=
  Prog.forEach l fun e =>
    match e.2 with
    | some v => call (.kvSet e.1 v)
    | none => return ()

/-- The settings of the cycle that an update gives. The names of symbols are trimmed and written in
upper case. -/
def UpdateCycleConfigDto.settings (toUpperCase : String → String) (dto : UpdateCycleConfigDto) :
    List (String × Option String) :=
  [("cycle.universe", dto.cycleUniverse.map fun l =>
      ",".intercalate (l.map fun s => toUpperCase (trimmed s))),
    ("cycle.data_provider", dto.dataProvider), ("cycle.timeframe", dto.timeframe),
    ("cycle.bars", dto.bars), ("cycle.capital", dto.capital)]

/-- The settings of the cycle; an unset one is empty. -/
def getConfig : Service (List String) := do
  let values ← Prog.collect ["cycle.universe", "cycle.data_provider", "cycle.timeframe", "cycle.bars",
    "cycle.capital"] fun k => call (.kvGet k)
  return values.map fun v => v.getD ""

/-- Updates the settings of the cycle. -/
def setConfig (toUpperCase : String → String) (dto : UpdateCycleConfigDto) :
    Service (List String) := do
  writeSettings (dto.settings toUpperCase)
  getConfig

def PolicyPatch.settings (d : PolicyPatch) : List (String × Option String) :=
  [(policyKey "autonomous", d.autonomous), (policyKey "real", d.real),
    (policyKey "broker_plugin_id", d.brokerPluginId),
    (policyKey "max_position_pct", d.maxPositionPct),
    (policyKey "max_open_positions", d.maxOpenPositions),
    (policyKey "max_drawdown_halt_pct", d.maxDrawdownHaltPct),
    (policyKey "max_order_notional", d.maxOrderNotional),
    (policyKey "max_short_notional_pct", d.maxShortNotionalPct),
    (policyKey "allow_real_short", d.allowRealShort),
    (policyKey "loss_circuit_breaker_enabled", d.lossCircuitBreakerEnabled),
    (policyKey "max_daily_loss_pct", d.maxDailyLossPct),
    (policyKey "max_weekly_loss_pct", d.maxWeeklyLossPct)]

/-- Updates the execution policy. -/
def setPolicy (patch : PolicyPatch) : Service Unit := writeSettings patch.settings

/-- Clears the kill-switch; the failure of the second write is swallowed. -/
def clearRealExecutionHalt : Service Unit := do
  call (.kvSet realExecutionHaltedKey "false")
  let _ ← (call (.kvDelete realExecutionHaltReasonKey)).attempt
  return ()

/-- A walk-forward run, whose verdict is recorded on the row that the request names. -/
def BacktestService.runWalkForward (dto : RunBacktestDto) : Service String := do
  let verdict ← call (.runWalkForward dto)
  match dto.strategyRowId.filter (· ≠ "") with
  | none => return verdict
  | some strategyRowId =>
    recordWalkForward strategyRowId verdict
    return verdict

/-! ## Requests -/

/-- A request to the routes of strategies and settings. -/
inductive Request
  | strategyCreate (dto : CreateStrategyDto)
  | strategyUpdate (id : String) (dto : UpdateStrategyDto)
  | strategyRemove (id : String)
  | strategySetActive (id : String) (active : Bool)
  | strategyApply (id : String)
  | cycleConfig (dto : UpdateCycleConfigDto)
  | backtest (dto : RunBacktestDto)
  | walkForward (dto : RunBacktestDto)
  | executionConfig (patch : PolicyPatch)
  | realHaltClear

/-- The guards of the route. Every route needs an authenticated user. -/
def Request.guards (totpVerified : Option Bool) : Request → Except Err Unit
  | executionConfig _ | realHaltClear => totpRequiredGuard totpVerified
  | walkForward dto =>
    if totpVerified.isNone then .error (unauthorized "Unauthorized")
    else walkForwardTotpGuard dto.strategyRowId totpVerified
  | _ => if totpVerified.isNone then .error (unauthorized "Unauthorized") else .ok ()

/-- The service behind the route; the result is the verdict of a walk-forward run. -/
def Request.service (toUpperCase : String → String) : Request → Service (Option String)
  | strategyCreate dto => do
    let _ ← createStrategy dto
    return none
  | strategyUpdate id dto => do
    let _ ← updateStrategy id dto
    return none
  | strategyRemove id => do
    removeStrategy id
    return none
  | strategySetActive id active => do
    let _ ← setActive id active
    return none
  | strategyApply id => do
    applyStrategy id
    return none
  | cycleConfig dto => do
    let _ ← setConfig toUpperCase dto
    return none
  | backtest dto => do
    call (.runBacktest dto)
    return none
  | walkForward dto => do
    let verdict ← BacktestService.runWalkForward dto
    return some verdict
  | executionConfig patch => do
    setPolicy patch
    return none
  | realHaltClear => do
    clearRealExecutionHalt
    return none

/-- **A request**: its guards, and then the service. -/
def Request.body (toUpperCase : String → String) (totpVerified : Option Bool) (r : Request) :
    Service (Option String) := do
  Prog.ofOutcome (S := strategySig) (r.guards totpVerified)
  r.service toUpperCase

end NeoTrader
