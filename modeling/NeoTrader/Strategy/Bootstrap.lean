import NeoTrader.Await.Handler
import NeoTrader.Js.Object
import NeoTrader.Panel.PublisherKey

/-!
# The deploy-time bootstrap

On every boot the instance is configured for paper trading: one step sets the universe, the plugins,
the execution mode and the scheduler, another creates the pretest portfolios. Each step has a flag
that is its last write; what it does for a plugin, for the scheduler or for a portfolio is caught.

* **`applyMomentumBootstrap`**, **`seedPretestPortfoliosIfNeeded`**: the two steps.
-/

namespace NeoTrader

namespace Bootstrap

open Js Await Prog

/-! ## The database -/

structure PluginRow where
  id : String
  active : Bool
  deriving DecidableEq

/-- A pretest portfolio, as it is created. -/
structure PretestRow where
  name : String
  description : String
  initial_capital : ℚ
  plugin_ids : String
  plugin_configs : String
  state : String
  deriving DecidableEq

/-- The tables that the bootstrap writes. -/
structure Db where
  settings : ConfigTable
  plugins : Store.Indexed PluginRow.id
  portfolios : Store.Indexed PretestRow.name

/-- An awaited operation. -/
inductive BootOp
  | kvGet (key : String)
  | kvSet (key value : String)
  | setActive (id : String) (active : Bool)
  | findPortfolio (name : String)
  | createPortfolio (row : PretestRow)
  deriving DecidableEq

/-- What a step throws. -/
inductive BootError
  | database
  | typeError
  deriving DecidableEq

/-- The answer of an operation; an update answers with the number of its rows. -/
abbrev BootOp.Ans : BootOp → Type
  | .kvGet _ => Option String
  | .kvSet _ _ => Unit
  | .setActive _ _ => ℕ
  | .findPortfolio _ => Option PretestRow
  | .createPortfolio _ => Unit

abbrev bootSig : Sig := ⟨BootOp, BootOp.Ans, BootError⟩

/-- The database, and the writes of this boot that succeeded. -/
structure BootWorld where
  db : Db
  written : List BootOp

/-- Which operations of a boot fail. -/
abbrev Failures : Type := BootOp → Bool

def noFailures : Failures := fun _ => false

/-- `db.plugin.updateMany({ where: { id }, data: { active } })`. -/
def Db.setActive (db : Db) (id : String) (active : Bool) : Db :=
  { db with plugins := db.plugins.update id (fun row => { row with active }) fun _ h => h }

/-- **What an operation does**, if it does not fail. A name is given to one portfolio only. -/
def handle (fails : Failures) (op : BootOp) (w : BootWorld) : bootSig.Outcome op × BootWorld :=
  if fails op then (.error .database, w)
  else
    match op with
    | .kvGet key => (.ok (NeoTrader.kvGet w.db.settings key), w)
    | .kvSet key value =>
      (.ok (), ⟨{ w.db with settings := NeoTrader.kvSet w.db.settings key value },
        w.written ++ [.kvSet key value]⟩)
    | .setActive id active =>
      (.ok (if (w.db.plugins.get? id).isSome then (1 : ℕ) else (0 : ℕ)),
        ⟨w.db.setActive id active, w.written ++ [.setActive id active]⟩)
    | .findPortfolio name => (.ok (w.db.portfolios.get? name), w)
    | .createPortfolio row =>
      if h : w.db.portfolios.get? row.name = none then
        (.ok (), ⟨{ w.db with portfolios := w.db.portfolios.insert row h },
          w.written ++ [.createPortfolio row]⟩)
      else (.error .database, w)

/-! ## What is configured -/

/-- The symbols of the momentum rotation. -/
def momentumUniverse : String := "SPY,QQQ,IWM,EFA,EEM,TLT,IEF,GLD,DBC,DBMF,BIL"

/-- 45 minutes. -/
def defaultSchedulerIntervalMs : ℚ := 45 * 60000

def pluginsToActivate : List String :=
  ["momentum-factor-12-1", "trend-following", "relative-strength", "position-sizing",
    "risk-manager", "macro-calendar-guard", "market-context", "broad-index-hold"]

/-- The plugins that are switched off. -/
def pluginsToDeactivate : List String :=
  ["bollinger-squeeze", "wyckoff-volume", "pairs-trading", "session-breakout", "mean-reversion",
    "vwap-reversion", "sentiment-analysis"]

/-- The flag of the momentum step. -/
def bootstrapAppliedKey : String := "bootstrap.momentum_v1_applied"

/-- The flag of the pretest step. -/
def pretestSeedKey : String := "bootstrap.pretest_seed_v5"

def universeKey : String := "cycle.universe"

/-- The setting of the execution mode. -/
def executionRealKey : String := "execution.real"

def schedulerKey : String := "scheduler"

structure PretestPortfolioSeed where
  name : String
  description : String
  initial_capital : ℚ
  plugin_ids : List String
  plugin_configs : List (String × Json)

def pretestPortfoliosToSeed : List PretestPortfolioSeed := [
  { name := "Ultra-Conservador Momentum"
    description := "Máxima defensa: top 40% del universo (muy diversificado), lookback 12 meses, tamaño de posición ≤5%, con macro-guard."
    initial_capital := 100000
    plugin_ids := ["momentum-factor-12-1", "trend-following", "relative-strength",
      "position-sizing", "risk-manager", "macro-calendar-guard"]
    plugin_configs := [
      ("momentum-factor-12-1", .obj [("top_pct", .num 40), ("lookback_months", .num 12)]),
      ("position-sizing", .obj [("mode", .str "vol_target"), ("max_position_pct", .num 5)]),
      ("__pretest_policy__", .obj [("sizing_pct", .num (.fin 0.03)),
        ("slippage_pct", .num (.fin 0.0005)), ("commission_pct", .num 0)])] },
  { name := "Conservador Momentum"
    description := "Momentum de baja rotación: top 30% del universo, lookback 12 meses, tamaño de posición acotado al 8%."
    initial_capital := 100000
    plugin_ids := ["momentum-factor-12-1", "trend-following", "relative-strength",
      "position-sizing", "risk-manager", "macro-calendar-guard"]
    plugin_configs := [
      ("momentum-factor-12-1", .obj [("top_pct", .num 30), ("lookback_months", .num 12)]),
      ("position-sizing", .obj [("mode", .str "vol_target"), ("max_position_pct", .num 8)]),
      ("__pretest_policy__", .obj [("sizing_pct", .num (.fin 0.05)),
        ("slippage_pct", .num (.fin 0.0005)), ("commission_pct", .num 0)])] },
  { name := "Balanceado Momentum"
    description := "Punto medio: top 20% del universo, lookback 9 meses, tamaño de posición hasta 12%, con macro-guard."
    initial_capital := 100000
    plugin_ids := ["momentum-factor-12-1", "trend-following", "relative-strength",
      "position-sizing", "risk-manager", "macro-calendar-guard"]
    plugin_configs := [
      ("momentum-factor-12-1", .obj [("top_pct", .num 20), ("lookback_months", .num 9)]),
      ("position-sizing", .obj [("mode", .str "vol_target"), ("max_position_pct", .num 12)]),
      ("__pretest_policy__", .obj [("sizing_pct", .num (.fin 0.1)),
        ("slippage_pct", .num (.fin 0.0005)), ("commission_pct", .num 0)])] },
  { name := "Agresivo Momentum"
    description := "Momentum concentrado: top 10% del universo, lookback 6 meses, tamaño de posición hasta 25%."
    initial_capital := 100000
    plugin_ids := ["momentum-factor-12-1", "trend-following", "position-sizing", "risk-manager"]
    plugin_configs := [
      ("momentum-factor-12-1", .obj [("top_pct", .num 10), ("lookback_months", .num 6)]),
      ("position-sizing", .obj [("mode", .str "vol_target"), ("max_position_pct", .num 25)]),
      ("__pretest_policy__", .obj [("sizing_pct", .num (.fin 0.2)),
        ("slippage_pct", .num (.fin 0.0005)), ("commission_pct", .num 0)])] },
  { name := "Ultra-Agresivo Momentum"
    description := "Máxima concentración y reactividad: top 5% del universo, lookback 6 meses, tamaño de posición al máximo (25%), sin frenos macro."
    initial_capital := 100000
    plugin_ids := ["momentum-factor-12-1", "position-sizing", "risk-manager"]
    plugin_configs := [
      ("momentum-factor-12-1", .obj [("top_pct", .num 5), ("lookback_months", .num 6)]),
      ("position-sizing", .obj [("mode", .str "vol_target"), ("max_position_pct", .num 25)]),
      ("__pretest_policy__", .obj [("sizing_pct", .num (.fin 0.3)),
        ("slippage_pct", .num (.fin 0.0005)), ("commission_pct", .num 0)])] },
  { name := "Trend Puro"
    description := "Solo trend-following (sin factor de momentum), tamaño de posición hasta 15%."
    initial_capital := 100000
    plugin_ids := ["trend-following", "position-sizing", "risk-manager"]
    plugin_configs := [
      ("position-sizing", .obj [("mode", .str "vol_target"), ("max_position_pct", .num 15)]),
      ("__pretest_policy__", .obj [("sizing_pct", .num (.fin 0.1)),
        ("slippage_pct", .num (.fin 0.0005)), ("commission_pct", .num 0)])] },
  { name := "Relative-Strength Puro"
    description := "Solo fuerza relativa cross-sectional (familia distinta al momentum absoluto), tamaño de posición hasta 12%."
    initial_capital := 100000
    plugin_ids := ["relative-strength", "position-sizing", "risk-manager"]
    plugin_configs := [
      ("position-sizing", .obj [("mode", .str "vol_target"), ("max_position_pct", .num 12)]),
      ("__pretest_policy__", .obj [("sizing_pct", .num (.fin 0.1)),
        ("slippage_pct", .num (.fin 0.0005)), ("commission_pct", .num 0)])] },
  { name := "Vol-Managed Index"
    description := "Volatility-managed SPY exposure (Moreira & Muir 2017 style): holds SPY unconditionally (no ranking, no monthly rebalance) and lets risk-manager scale total exposure toward a 12% target annualized volatility (20d realized-vol window, no leverage). Batch-6 research: Sharpe 0.96 vs SPY buy-hold 0.78."
    initial_capital := 100000
    plugin_ids := ["broad-index-hold", "risk-manager"]
    plugin_configs := [
      ("broad-index-hold", .obj [("symbols", .str "SPY")]),
      ("risk-manager", .obj [("exposure_mode", .str "vol_target"), ("target_vol_pct", .num 12),
        ("vol_window_days", .num 20), ("exposure_cap", .num 1),
        ("vol_target_benchmark", .str "SPY")]),
      ("__pretest_policy__", .obj [("sizing_pct", .num 1), ("slippage_pct", .num (.fin 0.0005)),
        ("commission_pct", .num 0)])] },
  { name := "Vol-Managed QQQ"
    description := "Volatility-managed QQQ exposure (Nasdaq-100): holds QQQ unconditionalmente (sin ranking, sin rebalanceo mensual) y deja que risk-manager escale la exposición total hacia un 15% de volatilidad anualizada objetivo (ventana de 20 días de vol realizada, cap de exposición 1.5x — apalancamiento leve). Hermano de mayor retorno de \"Vol-Managed Index\": investigación batch-9, Sharpe 1.12 vs 0.955 (SPY), +215% retorno acumulado, maxDD -22%. Nota honesta: la ventaja del vol-managed sobre buy-and-hold está concentrada en crashes (de-risking antes/durante caídas de alta volatilidad), no es alfa estable."
    initial_capital := 100000
    plugin_ids := ["broad-index-hold", "risk-manager"]
    plugin_configs := [
      ("broad-index-hold", .obj [("symbols", .str "QQQ")]),
      ("risk-manager", .obj [("exposure_mode", .str "vol_target"), ("target_vol_pct", .num 15),
        ("vol_window_days", .num 20), ("exposure_cap", .num (.fin 1.5)),
        ("vol_target_benchmark", .str "QQQ")]),
      ("__pretest_policy__", .obj [("sizing_pct", .num 1), ("slippage_pct", .num (.fin 0.0005)),
        ("commission_pct", .num 0)])] },
  { name := "Vol-Managed TECL (Agresivo)"
    description := "Volatility-managed TECL exposure (tech 3x leveraged): holds TECL unconditionalmente (sin ranking, sin rebalanceo mensual) y deja que risk-manager escale la exposición total hacia un 20% de volatilidad anualizada objetivo (ventana de 20 días de vol realizada, cap de exposición 1.0x — sin apalancamiento adicional sobre el ETF, que ya es 3x). Hermano agresivo de mayor retorno validado en investigación batch-11: el vol-targeting doma el drawdown crudo de ~-80% de un ETF 3x hasta un nivel similar al de SPY, con +286% de retorno acumulado, Sharpe 1.03 y maxDD -24.6% (mejor que el -34% del propio SPY buy-and-hold). Nota honesta: es una apuesta de concentración sectorial (tech) sobre apalancamiento 3x — la ventana de backtest de batch-11 cubre un solo año bajista, no es garantía frente a un mercado bajista prolongado en el sector."
    initial_capital := 100000
    plugin_ids := ["broad-index-hold", "risk-manager"]
    plugin_configs := [
      ("broad-index-hold", .obj [("symbols", .str "TECL")]),
      ("risk-manager", .obj [("exposure_mode", .str "vol_target"), ("target_vol_pct", .num 20),
        ("vol_window_days", .num 20), ("exposure_cap", .num 1),
        ("vol_target_benchmark", .str "TECL")]),
      ("__pretest_policy__", .obj [("sizing_pct", .num 1), ("slippage_pct", .num (.fin 0.0005)),
        ("commission_pct", .num 0)])] },
  { name := "Vol-Managed SOXL (Agresivo)"
    description := "Volatility-managed SOXL exposure (semiconductores 3x leveraged): holds SOXL unconditionalmente (sin ranking, sin rebalanceo mensual) y deja que risk-manager escale la exposición total hacia un 20% de volatilidad anualizada objetivo (ventana de 20 días de vol realizada, cap de exposición 1.0x — sin apalancamiento adicional sobre el ETF, que ya es 3x). Hermano agresivo validado en investigación batch-11: el vol-targeting doma el drawdown crudo de ~-80% de un ETF 3x, con +293% de retorno acumulado, Sharpe 1.04 y maxDD -29.6%. Nota honesta: es una apuesta de concentración sectorial (semiconductores) sobre apalancamiento 3x — la ventana de backtest de batch-11 cubre un solo año bajista, no es garantía frente a un mercado bajista prolongado en el sector."
    initial_capital := 100000
    plugin_ids := ["broad-index-hold", "risk-manager"]
    plugin_configs := [
      ("broad-index-hold", .obj [("symbols", .str "SOXL")]),
      ("risk-manager", .obj [("exposure_mode", .str "vol_target"), ("target_vol_pct", .num 20),
        ("vol_window_days", .num 20), ("exposure_cap", .num 1),
        ("vol_target_benchmark", .str "SOXL")]),
      ("__pretest_policy__", .obj [("sizing_pct", .num 1), ("slippage_pct", .num (.fin 0.0005)),
        ("commission_pct", .num 0)])] }]

/-! ## The scheduler -/

/-- The stored scheduler settings, read; a text that does not parse counts as no settings. -/
def schedulerConfig (raw : Option String) : Json :=
  match raw with
  | none => .obj []
  | some s => if s = "" then .obj [] else (Json.parse s).getD (.obj [])

/-- The fields that `{ ...v }` copies. -/
def ownFields : Json → Obj
  | .obj fields => fields
  | .arr l => l.mapIdx fun i v => (toString i, v)
  | .str s => (Json.units s.toList).mapIdx fun i u =>
      (toString i, .str (String.ofList (Json.joinUnits none [u])))
  | _ => []

def numberOr (v : Option Json) (fallback : ℚ) : Json :=
  match v with
  | some (.num x) => .num x
  | _ => .num (.fin fallback)

/-- The settings of a scheduler that is switched on. -/
def enabledConfig (current : Obj) : Obj :=
  let existingInterval := current.get "override_interval_ms"
  let existingRunCount := current.get "run_count"
  let updated := Json.withField current "enabled" (.bool true)
  let updated := Json.withField updated "override_interval_ms"
    (numberOr existingInterval defaultSchedulerIntervalMs)
  Json.withField updated "run_count" (numberOr existingRunCount 0)

/-- The text of these settings; to look up a field of `null` is an error. -/
def enabledText (numeral : Number → String) (raw : Option String) : Option String :=
  match schedulerConfig raw with
  | .null => none
  | current => some (Json.stringify numeral (.obj (enabledConfig (ownFields current))))

/-! ## The steps -/

section Steps

variable (numeral : Number → String)

def defaultPretestState (capital : ℚ) : Json :=
  .obj [("equity", .num (.fin capital)), ("cash", .num (.fin capital)), ("positions", .arr []),
    ("trades", .arr []), ("max_equity", .num (.fin capital)), ("max_drawdown_pct", .num 0),
    ("realized_pnl", .num 0), ("win_trades", .num 0), ("loss_trades", .num 0)]

def PretestPortfolioSeed.row (spec : PretestPortfolioSeed) : PretestRow where
  name := spec.name
  description := spec.description
  initial_capital := spec.initial_capital
  plugin_ids := Json.stringify numeral (.arr (spec.plugin_ids.map .str))
  plugin_configs := Json.stringify numeral (.obj spec.plugin_configs)
  state := Json.stringify numeral (defaultPretestState spec.initial_capital)

/-- Switches one plugin on or off; an error is only logged. -/
def setPluginActive (id : String) (active : Bool) : Prog bootSig Unit :=
  (perform (S := bootSig) (.setActive id active)).attempt >>= fun _ => .ret ()

/-- The settings of the scheduler are read and written back. -/
def writeScheduler : Prog bootSig Unit := do
  let raw : Option String ← perform (S := bootSig) (.kvGet schedulerKey)
  match enabledText numeral raw with
  | none => .throw .typeError
  | some text => perform (S := bootSig) (.kvSet schedulerKey text)

/-- Switches the scheduler on; an error is only logged. -/
def enableScheduler : Prog bootSig Unit :=
  (writeScheduler numeral).attempt >>= fun _ => .ret ()

/-- **The momentum step.** -/
def applyMomentumBootstrap : Prog bootSig Unit := do
  let applied : Option String ← perform (S := bootSig) (.kvGet bootstrapAppliedKey)
  if kvBool applied false then return ()
  perform (S := bootSig) (.kvSet universeKey momentumUniverse)
  forEach pluginsToActivate fun id => setPluginActive id true
  forEach pluginsToDeactivate fun id => setPluginActive id false
  perform (S := bootSig) (.kvSet executionRealKey "false")
  enableScheduler numeral
  perform (S := bootSig) (.kvSet bootstrapAppliedKey "true")

/-- One portfolio is created, unless its name is taken. -/
def createPretestPortfolio (spec : PretestPortfolioSeed) : Prog bootSig Unit := do
  let existing : Option PretestRow ← perform (S := bootSig) (.findPortfolio spec.name)
  if existing.isSome then return ()
  perform (S := bootSig) (.createPortfolio (spec.row numeral))

/-- The portfolios are created one by one; an error is only logged. -/
def seedPretestPortfolios : Prog bootSig Unit :=
  forEach pretestPortfoliosToSeed fun spec =>
    (createPretestPortfolio numeral spec).attempt >>= fun _ => .ret ()

/-- **The pretest step.** -/
def seedPretestPortfoliosIfNeeded : Prog bootSig Unit := do
  let seeded : Option String ← perform (S := bootSig) (.kvGet pretestSeedKey)
  if kvBool seeded false then return ()
  seedPretestPortfolios numeral
  perform (S := bootSig) (.kvSet pretestSeedKey "true")

/-- Both steps; neither keeps the other from running. -/
def onModuleInit : Prog bootSig Unit := do
  let _ ← (applyMomentumBootstrap numeral).attempt
  let _ ← (seedPretestPortfoliosIfNeeded numeral).attempt
  return ()

/-- **One boot.** -/
def boot (fails : Failures) (db : Db) : BootWorld :=
  ((onModuleInit numeral).run (handle fails) ⟨db, []⟩).2

/-- **Boots**, one after the other. -/
def boots (db : Db) (l : List Failures) : Db :=
  l.foldl (fun db fails => (boot numeral fails db).db) db

end Steps

end Bootstrap

end NeoTrader
