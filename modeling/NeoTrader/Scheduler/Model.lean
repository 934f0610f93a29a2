import Mathlib.Algebra.Order.Ring.Int
import NeoTrader.Await.Pool

/-!
# The cycle scheduler

A tick reads the configuration and the circuit breaker, and starts a cycle when one is due. The cycle
runs on by itself.

* `updateConfig`, `resetCircuitBreaker`, **`tick`**, `runNow`: the service; `cycleBody`: the cycle that
  ends.

A time is a number of milliseconds. The check of the flag, the second look at the clock and the start
of the cycle are one operation, as nothing is awaited between them.
-/

namespace NeoTrader.Scheduler

open Await Prog

/-! ## What is stored -/

def minIntervalMs : ℤ := 60000
def maxIntervalMs : ℤ := 7 * 24 * 3600000
def defaultIntervalMs : ℤ := 3600000
def cbMaxFailures : ℕ := 3
def cbHalfOpenMs : ℤ := 5 * 60000

structure SchedulerConfig where
  enabled : Bool := false
  overrideIntervalMs : Option ℤ := none
  prompt : Option String := none
  lastRun : Option ℤ := none
  runCount : ℕ := 0
  deriving DecidableEq

/-- The fields of an update; a field that is left out stays as it is. -/
structure ConfigPatch where
  enabled : Option Bool := none
  overrideIntervalMs : Option (Option ℤ) := none
  prompt : Option String := none
  deriving DecidableEq

/-- `{ ...current, ...patch }`. -/
def ConfigPatch.apply (patch : ConfigPatch) (c : SchedulerConfig) : SchedulerConfig :=
  { c with
    enabled := patch.enabled.getD c.enabled
    overrideIntervalMs := patch.overrideIntervalMs.getD c.overrideIntervalMs
    prompt := patch.prompt.or c.prompt }

inductive BreakerState
  | closed | opened | halfOpen
  deriving DecidableEq

structure CircuitBreakerState where
  state : BreakerState := .closed
  consecutiveFailures : ℕ := 0
  lastFailureAt : Option ℤ := none
  lastSuccessAt : Option ℤ := none
  reason : Option String := none
  deriving DecidableEq

/-! ## The interval -/

structure SchedulerSection where
  mode : Option String
  timeframe : Option String
  intervalMs : Option ℤ

/-- An active plugin, and what its configuration says of its interval. -/
structure ScheduledPlugin where
  sched : Option SchedulerSection
  timeframe : Option String
  intervalMs : Option ℤ

def timeframeToMs (timeframe : String) : Option ℤ :=
  [("1m", 60000), ("5m", 5 * 60000), ("15m", 15 * 60000), ("1h", 3600000), ("4h", 4 * 3600000),
    ("1d", 24 * 3600000), ("1w", 7 * 24 * 3600000), ("1mo", 30 * 24 * 3600000)].lookup timeframe

/-- The interval that a plugin asks for, if it is to be polled. -/
def ScheduledPlugin.interval? (p : ScheduledPlugin) : Option ℤ :=
  match p.sched with
  | none => none
  | some sched =>
    if sched.mode.getD "polling" ∈ ["none", "reactive"] then none
    else
      let timeframe := (p.timeframe.or sched.timeframe).getD "1d"
      some ((p.intervalMs.or (sched.intervalMs.or (timeframeToMs timeframe))).getD defaultIntervalMs)

/-- The interval of the configuration, or the least one of the plugins. -/
def computeEffectiveInterval (c : SchedulerConfig) (schedules : List ℤ) : ℤ :=
  match c.overrideIntervalMs with
  | some ms => ms
  | none =>
    match schedules with
    | [] => defaultIntervalMs
    | ms :: rest => max (rest.foldl min ms) minIntervalMs

/-! ## Operations -/

/-- What became of the start of a cycle. -/
inductive LaunchResult
  | notDue | busy | rejected | accepted
  deriving DecidableEq

inductive ConfigWriter
  | update (patch : ConfigPatch)
  | bump
  deriving DecidableEq

/-- The operations. `launch` starts a cycle of its own accord, when one is due, and `launchNow` at
once. -/
inductive SchedulerOp
  | isRunning
  | now
  | getConfig
  | setConfig (writer : ConfigWriter) (c : SchedulerConfig)
  | getBreaker
  | saveBreaker (b : CircuitBreakerState)
  | deleteBreaker
  | findActive
  | launch (dueAt : ℤ) (prompt : Option String)
  | launchNow (prompt : Option String)
  | release
  | cycleRunning
  | getCadence
  | getCounter
  | setCounter (n : ℤ)
  | reflectNow
  | endCycle (completed : Bool)

/-- The answers. -/
abbrev SchedulerOp.Ans : SchedulerOp → Type
  | .isRunning | .cycleRunning => Bool
  | .now => ℤ
  | .getConfig => Option SchedulerConfig
  | .getBreaker => Option CircuitBreakerState
  | .findActive => List ScheduledPlugin
  | .launch _ _ | .launchNow _ => LaunchResult
  | .getCadence => Option ℤ
  | .getCounter => ℤ
  | _ => Unit

abbrev schedulerSig : Sig := ⟨SchedulerOp, SchedulerOp.Ans, String⟩

abbrev Sched (α : Type) : Type := Prog schedulerSig α

abbrev sched (op : SchedulerOp) : Sched op.Ans := perform (S := schedulerSig) op

/-- What the scheduler runs in. `running` is its own flag, and `cycle` says whether a cycle runs, and
whether it was started by a tick. -/
structure SchedulerWorld where
  config : Option SchedulerConfig
  breaker : Option CircuitBreakerState
  running : Bool
  cycle : Option Bool
  cadence : Option ℤ
  counter : ℤ

/-- The configuration that is read. -/
def SchedulerWorld.stored (w : SchedulerWorld) : SchedulerConfig := w.config.getD {}

/-- What is not decided by the world: the clock, the plugins, and whether an operation fails. -/
structure SchedulerOracle where
  time : ℤ
  active : List ScheduledPlugin := []
  fails : Bool := false

/-- An operation of the store, which may fail. -/
def storeOp {α : Type} (o : SchedulerOracle) (w w' : SchedulerWorld) (a : α) :
    Except String α × SchedulerWorld :=
  if o.fails then (.error "database error", w) else (.ok a, w')

def handleScheduler (o : SchedulerOracle) : (op : SchedulerOp) → SchedulerWorld →
    Except String op.Ans × SchedulerWorld
  | .isRunning, w => (.ok w.running, w)
  | .now, w => (.ok o.time, w)
  | .getConfig, w => storeOp o w w w.config
  | .setConfig _ c, w => storeOp o w { w with config := some c } ()
  | .getBreaker, w => storeOp o w w w.breaker
  | .saveBreaker b, w => storeOp o w { w with breaker := some b } ()
  | .deleteBreaker, w => storeOp o w { w with breaker := none } ()
  | .findActive, w => storeOp o w w o.active
  | .launch dueAt _, w =>
    if o.time < dueAt then (.ok .notDue, w)
    else if w.cycle.isSome then (.ok .busy, w)
    else (.ok .accepted, { w with running := true, cycle := some true })
  | .launchNow _, w =>
    if w.running ∨ w.cycle.isSome then (.ok .busy, w)
    else (.ok .accepted, { w with running := true, cycle := some false })
  | .release, w => (.ok (), { w with running := false })
  | .cycleRunning, w => (.ok w.cycle.isSome, w)
  | .getCadence, w => storeOp o w w w.cadence
  | .getCounter, w => storeOp o w w w.counter
  | .setCounter n, w => storeOp o w { w with counter := n } ()
  | .reflectNow, w => storeOp o w w ()
  | .endCycle _, w => (.ok (), { w with cycle := none })

/-! ## The service -/

def getConfig : Sched SchedulerConfig := do
  let raw ← sched .getConfig
  return raw.getD {}

def updateConfig (patch : ConfigPatch) : Sched Unit := do
  let current ← getConfig
  let outside : Bool := match patch.overrideIntervalMs with
    | some (some ms) => ms < minIntervalMs ∨ maxIntervalMs < ms
    | _ => false
  if outside then .throw "override_interval_ms debe estar entre 60000 y 604800000"
  else sched (.setConfig (.update patch) (patch.apply current))

def getCircuitBreaker : Sched CircuitBreakerState := do
  let raw ← sched .getBreaker
  return raw.getD {}

def resetCircuitBreaker : Sched Unit := sched .deleteBreaker

def resolvePluginSchedules : Sched (List ℤ) := do
  match ← (sched .findActive).attempt with
  | .ok active => return active.filterMap ScheduledPlugin.interval?
  | .error _ => return []

/-- Whether a cycle may be tried; a breaker that has been open for long is half open. -/
def checkCircuitBreaker (cb : CircuitBreakerState) : Sched Bool :=
  if cb.state ≠ .opened then return true
  else do
    let now ← sched .now
    if now < cb.lastFailureAt.getD 0 + cbHalfOpenMs then return false
    else
      sched (.saveBreaker { cb with state := .halfOpen })
      return true

/-- The configuration as it was read is written back, with the run. -/
def bumpRunCount (c : SchedulerConfig) : Sched Unit := do
  let now ← sched .now
  sched (.setConfig .bump { c with lastRun := some now, runCount := c.runCount + 1 })

/-- A reflection, after some cycles. -/
def maybeReflect : Sched Unit := do
  if ← sched .cycleRunning then return
  else
    let everyNCycles : ℤ := match ← (sched .getCadence).attempt with
      | .ok (some n) => n
      | _ => 10
    if everyNCycles = 0 then return
    else
      let counter := (← sched .getCounter) + 1
      if everyNCycles ≤ counter then
        let _ ← (do
          sched .reflectNow
          sched (.setCounter 0)).attempt
        return
      else sched (.setCounter counter)

def handleTickError (msg : String) (cb : CircuitBreakerState) : Sched Unit := do
  let failures := cb.consecutiveFailures + 1
  let state : BreakerState :=
    if cbMaxFailures ≤ failures ∨ cb.state = .halfOpen then .opened else .closed
  let now ← sched .now
  sched (.saveBreaker
    { state, consecutiveFailures := failures, lastFailureAt := some now,
      lastSuccessAt := cb.lastSuccessAt, reason := some (String.ofList (msg.toList.take 200)) })

/-- **What follows the start of a cycle**, which is counted as a success. -/
def executeTick (c : SchedulerConfig) (cb : CircuitBreakerState) (accepted : Bool) : Sched Unit := do
  let tried : Sched Unit :=
    if accepted then do
      let now ← sched .now
      sched (.saveBreaker { lastFailureAt := cb.lastFailureAt, lastSuccessAt := some now })
      bumpRunCount c
      maybeReflect
    else return
  match ← tried.attempt with
  | .ok _ => return
  | .error e => handleTickError e cb

/-- What is done whatever became of what is before it. -/
def finallyRelease (p : Sched Unit) : Sched Unit := do
  let r ← p.attempt
  sched .release
  .ofOutcome r

/-- **A tick.** -/
def tick : Sched Unit := do
  if ← sched .isRunning then return
  let c ← getConfig
  if !c.enabled then return
  let cb ← getCircuitBreaker
  if !(← checkCircuitBreaker cb) then return
  let schedules ← resolvePluginSchedules
  match ← sched (.launch (c.lastRun.getD 0 + computeEffectiveInterval c schedules) c.prompt) with
  | .notDue | .busy => return
  | .rejected => finallyRelease (executeTick c cb false)
  | .accepted => finallyRelease (executeTick c cb true)

/-- A cycle that is asked for. -/
def runNow (prompt : Option String) : Sched Unit := do
  match ← sched (.launchNow prompt) with
  | .accepted => finallyRelease (do bumpRunCount (← getConfig))
  | .rejected => finallyRelease (.throw "Ciclo rechazado (ya hay uno en curso)")
  | .notDue | .busy => .throw "Ya hay un ciclo en ejecución. Espera a que termine."

/-! ## The calls -/

inductive SchedulerCall
  | tick
  | updateConfig (patch : ConfigPatch)
  | resetCircuitBreaker
  | runNow (prompt : Option String)
  | cycleEnds (completed : Bool)
  deriving DecidableEq

def schedulerBody : SchedulerCall → Sched Unit
  | .tick => tick
  | .updateConfig patch => updateConfig patch
  | .resetCircuitBreaker => resetCircuitBreaker
  | .runNow prompt => runNow prompt
  | .cycleEnds completed => sched (.endCycle completed)

def schedulerSem : Sem schedulerSig SchedulerWorld :=
  Sem.ofHandler (S := schedulerSig) handleScheduler fun _ _ _ => True

abbrev SchedulerPool : Type := Pool schedulerSig SchedulerCall SchedulerWorld

end NeoTrader.Scheduler
