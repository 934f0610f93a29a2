import Mathlib.Data.List.Sort
import NeoTrader.Await.Pool
import NeoTrader.Store.Table
import NeoTrader.Trade.Rows

/-!
# The veto analyzer

Each decision of the veto layer is valued later, by what the proposed trade would have earned: the
price at the `horizonBars`-th bar after the decision, net of costs. A sweep reads the decisions that
have no value yet and writes one value after the other; the timer and the panel start sweeps, while
the cycles go on to write decisions.

* `evaluateRow`, **`backfill`**, `backfillTick`: the sweeps.

The writing of the log is left out.
-/

namespace NeoTrader.VetoAnalyzer

open Js Await

/-! ## The ledger -/

/-- What the analyzer reads of a bar. -/
structure OhlcvBar where
  ts : String
  close : Number
  deriving DecidableEq

/-- A decision of the veto layer, as it was written; the time in milliseconds. -/
structure ProposedTrade where
  id : String
  ts : ℤ
  symbol : String
  sourcePlugin : String
  verdict : String
  proposedAction : String
  proposedQty : Number
  approvedQty : Option Number := none
  refPrice : Option Number := none
  discipline : Option String := none
  deriving DecidableEq

/-- What the analyzer adds to a decision. -/
structure Evaluation where
  cfPnl : Option Number := none
  cfMethod : Option String := none
  cfEvaluatedAt : Option ℤ := none
  deriving DecidableEq

structure VetoDecisionRow extends ProposedTrade, Evaluation
  deriving DecidableEq

/-! ## Options -/

/-- The horizons that the endpoint accepts. -/
abbrev Horizon : Type := {n : ℕ // 1 ≤ n ∧ n ≤ 500}

structure BackfillOptions where
  horizonBars : Option Horizon := none
  timeframe : Option String := none
  costBps : Option ℚ := none
  reprocessInsufficient : Option Bool := none

structure ResolvedBackfillOptions where
  horizonBars : Horizon
  timeframe : String
  costBps : ℚ
  reprocessInsufficient : Bool

def defaultHorizonBars : Horizon := ⟨5, by decide⟩
def defaultTimeframe : String := "1d"
def defaultCostBps : ℚ := 10

def resolveOptions (opts : BackfillOptions) : ResolvedBackfillOptions where
  horizonBars := opts.horizonBars.getD defaultHorizonBars
  timeframe := opts.timeframe.getD defaultTimeframe
  costBps := opts.costBps.getD defaultCostBps
  reprocessInsufficient := opts.reprocessInsufficient.getD false

/-- Extra bars, for the gaps without trade. -/
def fetchLimitBuffer : ℕ := 20

/-- The most bars of one request. -/
def maxFetchLimit : ℕ := 1500

def minuteMs : ℕ := 60000
def dayMs : ℕ := 24 * 60 * minuteMs

/-- `BAR_DURATION_MS`. -/
def barDurations : List (String × ℕ) :=
  [("1m", minuteMs), ("5m", 5 * minuteMs), ("15m", 15 * minuteMs), ("30m", 30 * minuteMs),
    ("1h", 60 * minuteMs), ("4h", 4 * 60 * minuteMs), ("1d", dayMs), ("1w", 7 * dayMs)]

/-- About how long a bar lasts; an unknown timeframe counts as daily. -/
def barDurationMs (timeframe : String) : ℕ := (barDurations.lookup timeframe).getD dayMs

theorem barDurationMs_pos (timeframe : String) : 0 < barDurationMs timeframe := by
  have hall : ∀ x ∈ barDurations, 0 < x.2 := by decide
  rw [barDurationMs]
  cases h : barDurations.lookup timeframe with
  | none => decide
  | some ms =>
    obtain ⟨l₁, l₂, hsplit, -⟩ := List.lookup_eq_some_iff.1 h
    exact hall _ (hsplit ▸ List.mem_append_right _ List.mem_cons_self)

/-! ## One decision -/

def isSupportedAction (action : String) : Bool := action = "long" ∨ action = "short"

/-- The horizon can have passed. -/
def isMature (decisionTs : ℤ) (horizonBars : ℕ) (timeframe : String) (now : ℤ) : Bool :=
  decisionTs + horizonBars * barDurationMs timeframe ≤ now

def barsSinceDecision (decisionTs : ℤ) (timeframe : String) (now : ℤ) : ℕ :=
  (max ⌈((now - decisionTs : ℤ) : ℚ) / barDurationMs timeframe⌉ 0).toNat

/-- How many bars are fetched: back to the decision, but not more than the cap. -/
def computeNeededFetchLimit (decisionTs : ℤ) (horizonBars : ℕ) (timeframe : String) (now : ℤ) : ℕ :=
  min (barsSinceDecision decisionTs timeframe now + horizonBars + fetchLimitBuffer) maxFetchLimit

/-- The texts of numbers and of times: `String(n)`, `toISOString` and `Date.parse`. -/
structure Texts where
  numeral : Number → String
  toISOString : ℤ → String
  parse : String → Option ℤ

section Decision

variable (texts : Texts)

/-- A bar with its time, if it is after the decision. -/
def barAfter (decisionMs : ℤ) (b : OhlcvBar) : Option (ℤ × OhlcvBar) :=
  (texts.parse b.ts).bind fun ms => if decisionMs < ms then some (ms, b) else none

/-- The bars after the decision, in the order of time. -/
def barsAfter (decisionMs : ℤ) (bars : List OhlcvBar) : List (ℤ × OhlcvBar) :=
  (bars.filterMap (barAfter texts decisionMs)).insertionSort fun x y => x.1 ≤ y.1

/-- **The bar at the horizon.** -/
def locateMarkBar (bars : List OhlcvBar) (decisionTs : String) (horizonBars : ℕ) :
    Option OhlcvBar :=
  match texts.parse decisionTs with
  | none => none
  | some decisionMs =>
    let after := barsAfter texts decisionMs bars
    if after.length < horizonBars then none else (after[horizonBars - 1]?).map Prod.snd

def computeNetUnitReturn (action : String) (refPrice markPrice : Number) (costBps : ℚ) : Number :=
  let gross :=
    if action = "long" then (markPrice.sub refPrice).div refPrice
    else (refPrice.sub markPrice).div refPrice
  gross.sub (.fin (costBps / 10000))

def buildCfMethod (opts : ResolvedBackfillOptions) : String :=
  "fixed_horizon:" ++ texts.numeral (.fin opts.horizonBars.1) ++ ":" ++ opts.timeframe ++
    ":costbps" ++ texts.numeral (.fin opts.costBps) ++ ":v1"

end Decision

/-- A reference price that can be divided by. -/
def validRefPrice : Option Number → Option ℚ
  | some (.fin q) => if 0 < q then some q else none
  | _ => none

/-- The value of a decision at its mark bar. -/
def cfPnlOf (p : ProposedTrade) (refPrice : ℚ) (markBar : OhlcvBar) (costBps : ℚ) : Number :=
  ((computeNetUnitReturn p.proposedAction (.fin refPrice) markBar.close costBps).mul
    (.fin refPrice)).mul p.proposedQty

/-! ## What is awaited -/

inductive VetoOp
  -- `new Date()`
  | clock
  | findMany (reprocessInsufficient : Bool)
  | getOhlcv (symbol timeframe : String) (limit : ℕ)
  | update (id : String) (data : Evaluation)
  -- a cycle writes a decision
  | create (data : ProposedTrade)
  -- `backfillRunning` is tested and set, and is reset
  | enter
  | leave

def VetoOp.Ans : VetoOp → Type
  | clock => ℤ
  | findMany _ => List VetoDecisionRow
  | getOhlcv _ _ _ => List OhlcvBar
  | update _ _ => Unit
  | create _ => Unit
  | enter => Bool
  | leave => Unit

def vetoSig : Sig := ⟨VetoOp, VetoOp.Ans, Err⟩

/-- A program of the analyzer. -/
abbrev Veto (α : Type) : Type := Prog vetoSig α

/-- Await one operation. -/
abbrev ask (op : VetoOp) : Veto op.Ans := Prog.perform (S := vetoSig) op

/-- The ledger, and whether a sweep of the timer is under way. -/
structure Books where
  rows : List VetoDecisionRow := []
  backfillRunning : Bool := false
  deriving DecidableEq

/-- A decision is given a value, or a reason. -/
def Books.evaluate (w : Books) (id : String) (data : Evaluation) : Books :=
  { w with rows :=
      Store.modify (fun row => row.id = id) (fun row => { row with toEvaluation := data }) w.rows }

/-- A decision is written. -/
def Books.propose (w : Books) (data : ProposedTrade) : Books :=
  { w with rows := w.rows ++ [{ toProposedTrade := data, toEvaluation := {} }] }

/-- What one operation meets outside: the time, a failure, the bars of a provider. -/
structure Oracle where
  time : ℤ := 0
  failure : Option Err := none
  bars : List OhlcvBar := []

/-- Neither a value nor a reason why there is none. -/
def VetoDecisionRow.unevaluated (row : VetoDecisionRow) : Bool :=
  row.cfPnl = none ∧ row.cfMethod = none

/-- The `where` of a sweep. -/
def selected (reprocessInsufficient : Bool) (row : VetoDecisionRow) : Bool :=
  row.unevaluated || (reprocessInsufficient && row.cfMethod = some "insufficient_data")

/-- An operation fails and changes nothing, or takes effect. -/
def effect {α : Type} (o : Oracle) (w : Books) (x : Except Err (α × Books)) :
    Except Err α × Books :=
  match o.failure, x with
  | some e, _ => (.error e, w)
  | none, .error e => (.error e, w)
  | none, .ok (a, w') => (.ok a, w')

/-- The row to update does not exist. -/
def rowMissing : Err :=
  { name := "PrismaClientKnownRequestError", code := some "P2025"
    message := [.lit "Record to update not found"] }

/-- The id is taken. -/
def rowExists : Err :=
  { name := "PrismaClientKnownRequestError", code := some "P2002"
    message := [.lit "Unique constraint failed"] }

/-- **One operation**: its outcome and the ledger after it. -/
def handleVeto (o : Oracle) : (op : VetoOp) → Books → Except Err op.Ans × Books
  | .clock, w => (.ok o.time, w)
  | .findMany reprocess, w => effect o w (.ok (w.rows.filter (selected reprocess), w))
  | .getOhlcv _ _ _, w => effect o w (.ok (o.bars, w))
  | .update id data, w => effect o w <|
    if w.rows.any fun row => row.id = id then .ok ((), w.evaluate id data)
    else .error rowMissing
  | .create data, w => effect o w <|
    if w.rows.any fun row => row.id = data.id then .error rowExists
    else .ok ((), w.propose data)
  | .enter, w => (.ok (!w.backfillRunning), { w with backfillRunning := true })
  | .leave, w => (.ok (), { w with backfillRunning := false })

/-- The semantics of the analyzer. -/
def vetoSem : Sem vetoSig Books :=
  Sem.ofHandler (S := vetoSig) handleVeto fun _ _ _ => True

/-! ## The sweeps -/

structure BackfillSummary where
  evaluated : ℕ := 0
  insufficientData : ℕ := 0
  unsupportedAction : ℕ := 0
  invalidRefPrice : ℕ := 0
  pending : ℕ := 0
  errors : ℕ := 0
  deriving DecidableEq

/-- A reason, without a value. -/
def markUnresolvable (row : VetoDecisionRow) (method : String) : Veto Unit := do
  let at' : ℤ ← ask .clock
  ask (.update row.id { cfMethod := some method, cfEvaluatedAt := some at' })

section Sweep

variable (texts : Texts) (opts : ResolvedBackfillOptions)

/-- A decision that is mature: the bars are fetched, and the value is written. -/
def evaluateMature (row : VetoDecisionRow) (refPrice : ℚ) (now : ℤ) (summary : BackfillSummary) :
    Veto BackfillSummary := do
  let bars : List OhlcvBar ← ask (.getOhlcv row.symbol opts.timeframe
    (computeNeededFetchLimit row.ts opts.horizonBars opts.timeframe now))
  match locateMarkBar texts bars (texts.toISOString row.ts) opts.horizonBars with
  | none => do
    markUnresolvable row "insufficient_data"
    return { summary with insufficientData := summary.insufficientData + 1 }
  | some markBar => do
    let at' : ℤ ← ask .clock
    ask (.update row.id
      { cfPnl := some (cfPnlOf row.toProposedTrade refPrice markBar opts.costBps)
        cfMethod := some (buildCfMethod texts opts), cfEvaluatedAt := some at' })
    return { summary with evaluated := summary.evaluated + 1 }

/-- **One decision.** -/
def evaluateRow (row : VetoDecisionRow) (summary : BackfillSummary) : Veto BackfillSummary :=
  if ¬ isSupportedAction row.proposedAction then do
    markUnresolvable row "unsupported_action"
    return { summary with unsupportedAction := summary.unsupportedAction + 1 }
  else match validRefPrice row.refPrice with
  | none => do
    markUnresolvable row "invalid_ref_price"
    return { summary with invalidRefPrice := summary.invalidRefPrice + 1 }
  | some refPrice => do
    let now : ℤ ← ask .clock
    if ¬ isMature row.ts opts.horizonBars opts.timeframe now then
      return { summary with pending := summary.pending + 1 }
    evaluateMature texts opts row refPrice now summary

/-- The decisions one after the other; an error leaves its decision as it is. -/
def evaluateRows : List VetoDecisionRow → BackfillSummary → Veto BackfillSummary
  | [], summary => return summary
  | row :: rows, summary => do
    match ← (evaluateRow texts opts row summary).attempt with
    | .ok summary => evaluateRows rows summary
    | .error _ => evaluateRows rows { summary with errors := summary.errors + 1 }

/-- **A sweep.** -/
def backfill : Veto BackfillSummary := do
  let rows : List VetoDecisionRow ← ask (.findMany opts.reprocessInsufficient)
  evaluateRows texts opts rows {}

/-- A sweep of the timer, unless the one before is still under way. -/
def backfillTick : Veto Unit := do
  let entered : Bool ← ask .enter
  if entered then do
    let _ ← (backfill texts (resolveOptions {})).attempt
    ask .leave
  else return ()

end Sweep

/-- What is started: a tick of the timer, a request of the panel, the decision of a cycle. -/
inductive VetoCall
  | tick
  | post (opts : BackfillOptions)
  | propose (data : ProposedTrade)

def vetoBody (texts : Texts) : VetoCall → Veto Unit
  | .tick => backfillTick texts
  | .post opts => (backfill texts (resolveOptions opts)).discard
  | .propose data => ask (.create data)

end NeoTrader.VetoAnalyzer
