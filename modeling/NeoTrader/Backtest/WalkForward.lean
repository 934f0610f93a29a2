import Mathlib.Algebra.Order.Floor.Ring
import Mathlib.Data.List.Sort
import Mathlib.Data.Rat.Floor

/-!
# Walk-forward validation

The history is cut into windows: the in-sample part runs from the first bar, the out-of-sample part
follows it. A strategy is run on both, and the ratios of the two Sharpe ratios give the verdict.

* **`runWalkForward`**: the engine of one symbol at a time, a parameter, on every window;
* `commonDates`, `evaluatedDates`, **`runCrossSectionalWalkForward`**: the portfolio engine, which
  is given some bars to warm up.
-/

namespace NeoTrader

/-! ## Ratios and verdicts -/

/-- The nearest integer; of two the even one. -/
def roundHalfEven (x : ℚ) : ℤ :=
  let f := ⌊x⌋
  if x - f < 1 / 2 then f
  else if 1 / 2 < x - f then f + 1
  else if f % 2 = 0 then f else f + 1

/-- `round(x, 3)`. -/
def round3 (x : ℚ) : ℚ := roundHalfEven (1000 * x) / 1000

/-- `|is|` must exceed this. -/
def robustnessThreshold : ℚ := 1 / 100

/-- The ratio of the two Sharpe ratios, or `0` where the first is near zero. -/
def computeRobustnessRatio (oosSharpe isSharpe : ℚ) : ℚ :=
  if |isSharpe| ≤ robustnessThreshold then 0 else oosSharpe / isSharpe

inductive Verdict
  | insuficienteDatos | robusto | sobreajustado
  deriving DecidableEq

/-- **The verdict** from the number of robust windows among the valid ones. -/
def computeVerdict (robustCount totalValid : ℕ) : Verdict :=
  if totalValid < 2 then .insuficienteDatos
  else if 1 / 2 ≤ (robustCount : ℚ) / totalValid then .robusto
  else .sobreajustado

/-! ## Windows -/

/-- The prices: the bars of each symbol. -/
abbrev Prices (B : Type) : Type := List (String × List B)

/-- One window: in-sample `[0, oosStart)`, out-of-sample `[oosStart, oosEnd)`. -/
structure Split where
  windowIdx : ℕ
  oosStart : ℕ
  oosEnd : ℕ
  deriving DecidableEq

section Splits

variable {B : Type}

/-- The length of the longest symbol. -/
def refLength (prices : Prices B) : ℕ := (prices.map fun p => p.2.length).foldr max 0

def minDataBars : ℕ := 60

/-- The bars of one out-of-sample window. -/
def oosPerWindow (n nWindows : ℕ) (inSamplePct : ℚ) : ℤ :=
  max 1 (((n : ℤ) - ⌊(n : ℚ) * inSamplePct⌋) / nWindows)

/-- **The windows**: the last one ends at the last bar, and each begins where the one before it
ends. Those with fewer than 20 bars in-sample are left out. -/
def splits (n nWindows : ℕ) (inSamplePct : ℚ) : List Split :=
  (List.range nWindows).filterMap fun (w : ℕ) =>
    let oosEnd : ℤ := n - ((nWindows : ℤ) - 1 - w) * oosPerWindow n nWindows inSamplePct
    let oosStart := oosEnd - oosPerWindow n nWindows inSamplePct
    if oosStart < 20 ∨ (n : ℤ) < oosEnd ∨ oosEnd ≤ oosStart then none
    else some ⟨w, oosStart.toNat, oosEnd.toNat⟩

/-- The bars `[start, stop)` of every symbol that has some. -/
def slicePrices (prices : Prices B) (start stop : ℕ) : Prices B :=
  (prices.map fun p => (p.1, (p.2.take stop).drop start)).filter fun p => ¬ p.2.isEmpty

end Splits

/-! ## The engine of single symbols -/

/-- What a run of the engine measures. -/
structure Metrics where
  sharpeRatio : ℚ
  totalTrades : ℕ

structure WalkForwardConfig where
  nWindows : ℕ := 5
  inSamplePct : ℚ := 7 / 10
  minTrades : ℕ := 10

/-- A window with what its two runs have measured. -/
structure Fold where
  split : Split
  inSample : Metrics
  outOfSample : Metrics

structure WindowResult where
  split : Split
  isSharpe : ℚ
  oosSharpe : ℚ
  isTrades : ℕ
  oosTrades : ℕ
  robustnessRatio : ℚ

structure WalkForwardResult where
  verdict : Verdict
  robustWindows : ℕ
  totalWindows : ℕ
  windows : List WindowResult

def Fold.result (f : Fold) : WindowResult where
  split := f.split
  isSharpe := round3 f.inSample.sharpeRatio
  oosSharpe := round3 f.outOfSample.sharpeRatio
  isTrades := f.inSample.totalTrades
  oosTrades := f.outOfSample.totalTrades
  robustnessRatio :=
    round3 (computeRobustnessRatio f.outOfSample.sharpeRatio f.inSample.sharpeRatio)

/-- **The verdict on the windows**: those with enough trades out-of-sample count. -/
def walkForwardSummary (minTrades : ℕ) (folds : List Fold) : WalkForwardResult :=
  let results := folds.map Fold.result
  let valid := results.filter fun r => minTrades ≤ r.oosTrades
  let robustCount := valid.countP fun r => 1 / 2 ≤ r.robustnessRatio
  if results.isEmpty then ⟨.insuficienteDatos, 0, 0, []⟩
  else ⟨computeVerdict robustCount valid.length, robustCount, valid.length, results⟩

section Run

variable {B : Type}

/-- The windows of a run, with the engine's two runs on each. -/
def walkForwardFolds (backtestWindow : Prices B → Metrics) (prices : Prices B)
    (cfg : WalkForwardConfig) : List Fold :=
  (splits (refLength prices) cfg.nWindows cfg.inSamplePct).map fun s =>
    ⟨s, backtestWindow (slicePrices prices 0 s.oosStart),
      backtestWindow (slicePrices prices s.oosStart s.oosEnd)⟩

/-- **Walk-forward validation** of a strategy. -/
def runWalkForward (backtestWindow : Prices B → Metrics) (prices : Prices B)
    (cfg : WalkForwardConfig) : WalkForwardResult :=
  if prices.isEmpty ∨ refLength prices < minDataBars then ⟨.insuficienteDatos, 0, 0, []⟩
  else walkForwardSummary cfg.minTrades (walkForwardFolds backtestWindow prices cfg)

end Run

/-! ## The portfolio engine -/

structure CrossSectionalConfig where
  nWindows : ℕ := 5
  inSamplePct : ℚ := 7 / 10
  lookback : ℕ := 252
  skip : ℕ := 21

/-- The bars that the engine needs before the first one that it evaluates. -/
def CrossSectionalConfig.warmupBars (cfg : CrossSectionalConfig) : ℕ := cfg.lookback + cfg.skip + 1

section CrossSectional

variable {B D : Type} [LinearOrder D]

/-- The symbols that the engine keeps: those with enough bars, if there are two of them. -/
def workingPrices (cfg : CrossSectionalConfig) (prices : Prices B) : Prices B :=
  let surviving := prices.filter fun p => cfg.lookback + cfg.skip + 2 ≤ p.2.length
  if surviving.length < 2 then prices else surviving

/-- The dates that every symbol has, in their order. -/
def commonDates (date : B → D) (prices : Prices B) : List D :=
  match prices.filter fun p => ¬ p.2.isEmpty with
  | [] => []
  | p :: ps =>
    (((p.2.map date).filter fun d => ps.all fun q => (q.2.map date).contains d).dedup).mergeSort
      fun a b => a ≤ b

/-- The dates that a run of the engine evaluates; none where it fails. `depleted` says that the
equity is used up while the engine warms up. -/
def evaluatedDates (date : B → D) (depleted : Prices B → Bool) (cfg : CrossSectionalConfig)
    (prices : Prices B) : List D :=
  let common := commonDates date (workingPrices cfg prices)
  if prices.isEmpty ∨ cfg.lookback ≤ cfg.skip ∨ common.length ≤ cfg.lookback + 1 ∨
      common.length ≤ cfg.warmupBars ∨ depleted prices then []
  else common.drop cfg.warmupBars

/-- A run of the engine: it fails exactly where it evaluates nothing. -/
def crossSectionalOk (date : B → D) (depleted : Prices B → Bool) (cfg : CrossSectionalConfig)
    (prices : Prices B) : Bool := ¬ (evaluatedDates date depleted cfg prices).isEmpty

def minOosEvalBars : ℕ := 21

/-- The history is too short for these windows. -/
def crossSectionalInsufficient (prices : Prices B) (cfg : CrossSectionalConfig) : Bool :=
  let n := refLength prices
  let per := oosPerWindow n cfg.nWindows cfg.inSamplePct
  let smallest : ℤ := n - cfg.nWindows * per
  prices.isEmpty ∨ n < minDataBars ∨ smallest ≤ cfg.lookback ∨ smallest ≤ cfg.warmupBars ∨
    per < minOosEvalBars

/-- The windows of the portfolio engine. -/
def crossSectionalSplits (prices : Prices B) (cfg : CrossSectionalConfig) : List Split :=
  if crossSectionalInsufficient prices cfg then []
  else splits (refLength prices) cfg.nWindows cfg.inSamplePct

/-- The bars of an out-of-sample run, with those before them to warm up. -/
def oosPrices (prices : Prices B) (cfg : CrossSectionalConfig) (s : Split) : Prices B :=
  slicePrices prices (s.oosStart - cfg.warmupBars) s.oosEnd

end CrossSectional

/-- A window of the portfolio engine with what its two runs have measured. -/
structure CrossSectionalFold where
  split : Split
  isOk : Bool
  oosOk : Bool
  isSharpe : ℚ
  oosSharpe : ℚ

structure CrossSectionalResult where
  verdict : Verdict
  robustWindows : ℕ
  totalWindows : ℕ

/-- The ratio of a window; that of a failed one is `0`. -/
def CrossSectionalFold.robustnessRatio (f : CrossSectionalFold) : ℚ :=
  if f.isOk ∧ f.oosOk then round3 (computeRobustnessRatio f.oosSharpe f.isSharpe) else round3 0

/-- **The verdict on the windows** whose two runs have not failed. -/
def crossSectionalSummary (folds : List CrossSectionalFold) : CrossSectionalResult :=
  let valid := folds.filter fun f => f.isOk ∧ f.oosOk
  let robustCount := valid.countP fun f => 1 / 2 ≤ f.robustnessRatio
  if folds.isEmpty then ⟨.insuficienteDatos, 0, 0⟩
  else ⟨computeVerdict robustCount valid.length, robustCount, valid.length⟩

/-- **Walk-forward validation of a portfolio.** -/
def runCrossSectionalWalkForward {B D : Type} [LinearOrder D] (date : B → D)
    (depleted : Prices B → Bool) (sharpe : Prices B → ℚ) (prices : Prices B)
    (cfg : CrossSectionalConfig) : CrossSectionalResult :=
  crossSectionalSummary <| (crossSectionalSplits prices cfg).map fun s =>
    let isPrices := slicePrices prices 0 s.oosStart
    let oosPrices := oosPrices prices cfg s
    let isOk := crossSectionalOk date depleted cfg isPrices
    let oosOk := crossSectionalOk date depleted cfg oosPrices
    ⟨s, isOk, oosOk, if isOk then sharpe isPrices else 0, if oosOk then sharpe oosPrices else 0⟩

end NeoTrader
