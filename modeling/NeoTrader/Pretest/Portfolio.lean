import NeoTrader.Agents.Turn
import NeoTrader.Common.Books

/-!
# Pretest portfolios

A virtual portfolio, the policy of its fills, and the kernel risk floor that its entries go through.

* `PretestPosition`, `PretestTrade`, `PretestState`, `defaultState`; the positions have distinct
  symbols;
* `PretestPolicy`, `readPolicy`, `readRiskPolicy`; **`readRiskPolicy_eq`**: the risk policy is that of
  the live account;
* `gateResult`, **`evaluateEntryGate_result`**: the entry gate, which the live account shares;
* **`applyKernelRiskFloor`**: the outcome of each call, and the state to go on with.
-/

namespace NeoTrader

open Js Await Prog Books

/-! ## Data -/

/-- The vocabulary of the fill engine. -/
inductive FillAction
  | buy | sell | close | short | cover
  deriving DecidableEq

structure PretestTrade where
  symbol : String
  action : FillAction
  price : ℚ
  quantity : ℚ
  pnl : Option ℚ := none
  entryPrice : Option ℚ := none
  deriving DecidableEq

/-- A position with its last known price; the quantity of a short one is negative. -/
structure PretestPosition extends PaperPosition where
  currentPrice : Option ℚ := none
  unrealizedPnl : Option ℚ := none
  deriving DecidableEq

/-- Positions with distinct symbols. -/
abbrev Positions : Type := Book fun p : PretestPosition => p.symbol

/-- A virtual portfolio. The period keys are those of the live account. -/
structure PretestState where
  equity : ℚ
  cash : ℚ
  positions : Positions
  trades : List PretestTrade
  maxEquity : ℚ
  maxDrawdownPct : ℚ
  realizedPnl : ℚ
  winTrades : ℕ
  lossTrades : ℕ
  benchmarkReturnPct : Option ℚ := none
  benchmarkStartPrice : Option ℚ := none
  hwm : Option ℚ := none
  dayKey : Option ℤ := none
  dayStartEquity : Option ℚ := none
  weekKey : Option ℤ := none
  weekStartEquity : Option ℚ := none

/-- The state of a new portfolio. -/
def defaultState (capital : ℚ) : PretestState :=
  { equity := capital, cash := capital, positions := .empty, trades := [], maxEquity := capital
    maxDrawdownPct := 0, realizedPnl := 0, winTrades := 0, lossTrades := 0 }

namespace PretestState

/-- The part of the state that the live account has too. -/
def account (s : PretestState) : PaperState :=
  { equity := s.equity, cash := s.cash
    positions := s.positions.entries.map PretestPosition.toPaperPosition, hwm := s.hwm
    dayKey := s.dayKey, dayStartEquity := s.dayStartEquity, weekKey := s.weekKey
    weekStartEquity := s.weekStartEquity }

/-- The state with the equity and the baselines of an account that has passed through the gate, which
leaves cash and positions as they are. -/
def onAccount (s : PretestState) (a : PaperState) : PretestState :=
  { s with
    equity := a.equity, hwm := a.hwm, dayKey := a.dayKey, dayStartEquity := a.dayStartEquity
    weekKey := a.weekKey, weekStartEquity := a.weekStartEquity }

end PretestState

/-! ## Policies -/

structure PretestPolicy where
  sizingPct : ℚ
  slippagePct : ℚ
  commissionPct : ℚ
  borrowCostPct : ℚ
  executionMode : ExecutionMode
  sizing_nonneg : 0 ≤ sizingPct
  slippage_mem : 0 ≤ slippagePct ∧ slippagePct ≤ 1
  commission_mem : 0 ≤ commissionPct ∧ commissionPct ≤ 1
  borrowCost_mem : 0 ≤ borrowCostPct ∧ borrowCostPct ≤ 1

/-- `Number(v)` where it is finite. -/
def coerceSetting (v : Option Json) (fallback : ℚ) : ℚ :=
  match Json.toNumber? v with
  | .fin n => n
  | _ => fallback

/-- `Math.max(lo, Math.min(1, x))`. -/
def clampSetting (lo x : ℚ) : ℚ := max lo (min 1 x)

theorem clampSetting_mem {lo x : ℚ} (h : lo ≤ 1) : lo ≤ clampSetting lo x ∧ clampSetting lo x ≤ 1 :=
  ⟨le_max_left _ _, max_le h (min_le_left _ _)⟩

def epsilon : ℚ := 1 / 2 ^ 52

/-- **The policy of a portfolio**, from the reserved entry of its configuration. -/
def readPolicy (raw : Json) : PretestPolicy where
  sizingPct := clampSetting epsilon (coerceSetting (raw.field "sizing_pct") (5 / 100))
  slippagePct := clampSetting 0 (coerceSetting (raw.field "slippage_pct") 0)
  commissionPct := clampSetting 0 (coerceSetting (raw.field "commission_pct") 0)
  borrowCostPct := clampSetting 0 (coerceSetting (raw.field "borrow_cost_pct") (1 / 10000))
  executionMode :=
    if Json.asString? (raw.field "execution_mode") = some "deterministic" then .deterministic
    else .llmGated
  sizing_nonneg :=
    (show (0 : ℚ) ≤ epsilon by norm_num [epsilon]).trans
      (clampSetting_mem (by norm_num [epsilon])).1
  slippage_mem := clampSetting_mem zero_le_one
  commission_mem := clampSetting_mem zero_le_one
  borrowCost_mem := clampSetting_mem zero_le_one

/-- The sizing of new entries under an exposure scalar. -/
def PretestPolicy.scaled (p : PretestPolicy) (scalar : ℚ) (h : 0 ≤ scalar) : PretestPolicy :=
  { p with
    sizingPct := p.sizingPct * scalar
    sizing_nonneg := mul_nonneg p.sizing_nonneg h }

/-- The risk floor of a portfolio, from the settings of the live account. -/
def readRiskPolicy (raw : PolicySettings) : RiskPolicy :=
  let bounded (raw : Option String) (default hi : ℚ) : ℚ :=
    let q := kvNum raw default
    if q ≤ 0 ∨ hi < q then default else q
  let maxOpenPositions : ℤ := ⌊kvNum raw.maxOpenPositions 10 + 1 / 2⌋
  { maxPositionPct := bounded raw.maxPositionPct (1 / 10) 1
    maxOpenPositions := if maxOpenPositions < 1 then 1 else maxOpenPositions
    maxDrawdownHaltPct := bounded raw.maxDrawdownHaltPct 25 100
    maxShortNotionalPct := bounded raw.maxShortNotionalPct (1 / 10) 1
    lossCircuitBreakerEnabled := kvBool raw.lossCircuitBreakerEnabled true
    maxDailyLossPct := bounded raw.maxDailyLossPct (3 / 100) 1
    maxWeeklyLossPct := bounded raw.maxWeeklyLossPct (6 / 100) 1 }

/-- **The risk policy of a pretest is that of the live account.** -/
theorem readRiskPolicy_eq (raw : PolicySettings) : readRiskPolicy raw = (policyOf raw).risk := by
  simp [readRiskPolicy, policyOf, ExecutionPolicy.risk, boundedSetting, defaultExecutionPolicy]

/-! ## Tool calls -/

/-- **A tool call of a cycle**: its symbol and its action, what the entry gate observes when it comes
to the call (`none`: an open position has no valid quote), and what the request of its quote says
(`none`: it fails). -/
structure PretestCall where
  symbol : Option String
  action : Option String
  view : Option GateView := none
  quote : Option ℚ := none

/-- `s.toLowerCase()`. Of the other letters only the Kelvin sign goes to one of ASCII, a `k`, which
no action has. -/
def lowered (s : String) : String := String.ofList (s.toList.map Char.toLower)

namespace PretestCall

/-- The action in lower case. -/
def rawAction (c : PretestCall) : Option String := c.action.map lowered

/-- The symbol, where it is not empty. -/
def symbol? (c : PretestCall) : Option String := c.symbol.filter fun s => s ≠ ""

/-- The symbol of an entry, which is gated: only `long` and `short` are. -/
def entrySymbol? (c : PretestCall) : Option String :=
  if c.rawAction = some "long" ∨ c.rawAction = some "short" then c.symbol? else none

end PretestCall

/-! ## The risk floor -/

/-- The answer of the entry gate for what it observes. -/
def gateResult (a : PaperState) (policy : RiskPolicy) (view : Option GateView) : EntryGateResult :=
  match view with
  | none =>
    { refusal := some [.lit ("mark-to-market unavailable for one or more open " ++
        "positions — refusing new entry")], state := a, baselineChanged := false }
  | some v => gateOf a policy v

/-- **The gate's answer is a function of what it observes**, in every run. -/
theorem evaluateEntryGate_result {W : Type} {M : Sem tradeSig W} (a : PaperState)
    (policy : RiskPolicy) (w : W) : (evaluateEntryGate a policy).Wp M (fun _ _ => True)
      (onOk fun g _ => g.result = gateResult a policy g.view) w := by
  refine wp_bind_of (wp_any _ _) (fun prices w _ => ?_) fun _ _ _ => trivial
  cases prices with
  | none => rfl
  | some prices =>
    refine wp_bind_of (wp_any _ _) (fun now w _ => ?_) fun _ _ _ => trivial
    exact wp_bind_of (wp_any _ _) (fun _ w _ => rfl) fun _ _ _ => trivial

/-- What the floor says of a call: calls that are not entries are exempt; an entry that passes has the
answer of its gate. -/
inductive FloorOutcome
  | exempt
  | passed (gate : EntryGateResult)
  | refused (reason : Text)

/-- The call goes on to the fills. -/
def FloorOutcome.allowed : FloorOutcome → Bool
  | .exempt | .passed _ => true
  | .refused _ => false

/-- The loop of the floor: the state, the new symbols that have been let through, and the outcome of
each call. -/
structure Floor where
  state : PretestState
  reservedNewSymbols : List String := []
  outcomes : List (PretestCall × FloorOutcome) := []

/-- The entries that go on to the fills. -/
def Floor.toolCalls (f : Floor) : List PretestCall :=
  (f.outcomes.filter fun x => x.2.allowed).map Prod.fst

/-- **One call at the floor.** -/
def Floor.step (riskPolicy : RiskPolicy) (f : Floor) (tc : PretestCall) : Floor :=
  match tc.entrySymbol? with
  | none => { f with outcomes := f.outcomes ++ [(tc, .exempt)] }
  | some symbol =>
    let gate := gateResult f.state.account riskPolicy tc.view
    let state := f.state.onAccount gate.state
    match gate.refusal with
    | some reason => { f with state, outcomes := f.outcomes ++ [(tc, .refused reason)] }
    | none =>
      if (state.positions.entry symbol).isSome ∨ symbol ∈ f.reservedNewSymbols then
        { f with state, outcomes := f.outcomes ++ [(tc, .passed gate)] }
      else
        let effectiveOpenCount := state.positions.entries.length + f.reservedNewSymbols.length
        if riskPolicy.maxOpenPositions ≤ effectiveOpenCount then
          { f with
            state
            outcomes := f.outcomes ++ [(tc, .refused [
              .lit "max open positions reached within this cycle (",
              .num (.fin effectiveOpenCount), .lit "/", .num (.fin riskPolicy.maxOpenPositions),
              .lit ")"])] }
        else
          { state
            reservedNewSymbols := f.reservedNewSymbols ++ [symbol]
            outcomes := f.outcomes ++ [(tc, .passed gate)] }

/-- **The kernel risk floor** before the fills. -/
def applyKernelRiskFloor (riskPolicy : RiskPolicy) (toolCalls : List PretestCall)
    (state : PretestState) : Floor :=
  toolCalls.foldl (Floor.step riskPolicy) { state }

end NeoTrader
