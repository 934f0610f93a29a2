import NeoTrader.Trade.TradeIntent

/-!
# A governed turn of the agent

The language model is asked, its tool calls are validated and dispatched to the sandbox or to the
kernel, and what came of them is shown to it again, for a few iterations.

* `runDebateGate`, `dispatchKernelTool`, `recordSignalAndIntent`, **`dispatchOne`**: one call;
* `prioritizeExits`, **`executeToolCalls`**, `runSingleIteration`, **`runGovernedTurn`**.
-/

namespace NeoTrader

open Js Await

/-! ## Data -/

structure ToolCallRequest where
  pluginId : String
  function : String
  args : Json

/-- A tool of an active plugin; `name` is `plugin__function`. -/
structure ProviderTool where
  pluginId : String
  name : String

structure HydratedPlugin where
  id : String
  type : String

/-- An answer of the language model. `textCalls` are the calls that its text spells. -/
structure LlmResponse where
  text : String
  toolCalls : List ToolCallRequest
  textCalls : List ToolCallRequest := []

structure SandboxReply where
  ok : Bool
  result : Option Json := none
  error : Option String := none

structure WebSearchResult where
  ok : Bool
  text : String

/-- What a kernel tool of a reflection comes to. -/
structure KernelReply where
  allowed : Bool
  reason : Option String
  reply : SandboxReply

structure DebateConsensus where
  recommendation : String
  stances : List String

/-- The fate of a tool call. -/
structure CallDecision where
  call : ToolCallRequest
  allowed : Bool
  reason : Option Text := none

structure SandboxResult where
  pluginId : String
  function : String
  reply : SandboxReply

/-- Who asks for a turn. -/
inductive TurnSource
  | chat | cycle | pretest | reflection
  deriving DecidableEq

structure GovernedTurnInput where
  source : TurnSource
  cycleId : Option String := none
  activePlugins : Option (List HydratedPlugin) := none
  virtualOnly : Option Bool := none

structure Services where
  kv : Bool := true
  debate : Bool := true
  tradeIntent : Bool := true
  webSearch : Bool := true
  providerGateway : Bool := true

/-! ## Operations -/

/-- **The awaited operations.** `kernelTool` stands for a tool that only reflections may call. -/
inductive AgentOp
  | trade (op : TradeOp)
  | memoryContext
  | getProviderTools
  | findActive
  | getActiveDecisionPrompt
  | getActiveDebateRoles
  | complete (tools : List ProviderTool)
  | runPanel (call : ToolCallRequest) (roles : List String)
  | callPlugin (pluginId function : String) (args : Json)
  | search (query : String)
  | kernelTool (call : ToolCallRequest)
  | audit (event : String) (detail : List String)

/-- The answers. -/
def AgentOp.Ans : AgentOp → Type
  | trade op => op.Ans
  | memoryContext => Unit
  | getProviderTools => List ProviderTool
  | findActive => List HydratedPlugin
  | getActiveDecisionPrompt => Option String
  | getActiveDebateRoles => List String
  | complete _ => LlmResponse
  | runPanel _ _ => Option DebateConsensus
  | callPlugin _ _ _ => SandboxReply
  | search _ => WebSearchResult
  | kernelTool _ => KernelReply
  | audit _ _ => Unit

def agentSig : Sig := ⟨AgentOp, AgentOp.Ans, Err⟩

abbrev Agent (α : Type) : Type := Prog agentSig α

/-- Await one operation of the agent. -/
abbrev ask (op : AgentOp) : Agent op.Ans := Prog.perform (S := agentSig) op

/-- The trade services inside the agent. -/
def tradeEmb : Emb tradeSig agentSig where
  op := AgentOp.trade
  back := fun _ r => r
  err := fun e => e

/-- Run a program of the trade services. -/
abbrev trading {α : Type} (p : Trade α) : Agent α := p.embed tradeEmb

/-- An audit event that is written under a condition. -/
def auditIf (c : Bool) (event : String) (detail : List String := []) : Agent Unit :=
  if c then ask (.audit event detail) else return ()

/-- **The agent over the world of the trade services.** What is outside may answer anything. -/
def agentSem : Sem agentSig World where
  rel
    | .trade op, w, r, w' => tradeSem.rel op w r w'
    | _, w, _, w' => w' = w

/-! ## Settings -/

/-- A setting of the loop: the integer part of a number, in `[1, hi]`. -/
def loopSetting (raw : Option String) (default hi : ℕ) : ℕ :=
  match raw with
  | none => min hi (max 1 default)
  | some s =>
    match Number.ofString s with
    | .fin q => (min (hi : ℤ) (max 1 (q.num.tdiv q.den))).toNat
    | _ => min hi (max 1 default)

def reactMaxTurnsDefault : ℕ := 2
def reactMaxToolCallsDefault : ℕ := 3
def maxWebSearchCallsPerIteration : ℕ := 3
def maxWebSearchCallsPerCycle : ℕ := 5

section Turn

variable (s : Services)

def resolveMaxTurns : Agent ℕ :=
  if s.kv then do
    let raw ← trading (await (.kvGet "react.max_turns"))
    return loopSetting raw reactMaxTurnsDefault 10
  else return loopSetting none reactMaxTurnsDefault 10

def resolveMaxToolCalls : Agent ℕ :=
  if s.kv then do
    let raw ← trading (await (.kvGet "react.max_tool_calls"))
    return loopSetting raw reactMaxToolCallsDefault 20
  else return loopSetting none reactMaxToolCallsDefault 20

/-! ## Validation -/

def kernelToolRegistry : List String :=
  ["write_skill", "create_pretest_variant", "run_pretest_compare", "promote_pretest",
    "record_lesson", "train_ml_model", "tune_plugin_param", "web_search"]

/-- The kernel's tools that every turn may call. -/
def kernelAlwaysAllowedTools : List String := ["web_search"]

def ToolCallRequest.isReadOnlyKernelTool (tc : ToolCallRequest) : Bool :=
  tc.pluginId = "kernel" && tc.function ∈ kernelAlwaysAllowedTools

/-- A trade decision of the language model. -/
def ToolCallRequest.isEmitTradeIntent (tc : ToolCallRequest) : Bool :=
  tc.pluginId = "decision" && tc.function = "emit_trade_intent"

/-- A decision to close a position. -/
def ToolCallRequest.isExit (tc : ToolCallRequest) : Bool :=
  tc.isEmitTradeIntent && Json.asString? (tc.args.field "action") = some "exit"

/-- A native call whose arguments are the text `null`. -/
def ToolCallRequest.nullArgs (tc : ToolCallRequest) : Bool :=
  match tc.args with
  | .null => true
  | _ => false

/-- The error of `null[key]`. -/
def nullProperty (key : String) : Err :=
  { name := "TypeError"
    message := [.lit ("Cannot read properties of null (reading '" ++ key ++ "')")] }

/-- Whether it is asked of a trade decision without arguments if it is an exit. -/
def ToolCallRequest.exitUnreadable (tc : ToolCallRequest) : Bool :=
  tc.isEmitTradeIntent && tc.nullArgs

def kernelTools (source : TurnSource) : List ProviderTool :=
  match source with
  | .reflection =>
    ["web_search", "write_skill", "create_pretest_variant", "run_pretest_compare",
      "promote_pretest", "record_lesson", "train_ml_model", "tune_plugin_param"].map
      fun f => ⟨"kernel", "kernel__" ++ f⟩
  | _ => [⟨"kernel", "kernel__web_search"⟩]

/-- Why a call is dropped before its dispatch. -/
def resolveDropReason (call : ToolCallRequest) (activePlugins : List HydratedPlugin)
    (tools : List ProviderTool) (virtualOnly allowKernelTools : Bool) : Option String :=
  if call.pluginId = "kernel" then
    if call.function ∉ kernelToolRegistry then some "unknown_kernel_tool"
    else if call.function ∈ kernelAlwaysAllowedTools then none
    else if allowKernelTools then none else some "kernel_source_not_allowed"
  else if virtualOnly ∧
      (activePlugins.find? fun p => p.id = call.pluginId).any fun p => p.type = "provider" then
    some "virtual_mode_provider_blocked"
  else if ¬ activePlugins.any fun p => p.id = call.pluginId then
    if tools.any fun t => t.pluginId = call.pluginId then some "plugin_inactive"
    else some "plugin_not_found"
  else if ¬ tools.any fun t => t.name = call.pluginId ++ "__" ++ call.function then
    some "function_not_declared"
  else none

/-- The calls with no reason to drop them; each dropped one is audited. -/
def keepValid (reason : ToolCallRequest → Option String) :
    List ToolCallRequest → Agent (List ToolCallRequest)
  | [] => return []
  | call :: calls => do
    match reason call with
    | some r => do
      ask (.audit "tool_call_dropped" [call.pluginId, call.function, r])
      keepValid reason calls
    | none => do
      let valid ← keepValid reason calls
      return call :: valid

/-- The active plugins, where they have not been read before. -/
def activePluginsOr (preloaded : Option (List HydratedPlugin)) : Agent (List HydratedPlugin) :=
  match preloaded with
  | some plugins => return plugins
  | none => ask .findActive

/-- **The calls that may be dispatched.** An error drops them all. -/
def validateToolCalls (calls : List ToolCallRequest) (tools : List ProviderTool)
    (preloaded : Option (List HydratedPlugin)) (virtualOnly : Bool) (source : TurnSource) :
    Agent (List ToolCallRequest) :=
  match calls with
  | [] => return []
  | _ => do
    let valid : Agent (List ToolCallRequest) := do
      let activePlugins ← activePluginsOr preloaded
      keepValid (fun call => resolveDropReason call activePlugins tools virtualOnly
        (source = .reflection)) calls
    match ← valid.attempt with
    | .ok valid => return valid
    | .error _ => do
      ask (.audit "cycle_fail" ["_validateToolCalls"])
      return []

/-! ## One call -/

/-- What the dispatched calls leave behind. `executed` records each of them with whether the debate
let it through. -/
structure Collected where
  decisions : List CallDecision := []
  sandboxResults : List SandboxResult := []
  signalsEmitted : List (String × String) := []
  executed : List (ToolCallRequest × Bool) := []

namespace Collected

variable (acc : Collected) (tc : ToolCallRequest)

def ran (passed : Bool) : Collected := { acc with executed := acc.executed ++ [(tc, passed)] }

def allow : Collected := { acc with decisions := acc.decisions ++ [⟨tc, true, none⟩] }

def refuse (reason : Text) : Collected :=
  { acc with decisions := acc.decisions ++ [⟨tc, false, some reason⟩] }

def answered (reply : SandboxReply) : Collected :=
  { acc with sandboxResults := acc.sandboxResults ++ [⟨tc.pluginId, tc.function, reply⟩] }

def signal (symbol action : String) : Collected :=
  { acc with signalsEmitted := acc.signalsEmitted ++ [(symbol, action)] }

end Collected

/-- What an error of a call comes to. -/
def dispatchFailed (tc : ToolCallRequest) (acc : Collected) (e : Err) : Agent Collected := do
  ask (.audit "cycle_fail" [tc.pluginId, tc.function])
  return acc.refuse tc e.message

structure DebateConfig where
  enabled : Bool
  minPct : ℚ
  maxRoles : ℕ
  failBlocks : Bool

/-- The settings of the debate; any error switches it off. -/
def readDebateConfig : Agent DebateConfig := do
  let off : DebateConfig := ⟨false, 1 / 10, 3, false⟩
  if s.kv then
    let read : Agent DebateConfig := do
      let enabled ← trading (await (.kvGet "debate.enabled"))
      let minPct ← trading (await (.kvGet "debate.min_notional_pct"))
      let maxRoles ← trading (await (.kvGet "debate.max_roles"))
      let failMode ← trading (await (.kvGet "debate.fail_mode"))
      let pct := kvNum minPct 0
      let roles := kvNum maxRoles 3
      return ⟨kvBool enabled false, if 0 < pct then pct else off.minPct,
        (min 5 (max 1 (roles.num.tdiv roles.den))).toNat, kvStr failMode = some "block"⟩
    match ← read.attempt with
    | .ok cfg => return cfg
    | .error _ => return off
  else return off

/-- `a ?? b`. -/
def orElse (a b : Option Json) : Option Json :=
  match a with
  | none | some .null => b
  | some v => some v

/-- Whether a call is important enough for a debate; any error means no. -/
def isHighImpact (tc : ToolCallRequest) (threshold : ℚ) : Agent Bool :=
  if tc.exitUnreadable then .throw (nullProperty "action")
  else if tc.isExit then return false
  else if tc.pluginId = "kernel" ∧ tc.function = "promote_pretest" then return true
  else if ¬ s.providerGateway then return false
  else
    let qty := Json.toNumber? (orElse (tc.args.field "qty") (tc.args.field "quantity"))
    match Json.asString? (tc.args.field "symbol") with
    | none => return false
    | some symbol =>
      if ¬ qty.isFinite ∨ qty.le 0 ∨ symbol = "" then return false
      else do
        let check : Agent Bool := do
          let last ← trading (await (.getQuote symbol))
          let portfolio ← trading (getPortfolio "")
          if portfolio.equity.le 0 ∨ last.le 0 then return false
          return (qty.mul last).ge (portfolio.equity.mul (.fin threshold))
        match ← check.attempt with
        | .ok high => return high
        | .error _ => return false

/-- The reason for which the debate drops a call. -/
def runDebateGate (tc : ToolCallRequest) : Agent (Option String) := do
  let cfg ← readDebateConfig s
  if ¬ cfg.enabled then return none
  let roles : List String ← ask .getActiveDebateRoles
  if roles.isEmpty then return none
  if ¬ (← isHighImpact s tc cfg.minPct) then return none
  ask (.audit "debate_started" [tc.pluginId, tc.function])
  let outcome : Except Err (Option DebateConsensus) ←
    (ask (.runPanel tc (roles.take cfg.maxRoles))).attempt
  match outcome with
  | .error _ => do
    ask (.audit "debate_skipped" [])
    return if cfg.failBlocks then some "debate_failed" else none
  | .ok none => return none
  | .ok (some consensus) => do
    Prog.forEach consensus.stances fun stance => ask (.audit "debate_stance" [stance])
    ask (.audit "debate_consensus" [consensus.recommendation])
    return if consensus.recommendation = "reject" then some "debate_rejected" else none

def kernelWebSearch (tc : ToolCallRequest) (acc : Collected) : Agent Collected :=
  if tc.nullArgs then .throw (nullProperty "query") else do
  let query := trimmed ((Json.asString? (tc.args.field "query")).getD "")
  let unavailable (reason : String) : Collected :=
    (acc.refuse tc [.lit reason]).answered tc { ok := false, error := some reason }
  if ¬ s.webSearch then return unavailable "web_search_unavailable"
  if query = "" then return unavailable "invalid_query"
  let result : WebSearchResult ← ask (.search query)
  ask (.audit "kernel_web_search" [query])
  return (acc.allow tc).answered tc
    { ok := result.ok, result := some (.obj [("text", .str result.text)]) }

/-- **A tool of the kernel**; it bypasses the sandbox. -/
def dispatchKernelTool (tc : ToolCallRequest) (acc : Collected) : Agent Collected :=
  if tc.function = "web_search" then kernelWebSearch s tc acc
  else if tc.function ∈ kernelToolRegistry then do
    let r : KernelReply ← ask (.kernelTool tc)
    let acc := if r.allowed then acc.allow tc else acc.refuse tc [.lit (r.reason.getD "")]
    return acc.answered tc r.reply
  else return acc.refuse tc [.lit "unknown_kernel_tool"]

/-- The confidence and the rationale of a decision. Those of an exit or a hold are repaired. -/
def normalizeIntentConfidenceRationale (action : String) (args : Json) : Number × String :=
  let raw := Json.toNumber? (args.field "confidence")
  let rationale := (Json.asString? (args.field "rationale")).getD ""
  if action ≠ "exit" ∧ action ≠ "hold" then (if raw.isFinite then raw else 0, rationale)
  else
    (match raw with
      | .fin q => .fin (max 0 (min 1 q))
      | _ => 1,
    if trimmed rationale ≠ "" then rationale
    else if action = "exit" then "position close" else "hold — no position change")

/-- What is recorded of a decision. -/
def intentDto (cycleId symbol action : String) (args : Json) : IntentDto :=
  let (confidence, rationale) := normalizeIntentConfidenceRationale action args
  { cycleId := some cycleId, symbol, action, confidence, rationale
    timeframe := Json.asString? (args.field "timeframe") }

/-- **The signal of a call, and the intent of a trade decision** that the sandbox has accepted. -/
def recordSignalAndIntent (cycleId : String) (tc : ToolCallRequest) (reply : SandboxReply)
    (acc : Collected) : Agent Collected :=
  if tc.nullArgs then dispatchFailed tc acc (nullProperty "symbol")
  else
  match Json.asString? (tc.args.field "symbol"), Json.asString? (tc.args.field "action") with
  | some symbol, some action => do
    let acc := acc.signal symbol action
    match ← (ask (.audit "signal" [tc.pluginId, symbol, action])).attempt with
    | .error e => dispatchFailed tc acc e
    | .ok _ =>
      if s.tradeIntent ∧ reply.ok ∧ tc.isEmitTradeIntent then do
        let _ ← (trading (recordIntent (intentDto cycleId symbol action tc.args))).attempt
        return acc
      else return acc
  | _, _ => return acc

def debateGate (tc : ToolCallRequest) : Agent (Option String) :=
  if s.debate then runDebateGate s tc else return none

/-- **The dispatch of one call**: the debate, then the kernel or the sandbox. What has been
collected before an error is kept. -/
def dispatchOne (cycleId : String) (tc : ToolCallRequest) (acc : Collected) : Agent Collected := do
  match ← (debateGate s tc).attempt with
  | .error e => dispatchFailed tc (acc.ran tc false) e
  | .ok (some reason) => return (acc.ran tc false).refuse tc [.lit reason]
  | .ok none =>
    let acc := acc.ran tc true
    if tc.pluginId = "kernel" then
      match ← (dispatchKernelTool s tc acc).attempt with
      | .ok acc => return acc
      | .error e => dispatchFailed tc acc e
    else
      let acc := acc.allow tc
      match ← (ask (.callPlugin tc.pluginId tc.function tc.args)).attempt with
      | .error e => dispatchFailed tc acc e
      | .ok reply => recordSignalAndIntent s cycleId tc reply (acc.answered tc reply)

/-! ## The calls of one iteration -/

/-- Exits come first; the order is kept otherwise. -/
def prioritizeExits (calls : List ToolCallRequest) : List ToolCallRequest :=
  calls.filter ToolCallRequest.isExit ++ calls.filter fun tc => ¬ tc.isExit

def readOnlyCalls (calls : List ToolCallRequest) (webSearchBudget : ℕ) : List ToolCallRequest :=
  (calls.filter ToolCallRequest.isReadOnlyKernelTool).take
    (min maxWebSearchCallsPerIteration webSearchBudget)

/-- The other calls, in the order in which they are executed. -/
def prioritizedCalls (calls : List ToolCallRequest) : List ToolCallRequest :=
  prioritizeExits (calls.filter fun tc => ¬ tc.isReadOnlyKernelTool)

def dispatchAll (cycleId : String) : List ToolCallRequest → Collected → Agent Collected
  | [], acc => return acc
  | tc :: calls, acc => do dispatchAll cycleId calls (← dispatchOne s cycleId tc acc)

/-- The read-only calls that are dropped. -/
def droppedSearches (calls : List ToolCallRequest) (webSearchBudget : ℕ) : List ToolCallRequest :=
  (calls.filter ToolCallRequest.isReadOnlyKernelTool).drop
    (min maxWebSearchCallsPerIteration webSearchBudget)

def droppedCalls (calls : List ToolCallRequest) (budget : ℕ) : List ToolCallRequest :=
  (prioritizedCalls calls).drop budget

/-- What is audited of dropped calls: the budget, how many are executed, how many are dropped. -/
def capDetail (budget executed dropped : ℕ) : List String :=
  [toString budget, toString executed, toString dropped]

/-- **The calls that fit the budgets are dispatched**, the others are audited as dropped. No call is
dispatched where it cannot be read of one of them if it is an exit. -/
def executeToolCalls (cycleId : String) (calls : List ToolCallRequest)
    (budget webSearchBudget : ℕ) : Agent Collected :=
  if calls.any ToolCallRequest.exitUnreadable then .throw (nullProperty "action") else do
  let searches := readOnlyCalls calls webSearchBudget
  let skippedSearches := (droppedSearches calls webSearchBudget).length
  let toExecute := (prioritizedCalls calls).take budget
  let skipped := droppedCalls calls budget
  let acc ← dispatchAll s cycleId searches {}
  auditIf (0 < skippedSearches) "web_search_cycle_cap_reached"
    (capDetail webSearchBudget searches.length skippedSearches)
  let acc ← dispatchAll s cycleId toExecute acc
  auditIf (0 < skipped.length) "tool_call_cap_reached"
    (capDetail budget toExecute.length skipped.length ++
      skipped.map fun tc => tc.pluginId ++ "." ++ tc.function)
  return acc

/-- What one iteration comes to. The budgets are those it began with. -/
structure Iteration where
  turn : ℕ
  toolCallBudget : ℕ
  webSearchBudget : ℕ
  toolCalls : List ToolCallRequest
  collected : Collected

namespace Iteration

variable (i : Iteration)

def hadToolCalls : Bool := ¬ i.toolCalls.isEmpty

def executedCount : ℕ := ((prioritizedCalls i.toolCalls).take i.toolCallBudget).length

def webSearchExecutedCount : ℕ := (readOnlyCalls i.toolCalls i.webSearchBudget).length

end Iteration

def auditTurn (source : TurnSource) : Agent Unit :=
  match source with
  | .chat => ask (.audit "chat_turn" [])
  | .pretest => ask (.audit "pretest_turn" [])
  | .cycle | .reflection => return ()

/-- **One iteration**: the language model, the validation, the dispatch. -/
def runSingleIteration (cycleId : String) (input : GovernedTurnInput) (tools : List ProviderTool)
    (turn toolCallBudget webSearchBudget : ℕ) : Agent Iteration := do
  let response : LlmResponse ← ask (.complete tools)
  let calls := if response.toolCalls.isEmpty then response.textCalls else response.toolCalls
  let valid ← validateToolCalls calls tools input.activePlugins (input.virtualOnly.getD false)
    input.source
  let collected ← executeToolCalls s cycleId valid toolCallBudget webSearchBudget
  auditTurn input.source
  return ⟨turn, toolCallBudget, webSearchBudget, valid, collected⟩

/-! ## The turn -/

/-- What a turn reports. `iterations` are those that it consists of. -/
structure GovernedTurnResult where
  cycleId : String
  toolCalls : List ToolCallRequest
  decisions : List CallDecision
  sandboxResults : List SandboxResult
  signalsEmitted : List (String × String)
  turnsUsed : ℕ
  iterations : List Iteration

/-- The report of a turn whose last iteration is `last`. -/
def turnResult (cycleId : String) (earlier : List Iteration) (last : Iteration) :
    GovernedTurnResult :=
  let all := earlier ++ [last]
  { cycleId
    toolCalls := last.toolCalls
    decisions := all.flatMap fun i => i.collected.decisions
    sandboxResults := all.flatMap fun i => i.collected.sandboxResults
    signalsEmitted := all.flatMap fun i => i.collected.signalsEmitted
    turnsUsed := last.turn
    iterations := all }

/-- The loop, after the iterations `earlier`; `fuel` more of them are allowed. -/
def reactLoop (cycleId : String) (input : GovernedTurnInput) (tools : List ProviderTool)
    (maxTurns maxToolCalls : ℕ) : ℕ → List Iteration → Iteration → Agent GovernedTurnResult
  | fuel, earlier, last => do
    let executed := ((earlier ++ [last]).map Iteration.executedCount).sum
    let searched := ((earlier ++ [last]).map Iteration.webSearchExecutedCount).sum
    if ¬ last.hadToolCalls then return turnResult cycleId earlier last
    auditIf (1 < maxTurns) "react_iteration"
    match fuel with
    | 0 =>
      auditIf (1 < maxTurns) "react_budget_exhausted"
      return turnResult cycleId earlier last
    | fuel + 1 =>
      if maxToolCalls ≤ executed then return turnResult cycleId earlier last
      let next ← runSingleIteration s cycleId input tools (last.turn + 1)
        (maxToolCalls - executed) (maxWebSearchCallsPerCycle - searched)
      reactLoop cycleId input tools maxTurns maxToolCalls fuel (earlier ++ [last]) next

/-- The tools of a turn; a chat has none. -/
def effectiveTools (source : TurnSource) (providerTools : List ProviderTool) :
    List ProviderTool :=
  match source with
  | .chat => []
  | _ => providerTools ++ kernelTools source

/-- The comparison of proposed and emitted signals; it is only audited. -/
def auditLlmDivergence (source : TurnSource) : Agent Unit :=
  match source with
  | .cycle | .pretest => do
    let _ ← (ask (.audit "llm_divergence" [])).attempt
    return ()
  | _ => return ()

/-- The decision prompt is read once; a chat has none. -/
def readDecisionPrompt (source : TurnSource) : Agent (Option String) :=
  match source with
  | .chat => return none
  | _ => ask .getActiveDecisionPrompt

/-- The id of a turn that the caller gives none. -/
def turnId (cycleId : Option String) : Agent String :=
  match cycleId with
  | some id => return id
  | none => trading (await .randomUUID)

/-- **A governed turn.** -/
def runGovernedTurn (input : GovernedTurnInput) : Agent GovernedTurnResult := do
  let cycleId ← turnId input.cycleId
  let providerTools : List ProviderTool ← ask .getProviderTools
  let tools := effectiveTools input.source providerTools
  let _ ← readDecisionPrompt input.source
  let maxTurns ← resolveMaxTurns s
  let maxToolCalls ← resolveMaxToolCalls s
  let first ← runSingleIteration s cycleId input tools 1 maxToolCalls maxWebSearchCallsPerCycle
  let result ← reactLoop s cycleId input tools maxTurns maxToolCalls (maxTurns - 1) [] first
  auditLlmDivergence input.source
  return result

/-! ## The turn of a pretest -/

/-- How a pretest portfolio is run. -/
inductive ExecutionMode
  | llmGated | deterministic
  deriving DecidableEq

/-- **The turn of a pretest**: none in the deterministic mode. -/
def runPretestLlmOrSkip (mode : ExecutionMode) : Agent (List ToolCallRequest) :=
  match mode with
  | .deterministic => return []
  | .llmGated => do
    ask .memoryContext
    let result ← runGovernedTurn s { source := .pretest, virtualOnly := some true }
    return result.toolCalls

end Turn

end NeoTrader
