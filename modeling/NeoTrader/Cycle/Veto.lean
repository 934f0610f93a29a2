import NeoTrader.Agents.Turn
import NeoTrader.Js.Object

/-!
# The veto layer of a cycle

The pending signals of a cycle are handed from one discipline to the next, and what is left of them
is shown to the language model.

* `ActivePlugin`, `HookReply`, `VetoState`;
* `vetoStep`, `vetoLoop`, **`runVetoLayer`**: the hooks of the disciplines, one after another;
* `resolveSignalSource`, `findVetoMatch`, `extractEffectiveQty`, `resolveVetoVerdict`,
  `buildVetoDecisionData`, `vetoDecisions`: the ledger of the layer.

The writes of the audit and of the alerts are left out: the layer reads nothing of them. A proposal is
an object: the runner has tagged it with its plugin.
-/

namespace NeoTrader

open Js

/-! ## Data -/

structure ActivePlugin extends HydratedPlugin where
  name : String
  config : Obj := []

/-- What the sandbox answers to a hook. -/
structure HookReply where
  ok : Bool
  result : Option Obj := none
  error : Option String := none

structure VetoReason where
  discipline : String
  reason : Json

/-- The context that is handed on. -/
structure VetoState where
  ctx : Obj
  reasons : List VetoReason := []
  degraded : Bool := false

def VetoState.pending (st : VetoState) : Option Json := st.ctx.get "pending_signals"

def mlPluginId : String := "ml-feature-extractor"

def riskManager : ActivePlugin :=
  { id := "risk-manager", type := "discipline", name := "Risk Manager" }

/-! ## The hooks -/

/-- The context of one discipline: the model goes to the plugin that reads it. -/
def hookCtxFor (disc : ActivePlugin) (ctx mlInjection : Obj) : Obj :=
  if disc.id = mlPluginId then ctx ++ mlInjection else ctx

/-- The signals of an answer: `updated.signals ?? updated.pending_signals`. -/
def updatedSignals (updated : Obj) : Option Json :=
  nullish (updated.get "signals") (updated.get "pending_signals")

def keptOf (disc : ActivePlugin) (updated : Obj) : Obj :=
  if disc.id = mlPluginId then (updated.delete "model_blob").delete "feature_names" else updated

/-- `{ ...ctx, [key]: v }`, where `v` may be `undefined`. -/
def setOrDelete (ctx : Obj) (key : String) : Option Json → Obj
  | some v => ctx.set key v
  | none => ctx.delete key

/-- The reasons of an answer: `updated.veto_reasons ?? []`, which has to be a list. -/
def vetoReasonsOf (updated : Obj) : Except Err (List Json) :=
  match updated.get "veto_reasons" with
  | none | some .null => .ok []
  | some (.arr l) => .ok l
  | _ => .error { name := "TypeError", message := [.lit "reasons.map is not a function"] }

/-- **One discipline has answered.** A hook that fails drops every signal. -/
def vetoStep (disc : ActivePlugin) (reply : HookReply) (st : VetoState) : Except Err VetoState :=
  if reply.ok then
    match reply.result with
    | none => .ok st
    | some updated => do
      let reasons ← vetoReasonsOf updated
      let pending := nullish (updatedSignals updated) st.pending
      return { st with
        ctx := setOrDelete (st.ctx ++ keptOf disc updated) "pending_signals" pending
        reasons := st.reasons ++ reasons.map (VetoReason.mk disc.name) }
  else
    let reason := "hook failed — fail-safe: signals dropped (" ++ reply.error.getD "undefined" ++ ")"
    .ok { ctx := st.ctx.set "pending_signals" (.arr [])
          reasons := st.reasons ++ [⟨disc.name, .str reason⟩]
          degraded := true }

/-- The hooks of the disciplines, in their order. -/
def vetoLoop (call : ActivePlugin → Obj → HookReply) (mlInjection : Obj) :
    List ActivePlugin → VetoState → Except Err VetoState
  | [], st => .ok st
  | disc :: rest, st => do
    let st ← vetoStep disc (call disc (hookCtxFor disc st.ctx mlInjection)) st
    vetoLoop call mlInjection rest st

/-- The machine learning goes first; the order is kept otherwise. -/
def mlFirst (discs : List ActivePlugin) : List ActivePlugin :=
  (discs.filter fun d => d.id = mlPluginId) ++ discs.filter fun d => d.id ≠ mlPluginId

/-! ## The ledger -/

/-- `x[key]` where that is a string. -/
def stringField (v : Json) (key : String) : Option String := Json.asString? (v.field key)

/-- `x[key]` where that is a number. -/
def numberField (v : Json) (key : String) : Option Number :=
  match v.field key with
  | some (.num n) => some n
  | _ => none

/-- The plugin that a signal comes from. -/
def resolveSignalSource (sig : Json) : String :=
  ((stringField sig "_plugin").or ((stringField sig "plugin_id").or
    (stringField sig "source"))).getD ""

/-- `list.find(s => ...)` over signals, of which it reads the fields. -/
def findSignal (p : Json → Bool) : List Json → Except Err (Option Json)
  | [] => .ok none
  | .null :: _ => .error { name := "TypeError", message := [.lit "Cannot read properties of null"] }
  | s :: rest => if p s then .ok (some s) else findSignal p rest

/-- The counterpart of a proposal: of its symbol and its source, or else of its symbol. -/
def findVetoMatch (approved : List Json) (symbol source : String) :
    Except Err (Option Json × Bool) := do
  match ← findSignal (fun s => stringField s "symbol" = some symbol ∧
      resolveSignalSource s = source) approved with
  | some s => return (some s, true)
  | none => return (← findSignal (fun s => stringField s "symbol" = some symbol) approved, false)

/-- The list that the proposals are looked up in. -/
def approvedList : Option Json → Except Err (List Json)
  | none | some .null => .ok []
  | some (.arr l) => .ok l
  | _ => .error { name := "TypeError", message := [.lit "approvedList.find is not a function"] }

def nestedShares (sig : Json) (key : String) : Option Number :=
  match sig.field key with
  | some (.obj fields) => numberField (.obj fields) "shares"
  | _ => none

/-- The quantity that a signal comes to. -/
def extractEffectiveQty (sig : Json) : Option Number :=
  (nestedShares sig "fixed").or ((nestedShares sig "kelly").or ((nestedShares sig "volatility").or
    ((numberField sig "shares").or (numberField sig "qty"))))

def knownEqual (a b : Option Number) : Bool := a ≠ none ∧ a ≠ some .nan ∧ a = b

inductive LedgerVerdict
  | approved | blocked | modified
  deriving DecidableEq

/-- What the ledger says of a proposal. -/
structure VetoVerdict where
  verdict : LedgerVerdict
  approvedAction : Option String := none
  approvedQty : Option Number := none

/-- The verdict over a proposal and its counterpart. -/
def resolveVetoVerdict (proposedAction : String) (proposed : Json) (counterpart : Option Json)
    (ambiguous : Bool) : VetoVerdict :=
  match counterpart with
  | none => { verdict := .blocked }
  | some s =>
    if stringField s "action" = some "cancelled" then { verdict := .blocked }
    else
      let action := (stringField s "action").getD proposedAction
      let qty := extractEffectiveQty s
      if ambiguous then ⟨.modified, some action, qty⟩
      else
        if action = proposedAction ∧ knownEqual (extractEffectiveQty proposed) qty then
          { verdict := .approved }
        else ⟨.modified, some action, qty⟩

/-- A row of the ledger. -/
structure VetoDecision extends VetoVerdict where
  symbol : String
  sourcePlugin : String
  proposedAction : String
  proposedQty : Number

def proposedSymbol (sig : Json) : String := (stringField sig "symbol").getD ""

/-- The row of one proposal. -/
def buildVetoDecisionData (proposals : List Json) (approved : Option Json) (sig : Json) :
    Except Err VetoDecision := do
  let symbol := proposedSymbol sig
  let source := resolveSignalSource sig
  let action := (stringField sig "action").getD ""
  let (counterpart, exact) ← findVetoMatch (← approvedList approved) symbol source
  let ambiguous := !exact && 1 < (proposals.countP fun s => proposedSymbol s = symbol) &&
    (counterpart.map resolveSignalSource).getD "" = ""
  return { resolveVetoVerdict action sig counterpart ambiguous with
    symbol, sourcePlugin := source, proposedAction := action
    proposedQty := (numberField sig "qty").getD 0 }

/-- **The ledger**: one row for each proposed signal; a row that cannot be built is left out. -/
def vetoDecisions (proposals : List Json) (approved : Option Json) : List VetoDecision :=
  proposals.filterMap fun sig => (buildVetoDecisionData proposals approved sig).toOption

/-! ## The layer -/

structure VetoSummary where
  signalsProposed : ℕ
  signalsApproved : ℕ
  signalsVetoed : ℤ
  vetoReasons : List VetoReason
  disciplinePlugins : List String
  vetoDegraded : Bool

structure VetoResult where
  vetoCtx : Obj
  vetoSummary : VetoSummary
  decisions : List VetoDecision

/-- The list under a key, where there is one. -/
def listField (ctx : Obj) (key : String) : List Json :=
  match ctx.get key with
  | some (.arr l) => l
  | _ => []

/-- The context that the first discipline is handed. -/
def initialVeto (hookCtx : Obj) (pendingSignals : List Json) : VetoState :=
  { ctx := hookCtx.set "pending_signals" (.arr pendingSignals) }

/-- **The veto layer.** -/
def runVetoLayer (call : ActivePlugin → Obj → HookReply) (disciplinePlugins : List ActivePlugin)
    (hookCtx : Obj) (pendingSignals : List Json) (mlInjection : Obj) : Except Err VetoResult := do
  let st ← vetoLoop call mlInjection (mlFirst disciplinePlugins)
    (initialVeto hookCtx pendingSignals)
  let approved := listField st.ctx "pending_signals"
  return {
    vetoCtx := st.ctx
    vetoSummary :=
      { signalsProposed := pendingSignals.length
        signalsApproved := approved.length
        signalsVetoed := pendingSignals.length - approved.length
        vetoReasons := st.reasons
        disciplinePlugins := disciplinePlugins.map fun d => d.id
        vetoDegraded := st.degraded }
    decisions := vetoDecisions pendingSignals (st.ctx.get "pending_signals") }

end NeoTrader
