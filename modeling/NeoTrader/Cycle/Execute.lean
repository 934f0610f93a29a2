import NeoTrader.Cycle.Veto

/-!
# A cycle up to its governed turn

The context of a cycle is built, the skills of the runner fill in their signals, the disciplines
veto some of them, the extra plugins add to the context, and the turn is shown what is left.

* **`executeCycle`**: the cycle up to the signals that its turn is shown.
-/

namespace NeoTrader

open Js

/-! ## What a cycle runs in -/

/-- The sandbox, the active plugins and the settings of a cycle. -/
structure CycleEnv where
  cycleId : String
  activePlugins : List ActivePlugin
  symbols : List String
  ohlcv : Obj
  capitalSetting : Option String
  mlModel : Option (String × List String) := none
  runCycle : List String → Obj → HookReply
  runHook : ActivePlugin → Obj → HookReply
  runExtra : ActivePlugin → Obj → HookReply
  preStage : ActivePlugin → Bool

/-- The model that the machine learning is given: its file and the names of its features. -/
def CycleEnv.mlInjection (env : CycleEnv) : Obj :=
  match env.mlModel with
  | none => []
  | some (blob, names) =>
    [("model_blob", .str blob), ("feature_names", .arr (names.map .str))]

def defaultCapital : Number := 10000

/-- The capital that the disciplines size against: `Number(setting || 0) || 10000`. -/
def resolveCapital (setting : Option String) : Number :=
  match setting with
  | none | some "" => defaultCapital
  | some s =>
    let n := Number.ofString s
    if n = 0 ∨ n = .nan then defaultCapital else n

/-- The context that the runner is handed. -/
def cycleCtx (env : CycleEnv) : Obj :=
  [("cycle_id", .str env.cycleId), ("universe", .arr (env.symbols.map .str)),
    ("ohlcv", .obj env.ohlcv), ("config", .obj []), ("portfolio", .obj []),
    ("portfolio_value", .num (resolveCapital env.capitalSetting)), ("positions", .arr []),
    ("trade_history", .arr [])]

/-- The context that the disciplines are handed. -/
def hookCtx (env : CycleEnv) (baseCtx : Obj) : Obj :=
  baseCtx ++ [("portfolio_value", .num (resolveCapital env.capitalSetting)),
    ("positions", (nullish (baseCtx.get "positions") none).getD (.arr [])),
    ("portfolio", (nullish (baseCtx.get "portfolio") none).getD (.obj [])),
    ("trade_history", (nullish (baseCtx.get "trade_history") none).getD (.arr []))]

/-! ## Extra plugins -/

/-- The keys of the context that an extra plugin may not write. -/
def protectedKeys : List String :=
  ["pending_signals", "credentials", "tool_calls", "decisions", "veto_reasons"]

/-- The keys of an answer that are not merged. -/
def skipKeys : List String := ["notify_intents", "cycle_abort", "cycle_abort_reason"]

/-- The value that is merged: two logs are joined. -/
def mergedValue (base : Obj) (f : String × Json) : Json :=
  if f.1 = "log" then
    match base.get "log", f.2 with
    | some (.arr a), .arr b => .arr (a ++ b)
    | _, v => v
  else f.2

/-- The answer of an extra plugin is merged into the context. -/
def mergeExtraCtx (base extra : Obj) : Obj :=
  base ++ (extra.filter fun f => f.1 ∉ protectedKeys ∧ f.1 ∉ skipKeys).map
    fun f => (f.1, mergedValue base f)

/-- The notifications that an answer asks for are collected. -/
def logNotifyIntents (extra ctx : Obj) : Obj :=
  match extra.get "notify_intents" with
  | some (.arr (i :: l)) =>
    ctx.set "_collected_notify_intents" (.arr (listField ctx "_collected_notify_intents" ++ i :: l))
  | _ => ctx

/-- What an extra plugin answers; a failure is no answer. -/
def extraAnswer (reply : HookReply) : Obj := if reply.ok then reply.result.getD [] else []

/-- The extra plugin asks to end the cycle. -/
def asksAbort (extra : Obj) : Bool :=
  match extra.get "cycle_abort" with
  | some (.bool b) => b
  | _ => false

/-- The extra plugins before the turn; `true` where one of them ends the cycle. -/
def runPreExtras (call : ActivePlugin → Obj → HookReply) : List ActivePlugin → Obj → Obj × Bool
  | [], ctx => (ctx, false)
  | extra :: rest, ctx =>
    let answer := extraAnswer (call extra ctx)
    let ctx := logNotifyIntents answer (mergeExtraCtx ctx answer)
    if asksAbort answer then (ctx, true) else runPreExtras call rest ctx

/-! ## The cycle -/

/-- What a cycle comes to before its turn; a cycle that is ended shows nothing. -/
structure CycleOutcome where
  hookCtx : Obj
  pendingSignals : List Json
  veto : VetoResult
  approvedSignals : Option (List Json)

def CycleEnv.activeIds (env : CycleEnv) : List String := env.activePlugins.map fun p => p.id

def CycleEnv.disciplinePlugins (env : CycleEnv) : List ActivePlugin :=
  env.activePlugins.filter fun p => p.type = "discipline"

/-- The context of the disciplines, after the runner's answer; its input, where there is none. -/
def CycleEnv.hookCtx (env : CycleEnv) : Obj :=
  NeoTrader.hookCtx env (((env.runCycle env.activeIds (cycleCtx env)).result).getD (cycleCtx env))

/-- **A cycle up to its governed turn.** -/
def executeCycle (env : CycleEnv) : Except Err CycleOutcome := do
  let activeIds := env.activeIds
  let ctx := env.hookCtx
  let pendingSignals := listField ctx "pending_signals"
  let veto ← runVetoLayer env.runHook env.disciplinePlugins ctx pendingSignals env.mlInjection
  let preExtras := (env.activePlugins.filter fun p => p.type = "extra").filter env.preStage
  let (runningCtx, aborted) := runPreExtras env.runExtra preExtras
    (veto.vetoCtx.set "active_plugin_ids" (.arr (activeIds.map .str)))
  return { hookCtx := ctx, pendingSignals, veto
           approvedSignals :=
            if aborted then none else some (listField runningCtx "pending_signals") }

/-! ## What the turn is shown -/

theorem mergeExtraCtx_pending (base extra : Obj) :
    (mergeExtraCtx base extra).get "pending_signals" = base.get "pending_signals" := by
  have hnone : Obj.get ((extra.filter fun f => f.1 ∉ protectedKeys ∧ f.1 ∉ skipKeys).map
      fun f => (f.1, mergedValue base f)) "pending_signals" = none := by
    unfold Obj.get Json.field
    simp only [Option.map_eq_none_iff, List.find?_eq_none, List.mem_reverse, List.mem_map,
      List.mem_filter]
    rintro _ ⟨f, ⟨-, hf⟩, rfl⟩ hkey
    rw [of_decide_eq_true hkey] at hf
    simp [protectedKeys] at hf
  rw [mergeExtraCtx, Obj.get_append, hnone]
  rfl

theorem logNotifyIntents_pending (extra ctx : Obj) :
    (logNotifyIntents extra ctx).get "pending_signals" = ctx.get "pending_signals" := by
  unfold logNotifyIntents
  split
  · exact Obj.get_set_of_ne _ (by decide) _
  · rfl

/-- **The extra plugins leave the pending signals alone.** -/
theorem runPreExtras_pending (call : ActivePlugin → Obj → HookReply) (extras : List ActivePlugin)
    (ctx : Obj) :
    (runPreExtras call extras ctx).1.get "pending_signals" = ctx.get "pending_signals" := by
  induction extras generalizing ctx with
  | nil => rfl
  | cons extra rest ih =>
    have hmerged : (logNotifyIntents (extraAnswer (call extra ctx))
        (mergeExtraCtx ctx (extraAnswer (call extra ctx)))).get "pending_signals" =
          ctx.get "pending_signals" :=
      (logNotifyIntents_pending _ _).trans (mergeExtraCtx_pending _ _)
    rw [runPreExtras]
    split
    · exact hmerged
    · exact (ih _).trans hmerged

theorem listField_congr {a b : Obj} {key : String} (h : a.get key = b.get key) :
    listField a key = listField b key := by
  rw [listField, listField, h]

theorem executeCycle_veto {env : CycleEnv} {out : CycleOutcome} (h : executeCycle env = .ok out) :
    runVetoLayer env.runHook env.disciplinePlugins out.hookCtx out.pendingSignals env.mlInjection =
      .ok out.veto := by
  simp only [executeCycle] at h
  generalize hveto : runVetoLayer env.runHook _ _ _ env.mlInjection = layer at h
  cases layer with
  | error e => cases h
  | ok veto =>
    cases h
    exact hveto

/-- **The turn is shown what the veto layer leaves.** -/
theorem shown_eq {env : CycleEnv} {out : CycleOutcome} (h : executeCycle env = .ok out)
    {shown : List Json} (hshown : out.approvedSignals = some shown) :
    shown = listField out.veto.vetoCtx "pending_signals" := by
  simp only [executeCycle] at h
  generalize runVetoLayer env.runHook _ _ _ env.mlInjection = layer at h
  cases layer with
  | error e => cases h
  | ok veto =>
    cases h
    split at hshown
    · cases hshown
    · rw [← Option.some.inj hshown]
      exact listField_congr ((runPreExtras_pending _ _ _).trans
        (Obj.get_set_of_ne _ (by decide) _))

end NeoTrader
