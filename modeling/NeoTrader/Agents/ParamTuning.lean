import NeoTrader.Await.Session
import NeoTrader.Disciplines.ParamDiscipline
import NeoTrader.Plugins.Gateway

/-!
# Tuning a parameter

In a reflection the model may change a parameter of a skill. The change is validated, and the
discipline of parameters is asked whether the skill is locked and writes the change into the journal,
before the configuration is stored.

* `DisciplineFolder`, `resolvePermittedFunction`, **`callFunction`**: the call of a function of the
  discipline by the sandbox; `shippedFolder`: its folder in the repository;
* `mergeConfig`, `runTuneChain`, **`kernelTunePluginParam`**: the change.

A cycle is what it is to the journal: the hook of the discipline is called. The journal is only written
here, and is kept as its entries. The clock stands still in the course of one change.
-/

namespace NeoTrader

open Js Await Prog

/-! ## Configurations -/

structure ConfigFieldSpec where
  type : Option String := none
  enum : Option (List String) := none
  min : Option ℚ := none
  max : Option ℚ := none

/-- The fields of a manifest's configuration, in their order. -/
abbrev ConfigSchema : Type := Py.Dict ConfigFieldSpec

/-- The specification of a field; a name that every object inherits has an empty one. -/
def ConfigSchema.spec? (schema : ConfigSchema) (param : String) : Option ConfigFieldSpec :=
  (Py.Dict.get? schema param).or (if param ∈ "__proto__" :: inheritedMembers then some {} else none)

/-- A bound that a number does not keep. -/
def outOfBound (bound : Option ℚ) (beyond : Number → Number → Bool) : Option Json → Option ℚ
  | some (.num n) => bound.filter fun b => beyond n (.fin b)
  | _ => none

/-- What is wrong with the value of a field. -/
def validateField (key : String) (val : Option Json) (spec : ConfigFieldSpec) : List String :=
  let isNumber : Bool := match val with | some (.num _) => true | _ => false
  let isString : Bool := match val with | some (.str _) => true | _ => false
  let isBoolean : Bool := match val with | some (.bool _) => true | _ => false
  (if spec.type = some "number" ∧ !isNumber then [s!"{key}: debe ser número"] else []) ++
  (if spec.type = some "string" ∧ !isString then [s!"{key}: debe ser string"] else []) ++
  (if spec.type = some "boolean" ∧ !isBoolean then [s!"{key}: debe ser boolean"] else []) ++
  (match spec.enum with
    | some values =>
      if values.any fun v => val.any fun x => match x with | .str s => s = v | _ => false then []
      else [s!"{key}: debe ser uno de [" ++ ", ".intercalate values ++ "]"]
    | none => []) ++
  ((outOfBound spec.min Number.lt val).toList.map fun b =>
    s!"{key}: mínimo " ++ Py.numberText (.num (.fin b))) ++
  ((outOfBound spec.max (fun n b => b.lt n) val).toList.map fun b =>
    s!"{key}: máximo " ++ Py.numberText (.num (.fin b)))

/-- What is wrong with a configuration; a field that is missing is not looked at. -/
def validateConfig (config : Obj) (schema : ConfigSchema) : List String :=
  schema.flatMap fun f =>
    match config.get f.1 with
    | none => []
    | some val => validateField f.1 (some val) f.2

/-- A row of the table of plugins, with the schema of its manifest. -/
structure TunedPlugin where
  id : String
  type : String
  active : Bool := true
  config : Option Obj := none
  schema : Option ConfigSchema := none

/-- `{ ...existing, [param]: value }`. -/
def mergedConfig (existing : Obj) (param : String) : Option Json → Obj
  | some v => existing.set param v
  | none => existing.delete param

/-! ## The call of a function -/

/-- The function of a plugin that a request may call. -/
def resolvePermittedFunction (declaredKeys : List String) (pluginId requested : String) :
    Except String String :=
  if s!"{pluginId}.{requested}" ∈ declaredKeys then .ok requested
  else if requested ∈ declaredKeys then
    .ok (String.ofList ((requested.toList.splitOn '.').getLastD []))
  else
    let denied : Except String String :=
      .error (s!"[sandbox] Function '{requested}' (plugin '{pluginId}') is not declared " ++
        "in manifest.skills.keys — execution denied.")
    if '.' ∈ requested.toList then denied
    else
      match declaredKeys.eraseDups.filter fun k =>
          s!".{requested}".toList.isSuffixOf k.toList && s!"{pluginId}.".toList.isPrefixOf k.toList with
      | [] => denied
      | [_] => .ok requested
      | matching => .error (s!"[sandbox] Function '{requested}' is ambiguous — matches " ++
          s!"{matching.length} declared keys for plugin '{pluginId}'. " ++
          "Send the fully-qualified key (e.g. 'plugin-id.function_name').")

/-- The folder of the discipline: the keys of its skills, and the functions that its `plugin.py` has,
if there is one. A function of a name is the one of the script. -/
structure DisciplineFolder where
  skillKeys : List String
  pluginPy : Option (List String)

/-- The folder in the repository: a manifest without skills, a hook, and a script. -/
def shippedFolder : DisciplineFolder := ⟨[], none⟩

/-- **A function of the discipline that is called.** -/
def callFunction (folder : DisciplineFolder) (fn : String) : Except String String := do
  let name ← resolvePermittedFunction folder.skillKeys "param-discipline" fn
  match folder.pluginPy with
  | none => .error "plugin.py not found in: param-discipline"
  | some functions =>
    if name ∈ functions then .ok name
    else .error s!"Function '{name}' not found in plugin 'param-discipline'"

/-! ## Operations -/

/-- What is written into the audit log. -/
inductive TuneAudit
  | tuned (pluginId param : String) (before after : Option Json) (hypothesis entryId : String)
  | failed (error : String)

/-- The operations. A call of the sandbox answers with `none` where it is not `ok`. -/
inductive TuneOp
  | findById (id : String)
  | findActive
  | kvGetJournal
  | kvSetJournal (journal : List JournalEntry)
  | callCheckLock (pluginId : String) (journal : List JournalEntry) (config : Obj)
  | callJournalEntry (time : ℚ) (args : JournalArgs) (journal : List JournalEntry) (config : Obj)
  | updateConfig (id : String) (config : Obj)
  | auditLog (entry : TuneAudit)
  | runOnCycle (ctx : DisciplineCtx)

abbrev TuneOp.Ans : TuneOp → Type
  | .findById _ => TunedPlugin
  | .findActive => List TunedPlugin
  | .kvGetJournal => Option (List JournalEntry)
  | .callCheckLock _ _ _ => Option LockStatus
  | .callJournalEntry _ _ _ _ => Option (List JournalEntry × Except String String)
  | .runOnCycle _ => Option DisciplineResult
  | _ => Unit

abbrev tuneSig : Sig := ⟨TuneOp, TuneOp.Ans, String⟩

abbrev Tune (α : Type) : Type := Prog tuneSig α

abbrev issueTune (op : TuneOp) : Tune op.Ans := perform (S := tuneSig) op

structure TuneWorld where
  plugins : List TunedPlugin
  journal : Option (List JournalEntry) := none
  folder : DisciplineFolder := shippedFolder

/-- The row of an id. -/
def TuneWorld.plugin? (w : TuneWorld) (id : String) : Option TunedPlugin :=
  w.plugins.find? fun p => p.id = id

def TuneWorld.stored (w : TuneWorld) : List JournalEntry := w.journal.getD []

/-- What an operation meets outside: a fresh id, and a failure. -/
structure TuneOracle where
  newId : String := ""
  failure : Option String := none

/-- The answer of a call of the sandbox, which is `ok` where nothing has been raised. -/
def sandboxed {α : Type} (folder : DisciplineFolder) (fn : String) (x : Except String α) :
    Option α :=
  match callFunction folder fn with
  | .error _ => none
  | .ok _ => x.toOption

def answerTune (o : TuneOracle) : (op : TuneOp) → TuneWorld → Except String op.Ans × TuneWorld
  | .findById id, w =>
    match w.plugin? id with
    | none => (.error s!"Plugin '{id}' no encontrado", w)
    | some p => (.ok p, w)
  | .findActive, w => (.ok (w.plugins.filter TunedPlugin.active), w)
  | .kvGetJournal, w => (.ok w.journal, w)
  | .kvSetJournal journal, w => (.ok (), { w with journal := some journal })
  | .callCheckLock pluginId journal config, w =>
    (.ok (sandboxed w.folder "check_lock" (checkLock journal pluginId config)), w)
  | .callJournalEntry time args journal config, w =>
    (.ok (sandboxed w.folder "journal_entry" (journalEntry journal args config time o.newId)), w)
  | .updateConfig id config, w =>
    let plugins := w.plugins.map fun p => if p.id = id then { p with config := some config } else p
    (.ok (), { w with plugins })
  | .auditLog _, w => (.ok (), w)
  | .runOnCycle ctx, w => (.ok (onCycle ctx).toOption, w)

/-- An operation fails as a whole or takes effect as a whole. -/
def handleTune (o : TuneOracle) (op : TuneOp) (w : TuneWorld) :
    Except String op.Ans × TuneWorld :=
  match o.failure with
  | some e => (.error e, w)
  | none => answerTune o op w

def tuneSem : Sem tuneSig TuneWorld :=
  Sem.ofHandler (S := tuneSig) handleTune fun _ _ _ => True

/-! ## The change -/

def getConfigSchema (id : String) : Tune (Option ConfigSchema) := do
  let p ← issueTune (.findById id)
  return p.schema

/-- What is wrong with the value of a parameter. -/
def validateSingleField (id param : String) (value : Option Json) : Tune (List String) := do
  match (← getConfigSchema id).bind fun schema => schema.spec? param with
  | none => return ["param not in schema"]
  | some spec => return validateField param value spec

def setPluginConfig (id : String) (config : Obj) : Tune Unit := do
  match ← getConfigSchema id with
  | some schema =>
    if validateConfig config schema ≠ [] then
      .throw ("Config inválida: " ++ "; ".intercalate (validateConfig config schema))
    else
      issueTune (.updateConfig id config)
      let _ ← issueTune (.findById id)
  | none =>
    issueTune (.updateConfig id config)
    let _ ← issueTune (.findById id)

def mergeConfig (id param : String) (value : Option Json) : Tune Unit := do
  let p ← issueTune (.findById id)
  setPluginConfig id (mergedConfig (p.config.getD []) param value)

/-- The arguments of a change, and its time. Without a key-value store there is no journal. -/
structure TuneRequest where
  time : ℚ
  cycleId : String
  pluginId : String
  param : String
  value : Option Json
  hypothesis : String
  hasKv : Bool := true

inductive TuneResult
  | rejected (reason : String) (detail : String := "")
  | accepted (entryId : String)
  | elapsed

/-- What the journal is given of a change. -/
def TuneRequest.journalArgs (req : TuneRequest) (before : Option Json) : JournalArgs :=
  { pluginId := req.pluginId, paramsBefore := (before.map fun v => (req.param, v)).toList
    paramsAfter := (req.value.map fun v => (req.param, v)).toList, reason := req.hypothesis
    hypothesis := req.hypothesis, cycleId := req.cycleId }

/-- What the chain comes to: a gate that has refused, or the value before and the entry. -/
inductive ChainResult
  | gate (reason : String)
  | changed (before : Option Json) (entryId : String)

/-- **The lock, the journal, and the configuration**, in this order. -/
def runTuneChain (req : TuneRequest) (pluginConfig disciplineConfig : Obj) : Tune ChainResult := do
  if !req.hasKv then return .gate "kv_unavailable"
  let journal := (← issueTune .kvGetJournal).getD []
  match ← issueTune (.callCheckLock req.pluginId journal disciplineConfig) with
  | none => return .gate "lock_check_failed"
  | some lock =>
    if lock.locked then return .gate "param_locked"
    let before := pluginConfig.get req.param
    match ← issueTune (.callJournalEntry req.time (req.journalArgs before) journal
        disciplineConfig) with
    | none => return .gate "journal_rejected"
    | some (_, .error _) => return .gate "journal_rejected"
    | some (updatedJournal, .ok entryId) =>
      match ← (issueTune (.kvSetJournal updatedJournal)).attempt with
      | .error _ => return .gate "journal_persist_failed"
      | .ok _ =>
        match ← (mergeConfig req.pluginId req.param req.value).attempt with
        | .error _ => return .gate "apply_failed"
        | .ok _ => return .changed before entryId

/-- The gates before the chain, and the chain. -/
def tuneSteps (req : TuneRequest) : Tune TuneResult := do
  match ← (issueTune (.findById req.pluginId)).attempt with
  | .error _ => return .rejected "plugin_not_found"
  | .ok plugin =>
    if plugin.type ≠ "skill" then return .rejected "not_a_skill"
    match (← getConfigSchema req.pluginId).bind fun schema => schema.spec? req.param with
    | none => return .rejected "param_not_in_schema"
    | some _ =>
      let errors ← validateSingleField req.pluginId req.param req.value
      if errors ≠ [] then return .rejected "invalid_value" ("; ".intercalate errors)
      let active ← issueTune .findActive
      match active.find? fun p => p.id = "param-discipline" with
      | none => return .rejected "discipline_inactive"
      | some discipline =>
        match ← runTuneChain req (plugin.config.getD []) (discipline.config.getD []) with
        | .gate reason => return .rejected reason
        | .changed before entryId =>
          issueTune (.auditLog (.tuned req.pluginId req.param before req.value req.hypothesis entryId))
          return .accepted entryId

/-- **A change of a parameter**; what is thrown on the way is written into the audit log. -/
def kernelTunePluginParam (req : TuneRequest) : Tune TuneResult := do
  match ← (tuneSteps req).attempt with
  | .ok result => return result
  | .error e =>
    issueTune (.auditLog (.failed e))
    return .rejected "tune_error"

/-! ## Runs -/

/-- A change, or a cycle with the context of the discipline's hook. The context has no journal. -/
inductive TuneCall
  | tune (req : TuneRequest)
  | cycle (config : Obj) (activePluginIds : List String) (pendingSignals : List Json)

def tuneBody : TuneCall → Tune TuneResult
  | .tune req => kernelTunePluginParam req
  | .cycle config activePluginIds pendingSignals => do
    let _ ← issueTune (.runOnCycle { config, activePluginIds, pendingSignals })
    return .elapsed

/-- A call of a run, with its events. -/
abbrev TuneStep : Type := Handled tuneSig TuneWorld TuneCall TuneResult

/-- **A run**: calls one after another. -/
abbrev TuneRun (start : TuneWorld) (l : List TuneStep) (w : TuneWorld) : Prop :=
  Journal tuneSem tuneBody start l w

end NeoTrader
