import NeoTrader.Cycle.Execute
import NeoTrader.Plugins.Sandbox

/-!
# The runner of the sandbox

The runner loads the hook of a plugin from its folder and calls it with a context: for a cycle the
hooks of the skills, one after another, and for the veto layer the hook of one discipline.

* `configDefaults`, `hookCall`, **`cmdRunHook`**: the hook of one plugin;
* `pluginsById`, `loadCycleHook`, `configFor`, `runSkill`, **`cmdRunCycle`**: the skills of a cycle.

A hook is a function of its context, and an error is its text. The functions that the context of a
skill also holds are left out, and so is the warning on the standard error stream. The folder of the
plugins exists.
-/

namespace NeoTrader

open Js

/-! ## On disk -/

/-- A function of a hook. It answers with a value, or raises. -/
abbrev HookFn : Type := Obj → Except String Json

/-- What the import of a file comes to. A file that is no Python module has no loader. -/
inductive HookModule
  | unloadable
  | raises (error : String)
  | loaded (functions : String → Option HookFn)

structure RunnerManifest extends Manifest where
  config : Obj := []

/-- The folder of a plugin. `universe` is what its `plugin.py` answers to `get_universe`, if there is
such a function, and `sdkWarning` what the check of the version of the kit comes to. -/
structure PluginFolder where
  name : String
  manifest : Except String (Option RunnerManifest)
  modules : RelPath → Option HookModule
  symbols : Except String (Option (List String)) := .ok none
  sdkWarning : Option String := none

/-- The manifest of a folder; a missing one is empty. -/
def PluginFolder.readManifest (folder : PluginFolder) : Except String RunnerManifest :=
  folder.manifest.map fun m => m.getD {}

/-! ## Python -/

/-- `{**v}`. -/
def asMapping : Option Json → Except String Obj
  | none => .ok []
  | some (.obj fields) => .ok fields
  | some _ => .error "TypeError: argument is not a mapping"

/-- `for x in v`. -/
def pyIter : Json → Except String (List Json)
  | .arr l => .ok l
  | .str s => .ok (s.toList.map fun c => .str (String.ofList [c]))
  | .obj fields => .ok ((fields.map Prod.fst).eraseDups.map .str)
  | _ => .error "TypeError: object is not iterable"

/-- The fields of an answer; one that is no object counts as another one. -/
def dictOr (other : Obj) : Json → Obj
  | .obj fields => fields
  | _ => other

/-! ## One hook -/

/-- The defaults of a manifest: a field is a value, or the description of one. -/
def configDefaults (m : RunnerManifest) : Obj :=
  m.config.map fun f =>
    match f.2 with
    | .obj spec => (f.1, (Obj.get spec "default").getD .null)
    | v => (f.1, v)

/-- The warning of a folder is added to an answer. -/
def withWarning (warning : Option String) (result : Obj) : Except String Obj :=
  match warning with
  | none => .ok result
  | some w =>
    match result.get "warnings" with
    | none => .ok (result.set "warnings" (.arr [.str w]))
    | some (.arr l) => .ok (result.set "warnings" (.arr (l ++ [.str w])))
    | some _ => .error "AttributeError: object has no attribute 'append'"

def hookNames : List String := ["on_cycle", "on_activate", "on_deactivate"]

/-- A hook that is called: the function, and the context that it receives. -/
structure HookCall where
  pluginId : String
  manifest : RunnerManifest
  fn : HookFn
  ctx : Obj

/-- The folder of a plugin that a command takes. -/
def findFolder (folders : List PluginFolder) (pluginId : String) : Except String PluginFolder :=
  match folders.find? fun f => f.name = pluginId with
  | some folder => .ok folder
  | none => .error s!"Plugin no encontrado: {pluginId}"

def defaultHookFile (hook : String) : String := s!"hooks/{hook}.py"

/-- The function of a hook: `none` where the file is missing. -/
def hookFunction (folder : PluginFolder) (m : RunnerManifest) (hook : String) :
    Except String (Option HookFn) :=
  match folder.modules (hookFile m.toManifest hook (defaultHookFile hook)) with
  | none => .ok none
  | some .unloadable => .error "ImportError: No se puede cargar hook"
  | some (.raises error) => .error error
  | some (.loaded functions) =>
    match functions hook with
    | none => .error s!"Función '{hook}' no encontrada"
    | some fn => .ok (some fn)

/-- **The hook of a plugin as it is called**, if there is one. -/
def hookCall (folder : PluginFolder) (pluginId hook : String) (context : Obj) :
    Except String (Option HookCall) := do
  let m ← folder.readManifest
  match ← hookFunction folder m hook with
  | none => return none
  | some fn =>
    let given ← asMapping (context.get "config")
    return some ⟨pluginId, m, fn, context.set "config" (.obj (configDefaults m ++ given))⟩

/-- A hook is called where the manifest is read, the function is there and the configuration is an
object. -/
theorem hookCall_eq_some_iff (folder : PluginFolder) (pluginId hook : String) (context : Obj)
    (call : HookCall) :
    hookCall folder pluginId hook context = .ok (some call) ↔
      ∃ m fn given, folder.readManifest = .ok m ∧ hookFunction folder m hook = .ok (some fn) ∧
        asMapping (context.get "config") = .ok given ∧
        call = ⟨pluginId, m, fn, context.set "config" (.obj (configDefaults m ++ given))⟩ := by
  unfold hookCall
  cases hm : folder.readManifest with
  | error e => exact ⟨(fun h => by cases h), fun ⟨_, _, _, h, _⟩ => by cases h⟩
  | ok m =>
    show ((hookFunction folder m hook).bind fun x => _) = _ ↔ _
    cases hfn : hookFunction folder m hook with
    | error e =>
      refine ⟨(fun h => by cases h), ?_⟩
      rintro ⟨m', fn, given, ⟨⟩, hfn', -, -⟩
      rw [hfn] at hfn'
      cases hfn'
    | ok fn =>
      cases fn with
      | none =>
        refine ⟨(fun h => by cases h), ?_⟩
        rintro ⟨m', fn, given, ⟨⟩, hfn', -, -⟩
        rw [hfn] at hfn'
        cases hfn'
      | some fn =>
        show ((asMapping (context.get "config")).bind fun given => _) = _ ↔ _
        cases hgiven : asMapping (context.get "config") with
        | error e => exact ⟨(fun h => by cases h), fun ⟨_, _, _, _, _, h, _⟩ => by cases h⟩
        | ok given =>
          constructor
          · rintro ⟨⟩
            exact ⟨m, fn, given, rfl, hfn, rfl, rfl⟩
          · rintro ⟨m', fn', given', ⟨⟩, hfn', ⟨⟩, rfl⟩
            rw [hfn] at hfn'
            cases hfn'
            rfl

def noHookAnswer (pluginId hook : String) : Obj :=
  [("signals", .arr []), ("logs", .arr [.obj [("level", .str "debug"),
    ("msg", .str s!"Sin hook {hook} en {pluginId}")]])]

/-- **The hook of one plugin is run.** -/
def cmdRunHook (folders : List PluginFolder) (pluginId hook : String) (context : Obj) :
    Except String Obj := do
  if hook ∉ hookNames then throw s!"Hook desconocido: {hook}"
  let folder ← findFolder folders pluginId
  match ← hookCall folder pluginId hook context with
  | none => withWarning folder.sdkWarning (noHookAnswer pluginId hook)
  | some call =>
    let result ← call.fn call.ctx
    withWarning folder.sdkWarning (dictOr [("signals", .arr []), ("logs", .arr [])] result)

/-! ## The skills of a cycle -/

structure CyclePlugin where
  id : String
  folder : PluginFolder
  manifest : RunnerManifest

def CyclePlugin.type (p : CyclePlugin) : String :=
  (p.manifest.section? PluginSection.type).getD "skill"

/-- `d[id] = p`: a plugin of the same id is replaced in its place. -/
def setPlugin (p : CyclePlugin) : List CyclePlugin → List CyclePlugin
  | [] => [p]
  | q :: rest => if q.id = p.id then p :: rest else q :: setPlugin p rest

/-- The plugins of a cycle; the folders are in the order of their names, and one without a manifest
is left out. -/
def pluginsById : List PluginFolder → List CyclePlugin → Except String (List CyclePlugin)
  | [], plugins => .ok plugins
  | folder :: rest, plugins =>
    match folder.manifest with
    | .error e => .error e
    | .ok none => pluginsById rest plugins
    | .ok (some m) => pluginsById rest
        (setPlugin ⟨(m.section? PluginSection.id).getD folder.name, folder, m⟩ plugins)

/-- The hook of a plugin in a cycle: `none` where there is no file, no loader or no function. -/
def loadCycleHook (p : CyclePlugin) : Except String (Option HookFn) :=
  match p.folder.modules (hookFile p.manifest.toManifest "on_cycle" "hooks/cycle.py") with
  | none | some .unloadable => .ok none
  | some (.raises error) => .error error
  | some (.loaded functions) => .ok (functions "on_cycle")

/-- The configuration of a plugin in a cycle: the defaults of its manifest, then the one
configuration of all, then its own. -/
def configFor (context : Obj) (p : CyclePlugin) : Except String Obj := do
  let configs ← asMapping (context.get "plugin_configs")
  let given ← asMapping (context.get "config")
  let perPlugin ← asMapping (configs.get p.id)
  return configDefaults p.manifest ++ given ++ perPlugin

/-- What a cycle has collected. `calls` are the hooks that were called. -/
structure RunnerState where
  pendingSignals : List Json := []
  logs : List Json := []
  errors : List Json := []
  calls : List HookCall := []

/-- An error of a plugin. -/
def RunnerState.fail (st : RunnerState) (pluginId stage error : String) : RunnerState :=
  { st with errors := st.errors ++ [.obj [("plugin", .str pluginId), ("stage", .str stage),
      ("error", .str error)]] }

/-- The signals of a skill are tagged with its id; the first that is no object ends them. -/
def tagSignals (pluginId : String) : List Json → List Json → List Json × Option String
  | pending, [] => (pending, none)
  | pending, .obj fields :: rest =>
    tagSignals pluginId (pending ++ [.obj (Obj.set fields "_plugin" (.str pluginId))]) rest
  | pending, _ :: _ => (pending, some "TypeError: object does not support item assignment")

/-- The answer of a skill is collected. -/
def collect (st : RunnerState) (pluginId : String) (result : Obj) : RunnerState :=
  match pyIter ((result.get "signals").getD (.arr [])) with
  | .error e => st.fail pluginId "on_cycle" e
  | .ok sigs =>
    let tagged := tagSignals pluginId st.pendingSignals sigs
    let st := { st with pendingSignals := tagged.1 }
    match tagged.2, pyIter ((result.get "logs").getD (.arr [])) with
    | some e, _ | none, .error e => st.fail pluginId "on_cycle" e
    | none, .ok logs => { st with logs := st.logs ++ logs }

def skillCtx (context : Obj) (symbols : List String) (config : Obj) (pending : List Json) : Obj :=
  context ++ [("universe", .arr (symbols.map .str)), ("config", .obj config),
    ("portfolio", (context.get "portfolio").getD (.obj [])), ("pending_signals", .arr pending)]

def runSkill (context : Obj) (symbols : List String) (st : RunnerState) (p : CyclePlugin) :
    RunnerState :=
  match loadCycleHook p with
  | .error e => st.fail p.id "on_cycle_import" e
  | .ok none => st
  | .ok (some fn) =>
    match configFor context p with
    | .error e => st.fail p.id "on_cycle" e
    | .ok config =>
      let call : HookCall := ⟨p.id, p.manifest, fn, skillCtx context symbols config st.pendingSignals⟩
      let st := { st with calls := st.calls ++ [call] }
      match fn call.ctx with
      | .error e => st.fail p.id "on_cycle" e
      | .ok result => collect st p.id (dictOr [] result)

/-- The symbols that a provider adds. -/
def addSymbols (acc : List String × RunnerState) (p : CyclePlugin) : List String × RunnerState :=
  match p.folder.symbols with
  | .error e => (acc.1, acc.2.fail p.id "universe" e)
  | .ok l => (acc.1 ++ l.getD [], acc.2)

def contextSymbols (context : Obj) : List String :=
  (listField context "universe").filterMap fun v => Json.asString? (some v)

def activeOfType (activeIds : List String) (type : String) (plugins : List CyclePlugin) :
    List CyclePlugin :=
  plugins.filter fun p => p.id ∈ activeIds ∧ p.type = type

/-- The run of the skills of a cycle, with the symbols that they are handed. -/
def runSkills (plugins : List CyclePlugin) (activeIds : List String) (context : Obj) :
    List String × RunnerState :=
  let acc := (activeOfType activeIds "universe_provider" plugins).foldl addSymbols
    (contextSymbols context, {})
  let symbols := acc.1.eraseDups
  (symbols, (activeOfType activeIds "skill" plugins).foldl (runSkill context symbols) acc.2)

/-- **The skills of a cycle are run.** The result holds its signals under two keys. -/
def cmdRunCycle (folders : List PluginFolder) (activeIds : List String) (context : Obj) :
    Except String Obj := do
  let plugins ← pluginsById folders []
  let warnings := (plugins.filter fun p => p.id ∈ activeIds).filterMap fun p => p.folder.sdkWarning
  let (symbols, st) := runSkills plugins activeIds context
  return [("universe", .arr (symbols.map .str)), ("pending_signals", .arr st.pendingSignals),
      ("signals", .arr st.pendingSignals), ("logs", .arr st.logs), ("errors", .arr st.errors)] ++
    if warnings = [] then [] else [("warnings", .arr (warnings.map .str))]

/-! ## A cycle over the runner -/

/-- What the gateway hands on of an answer. -/
def replyOf : Except String Obj → HookReply
  | .ok result => { ok := true, result := some result }
  | .error e => { ok := false, error := some e }

def runnerHook (folders : List PluginFolder) (disc : ActivePlugin) (context : Obj) : HookReply :=
  replyOf (cmdRunHook folders disc.id "on_cycle" context)

/-- **A cycle whose hooks the runner calls.** -/
def runnerEnv (folders : List PluginFolder) (env : CycleEnv) : CycleEnv :=
  { env with
    runCycle := fun activeIds context => replyOf (cmdRunCycle folders activeIds context)
    runHook := runnerHook folders }

end NeoTrader
