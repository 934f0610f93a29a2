import NeoTrader.Cycle.Runner
import NeoTrader.Py.Objects

/-!
# The skills of a cycle, with the objects that they share

The hooks of a cycle run in the process of the runner: what a hook is handed are the runner's own
dictionaries and lists, and what it answers with may hold them again. The runner tags a signal in
place, in the dictionary that the hook has answered with, and while it goes through the signals of an
answer it appends to the list that the hook was handed.

* `SharedFn`, `HookLoad`, `loadCycleHook`: a hook, and what its import comes to. An error that
  the runner catches is a raise, one that it does not catch ends the runner (`exits`);
* `iterate`, **`tagLoop`**: the loop over the signals of an answer. Its fuel is the number of its
  rounds; without fuel it has not come to an end;
* `configFields`, `skillFields`, `runSkill`, `runSkills`, **`cmdRunCycle`**: a cycle.

A hook allocates and answers; it assigns to nothing that it is handed. The symbols and the errors are
those of the runner of values.
-/

namespace NeoTrader.Shared

open Js Py

/-! ## Objects -/

/-- Where a dictionary comes from: the context of the cycle, or for one plugin the defaults of its
manifest, the configuration and the portfolio that are built for it, and what its hook builds. -/
inductive Origin
  | context
  | defaults (pluginId : String)
  | config (pluginId : String)
  | portfolio (pluginId : String)
  | built (pluginId : String)
  deriving DecidableEq

/-- The identity of a dictionary. -/
structure ObjId where
  origin : Origin
  path : List Val.Step := []
  deriving DecidableEq

abbrev Value : Type := Val ObjId

abbrev Fields : Type := List (String × Value)

/-! ## Hooks -/

/-- What a call of a hook comes to. -/
inductive HookOutcome
  | raises (error : String)
  | exits (error : String)
  | returns (v : Value)

/-- A function of a hook, of what the list of the pending signals holds and of its context. -/
abbrev SharedFn : Type := List Value → Fields → HookOutcome

/-- What the import of a file comes to. -/
inductive SharedModule
  | unloadable
  | raises (error : String)
  | exits (error : String)
  | loaded (functions : String → Option SharedFn)

/-- What the hook of a plugin comes to in a cycle. -/
inductive HookLoad
  | absent
  | raises (error : String)
  | exits (error : String)
  | found (fn : SharedFn)

/-- The hook of each plugin. -/
abbrev Loader : Type := CyclePlugin → HookLoad

/-- The hook of a plugin in a cycle, from the modules in its folder. -/
def loadCycleHook (modules : String → RelPath → Option SharedModule) : Loader := fun p =>
  match modules p.folder.name (hookFile p.manifest.toManifest "on_cycle" "hooks/cycle.py") with
  | none | some .unloadable => .absent
  | some (.raises error) => .raises error
  | some (.exits error) => .exits error
  | some (.loaded functions) =>
    match functions "on_cycle" with
    | none => .absent
    | some fn => .found fn

/-! ## A cycle -/

/-- The signals of an answer, as they are when the hook answers. -/
structure Answer where
  pluginId : String
  signals : List Json

/-- What a cycle has collected, and its context. `answers` are those of the hooks that answered. -/
structure State where
  context : Fields
  pendingSignals : List Value := []
  logs : List Value := []
  errors : List Json := []
  answers : List Answer := []

def errorEntry (pluginId stage error : String) : Json :=
  .obj [("plugin", .str pluginId), ("stage", .str stage), ("error", .str error)]

/-- An error of a plugin. -/
def State.fail (st : State) (pluginId stage error : String) : State :=
  { st with errors := st.errors ++ [errorEntry pluginId stage error] }

/-- `sig["_plugin"] = pid`, seen by all that the cycle holds. -/
def State.assign (st : State) (id : ObjId) (pluginId : String) : State :=
  { st with
    context := Val.assignFields id "_plugin" (.str pluginId) st.context
    pendingSignals := Val.assignItems id "_plugin" (.str pluginId) st.pendingSignals
    logs := Val.assignItems id "_plugin" (.str pluginId) st.logs }

/-- What a loop goes through; a missing value is an empty list. -/
def iterate (pending : List Value) : Option Value → Except String (List Value)
  | none => .ok []
  | some (.list l) => .ok l
  | some .growing => .ok pending
  | some (.str s) => .ok (s.toList.map fun c => .str (String.ofList [c]))
  | some (.dict _ fields) => .ok ((fields.map Prod.fst).eraseDups.map .str)
  | some _ => .error "TypeError: object is not iterable"

/-- **The loop over the signals of an answer**, from the one at an index: it reads the list that it
goes through anew at each round, tags the signal in place and appends it. -/
def tagLoop (pluginId : String) : ℕ → ℕ → State × Fields → Option ((State × Fields) × Option String)
  | 0, _, _ => none
  | fuel + 1, i, (st, answer) =>
    match iterate st.pendingSignals (Val.getField answer "signals") with
    | .error e => some ((st, answer), some e)
    | .ok items =>
      match items[i]? with
      | none => some ((st, answer), none)
      | some (.dict id fields) =>
        let st := st.assign id pluginId
        let sig := Val.assign id "_plugin" (.str pluginId) (.dict id fields)
        tagLoop pluginId fuel (i + 1) ({ st with pendingSignals := st.pendingSignals ++ [sig] },
          Val.assignFields id "_plugin" (.str pluginId) answer)
      | some _ => some ((st, answer), some "TypeError: object does not support item assignment")

/-- The answer of a skill is collected. -/
def collect (pluginId : String) (fuel : ℕ) (st : State) (answer : Fields) : Option State :=
  match tagLoop pluginId fuel 0 (st, answer) with
  | none => none
  | some ((st, _), some e) => some (st.fail pluginId "on_cycle" e)
  | some ((st, answer), none) =>
    match iterate st.pendingSignals (Val.getField answer "logs") with
    | .error e => some (st.fail pluginId "on_cycle" e)
    | .ok logs => some { st with logs := st.logs ++ logs }

/-- `{**v}`. -/
def asFields : Option Value → Except String Fields
  | none => .ok []
  | some (.dict _ fields) => .ok fields
  | some _ => .error "TypeError: argument is not a mapping"

/-- The configuration of a plugin in a cycle: the defaults of its manifest, then the one
configuration of all, then its own. -/
def configFields (context : Fields) (p : CyclePlugin) : Except String Fields := do
  let configs ← asFields (Val.getField context "plugin_configs")
  let given ← asFields (Val.getField context "config")
  let perPlugin ← asFields (Val.getField configs p.id)
  return Val.labelFields (ObjId.mk (.defaults p.id)) [] (configDefaults p.manifest) ++ given ++ perPlugin

def skillFields (context : Fields) (symbols : List String) (pluginId : String) (config : Fields) :
    Fields :=
  context ++ [("universe", .list (symbols.map .str)), ("config", .dict ⟨.config pluginId, []⟩ config),
    ("portfolio", (Val.getField context "portfolio").getD (.dict ⟨.portfolio pluginId, []⟩ [])),
    ("pending_signals", .growing)]

/-- The fields of an answer; one that is no dictionary counts as an empty one. -/
def answerFields : Value → Fields
  | .dict _ fields => fields
  | _ => []

/-- The signals of an answer as they are read before the loop. -/
def answeredSignals (pending : List Value) (answer : Fields) : List Json :=
  match iterate pending (Val.getField answer "signals") with
  | .ok items => items.map (Val.json (pending.map (Val.json [])))
  | .error _ => []

def runSkill (load : Loader) (symbols : List String) (fuel : ℕ) (st : State) (p : CyclePlugin) :
    Option (Except String State) :=
  match load p with
  | .raises e => some (.ok (st.fail p.id "on_cycle_import" e))
  | .exits e => some (.error e)
  | .absent => some (.ok st)
  | .found fn =>
    match configFields st.context p with
    | .error e => some (.ok (st.fail p.id "on_cycle" e))
    | .ok config =>
      match fn st.pendingSignals (skillFields st.context symbols p.id config) with
      | .raises e => some (.ok (st.fail p.id "on_cycle" e))
      | .exits e => some (.error e)
      | .returns v =>
        let answer := answerFields v
        let answered : Answer := ⟨p.id, answeredSignals st.pendingSignals answer⟩
        (collect p.id fuel { st with answers := st.answers ++ [answered] } answer).map .ok

/-- The skills of a cycle, one after another. -/
def runSkills (load : Loader) (symbols : List String) (fuel : ℕ) :
    List CyclePlugin → State → Option (Except String State)
  | [], st => some (.ok st)
  | p :: rest, st =>
    match runSkill load symbols fuel st p with
    | some (.ok st') => runSkills load symbols fuel rest st'
    | other => other

/-- The symbols and the state before the first skill. -/
def beforeSkills (plugins : List CyclePlugin) (activeIds : List String) (context : Obj) :
    List String × State :=
  let acc := (activeOfType activeIds "universe_provider" plugins).foldl addSymbols
    (contextSymbols context, {})
  (acc.1.eraseDups,
    { context := Val.labelFields (ObjId.mk .context) [] context, errors := acc.2.errors })

/-- **A cycle is run**: `none` where the fuel of a loop does not suffice, and an error where the
runner ends without a result. -/
def cmdRunCycle (load : Loader) (folders : List PluginFolder) (activeIds : List String)
    (context : Obj) (fuel : ℕ) : Option (Except String State) :=
  match pluginsById folders [] with
  | .error e => some (.error e)
  | .ok plugins =>
    let (symbols, st) := beforeSkills plugins activeIds context
    runSkills load symbols fuel (activeOfType activeIds "skill" plugins) st

end NeoTrader.Shared
