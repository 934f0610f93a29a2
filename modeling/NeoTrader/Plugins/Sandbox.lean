import NeoTrader.Plugins.Service

/-!
# What the sandbox runs

The sandbox looks for the code of a plugin on its own: most commands take the directory of the
plugin's id, and a cycle goes through all directories and reads the ids in their manifests.

* `sandboxManifest`: the manifest as the sandbox reads it;
* `hookFiles`, **`Executes`**: the Python files that a plugin's hooks and skills run;
* `pluginDirectory`, **`cycleDirectory`**: the directory whose code stands for an id.
-/

namespace NeoTrader

/-- The manifest of a directory, as the sandbox reads it; a missing one is empty. -/
def sandboxManifest (lib : PluginLib) (d : Directory) : Except Err (Option Manifest) :=
  if d.exists ["manifest.toml"] then
    match d.bytes? ["manifest.toml"] with
    | some bytes => lib.tomllib bytes
    | none => .error { name := "OSError", message := [.lit "manifest.toml"] }
  else .ok none

/-! ## Python files -/

/-- The file of a hook: that of the manifest, else the default one. -/
def hookFile (m : Manifest) (hook default : String) : RelPath :=
  relPath (((m.hooks.find? fun h => h.1 = hook).map Prod.snd).getD default)

/-- The files of the hooks. A single hook has its own default, and a cycle another one; the smoke
test goes on without a manifest that does not parse. -/
def hookFiles (lib : PluginLib) (d : Directory) : List RelPath :=
  match sandboxManifest lib d with
  | .ok (some m) => [hookFile m "on_cycle" "hooks/cycle.py", hookFile m "on_cycle" "hooks/on_cycle.py",
      hookFile m "on_activate" "hooks/on_activate.py", hookFile m "on_deactivate" "hooks/on_deactivate.py"]
  | .ok none => [["hooks", "on_cycle.py"], ["hooks", "on_activate.py"], ["hooks", "on_deactivate.py"]]
  | .error _ => [["hooks", "on_activate.py"]]

/-- The files of a directory that the imports of one of them resolve to. -/
abbrev Imports : Type := Directory → RelPath → List RelPath

/-- **The Python files that the hooks and the skills of a plugin run.** -/
inductive Executes (lib : PluginLib) (imports : Imports) (d : Directory) : RelPath → Prop
  | plugin : Executes lib imports d ["plugin.py"]
  | hook {path : RelPath} : path ∈ hookFiles lib d → Executes lib imports d path
  | imported {path file : RelPath} : Executes lib imports d path → file ∈ imports d path →
      Executes lib imports d file

/-! ## Directories -/

def pluginDirectory (dirs : Store.Indexed Directory.name) (pluginId : String) : Option Directory :=
  dirs.get? pluginId

/-- The plugins of a cycle: of each directory with a manifest its id and its name. A manifest that
does not parse ends the cycle. -/
def cycleEntries (lib : PluginLib) : List Directory → Except Err (List (String × String))
  | [] => .ok []
  | d :: dirs =>
    match sandboxManifest lib d with
    | .error e => .error e
    | .ok none => cycleEntries lib dirs
    | .ok (some m) => (cycleEntries lib dirs).map fun l =>
        ((m.section? PluginSection.id).getD d.name, d.name) :: l

/-- **The directory that stands for an id in a cycle.** The directories are taken in the order of
their names, and of equal ids the last one stays. -/
def cycleDirectory (lib : PluginLib) (dirs : Store.Indexed Directory.name) (pluginId : String) :
    Except Err (Option String) :=
  (cycleEntries lib (dirs.rows.insertionSort fun d d' => d.name ≤ d'.name)).map fun l =>
    (l.reverse.find? fun entry => entry.1 = pluginId).map Prod.snd

end NeoTrader
