import NeoTrader.Await.Session
import NeoTrader.Plugins.Checksum
import NeoTrader.Store.Indexed
import NeoTrader.Trade.Db

/-!
# The life of a plugin

A plugin is cloned into the directory of the plugins, gets a row in the database, is activated and
deactivated, updated from its remote repository, and removed.

* `PluginOp`, `pluginSig`, `PluginEnv`, **`handlePlugin`**: the awaited operations.
-/

namespace NeoTrader

open Js Await

/-! ## Rows -/

/-- A stored JSON text, as the value that it stands for; `none` is a text that does not parse. -/
abbrev JsonText : Type := Option Json

/-- The row of a plugin. `installedPath` is the name of its directory. -/
structure Plugin where
  id : String
  name : String
  description : Option String := none
  version : String
  type : String
  active : Bool := false
  author : Option String := none
  sourceUrl : Option String := none
  gitUrl : Option String := none
  stackPlugins : Option (List String) := none
  -- the specification of the credentials
  config : Option (List (String × CredentialSpec)) := none
  installedPath : Option String := none
  scanResult : Option JsonText := none
  smokeTestResult : Option JsonText := none
  contentChecksum : Option String := none

/-- What an update changes of a row. -/
inductive PluginPatch
  | active (b : Bool)
  | release (name version : String)
  | record (r : LocalPluginRecord)
  | scanResult (v : Json)
  | smokeTestResult (v : Json)
  | contentChecksum (c : Option String)

def PluginPatch.apply : PluginPatch → Plugin → Plugin
  | active b, p => { p with active := b }
  | release name version, p => { p with name, version }
  | record r, p =>
    { p with
      name := r.name, description := r.description, version := r.version, type := r.type
      author := r.author, installedPath := some r.installedPath }
  | scanResult v, p => { p with scanResult := some (some v) }
  | smokeTestResult v, p => { p with smokeTestResult := some (some v) }
  | contentChecksum c, p => { p with contentChecksum := c }

@[simp] theorem PluginPatch.apply_id (c : PluginPatch) (p : Plugin) : (c.apply p).id = p.id := by
  cases c <;> rfl

/-- The audit event of a changed checksum. -/
structure ContentChanged where
  pluginId : String
  old : String
  new : Option String
  deriving DecidableEq

/-! ## Operations -/

structure SandboxResponse where
  ok : Bool
  result : Option Json := none
  error : Option String := none

inductive PluginOp
  | pluginFindUnique (id : String)
  | pluginFindActive (id : String)
  | pluginFindManyActive
  | pluginCreate (row : Plugin)
  | pluginUpdate (id : String) (patch : PluginPatch)
  | pluginDelete (id : String)
  | auditLog (event : ContentChanged)
  -- the file system: a missing directory is empty
  | readDirectory (name : String)
  | readPluginsDir
  | gitClone (url dest : String)
  | gitPull (name : String)
  -- the sandbox
  | analyzePlugin (id : String)
  | smokeTestPlugin (id : String)

def PluginOp.Ans : PluginOp → Type
  | pluginFindUnique _ => Option Plugin
  | pluginFindActive _ => Option Plugin
  | pluginFindManyActive => List Plugin
  | pluginCreate _ => Plugin
  | pluginUpdate _ _ => Plugin
  | pluginDelete _ => Unit
  | auditLog _ => Unit
  | readDirectory _ => Option Directory
  | readPluginsDir => List Directory
  | gitClone _ _ => Unit
  | gitPull _ => String × String
  | analyzePlugin _ => SandboxResponse
  | smokeTestPlugin _ => SandboxResponse

/-- A statement of the database, which may fail. -/
def PluginOp.isStatement : PluginOp → Bool
  | pluginFindUnique _ | pluginFindActive _ | pluginFindManyActive | pluginCreate _
  | pluginUpdate _ _ | pluginDelete _ | auditLog _ => true
  | _ => false

/-- The signature of the plugin service. -/
def pluginSig : Sig := ⟨PluginOp, PluginOp.Ans, Err⟩

abbrev PluginProg (α : Type) : Type := Prog pluginSig α

/-- Await one operation of the plugin service. -/
abbrev issue (op : PluginOp) : PluginProg op.Ans := Prog.perform (S := pluginSig) op

/-- The rows, the directories and the audit log. -/
structure PluginWorld where
  plugins : Store.Indexed Plugin.id := ∅
  directories : Store.Indexed Directory.name := ∅
  audit : List ContentChanged := []

/-- What an operation meets outside: failures, what git fetches, and the answer of the sandbox. A
pull that fails may leave the fetched files behind. -/
structure PluginEnv where
  failure : PluginOp → Option Err := fun _ => none
  fetched : Files := []
  leavesFiles : Bool := false
  output : String × String := ("", "")
  response : SandboxResponse := { ok := false }

/-- The destination of a clone is missing, or empty. -/
def PluginWorld.free (w : PluginWorld) (dest : String) : Bool :=
  (w.directories.get? dest).all fun d => d.files.isEmpty && d.remote.isNone

def gitError : Err := { message := [.lit "Command failed: git"] }

/-- The files of a directory after a pull. -/
def PluginWorld.pulled (w : PluginWorld) (name : String) (files : Files) : PluginWorld :=
  { w with directories := w.directories.update name (fun d => { d with files }) fun _ h => h }

def PluginWorld.patched (w : PluginWorld) (id : String) (patch : PluginPatch) : PluginWorld :=
  { w with plugins := w.plugins.update id patch.apply fun p h => (patch.apply_id p).trans h }

/-- A statement: it fails as a whole or takes effect as a whole. -/
def commit {α : Type} (failure : Option Err) (w : PluginWorld) (x : Except Err (α × PluginWorld)) :
    Except Err α × PluginWorld :=
  match failure, x with
  | some e, _ => (.error e, w)
  | none, .error e => (.error e, w)
  | none, .ok (a, w') => (.ok a, w')

/-- **One operation**: its outcome and the world after it. -/
def handlePlugin (e : PluginEnv) : (op : PluginOp) → PluginWorld → Except Err op.Ans × PluginWorld
  | .pluginFindUnique id, w =>
    commit (e.failure (.pluginFindUnique id)) w (.ok (w.plugins.get? id, w))
  | .pluginFindActive id, w =>
    commit (e.failure (.pluginFindActive id)) w (.ok ((w.plugins.get? id).filter Plugin.active, w))
  | .pluginFindManyActive, w =>
    commit (e.failure .pluginFindManyActive) w (.ok (w.plugins.rows.filter Plugin.active, w))
  | .pluginCreate row, w => commit (e.failure (.pluginCreate row)) w <|
    if h : w.plugins.get? row.id = none then .ok (row, { w with plugins := w.plugins.insert row h })
    else .error uniqueViolation
  | .pluginUpdate id patch, w => commit (e.failure (.pluginUpdate id patch)) w <|
    match w.plugins.get? id with
    | none => .error recordNotFound
    | some p => .ok (patch.apply p, w.patched id patch)
  | .pluginDelete id, w => commit (e.failure (.pluginDelete id)) w <|
    match w.plugins.get? id with
    | none => .error recordNotFound
    | some _ => .ok ((), { w with plugins := w.plugins.delete id })
  | .auditLog event, w =>
    commit (e.failure (.auditLog event)) w (.ok ((), { w with audit := w.audit ++ [event] }))
  | .readDirectory name, w => (.ok (w.directories.get? name), w)
  | .readPluginsDir, w => (.ok w.directories.rows, w)
  -- a clone that fails removes what it has created
  | .gitClone url dest, w => commit (e.failure (.gitClone url dest)) w <|
    if w.free dest then .ok ((), { w with
      directories := w.directories.put { name := dest, files := e.fetched, remote := some url } })
    else .error gitError
  | .gitPull name, w =>
    match (w.directories.get? name).bind Directory.remote, e.failure (.gitPull name) with
    | none, _ => (.error gitError, w)
    | some _, some err => (.error err, if e.leavesFiles then w.pulled name e.fetched else w)
    | some _, none => (.ok e.output, w.pulled name e.fetched)
  | .analyzePlugin id, w => commit (e.failure (.analyzePlugin id)) w (.ok (e.response, w))
  | .smokeTestPlugin id, w => commit (e.failure (.smokeTestPlugin id)) w (.ok (e.response, w))

/-- The semantics of the plugin service, where what the operations meet satisfies `A`. -/
def pluginSem (A : PluginEnv → Prop) : Sem pluginSig PluginWorld :=
  Sem.ofHandler (S := pluginSig) handlePlugin fun e _ _ => A e

/-! ## The service -/

/-- The row of a plugin, or the exception. -/
def findPlugin (id : String) : PluginProg Plugin := do
  match ← issue (.pluginFindUnique id) with
  | some p => return p
  | none => .throw (notFound s!"Plugin '{id}' no encontrado")

def installedDirectory (installedPath : Option String) : PluginProg (Option Directory) :=
  match installedPath with
  | none => return none
  | some path => issue (.readDirectory path)

/-- The manifest in the directory of an installed plugin. -/
def getManifest (lib : PluginLib) (installedPath : Option String) : PluginProg (Option Manifest) := do
  return readManifest lib (← installedDirectory installedPath)

/-! ### Scans -/

/-- A field of a value that is stored as a JSON text; `undefined` is left out. -/
def jsonField (key : String) : Option Json → List (String × Json)
  | none => []
  | some v => [(key, v)]

/-- The value that is stored for an answer of the analyzer. -/
def scanData (r : SandboxResponse) : Json :=
  match r.ok && Json.truthy r.result, r.result with
  | true, some v => v
  | _, _ => .obj ([("ok", .bool false)] ++ jsonField "error" (r.error.map Json.str) ++
      [("findings", .arr [])])

/-- The value that is stored for an answer of the smoke test. -/
def smokeData (r : SandboxResponse) : Json :=
  match r.ok && Json.truthy r.result, r.result with
  | true, some v => v
  | _, _ => .obj ([("ok", .bool false), ("result", .str "inconclusive")] ++
      jsonField "error" (r.error.map Json.str) ++ [("checks", .arr [])])

/-- The static scan of an installation. It never throws. -/
def scanOnInstall (pluginId : String) : PluginProg Unit := do
  match ← (issue (.analyzePlugin pluginId)).attempt with
  | .error _ => return ()
  | .ok res =>
    let _ ← (issue (.pluginUpdate pluginId (.scanResult (scanData res)))).attempt
    return ()

def smokeTestOnActivate (pluginId : String) : PluginProg Unit := do
  match ← (issue (.smokeTestPlugin pluginId)).attempt with
  | .error _ => return ()
  | .ok res =>
    let _ ← (issue (.pluginUpdate pluginId (.smokeTestResult (smokeData res)))).attempt
    return ()

/-- Scans an installed plugin again. -/
def rescan (id : String) : PluginProg Plugin := do
  let _ ← findPlugin id
  let res ← issue (.analyzePlugin id)
  let _ ← issue (.pluginUpdate id (.scanResult (scanData res)))
  findPlugin id

/-! ### Activation -/

/-- A requirement without its version: what stands before the last `@`. -/
def depId (dep : String) : String :=
  if '@' ∈ dep.toList then
    String.ofList ((dep.toList.reverse.dropWhile (· ≠ '@')).drop 1).reverse
  else dep

example : depId "scope@data-quality@^1.0" = "scope@data-quality" := by decide

def manifestRequires (m : Option Manifest) : List String := (m.bind Manifest.requires).getD []

/-- The components of a stack: those of its manifest, else those of its row. -/
def stackRequires (p : Plugin) (m : Option Manifest) : List String :=
  if p.type = "stack" then ((m.bind Manifest.stackRequires) <|> p.stackPlugins).getD [] else []

/-- Everything that a plugin requires, once each. -/
def allRequires (p : Plugin) (m : Option Manifest) : List String :=
  (manifestRequires m ++ stackRequires p m).eraseDups

/-- The requirements that are not active. -/
def missingDependencies (requires : List String) : PluginProg (List String) := do
  let missing ← Prog.collect requires fun dep => do
    let found ← issue (.pluginFindActive (depId dep))
    return if found.isNone then [depId dep] else []
  return missing.flatten

/-- Activates a plugin whose requirements are active. -/
def activate (lib : PluginLib) (id : String) : PluginProg Plugin := do
  let p ← findPlugin id
  let manifest ← getManifest lib p.installedPath
  let missing ← missingDependencies (allRequires p manifest)
  if missing ≠ [] then
    .throw (badRequest (s!"El plugin '{id}' requiere que los siguientes plugins estén activos " ++
      "primero: " ++ ", ".intercalate missing))
  else
    smokeTestOnActivate id
    let _ ← issue (.pluginUpdate id (.active true))
    findPlugin id

def manifestNames (m : Option Manifest) (id : String) : Bool :=
  (manifestRequires m).any fun r => depId r = id

/-- The active plugins whose manifests require the plugin. -/
def findActiveDependents (lib : PluginLib) (id : String) : PluginProg (List String) := do
  let active ← issue .pluginFindManyActive
  let dependents ← Prog.collect (active.filter fun p => p.id ≠ id) fun p => do
    let manifest ← getManifest lib p.installedPath
    return if manifestNames manifest id then [p.id] else []
  return dependents.flatten

/-- Deactivates a plugin on which no active one depends. -/
def deactivate (lib : PluginLib) (id : String) : PluginProg Plugin := do
  let dependents ← findActiveDependents lib id
  if dependents ≠ [] then
    .throw (badRequest (s!"No se puede desactivar '{id}': los siguientes plugins dependen de él: " ++
      ", ".intercalate dependents ++ ". Desactívalos primero."))
  else
    let _ ← issue (.pluginUpdate id (.active false))
    findPlugin id

/-- Removes the row of a plugin; its directory stays. -/
def remove (id : String) : PluginProg Unit := do
  let _ ← findPlugin id
  issue (.pluginDelete id)

/-! ### Installation -/

/-- What is wrong with a cloned plugin, if anything. -/
def installRefusal (id : String) (manifest : Option Manifest) : Option Err :=
  let errors := (manifest.map validateManifest).getD []
  let pluginVersion := (manifest.bind fun m => m.section? PluginSection.version).getD "0.0.0"
  let minPlatform :=
    (manifest.bind fun m => m.section? PluginSection.minPlatformVersion).filter (· ≠ "")
  if errors ≠ [] then some (badRequest ("manifest.toml inválido: " ++ "; ".intercalate errors))
  else if checkPluginVersion pluginVersion none ≠ [] then
    some (badRequest
      ("Versión inválida: " ++ "; ".intercalate (checkPluginVersion pluginVersion none)))
  else match minPlatform with
    | none => none
    | some required =>
      if semverGte platformVersion required then none
      else some (badRequest (s!"El plugin '{id}' requiere plataforma ≥ {required} " ++
        s!"(plataforma actual: {platformVersion})"))

/-- The id of a cloned plugin: that of its manifest, else that of its source. -/
def installId (source : String) (manifest : Option Manifest) : String :=
  match manifest with
  | some m => (m.section? PluginSection.id).getD ""
  | none => deriveId source

/-- The row of a cloned plugin. -/
def installRow (source installedPath : String) (manifest : Option Manifest)
    (skillMd : Option SkillMd) : Plugin :=
  let id := installId source manifest
  let f (g : PluginSection → Option String) := manifest.bind fun m => m.section? g
  { id
    name := (f PluginSection.name <|> skillMd.map SkillMd.name).getD id
    description := f PluginSection.description <|> skillMd.map SkillMd.description
    version := (f PluginSection.version).getD "0.0.0"
    type := (f PluginSection.type).getD "skill"
    sourceUrl := some source
    gitUrl := some source
    config := (manifest.bind Manifest.credentials).map fun l => l.map fun c =>
      (c.1, { c.2 with required := some (c.2.required.getD false), group := some (c.2.group.getD "") })
    installedPath := some installedPath }

/-- The checksum after an installation; a failure is swallowed. -/
def checksumOnInstall (lib : PluginLib) (id installedPath : String) (p : Plugin) :
    PluginProg Plugin := do
  let checksum := computeContentChecksum lib (← issue (.readDirectory installedPath))
  match ← (issue (.pluginUpdate id (.contentChecksum checksum))).attempt with
  | .ok updated => return updated
  | .error _ => return p

/-- The checks of a cloned plugin, and its row. -/
def registerClone (lib : PluginLib) (source installedPath : String) : PluginProg Plugin := do
  let dir ← issue (.readDirectory installedPath)
  let manifest := readManifest lib dir
  let skillMd := if manifest.isNone then tryReadSkillMd dir else none
  let id := installId source manifest
  match installRefusal id manifest with
  | some e => .throw e
  | none =>
    match ← issue (.pluginFindUnique id) with
    | some _ => .throw (conflict s!"Plugin '{id}' ya está instalado")
    | none =>
      let plugin ← issue (.pluginCreate (installRow source installedPath manifest skillMd))
      scanOnInstall id
      checksumOnInstall lib id installedPath plugin

/-- **Installs a plugin** from a git repository: it is cloned, and then checked. -/
def install (lib : PluginLib) (source : String) : PluginProg Plugin :=
  if isGitUrl source then do
    let installedPath ← Prog.ofOutcome (S := pluginSig) (resolveInstallPath source)
    issue (.gitClone source installedPath)
    registerClone lib source installedPath
  else .throw (badRequest "Solo se permiten fuentes git (https:// o git@)")

/-! ### Updates -/

def auditChange (id : String) (prevChecksum nextChecksum : Option String) : PluginProg Unit :=
  match prevChecksum with
  | some old =>
    if prevChecksum ≠ nextChecksum then issue (.auditLog ⟨id, old, nextChecksum⟩) else return ()
  | none => return ()

/-- The checksum after an update: a change is audited first. -/
def checksumOnUpdate (lib : PluginLib) (id path : String) (prevChecksum : Option String) :
    PluginProg Unit := do
  let dir ← issue (.readDirectory path)
  auditChange id prevChecksum (computeContentChecksum lib dir)
  (issue (.pluginUpdate id (.contentChecksum (computeContentChecksum lib dir)))).discard

/-- Writes the name and the version of the manifest; a version that is not compatible is refused.
The result says what is wrong with it. -/
def refreshRelease (p : Plugin) (manifest : Option Manifest) : PluginProg (List String) :=
  match manifest with
  | none => return []
  | some m =>
    match m.plugin with
    | none => .throw (undefinedPropertyError "version")
    | some plugin =>
      match plugin.version with
      | none => .throw (undefinedPropertyError "trim")
      | some version =>
        let vErrors := checkPluginVersion version (some p.version)
        if vErrors ≠ [] then return vErrors
        else do
          let _ ← issue (.pluginUpdate p.id (.release (plugin.name.getD p.name) version))
          return []

def messageText (t : Text) : String :=
  String.join (t.map fun seg => match seg with
    | .lit s => s
    | .num _ => "")

/-- What a pull has written to its output and to its error output. -/
def pullOutput : Except Err (String × String) → String × String
  | .ok out => out
  | .error e => ("", messageText e.message)

/-- The text `error` occurs. -/
def mentionsError (s : String) : Bool := s.toList.tails.any fun t => "error".toList.isPrefixOf t

/-- **Updates a plugin** from its remote repository. -/
def update (lib : PluginLib) (id : String) : PluginProg (Bool × String) := do
  let p ← findPlugin id
  match p.gitUrl.filter (· ≠ ""), p.installedPath with
  | some _, some path =>
    let (stdout, stderr) := pullOutput (← (issue (.gitPull path)).attempt)
    let manifest := readManifest lib (← issue (.readDirectory path))
    let vErrors ← refreshRelease p manifest
    if vErrors ≠ [] then return (false, "; ".intercalate vErrors)
    else
      let _ ← (checksumOnUpdate lib id path p.contentChecksum).attempt
      return (!mentionsError stderr, if stdout = "" then stderr else stdout)
  | _, _ => .throw (badRequest s!"Plugin '{id}' no fue instalado desde git")

/-! ### Local plugins -/

def LocalPluginRecord.row (r : LocalPluginRecord) : Plugin where
  id := r.id
  name := r.name
  description := r.description
  version := r.version
  type := r.type
  author := r.author
  sourceUrl := some r.installedPath
  installedPath := some r.installedPath

/-- Writes a plugin found on disk into its row, or adds the row. -/
def syncRecord (r : LocalPluginRecord) : PluginProg Unit := do
  match ← issue (.pluginFindUnique r.id) with
  | some _ =>
    let _ ← issue (.pluginUpdate r.id (.record r))
    return ()
  | none =>
    let _ ← issue (.pluginCreate r.row)
    return ()

def syncLocalPlugins (lib : PluginLib) : PluginProg Unit := do
  let dirs ← issue .readPluginsDir
  Prog.forEach (scanLocalManifests lib dirs) syncRecord

/-! ## Requests -/

inductive PluginRequest
  | install (source : String)
  | activate (id : String)
  | deactivate (id : String)
  | remove (id : String)
  | update (id : String)
  | rescan (id : String)
  | sync

/-- The program of a request; the result of an update is whether it was accepted. -/
def PluginRequest.body (lib : PluginLib) : PluginRequest → PluginProg Unit
  | .install source => (NeoTrader.install lib source).discard
  | .activate id => (NeoTrader.activate lib id).discard
  | .deactivate id => (NeoTrader.deactivate lib id).discard
  | .remove id => NeoTrader.remove id
  | .update id => (NeoTrader.update lib id).discard
  | .rescan id => (NeoTrader.rescan id).discard
  | .sync => syncLocalPlugins lib

end NeoTrader
