import NeoTrader.Common.Noninterference
import NeoTrader.Plugins.Manifest

/-!
# The gateway of the sandbox

The gateway starts one Python process for each call. It gives the process an environment of its own
and writes the request to its standard input; credentials travel in the context of the request.

* `buildSandboxEnv`, `resolveCredentials`, `callPlugin`, `runExtraCycleHook`: what is sent;
* `Confined`: what is sent to a plugin depends on no secret that is not its own;
* **`confined_iff`**: a plugin is confined exactly if its manifest declares no protected key, and a
  plugin that reads the secret of the tokens (**`secret_reaches_plugin`**).
-/

namespace NeoTrader

open Js Noninterference

/-! ## The environment of the process -/

abbrev ProcessEnv : Type := String → Option String

/-- The settings of the gateway; the limits stand as the texts that they are printed as. -/
structure SandboxGateway where
  python3Bin : String := "python3"
  runnerPath : String
  pluginsDir : String
  sdkPath : String
  cpuSeconds : String := "60"
  memMb : String := "512"
  sandboxStrict : Bool := true
  netnsActive : Bool := false

/-- **The environment of the sandbox**: only these keys are ever passed on. -/
def buildSandboxEnv (processEnv : ProcessEnv) (g : SandboxGateway) : List (String × String) :=
  let hostPythonPath := (processEnv "PYTHONPATH").getD ""
  let pythonPath :=
    if g.sandboxStrict || hostPythonPath = "" then g.sdkPath else s!"{g.sdkPath}:{hostPythonPath}"
  [("PATH", (processEnv "PATH").getD ""),
    ("NEUROTRADER_PLUGINS_DIR", g.pluginsDir),
    ("PYTHONPATH", pythonPath),
    ("PYTHONDONTWRITEBYTECODE", "1"),
    ("PYTHONUNBUFFERED", "1"),
    ("SANDBOX_CPU_SECONDS", g.cpuSeconds),
    ("SANDBOX_MEM_MB", g.memMb),
    ("SANDBOX_STRICT", toString g.sandboxStrict)]

/-! ## Credentials -/

/-- The names that every object inherits. -/
def inheritedMembers : List String :=
  ["constructor", "__defineGetter__", "__defineSetter__", "hasOwnProperty", "__lookupGetter__",
    "__lookupSetter__", "isPrototypeOf", "propertyIsEnumerable", "toString", "valueOf",
    "toLocaleString"]

/-- The entry of a declared key in the request. A key that is missing is empty, unless the object
inherits a function of that name, which is not written; and `__proto__` names no entry. -/
def credentialEntry (processEnv : ProcessEnv) (key : String) : Option (String × Json) :=
  if key = "__proto__" then none
  else match processEnv key with
    | some v => some (key, .str v)
    | none => if inheritedMembers.contains key then none else some (key, .str "")

/-- The keys that a manifest declares. -/
def declaredCredentials (m : Option Manifest) : List String :=
  ((m.bind Manifest.credentials).getD []).map Prod.fst

/-- **The credentials of a plugin**: the keys declared in its manifest, with the values that they have
in the environment of the kernel. -/
def resolveCredentials (m : Option Manifest) (processEnv : ProcessEnv) : Json :=
  .obj ((declaredCredentials m).filterMap (credentialEntry processEnv))

/-- The keys of the system, which are not credentials. -/
def protectedEnvKeys : List String :=
  ["JWT_SECRET", "DATABASE_URL", "NODE_ENV", "API_PORT", "API_HOST", "WS_PORT", "BACKUP_DIR",
    "DOTENV_PATH", "CORS_ORIGINS"]

/-! ## Calls -/

/-- What the gateway finds on its host: the binaries, and the directory that an id names below the
directory of the plugins. -/
structure SandboxHost where
  binaryExists : String → Bool
  directory : String → Option Directory

/-- A started process: its command line, its environment, and the request on its standard input. -/
structure Spawned where
  command : String
  args : List String
  env : List (String × String)
  request : Json

/-- The binary that isolates the network. -/
def resolveUnshareBinary (host : SandboxHost) : String :=
  (["/usr/bin/unshare", "/bin/unshare"].find? host.binaryExists).getD "/usr/bin/unshare"

def buildSandboxSpawnCommand (host : SandboxHost) (g : SandboxGateway) : String × List String :=
  if g.netnsActive then (resolveUnshareBinary host, ["-rn", g.python3Bin, g.runnerPath])
  else (g.python3Bin, [g.runnerPath])

/-- The process that a request starts. -/
def SandboxGateway.call (g : SandboxGateway) (host : SandboxHost) (processEnv : ProcessEnv)
    (request : Json) : Spawned where
  command := (buildSandboxSpawnCommand host g).1
  args := (buildSandboxSpawnCommand host g).2
  env := buildSandboxEnv processEnv g
  request := request

/-- The manifest of a plugin, as the gateway reads it. -/
def SandboxHost.manifest (host : SandboxHost) (lib : PluginLib) (pluginId : String) : Option Manifest :=
  readManifest lib (host.directory pluginId)

/-- The context of a call, with the credentials of the plugin. -/
def enrichedContext (lib : PluginLib) (host : SandboxHost) (processEnv : ProcessEnv)
    (pluginId : String) (context : List (String × Json)) : Json :=
  .obj (Json.withField context "credentials" (resolveCredentials (host.manifest lib pluginId) processEnv))

/-- **Calls a function of a plugin.** -/
def callPlugin (g : SandboxGateway) (lib : PluginLib) (host : SandboxHost) (processEnv : ProcessEnv)
    (pluginId fn : String) (args context : List (String × Json)) : Spawned :=
  g.call host processEnv (.obj
    [("cmd", .str "call_plugin"), ("plugin_id", .str pluginId), ("function", .str fn),
      ("args", .obj args), ("context", enrichedContext lib host processEnv pluginId context)])

/-- **Runs the hook of a cycle** of a plugin of the type `extra`. -/
def runExtraCycleHook (g : SandboxGateway) (lib : PluginLib) (host : SandboxHost)
    (processEnv : ProcessEnv) (pluginId : String) (context : List (String × Json)) : Spawned :=
  g.call host processEnv (.obj
    [("cmd", .str "run_hook"), ("plugin_id", .str pluginId), ("hook", .str "on_cycle"),
      ("context", enrichedContext lib host processEnv pluginId context)])

/-! ## Confinement -/

/-- The keys of the kernel's environment that a plugin may depend on: the path, and the credentials
that its manifest declares, without those of the system. -/
def visibleKeys (m : Option Manifest) : Set String :=
  {key | key = "PATH" ∨ key ∈ declaredCredentials m ∧ key ∉ protectedEnvKeys}

/-- **What is sent to a plugin** depends on no other key. -/
def Confined (g : SandboxGateway) (lib : PluginLib) (host : SandboxHost) (pluginId : String) : Prop :=
  (∀ fn args context, Hides (AgreeOn (visibleKeys (host.manifest lib pluginId))) fun processEnv =>
    callPlugin g lib host processEnv pluginId fn args context) ∧
  ∀ context, Hides (AgreeOn (visibleKeys (host.manifest lib pluginId))) fun processEnv =>
    runExtraCycleHook g lib host processEnv pluginId context

variable {g : SandboxGateway} {lib : PluginLib} {host : SandboxHost} {pluginId : String}
  {keys : Set String}

theorem buildSandboxEnv_hides (hstrict : g.sandboxStrict = true) (hpath : "PATH" ∈ keys) :
    Hides (AgreeOn keys) fun processEnv => buildSandboxEnv processEnv g := by
  intro env env' h
  have hvalue : env "PATH" = env' "PATH" := hides_lookup hpath _ _ h
  simp [buildSandboxEnv, hstrict, hvalue]

theorem credentialEntry_hides {key : String} (hkey : key ∈ keys) :
    Hides (AgreeOn keys) fun processEnv => credentialEntry processEnv key := by
  intro env env' h
  have hvalue : env key = env' key := hides_lookup hkey _ _ h
  simp [credentialEntry, hvalue]

theorem call_hides {request : ProcessEnv → Json} (hstrict : g.sandboxStrict = true)
    (hpath : "PATH" ∈ keys) (h : Hides (AgreeOn keys) request) :
    Hides (AgreeOn keys) fun processEnv => g.call host processEnv (request processEnv) :=
  (buildSandboxEnv_hides hstrict hpath).map₂ h
    (Spawned.mk (buildSandboxSpawnCommand host g).1 (buildSandboxSpawnCommand host g).2)

theorem enrichedContext_hides (h : ∀ key ∈ declaredCredentials (host.manifest lib pluginId), key ∈ keys)
    (context : List (String × Json)) : Hides (AgreeOn keys) fun processEnv =>
      enrichedContext lib host processEnv pluginId context :=
  (hides_filterMap fun key hkey => credentialEntry_hides (h key hkey)).comp fun entries =>
    Json.obj (Json.withField context "credentials" (Json.obj entries))

/-! ### What the request says -/

theorem credentialEntry_protected {key : String} (h : key ∈ protectedEnvKeys) (processEnv : ProcessEnv) :
    credentialEntry processEnv key = some (key, .str ((processEnv key).getD "")) := by
  have hproto : key ≠ "__proto__" := by
    rintro rfl
    exact absurd h (by decide)
  have hall : ∀ k ∈ protectedEnvKeys, inheritedMembers.contains k = false := by decide
  have hown : inheritedMembers.contains key = false := hall key h
  unfold credentialEntry
  rw [if_neg hproto]
  cases processEnv key with
  | none =>
    show (if inheritedMembers.contains key then none else some (key, Json.str "")) = _
    rw [hown]
    rfl
  | some v => rfl

theorem resolveCredentials_reads {m : Option Manifest} {key : String} (hkey : key ∈ declaredCredentials m)
    (hprotected : key ∈ protectedEnvKeys) :
    resolveCredentials m (Function.update (fun _ => none) key (some "secret")) ≠
      resolveCredentials m fun _ => none := by
  intro heq
  have hentries := Json.obj.inj heq
  have hmem : (key, Json.str "secret") ∈ (declaredCredentials m).filterMap
      (credentialEntry (Function.update (fun _ => none) key (some "secret"))) := by
    refine List.mem_filterMap.2 ⟨key, hkey, ?_⟩
    rw [credentialEntry_protected hprotected, Function.update_self]
    rfl
  rw [hentries] at hmem
  obtain ⟨key', -, hentry⟩ := List.mem_filterMap.1 hmem
  unfold credentialEntry at hentry
  split_ifs at hentry
  simp at hentry

theorem callPlugin_credentials {env env' : ProcessEnv} {fn : String}
    (h : callPlugin g lib host env pluginId fn [] [] = callPlugin g lib host env' pluginId fn [] []) :
    resolveCredentials (host.manifest lib pluginId) env =
      resolveCredentials (host.manifest lib pluginId) env' := by
  have hrequest := congrArg Spawned.request h
  simpa [callPlugin, SandboxGateway.call, enrichedContext, Json.withField] using hrequest

/-- **A plugin is confined exactly if its manifest declares no key of the system.** -/
theorem confined_iff (hstrict : g.sandboxStrict = true) : Confined g lib host pluginId ↔
    ∀ key ∈ declaredCredentials (host.manifest lib pluginId), key ∉ protectedEnvKeys := by
  constructor
  · rintro ⟨hcall, -⟩ key hkey hprotected
    have hreads : callPlugin g lib host (Function.update (fun _ => none) key (some "secret")) pluginId ""
        [] [] ≠ callPlugin g lib host (fun _ => none) pluginId "" [] [] :=
      fun heq => resolveCredentials_reads hkey hprotected (callPlugin_credentials heq)
    rcases (hcall "" [] []).mem _ _ hreads with rfl | ⟨-, hopen⟩
    · exact absurd hprotected (by decide)
    · exact hopen hprotected
  · intro hdeclared
    have hpath : "PATH" ∈ visibleKeys (host.manifest lib pluginId) := .inl rfl
    have hvisible : ∀ key ∈ declaredCredentials (host.manifest lib pluginId),
        key ∈ visibleKeys (host.manifest lib pluginId) :=
      fun key hkey => .inr ⟨hkey, hdeclared key hkey⟩
    constructor
    · intro fn args context
      exact call_hides hstrict hpath ((enrichedContext_hides hvisible context).comp fun c => Json.obj
        [("cmd", .str "call_plugin"), ("plugin_id", .str pluginId), ("function", .str fn),
          ("args", .obj args), ("context", c)])
    · intro context
      exact call_hides hstrict hpath ((enrichedContext_hides hvisible context).comp fun c => Json.obj
        [("cmd", .str "run_hook"), ("plugin_id", .str pluginId), ("hook", .str "on_cycle"),
          ("context", c)])

/-! ### A manifest that asks for the secret of the tokens -/

/-- A parser that reads every document as the manifest of a plugin with one credential. -/
def singleCredentialLib (key : String) : PluginLib where
  parseToml _ := some { credentials := some [(key, { label := key })] }
  tomllib _ := .ok none
  sha256 _ := ""
  localeLe _ _ := true

def singlePluginHost : SandboxHost where
  binaryExists _ := false
  directory id := some { name := id, files := [(["manifest.toml"], some [])] }

def defaultGateway : SandboxGateway where
  runnerPath := "/app/sandbox/runner.py"
  pluginsDir := "/app/plugins"
  sdkPath := "/app/packages/plugin-sdk"

/-- A plugin that declares the key of a broker is confined. -/
theorem broker_key_confined :
    Confined defaultGateway (singleCredentialLib "ALPACA_API_KEY") singlePluginHost "alpaca" :=
  (confined_iff rfl).2 (by decide)

/-- **A plugin that declares the secret of the tokens receives it.** -/
theorem secret_reaches_plugin : ¬ ∀ g lib host pluginId, g.sandboxStrict = true →
    Confined g lib host pluginId := by
  intro hall
  obtain ⟨hcall, -⟩ := hall defaultGateway (singleCredentialLib "JWT_SECRET") singlePluginHost "greedy" rfl
  have hdeclared : "JWT_SECRET" ∈ declaredCredentials
      (singlePluginHost.manifest (singleCredentialLib "JWT_SECRET") "greedy") := by decide
  have hreads : callPlugin defaultGateway (singleCredentialLib "JWT_SECRET") singlePluginHost
      (Function.update (fun _ => none) "JWT_SECRET" (some "secret")) "greedy" "" [] [] ≠
      callPlugin defaultGateway (singleCredentialLib "JWT_SECRET") singlePluginHost (fun _ => none)
        "greedy" "" [] [] :=
    fun heq => resolveCredentials_reads hdeclared (by decide) (callPlugin_credentials heq)
  rcases (hcall "" [] []).mem _ _ hreads with hpath | ⟨-, hopen⟩
  · exact absurd hpath (by decide)
  · exact hopen (by decide)

end NeoTrader
