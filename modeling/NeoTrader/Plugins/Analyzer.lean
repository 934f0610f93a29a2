import NeoTrader.Plugins.Sandbox

/-!
# The analyses of a plugin

The sandbox scans the syntax trees of a plugin's Python files, and it tries the plugin out before an
activation. Both answer with a JSON value, or with an error where they could not run.

* `Finding`, `scanFile`, **`analyzePlugin`**, `ScanReport.toJson`; **`severity_of_mem`**: every
  finding is a warning, of the severity `warn`.
-/

namespace NeoTrader

open Js

/-! ## Syntax trees -/

/-- A node of a syntax tree, as far as the scan looks at it. -/
inductive AstNode
  | importNames (names : List String) (line : ℤ)
  | importFrom (module : Option String) (line : ℤ)
  -- the function is a bare name, or not
  | call (fn : Option String) (line : ℤ)
  | functionDef (name : String)
  | other

inductive ParseFailure
  | syntaxError (msg : String) (line : Option ℤ)
  | other (e : Err)

/-- What the scan relies on: the parser, whose nodes come in the order of a walk, and the text of the
exception for a file that cannot be read. -/
structure PythonLib where
  parse : String → Except ParseFailure (List AstNode)
  osError : RelPath → String

/-! ## Findings -/

structure Finding where
  severity : String
  category : String
  file : String
  line : Option ℤ
  message : String
  deriving DecidableEq

/-- Modules that the runtime does not block, but that may start processes. -/
def riskyImports : List String := ["subprocess", "multiprocessing", "ctypes", "cffi"]

def networkImports : List String :=
  ["socket", "ssl", "urllib", "http", "ftplib", "smtplib", "requests", "urllib3", "pycurl", "httpx",
    "aiohttp", "websocket", "websockets"]

/-- Functions that run code. -/
def dangerousCalls : List String := ["eval", "exec", "compile", "__import__"]

/-- The segments of a dotted name. -/
def dotted (name : String) : List String := (name.toList.splitOn '.').map String.ofList

/-- The first segment of a dotted name. -/
def rootModule (name : String) : String := (dotted name).headD ""

/-- What a walk has collected. -/
structure FileScan where
  findings : List Finding := []
  networkRoots : List String := []
  definedFns : List String := []

def FileScan.warn (s : FileScan) (category file : String) (line : Option ℤ) (message : String) :
    FileScan :=
  { s with findings := s.findings ++ [⟨"warn", category, file, line, message⟩] }

/-- An imported module: a risky one is a finding, and one of the network is collected. -/
def FileScan.module (s : FileScan) (file : String) (line : ℤ) (name message : String) : FileScan :=
  let s := if riskyImports.contains (rootModule name) then
    s.warn "risky_import" file (some line) message else s
  if networkImports.contains (rootModule name) then
    { s with networkRoots := s.networkRoots ++ [rootModule name] } else s

def FileScan.node (file : String) (s : FileScan) : AstNode → FileScan
  | .importNames names line => names.foldl (fun s name => s.module file line name
      (s!"Imports '{name}' which is not blocked by the F1 runtime sandbox but may be used for " ++
        "unsafe process execution. Review whether this module is necessary.")) s
  | .importFrom module line =>
    let shown := module.getD ""
    s.module file line shown (s!"Imports from '{shown}' which is not blocked by the F1 runtime " ++
      "sandbox but may enable unsafe process execution.")
  | .call fn line =>
    match fn.filter fun fn => dangerousCalls.contains fn with
    | some fn => s.warn "dangerous_call" file (some line)
        (s!"Calls '{fn}()' which executes arbitrary code at runtime. " ++
          "Dynamic code execution is a significant security risk in plugins.")
    | none => s
  | .functionDef name => { s with definedFns := s.definedFns ++ [name] }
  | .other => s

/-- The scan of one file, after those before it. An error of another kind than of the syntax is not
caught. -/
def scanFile (py : PythonLib) (d : Directory) (s : FileScan) (path : RelPath) :
    Except Err FileScan :=
  let file := path.getLastD ""
  match d.text? path with
  | none => .ok (s.warn "parse_error" file none s!"Could not read file: {py.osError path}")
  | some src =>
    match py.parse src with
    | .ok nodes => .ok (nodes.foldl (FileScan.node file) s)
    | .error (.syntaxError msg line) =>
      let shown := (line.map toString).getD "None"
      .ok (s.warn "parse_error" file line s!"Python syntax error: {msg} (line {shown})")
    | .error (.other e) => .error e

def scanFiles (py : PythonLib) (d : Directory) (s : FileScan) : List RelPath → Except Err FileScan
  | [] => .ok s
  | path :: paths =>
    match scanFile py d s path with
    | .ok s => scanFiles py d s paths
    | .error e => .error e

/-- The manifest denies the network, but a module of it is imported. -/
def checkNetworkDeclaration (m : Manifest) (s : FileScan) : FileScan :=
  if !m.network && !s.networkRoots.isEmpty then
    s.warn "network_mismatch" "plugin.py" none
      ("Plugin declares permissions.network=false but imports network module(s): " ++
        ", ".intercalate (s.networkRoots.dedup.insertionSort (· ≤ ·)) ++ ". These imports are " ++
        "blocked by the F1 sandbox at runtime, but the " ++
        "manifest should accurately declare network requirements.")
  else s

/-- The hooks of the manifest that are not on disk. -/
def checkHookFiles (d : Directory) (m : Manifest) (s : FileScan) : FileScan :=
  m.hooks.foldl (fun s hook =>
    if d.exists (relPath hook.2) then s
    else s.warn "missing_hook" hook.2 none
      (s!"Hook '{hook.1}' declares file '{hook.2}' but the file does not exist on disk. " ++
        "The hook will silently not run at activation/deactivation time.")) s

/-- The skills of the manifest that no function defines. -/
def checkSkillDefs (m : Manifest) (s : FileScan) : FileScan :=
  m.skillKeys.foldl (fun s key =>
    let fnName := (dotted key).getLastD ""
    if s.definedFns.contains fnName then s
    else s.warn "undefined_skill" "plugin.py" none
      (s!"Skill key '{key}' references function '{fnName}' " ++
        "which is not defined in plugin.py. " ++
        "Calling this skill at runtime will raise AttributeError.")) s

structure ScanReport where
  findings : List Finding
  scannedFiles : ℕ

def scannedPaths (d : Directory) : List RelPath :=
  (if d.exists ["plugin.py"] then [["plugin.py"]] else []) ++
    (((d.list "hooks").filter isPython).insertionSort (· ≤ ·)).map fun name => ["hooks", name]

/-- **The static analysis of a plugin.** -/
def analyzePlugin (py : PythonLib) (d : Directory) (m : Manifest) : Except Err ScanReport :=
  (scanFiles py d {} (scannedPaths d)).map fun s =>
    { findings := (checkSkillDefs m (checkHookFiles d m (checkNetworkDeclaration m s))).findings
      scannedFiles := (scannedPaths d).length }

def ScanReport.warnCount (r : ScanReport) : ℕ :=
  (r.findings.filter fun f => f.severity = "warn" || f.severity = "warning").length

/-- How often each text occurs, in the order of the first occurrences. -/
def countTexts (l : List String) : Json :=
  .obj (l.eraseDups.map fun s => (s, .num (.fin (l.count s))))

def Finding.toJson (f : Finding) : Json :=
  .obj [("severity", .str f.severity), ("category", .str f.category), ("file", .str f.file),
    ("line", f.line.elim .null fun n => .num (.fin n)), ("message", .str f.message)]

def ScanReport.toJson (r : ScanReport) : Json :=
  .obj [("ok", .bool true), ("findings", .arr (r.findings.map Finding.toJson)),
    ("summary", .obj [("warn_count", .num (.fin r.warnCount)),
      ("info_count", .num (.fin (r.findings.filter fun f => f.severity = "info").length)),
      ("scanned_files", .num (.fin r.scannedFiles)),
      ("findings_count", .num (.fin r.findings.length)),
      ("by_category", countTexts (r.findings.map Finding.category)),
      ("by_severity", countTexts (r.findings.map Finding.severity))])]

/-! ## Smoke tests -/

inductive SmokeStatus
  | failed | inconclusive | passed
  deriving DecidableEq

def SmokeStatus.toString : SmokeStatus → String
  | .failed => "failed"
  | .inconclusive => "inconclusive"
  | .passed => "passed"

structure SmokeCheck where
  name : String
  status : SmokeStatus
  detail : String

/-- The worst of the checks. -/
def smokeOverall (checks : List SmokeCheck) : SmokeStatus :=
  if checks.any fun c => c.status = .failed then .failed
  else if checks.any fun c => c.status = .inconclusive then .inconclusive
  else .passed

/-- The JSON value of a smoke test. -/
def smokeReport (checks : List SmokeCheck) : Json :=
  .obj [("ok", .bool true), ("result", .str (smokeOverall checks).toString),
    ("checks", .arr (checks.map fun c => .obj [("name", .str c.name),
      ("status", .str c.status.toString), ("detail", .str c.detail)]))]

/-! ## Answers -/

/-- The answer of the sandbox to a command: its result, or the text of its exception. -/
def respond (result : Except Err Json) : SandboxResponse :=
  match result with
  | .ok v => { ok := true, result := some v }
  | .error e => { ok := false, error := some (messageText e.message) }

/-! ## Severities -/

/-- Every finding so far has the severity `warn`. -/
def FileScan.AllWarn (s : FileScan) : Prop := ∀ f ∈ s.findings, f.severity = "warn"

section Severity

variable {py : PythonLib} {d : Directory} {m : Manifest} {s s' : FileScan}

theorem FileScan.AllWarn.warn (h : s.AllWarn) (category file : String) (line : Option ℤ)
    (message : String) : (s.warn category file line message).AllWarn :=
  List.forall_mem_append.2 ⟨h, List.forall_mem_singleton.2 rfl⟩

theorem FileScan.AllWarn.module (h : s.AllWarn) (file : String) (line : ℤ) (name message : String) :
    (s.module file line name message).AllWarn := by
  unfold FileScan.module
  by_cases hrisky : riskyImports.contains (rootModule name) <;>
    by_cases hnetwork : networkImports.contains (rootModule name) <;>
    simp only [hrisky, hnetwork, if_true, Bool.false_eq_true, if_false]
  · exact h.warn _ _ _ _
  · exact h.warn _ _ _ _
  · exact h
  · exact h

theorem FileScan.AllWarn.foldl {α : Type} {f : FileScan → α → FileScan}
    (hf : ∀ s a, s.AllWarn → (f s a).AllWarn) (l : List α) (h : s.AllWarn) :
    (l.foldl f s).AllWarn := by
  induction l generalizing s with
  | nil => exact h
  | cons a l ih => exact ih (hf s a h)

theorem FileScan.AllWarn.node (h : s.AllWarn) (file : String) (n : AstNode) :
    (s.node file n).AllWarn := by
  cases n with
  | importNames names line => exact h.foldl (fun s name h => h.module file line name _) names
  | importFrom name line => exact h.module file line _ _
  | call fn line =>
    simp only [FileScan.node]
    split
    · exact h.warn _ _ _ _
    · exact h
  | functionDef name => exact h
  | other => exact h

theorem FileScan.AllWarn.scanFile {path : RelPath} (h : s.AllWarn)
    (hs : NeoTrader.scanFile py d s path = .ok s') : s'.AllWarn := by
  unfold NeoTrader.scanFile at hs
  split at hs
  · cases hs
    exact h.warn _ _ _ _
  · split at hs
    · cases hs
      exact h.foldl (fun s n h => h.node _ n) _
    · cases hs
      exact h.warn _ _ _ _
    · cases hs

theorem FileScan.AllWarn.scanFiles {paths : List RelPath} (h : s.AllWarn)
    (hs : NeoTrader.scanFiles py d s paths = .ok s') : s'.AllWarn := by
  induction paths generalizing s with
  | nil =>
    cases hs
    exact h
  | cons path paths ih =>
    unfold NeoTrader.scanFiles at hs
    split at hs
    · next hfile => exact ih (h.scanFile hfile) hs
    · cases hs

theorem FileScan.AllWarn.checks (h : s.AllWarn) :
    (checkSkillDefs m (checkHookFiles d m (checkNetworkDeclaration m s))).AllWarn := by
  refine FileScan.AllWarn.foldl (fun s key h => ?_) _ (FileScan.AllWarn.foldl (fun s hook h => ?_) _ ?_)
  · dsimp only
    split
    · exact h
    · exact h.warn _ _ _ _
  · split
    · exact h
    · exact h.warn _ _ _ _
  · unfold checkNetworkDeclaration
    split
    · exact h.warn _ _ _ _
    · exact h

/-- **Every finding of the analyzer has the severity `warn`.** -/
theorem severity_of_mem {r : ScanReport} (hr : analyzePlugin py d m = .ok r) :
    ∀ f ∈ r.findings, f.severity = "warn" := by
  unfold analyzePlugin at hr
  cases hs : scanFiles py d {} (scannedPaths d) with
  | error e =>
    rw [hs] at hr
    cases hr
  | ok s =>
    rw [hs] at hr
    cases hr
    have hempty : FileScan.AllWarn {} := List.forall_mem_nil _
    exact (hempty.scanFiles hs).checks

end Severity

end NeoTrader
