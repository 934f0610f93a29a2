import NeoTrader.Catalogue.Manifest
import NeoTrader.Plugins.Analyzer

/-!
# What the static analysis covers

The runner takes the files of the hooks from the manifest, and the analysis takes those of a
convention. Here the manifest is any document, and the file system has links.

* `hookText`, `Loads`, **`MayLoad`**: the Python files that the runner loads directly;
* `filesToScan`, `scanAt`, **`analyze`**: the analysis of a folder;
* `Shaped`, **`analyze_ok_iff`**: when the analysis reports;
* **`Covers`**, `Coverable`, **`scan_covers_iff`**: what is loaded is scanned and is inside the folder,
  and when that is so;
* **`climbing_hook`**: a hook outside the folder.
-/

namespace NeoTrader.Scan

open Catalogue (Toml)

/-! ## Files -/

/-- The segments of an absolute path; `..` is one of them. -/
abbrev Parts : Type := List String

/-- A file system. `stat` is where an existing path leads after all links, and it may raise; a file is
read at the place it leads to. -/
structure FileSystem where
  stat : Parts → Except Err (Option Parts)
  isDir : Parts → Except Err Bool
  entries : Parts → List String
  content : Parts → Option String
  listed : ∀ d n q, n ≠ ".." → stat (d ++ [n]) = .ok (some q) → isDir d = .ok true ∧ n ∈ entries d

/-- `path.exists()`. -/
def FileSystem.exists (fs : FileSystem) (path : Parts) : Except Err Bool :=
  (fs.stat path).map Option.isSome

def FileSystem.text (fs : FileSystem) (path : Parts) : Option String :=
  match fs.stat path with
  | .ok (some q) => fs.content q
  | _ => none

/-- `dir / rel`: an absolute path stands for itself. -/
def joinPath (dir : Parts) (rel : String) : Parts :=
  if rel.toList.head? = some '/' then relPath rel else dir ++ relPath rel

/-- A document, as the runner parses it. -/
abbrev Doc : Type := List (String × Toml)

/-- `d.get(key)`. -/
def Doc.get (m : Doc) (key : String) : Option Toml := (m.find? fun f => f.1 = key).map Prod.snd

/-! ## What the runner loads -/

/-- The file of a hook: that of the manifest, or the default one. There is none where the manifest has
no such section or no text. -/
def hookText (m : Doc) (hook default : String) : Option String :=
  match m.get "hooks" with
  | none => some default
  | some (.table fields) =>
    match Doc.get fields hook with
    | none => some default
    | some (.str rel) => some rel
    | some _ => none
  | some _ => none

/-- The hooks that a cycle, a single call and the smoke test look for, each with its default. -/
def hookLookups : List (String × String) :=
  [("on_cycle", "hooks/cycle.py"), ("on_cycle", "hooks/on_cycle.py"),
    ("on_activate", "hooks/on_activate.py"), ("on_deactivate", "hooks/on_deactivate.py")]

def isPythonFile (name : String) : Bool := isPython name || ".pyc".toList.isSuffixOf name.toList

/-- A Python file that is there to be loaded. -/
def Loads (fs : FileSystem) (path : Parts) : Prop :=
  isPythonFile (path.getLastD "") = true ∧ ∃ q, fs.stat path = .ok (some q) ∧ (fs.content q).isSome

/-- **The Python files that the runner may load directly for a plugin.** -/
inductive MayLoad (fs : FileSystem) (dir : Parts) (m : Doc) : Parts → Prop
  | plugin : Loads fs (dir ++ ["plugin.py"]) → MayLoad fs dir m (dir ++ ["plugin.py"])
  | hook {lookup : String × String} {rel : String} : lookup ∈ hookLookups →
      hookText m lookup.1 lookup.2 = some rel → Loads fs (joinPath dir rel) →
      MayLoad fs dir m (joinPath dir rel)

/-! ## The analysis -/

def attributeError : Err := { name := "AttributeError", message := [.lit "object has no such attribute"] }

def typeError : Err := { name := "TypeError", message := [.lit "unsupported operand or iteration"] }

/-- The files that are collected: `plugin.py`, and the Python files of the folder of the hooks. -/
def filesToScan (fs : FileSystem) (dir : Parts) : Except Err (List Parts) :=
  match fs.exists (dir ++ ["plugin.py"]), fs.isDir (dir ++ ["hooks"]) with
  | .error e, _ => .error e
  | .ok _, .error e => .error e
  | .ok plugin, .ok hooks =>
    .ok ((if plugin then [dir ++ ["plugin.py"]] else []) ++
      if hooks then (((fs.entries (dir ++ ["hooks"])).filter isPython).insertionSort (· ≤ ·)).map
        fun name => dir ++ ["hooks", name] else [])

/-- The scan of one file, after those before it. An error of another kind than of the syntax is not
caught. -/
def scanAt (py : PythonLib) (fs : FileSystem) (s : FileScan) (path : Parts) : Except Err FileScan :=
  let file := path.getLastD ""
  match fs.text path with
  | none => .ok (s.warn "parse_error" file none s!"Could not read file: {py.osError path}")
  | some src =>
    match py.parse src with
    | .ok nodes => .ok (nodes.foldl (FileScan.node file) s)
    | .error (.syntaxError msg line) =>
      let shown := (line.map toString).getD "None"
      .ok (s.warn "parse_error" file line s!"Python syntax error: {msg} (line {shown})")
    | .error (.other e) => .error e

/-- `bool(v)`. -/
def truthy : Toml → Bool
  | .str s => s ≠ ""
  | .num n => n ≠ 0
  | .bool b => b
  | .date _ => true
  | .arr l => !l.isEmpty
  | .table fields => !fields.isEmpty

def checkNetwork (m : Doc) (s : FileScan) : Except Err FileScan :=
  match m.get "permissions" with
  | none => .ok (checkNetworkDeclaration {} s)
  | some (.table perms) =>
    .ok (checkNetworkDeclaration { network := ((Doc.get perms "network").map truthy).getD false } s)
  | some _ => .error attributeError

def checkHook (fs : FileSystem) (dir : Parts) (s : FileScan) (hook : String × Toml) :
    Except Err FileScan :=
  match hook.2 with
  | .str rel =>
    match fs.exists (joinPath dir rel) with
    | .error e => .error e
    | .ok true => .ok s
    | .ok false => .ok (s.warn "missing_hook" rel none
        (s!"Hook '{hook.1}' declares file '{rel}' but the file does not exist on disk. " ++
          "The hook will silently not run at activation/deactivation time."))
  | _ => .error typeError

def checkHooks (fs : FileSystem) (dir : Parts) (m : Doc) (s : FileScan) : Except Err FileScan :=
  match m.get "hooks" with
  | none => .ok s
  | some (.table fields) => fields.foldlM (checkHook fs dir) s
  | some _ => .error attributeError

/-- `for key in keys`. -/
def iterKeys : Toml → Except Err (List Toml)
  | .arr l => .ok l
  | .str s => .ok (s.toList.map fun c => .str (String.ofList [c]))
  | .table fields => .ok (fields.map fun f => .str f.1)
  | _ => .error typeError

def checkSkill (s : FileScan) : Toml → Except Err FileScan
  | .str key => .ok (checkSkillDefs { skillKeys := [key] } s)
  | _ => .error attributeError

def checkSkills (m : Doc) (s : FileScan) : Except Err FileScan :=
  match m.get "skills" with
  | none => .ok s
  | some (.table fields) =>
    match iterKeys ((Doc.get fields "keys").getD (.arr [])) with
    | .error e => .error e
    | .ok keys => keys.foldlM checkSkill s
  | some _ => .error attributeError

/-- **The analysis of a folder.** -/
def analyze (py : PythonLib) (fs : FileSystem) (dir : Parts) (m : Doc) : Except Err ScanReport := do
  let files ← filesToScan fs dir
  let s ← files.foldlM (scanAt py fs) {}
  let s ← checkNetwork m s
  let s ← checkHooks fs dir m s
  let s ← checkSkills m s
  return { findings := s.findings, scannedFiles := files.length }

/-- The files on which the parser is run. -/
def Parses (fs : FileSystem) (dir path : Parts) : Prop :=
  ∃ files, filesToScan fs dir = .ok files ∧ path ∈ files ∧ (fs.text path).isSome

/-! ## Coverage -/

def SameFile (fs : FileSystem) (p q : Parts) : Prop :=
  ∃ target, fs.stat p = .ok (some target) ∧ fs.stat q = .ok (some target)

/-- The path leads into the folder. -/
def Inside (fs : FileSystem) (dir path : Parts) : Prop :=
  ∃ base target, fs.stat dir = .ok (some base) ∧ fs.stat path = .ok (some target) ∧ base <+: target

/-- **The analysis covers what is loaded**: each file that the runner may load is one that is parsed and
is inside the folder, and the analysis reports. -/
structure Covers (py : PythonLib) (fs : FileSystem) (dir : Parts) (m : Doc) : Prop where
  parsed : ∀ path, MayLoad fs dir m path → ∃ file, Parses fs dir file ∧ SameFile fs path file
  inside : ∀ path, MayLoad fs dir m path → Inside fs dir path
  reports : ∃ r, analyze py fs dir m = .ok r

/-- The values of a document that the analysis can go through: sections are tables, hooks are texts
whose paths can be looked up, and skills are texts. -/
structure Shaped (fs : FileSystem) (dir : Parts) (m : Doc) : Prop where
  permissions : ∀ v, m.get "permissions" = some v → ∃ fields, v = .table fields
  hooks : ∀ v, m.get "hooks" = some v → ∃ fields, v = .table fields ∧
    ∀ f ∈ fields, ∃ rel, f.2 = .str rel ∧ ∃ found, fs.stat (joinPath dir rel) = .ok found
  skills : ∀ v, m.get "skills" = some v → ∃ fields, v = .table fields ∧
    ∀ keys, Doc.get fields "keys" = some keys →
      ∃ l, iterKeys keys = .ok l ∧ ∀ key ∈ l, ∃ text, key = .str text

/-- A place where the analysis looks: `plugin.py`, or a Python file right in the folder of the hooks. -/
def Conventional (dir path : Parts) : Prop :=
  path = dir ++ ["plugin.py"] ∨ ∃ name, isPython name = true ∧ path = dir ++ ["hooks", name]

/-- **A folder that can be covered.** -/
structure Coverable (py : PythonLib) (fs : FileSystem) (dir : Parts) (m : Doc) : Prop where
  shaped : Shaped fs dir m
  looked : (∃ found, fs.stat (dir ++ ["plugin.py"]) = .ok found) ∧
    ∃ hooks, fs.isDir (dir ++ ["hooks"]) = .ok hooks
  parses : ∀ path, Parses fs dir path → ∀ src, fs.text path = some src →
    ∀ e, py.parse src ≠ .error (.other e)
  declared : ∀ hook rel, hook ∈ hookLookups.map Prod.fst → ∀ fields, m.get "hooks" = some (.table fields) →
    Doc.get fields hook = some (.str rel) → Loads fs (joinPath dir rel) →
      ∃ file, Conventional dir file ∧ SameFile fs (joinPath dir rel) file
  inside : ∀ path, MayLoad fs dir m path → Inside fs dir path

/-! ## When the analysis reports -/

section Success

variable {ε α β σ : Type}

theorem bind_ok_iff {x : Except ε α} {f : α → Except ε β} :
    (∃ b, (x >>= f) = .ok b) ↔ ∃ a, x = .ok a ∧ ∃ b, f a = .ok b := by
  cases x with
  | error e => exact iff_of_false (fun ⟨_, h⟩ => by cases h) fun ⟨_, h, _⟩ => by cases h
  | ok a =>
    refine ⟨fun h => ⟨a, rfl, h⟩, ?_⟩
    rintro ⟨a', ⟨⟩, h⟩
    exact h

/-- A loop succeeds exactly where each of its rounds can, if that does not depend on what it has
collected. -/
theorem foldlM_ok_iff {f : σ → α → Except ε σ} {P : α → Prop}
    (hf : ∀ s a, (∃ s', f s a = .ok s') ↔ P a) (l : List α) :
    ∀ s, (∃ s', l.foldlM f s = .ok s') ↔ ∀ a ∈ l, P a := by
  induction l with
  | nil => exact fun s => ⟨fun _ _ h => (List.not_mem_nil h).elim, fun _ => ⟨s, rfl⟩⟩
  | cons a l ih =>
    intro s
    rw [List.foldlM_cons, bind_ok_iff, List.forall_mem_cons]
    constructor
    · rintro ⟨s', hs', h⟩
      exact ⟨(hf s a).1 ⟨s', hs'⟩, (ih s').1 h⟩
    · rintro ⟨ha, h⟩
      obtain ⟨s', hs'⟩ := (hf s a).2 ha
      exact ⟨s', hs', (ih s').2 h⟩

end Success

section Analysis

variable {py : PythonLib} {fs : FileSystem} {dir : Parts} {m : Doc}

theorem scanAt_ok_iff (s : FileScan) (path : Parts) :
    (∃ s', scanAt py fs s path = .ok s') ↔
      ∀ src, fs.text path = some src → ∀ e, py.parse src ≠ .error (.other e) := by
  unfold scanAt
  cases htext : fs.text path with
  | none => exact ⟨fun _ src h => (by cases h), fun _ => ⟨_, rfl⟩⟩
  | some src =>
    dsimp only
    cases hparse : py.parse src with
    | ok nodes =>
      refine iff_of_true ⟨_, rfl⟩ fun src' h e he => ?_
      cases h
      rw [hparse] at he
      cases he
    | error e =>
      cases e with
      | syntaxError msg line =>
        refine iff_of_true ⟨_, rfl⟩ fun src' h e he => ?_
        cases h
        rw [hparse] at he
        cases he
      | other e => exact iff_of_false (fun ⟨_, h⟩ => by cases h) fun h => h src rfl e hparse

theorem checkNetwork_ok_iff (s : FileScan) :
    (∃ s', checkNetwork m s = .ok s') ↔
      ∀ v, m.get "permissions" = some v → ∃ fields, v = .table fields := by
  unfold checkNetwork
  cases m.get "permissions" with
  | none => exact iff_of_true ⟨_, rfl⟩ fun v h => (by cases h)
  | some v =>
    cases v with
    | table fields => exact iff_of_true ⟨_, rfl⟩ fun v h => ⟨fields, (Option.some.inj h).symm⟩
    | _ =>
      refine iff_of_false (fun ⟨_, h⟩ => by cases h) fun h => ?_
      obtain ⟨fields, hfields⟩ := h _ rfl
      cases hfields

theorem checkHook_ok_iff (s : FileScan) (hook : String × Toml) :
    (∃ s', checkHook fs dir s hook = .ok s') ↔
      ∃ rel, hook.2 = .str rel ∧ ∃ found, fs.stat (joinPath dir rel) = .ok found := by
  unfold checkHook FileSystem.exists
  cases hook.2 with
  | str rel =>
    dsimp only
    cases hstat : fs.stat (joinPath dir rel) with
    | error e =>
      refine iff_of_false (fun ⟨_, h⟩ => by cases h) ?_
      rintro ⟨rel', ⟨⟩, found, hfound⟩
      rw [hstat] at hfound
      cases hfound
    | ok found =>
      refine iff_of_true ?_ ⟨rel, rfl, found, hstat⟩
      cases found <;> exact ⟨_, rfl⟩
  | _ => exact iff_of_false (fun ⟨_, h⟩ => by cases h) fun ⟨_, h, _⟩ => by cases h

theorem checkHooks_ok_iff (s : FileScan) :
    (∃ s', checkHooks fs dir m s = .ok s') ↔
      ∀ v, m.get "hooks" = some v → ∃ fields, v = .table fields ∧
        ∀ f ∈ fields, ∃ rel, f.2 = .str rel ∧ ∃ found, fs.stat (joinPath dir rel) = .ok found := by
  unfold checkHooks
  cases m.get "hooks" with
  | none => exact iff_of_true ⟨_, rfl⟩ fun v h => (by cases h)
  | some v =>
    cases v with
    | table fields =>
      dsimp only
      rw [foldlM_ok_iff checkHook_ok_iff fields s]
      constructor
      · rintro h _ ⟨⟩
        exact ⟨fields, rfl, h⟩
      · intro h
        obtain ⟨fields', hfields, h⟩ := h _ rfl
        cases hfields
        exact h
    | _ =>
      refine iff_of_false (fun ⟨_, h⟩ => by cases h) fun h => ?_
      obtain ⟨fields, hfields, -⟩ := h _ rfl
      cases hfields

theorem checkSkill_ok_iff (s : FileScan) (key : Toml) :
    (∃ s', checkSkill s key = .ok s') ↔ ∃ text, key = .str text := by
  cases key with
  | str text => exact iff_of_true ⟨_, rfl⟩ ⟨text, rfl⟩
  | _ => exact iff_of_false (fun ⟨_, h⟩ => by cases h) fun ⟨_, h⟩ => by cases h

theorem checkSkills_ok_iff (s : FileScan) :
    (∃ s', checkSkills m s = .ok s') ↔
      ∀ v, m.get "skills" = some v → ∃ fields, v = .table fields ∧
        ∀ keys, Doc.get fields "keys" = some keys →
          ∃ l, iterKeys keys = .ok l ∧ ∀ key ∈ l, ∃ text, key = .str text := by
  unfold checkSkills
  cases m.get "skills" with
  | none => exact iff_of_true ⟨_, rfl⟩ fun v h => (by cases h)
  | some v =>
    cases v with
    | table fields =>
      dsimp only
      cases hkeys : Doc.get fields "keys" with
      | none => exact iff_of_true ⟨s, rfl⟩ fun v h => ⟨fields, (Option.some.inj h).symm, by simp [hkeys]⟩
      | some keys =>
        rw [Option.getD_some]
        cases hiter : iterKeys keys with
        | error e =>
          refine iff_of_false (fun ⟨_, h⟩ => by cases h) fun h => ?_
          obtain ⟨fields', hfields, h⟩ := h _ rfl
          cases hfields
          obtain ⟨l, hl, -⟩ := h keys hkeys
          rw [hiter] at hl
          cases hl
        | ok l =>
          dsimp only
          rw [foldlM_ok_iff checkSkill_ok_iff l s]
          constructor
          · rintro h _ ⟨⟩
            refine ⟨fields, rfl, fun keys' hkeys' => ?_⟩
            cases hkeys.symm.trans hkeys'
            exact ⟨l, hiter, h⟩
          · intro h
            obtain ⟨fields', hfields, h⟩ := h _ rfl
            cases hfields
            obtain ⟨l', hl', h⟩ := h keys hkeys
            cases hiter.symm.trans hl'
            exact h
    | _ =>
      refine iff_of_false (fun ⟨_, h⟩ => by cases h) fun h => ?_
      obtain ⟨fields, hfields, -⟩ := h _ rfl
      cases hfields

theorem filesToScan_ok_iff :
    (∃ files, filesToScan fs dir = .ok files) ↔
      (∃ found, fs.stat (dir ++ ["plugin.py"]) = .ok found) ∧
        ∃ hooks, fs.isDir (dir ++ ["hooks"]) = .ok hooks := by
  unfold filesToScan FileSystem.exists
  cases fs.stat (dir ++ ["plugin.py"]) with
  | error e => exact iff_of_false (fun ⟨_, h⟩ => by cases h) fun ⟨⟨_, h⟩, _⟩ => by cases h
  | ok found =>
    cases fs.isDir (dir ++ ["hooks"]) with
    | error e => exact iff_of_false (fun ⟨_, h⟩ => by cases h) fun ⟨_, _, h⟩ => by cases h
    | ok hooks => exact iff_of_true ⟨_, rfl⟩ ⟨⟨found, rfl⟩, hooks, rfl⟩

/-- **When the analysis reports**: the two lookups do not raise, no file that is parsed raises anything
but an error of its syntax, and the document has the shape that the checks rely on. -/
theorem analyze_ok_iff :
    (∃ r, analyze py fs dir m = .ok r) ↔
      ((∃ found, fs.stat (dir ++ ["plugin.py"]) = .ok found) ∧
        ∃ hooks, fs.isDir (dir ++ ["hooks"]) = .ok hooks) ∧
      (∀ path, Parses fs dir path → ∀ src, fs.text path = some src →
        ∀ e, py.parse src ≠ .error (.other e)) ∧ Shaped fs dir m := by
  unfold analyze
  rw [bind_ok_iff, ← filesToScan_ok_iff]
  constructor
  · rintro ⟨files, hfiles, h⟩
    obtain ⟨s, hs, h⟩ := bind_ok_iff.1 h
    obtain ⟨s₁, hs₁, h⟩ := bind_ok_iff.1 h
    obtain ⟨s₂, hs₂, h⟩ := bind_ok_iff.1 h
    obtain ⟨s₃, hs₃, -⟩ := bind_ok_iff.1 h
    refine ⟨⟨files, hfiles⟩, ?_, ⟨?_, ?_, ?_⟩⟩
    · rintro path ⟨files', hfiles', hpath, -⟩
      cases hfiles.symm.trans hfiles'
      exact (foldlM_ok_iff scanAt_ok_iff files {}).1 ⟨s, hs⟩ path hpath
    · exact (checkNetwork_ok_iff s).1 ⟨s₁, hs₁⟩
    · exact (checkHooks_ok_iff s₁).1 ⟨s₂, hs₂⟩
    · exact (checkSkills_ok_iff s₂).1 ⟨s₃, hs₃⟩
  · rintro ⟨⟨files, hfiles⟩, hparses, hshaped⟩
    have hscan : ∀ path ∈ files, ∀ src, fs.text path = some src →
        ∀ e, py.parse src ≠ .error (.other e) := fun path hpath src hsrc =>
      hparses path ⟨files, hfiles, hpath, by rw [hsrc]; rfl⟩ src hsrc
    obtain ⟨s, hs⟩ := (foldlM_ok_iff scanAt_ok_iff files {}).2 hscan
    obtain ⟨s₁, hs₁⟩ := (checkNetwork_ok_iff s).2 hshaped.permissions
    obtain ⟨s₂, hs₂⟩ := (checkHooks_ok_iff s₁).2 hshaped.hooks
    obtain ⟨s₃, hs₃⟩ := (checkSkills_ok_iff s₂).2 hshaped.skills
    refine ⟨files, hfiles, bind_ok_iff.2 ⟨s, hs, bind_ok_iff.2 ⟨s₁, hs₁, bind_ok_iff.2 ⟨s₂, hs₂,
      bind_ok_iff.2 ⟨s₃, hs₃, _, rfl⟩⟩⟩⟩⟩

end Analysis

/-! ## The property, exactly -/

section Coverage

variable {py : PythonLib} {fs : FileSystem} {dir : Parts} {m : Doc}

theorem conventional_of_parses {path : Parts} (h : Parses fs dir path) : Conventional dir path := by
  obtain ⟨files, hfiles, hpath, -⟩ := h
  unfold filesToScan at hfiles
  split at hfiles
  · cases hfiles
  · cases hfiles
  · cases hfiles
    rcases List.mem_append.1 hpath with hpath | hpath
    · split at hpath
      · exact .inl (List.mem_singleton.1 hpath)
      · cases hpath
    · split at hpath
      · obtain ⟨name, hname, rfl⟩ := List.mem_map.1 hpath
        exact .inr ⟨name, (List.mem_filter.1 ((List.mem_insertionSort _).1 hname)).2, rfl⟩
      · cases hpath

/-- **What is at a conventional place, and can be read, is parsed.** -/
theorem parses_of_conventional (hlooked : ∃ files, filesToScan fs dir = .ok files) {path target : Parts}
    (hplace : Conventional dir path) (hstat : fs.stat path = .ok (some target))
    (hcontent : (fs.content target).isSome) : Parses fs dir path := by
  obtain ⟨files, hfiles⟩ := hlooked
  refine ⟨files, hfiles, ?_, by rw [FileSystem.text, hstat]; exact hcontent⟩
  unfold filesToScan at hfiles
  split at hfiles
  · cases hfiles
  · cases hfiles
  next plugin hooks hplugin hhooks =>
  cases hfiles
  rcases hplace with rfl | ⟨name, hname, rfl⟩
  · have hexists : fs.exists (dir ++ ["plugin.py"]) = .ok true := by
      rw [FileSystem.exists, hstat]
      rfl
    cases hplugin.symm.trans hexists
    exact List.mem_append_left _ (List.mem_singleton_self _)
  · have hdots : name ≠ ".." := by
      rintro rfl
      exact absurd hname (by decide)
    have hsplit : dir ++ ["hooks", name] = (dir ++ ["hooks"]) ++ [name] := by simp
    rw [hsplit] at hstat
    obtain ⟨hdir, hentry⟩ := fs.listed _ _ _ hdots hstat
    cases hhooks.symm.trans hdir
    refine List.mem_append_right _ ?_
    rw [if_pos rfl]
    exact List.mem_map.2 ⟨name, (List.mem_insertionSort _).2 (List.mem_filter.2 ⟨hentry, hname⟩), rfl⟩

theorem conventional_default {lookup : String × String} (h : lookup ∈ hookLookups) :
    Conventional dir (joinPath dir lookup.2) := by
  have hplace : ∀ l ∈ hookLookups, ¬ l.2.toList.head? = some '/' ∧
      ∃ name, isPython name = true ∧ relPath l.2 = ["hooks", name] := by
    have hall : ∀ l ∈ hookLookups, ¬ l.2.toList.head? = some '/' ∧
        isPython ((relPath l.2).getLastD "") = true ∧
        relPath l.2 = ["hooks", (relPath l.2).getLastD ""] := by decide
    exact fun l hl => ⟨(hall l hl).1, _, (hall l hl).2⟩
  obtain ⟨hrel, name, hname, hparts⟩ := hplace lookup h
  refine .inr ⟨name, hname, ?_⟩
  rw [joinPath, if_neg hrel, hparts]

theorem hookText_cases {hook default rel : String} (h : hookText m hook default = some rel) :
    rel = default ∨ ∃ fields, m.get "hooks" = some (.table fields) ∧
      Doc.get fields hook = some (.str rel) := by
  unfold hookText at h
  split at h
  · exact .inl (Option.some.inj h).symm
  · next fields hfields =>
    split at h
    · exact .inl (Option.some.inj h).symm
    · next rel' hrel =>
      cases h
      exact .inr ⟨fields, hfields, hrel⟩
    · cases h
  · cases h

theorem hookText_of_declared {hook default rel : String} {fields : List (String × Toml)}
    (hfields : m.get "hooks" = some (.table fields)) (hrel : Doc.get fields hook = some (.str rel)) :
    hookText m hook default = some rel := by
  unfold hookText
  rw [hfields]
  dsimp only
  rw [hrel]

/-- **The coverage of the analysis, exactly**: for every parser, file system, folder and document, the
analysis covers what the runner may load exactly where the folder can be covered. -/
theorem scan_covers_iff (py : PythonLib) (fs : FileSystem) (dir : Parts) (m : Doc) :
    Covers py fs dir m ↔ Coverable py fs dir m := by
  constructor
  · intro h
    obtain ⟨hlooked, hparses, hshaped⟩ := analyze_ok_iff.1 h.reports
    refine ⟨hshaped, hlooked, hparses, fun hook rel hhook fields hfields hrel hloads => ?_, h.inside⟩
    obtain ⟨lookup, hlookup, rfl⟩ := List.mem_map.1 hhook
    obtain ⟨file, hfile, hsame⟩ :=
      h.parsed _ (.hook hlookup (hookText_of_declared hfields hrel) hloads)
    exact ⟨file, conventional_of_parses hfile, hsame⟩
  · intro h
    have hfiles := filesToScan_ok_iff.2 h.looked
    have hself : ∀ path, Conventional dir path → Loads fs path →
        ∃ file, Parses fs dir file ∧ SameFile fs path file := by
      rintro path hplace ⟨-, q, hstat, hcontent⟩
      exact ⟨path, parses_of_conventional hfiles hplace hstat hcontent, q, hstat, hstat⟩
    refine ⟨fun path hpath => ?_, h.inside, analyze_ok_iff.2 ⟨h.looked, h.parses, h.shaped⟩⟩
    cases hpath with
    | plugin hloads => exact hself _ (.inl rfl) hloads
    | @hook lookup rel hlookup htext hloads =>
      rcases hookText_cases htext with rfl | ⟨fields, hfields, hrel⟩
      · exact hself _ (conventional_default hlookup) hloads
      · obtain ⟨file, hplace, target, hpath, hfile⟩ :=
          h.declared lookup.1 rel (List.mem_map_of_mem hlookup) fields hfields hrel hloads
        obtain ⟨-, q, hstat, hcontent⟩ := hloads
        cases hpath.symm.trans hstat
        exact ⟨file, parses_of_conventional hfiles hplace hfile hcontent, _, hstat, hfile⟩

end Coverage

/-! ## A hook outside the folder -/

/-- The path without `..`. -/
def normalize (path : Parts) : Parts :=
  path.foldl (fun done seg => if seg = ".." then done.dropLast else done ++ [seg]) []

theorem normalize_concat {d : Parts} {n : String} (hn : n ≠ "..") :
    normalize (d ++ [n]) = normalize d ++ [n] := by
  rw [normalize, List.foldl_append, List.foldl_cons, if_neg hn]
  rfl

/-- A file system without links, that never raises. -/
def plainFs (files : List (Parts × String)) : FileSystem where
  stat p := .ok (if files.any fun f => (normalize p).isPrefixOf f.1 then some (normalize p) else none)
  isDir p := .ok (files.any fun f => (normalize p).isPrefixOf f.1 && decide (f.1 ≠ normalize p))
  entries p := files.filterMap fun f =>
    if (normalize p).isPrefixOf f.1 then (f.1.drop (normalize p).length).head? else none
  content p := (files.find? fun f => f.1 = p).map Prod.snd
  listed d n q hn h := by
    have hany : (files.any fun f => (normalize (d ++ [n])).isPrefixOf f.1) = true := by
      by_contra hnone
      rw [if_neg hnone] at h
      cases h
    obtain ⟨f, hf, hprefix⟩ := List.any_eq_true.1 hany
    rw [normalize_concat hn] at hprefix
    obtain ⟨rest, hrest⟩ := List.isPrefixOf_iff_prefix.1 hprefix
    have hd : (normalize d).isPrefixOf f.1 = true := by
      rw [List.isPrefixOf_iff_prefix, ← hrest, List.append_assoc]
      exact List.prefix_append _ _
    constructor
    · refine congrArg Except.ok (List.any_eq_true.2 ⟨f, hf, ?_⟩)
      rw [hd, ← hrest]
      simp
    · refine List.mem_filterMap.2 ⟨f, hf, ?_⟩
      rw [if_pos hd, ← hrest, List.append_assoc, List.drop_left]
      rfl

def twoFiles : FileSystem :=
  plainFs [(["plugins", "momentum", "plugin.py"], ""), (["plugins", "shared", "hook.py"], "")]

def climbingManifest : Doc := [("hooks", .table [("on_cycle", .str "../shared/hook.py")])]

def emptyParser : PythonLib := ⟨fun _ => .ok [], fun _ => ""⟩

/-- **A hook outside the folder** is loaded, and is not scanned. -/
theorem climbing_hook : ¬ ∀ (py : PythonLib) (fs : FileSystem) (dir : Parts) (m : Doc),
    Covers py fs dir m := by
  intro hall
  have hcovers := hall emptyParser twoFiles ["plugins", "momentum"] climbingManifest
  have hjoin : joinPath ["plugins", "momentum"] "../shared/hook.py" =
      ["plugins", "momentum", "..", "shared", "hook.py"] := by decide
  have hstat : twoFiles.stat ["plugins", "momentum", "..", "shared", "hook.py"] =
      .ok (some ["plugins", "shared", "hook.py"]) := rfl
  have hloads : Loads twoFiles (joinPath ["plugins", "momentum"] "../shared/hook.py") := by
    rw [hjoin]
    exact ⟨by decide, _, hstat, by decide⟩
  have hlookup : ("on_cycle", "hooks/cycle.py") ∈ hookLookups := List.mem_cons_self
  obtain ⟨base, target, hbase, htarget, hinside⟩ := hcovers.inside _ (.hook hlookup rfl hloads)
  rw [hjoin] at htarget
  cases hstat.symm.trans htarget
  have hdir : twoFiles.stat ["plugins", "momentum"] = .ok (some ["plugins", "momentum"]) := rfl
  cases hdir.symm.trans hbase
  exact absurd hinside (by decide)

end NeoTrader.Scan
