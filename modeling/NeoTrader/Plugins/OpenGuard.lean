import Mathlib.Data.List.Basic
import Mathlib.Data.List.SplitOn
import Mathlib.Data.Nat.Notation

/-!
# The guard of the sandbox on open files

In strict isolation the sandbox puts its own `open` in the place of the one of the language. It looks
at texts, at bytes and at the paths of `pathlib`, and hands all else on.

* `FileArg`: what `open` takes for a file; a path of `pathlib` has a text of its own, and the one that
  it gives to the system, which a subclass may choose;
* `tryRoots`, **`restrictedOpen`**, `apply`: the guard;
* **`Guarded`**, **`open_guarded`**: a file is opened to be read and under a root only, and when that is
  so;
* **`reads_and_writes`**: a mode that also writes.

The file system answers with the parts of a resolved path; the `open` of the language and the file
system are parameters, and an outcome counts how often that `open` was called.
-/

namespace NeoTrader.Sandbox

/-! ## Modes -/

/-- A mode that `open` accepts: at most one of each character, one of `r`, `w`, `a` and `x`, and not
both `b` and `t`. -/
def acceptsMode (mode : List Char) : Bool :=
  (mode.all fun c => c ∈ ['r', 'w', 'a', 'x', 'b', 't', '+']) && decide mode.Nodup &&
    (mode.countP fun c => c ∈ ['r', 'w', 'a', 'x']) == 1 && decide ¬('b' ∈ mode ∧ 't' ∈ mode)

structure Mode where
  chars : List Char
  accepted : acceptsMode chars = true

/-- A mode with which nothing is created or overwritten. -/
def keepsFile (mode : List Char) : Prop := 'w' ∉ mode ∧ 'a' ∉ mode ∧ 'x' ∉ mode

instance (mode : List Char) : Decidable (keepsFile mode) := by
  unfold keepsFile
  infer_instance

/-- A mode whose handle is not writable. -/
def readsOnly (mode : List Char) : Prop := keepsFile mode ∧ '+' ∉ mode

instance (mode : List Char) : Decidable (readsOnly mode) := by
  unfold readsOnly
  infer_instance

/-! ## Files -/

/-- What `open` takes for a file, other than a descriptor. Bytes are the text that they decode to. -/
inductive FileArg
  | str (text : String)
  | bytes (text : String)
  | path (own text : String)
  | pathLike (text : String)

/-- What the system opens. -/
def FileArg.fspath : FileArg → String
  | .str text | .bytes text | .path _ text | .pathLike text => text

/-- An exception. `value` is one that `except ValueError` catches. -/
inductive PyError
  | permission (message : String)
  | value (message : String)
  | other (name message : String)

/-- The parts of a resolved path. -/
abbrev Parts : Type := List String

/-- What the guard asks of its surroundings: `Path(text).resolve()`, and the text of a value. -/
structure PyEnv where
  resolve : String → Except PyError Parts
  repr : FileArg → String

/-- The `open` of the language, whose handles are `H`. -/
abbrev Open (H : Type) : Type := FileArg → List Char → Except PyError H

/-- An outcome, with the number of calls of the `open` of the language. -/
abbrev Outcome (H : Type) : Type := ℕ × Except PyError H

variable {H : Type}

/-! ## The guard -/

/-- `isinstance(file, (str, Path, bytes))`. -/
def FileArg.isChecked : FileArg → Bool
  | .pathLike _ => false
  | _ => true

/-- `Path(file)`. -/
def FileArg.toPath : FileArg → Except PyError String
  | .str text | .pathLike text => .ok text
  | .path own _ => .ok own
  | .bytes _ => .error (.other "TypeError" "argument should be a str or an os.PathLike object")

/-- `str(file)`. -/
def FileArg.shown (env : PyEnv) : FileArg → String
  | .str text => text
  | .path own _ => own
  | file => env.repr file

/-- The roots one after another; a `ValueError` goes on to the next one. -/
def tryRoots (env : PyEnv) (original : Open H) (file : FileArg) (mode : List Char) (target : Parts) :
    List Parts → Outcome H
  | [] => (0, .error (.permission (s!"[sandbox] open('{file.shown env}') denied — path is outside " ++
      "allowed roots under SANDBOX_STRICT=true.")))
  | root :: rest =>
    if root <+: target then
      match original file mode with
      | .error (.value _) =>
        let (calls, outcome) := tryRoots env original file mode target rest
        (calls + 1, outcome)
      | outcome => (1, outcome)
    else tryRoots env original file mode target rest

/-- **The `open` of the guard.** -/
def restrictedOpen (env : PyEnv) (roots : List Parts) (original : Open H) (file : FileArg)
    (mode : List Char) : Outcome H :=
  if file.isChecked then
    match file.toPath.bind env.resolve with
    | .error _ => (0, .error (.permission s!"[sandbox] Cannot resolve path: {env.repr file}"))
    | .ok target =>
      if keepsFile mode then tryRoots env original file mode target roots
      else
        (0, .error (.permission (s!"[sandbox] open('{file.shown env}', '{String.ofList mode}') denied " ++
          "— writes are not permitted in the sandbox.")))
  else (1, original file mode)

/-- The roots are resolved when the guard is installed. -/
def resolveRoots (env : PyEnv) (allowedRoots : List String) : Except PyError (List Parts) :=
  allowedRoots.mapM env.resolve

/-- What `open` is after the isolation is applied. -/
def apply (strict : Bool) (env : PyEnv) (allowedRoots : List String) (original : Open H) :
    Except PyError (PyEnv → FileArg → List Char → Outcome H) :=
  if strict then
    (resolveRoots env allowedRoots).map fun roots env' => restrictedOpen env' roots original
  else .ok fun _ file mode => (1, original file mode)

/-! ## What may be opened -/

/-- The text resolves to a path under one of the roots. -/
def UnderRoot (env : PyEnv) (roots : List Parts) (text : String) : Prop :=
  ∃ target, env.resolve text = .ok target ∧ ∃ root ∈ roots, root <+: target

def MayOpen (env : PyEnv) (roots : List Parts) (file : FileArg) (mode : List Char) : Prop :=
  readsOnly mode ∧ UnderRoot env roots file.fspath

/-- **A guarded call**: it answers with a handle only where the file may be opened, and is denied
elsewhere, before the file is opened. -/
structure Guarded (env : PyEnv) (roots : List Parts) (file : FileArg) (mode : List Char)
    (outcome : Outcome H) : Prop where
  opens : ∀ handle, outcome.2 = .ok handle → MayOpen env roots file mode
  denies : ¬ MayOpen env roots file mode → outcome.1 = 0 ∧ ∃ m, outcome.2 = .error (.permission m)

/-- The calls that the guard takes care of. A path that it checks and hands on must not be written to,
and must be the one that is opened; what it does not check must be all right by itself. -/
def Covered (env : PyEnv) (roots : List Parts) (mode : List Char) : FileArg → Prop
  | .str text => UnderRoot env roots text → keepsFile mode → '+' ∉ mode
  | .bytes _ => True
  | .path own text => UnderRoot env roots own → keepsFile mode →
      '+' ∉ mode ∧ UnderRoot env roots text
  | .pathLike text => readsOnly mode ∧ UnderRoot env roots text

/-! ## The property, exactly -/

section Guard

variable {env : PyEnv} {roots : List Parts} {original : Open H} {file : FileArg} {mode : List Char}

theorem tryRoots_outside {target : Parts} :
    ∀ {roots : List Parts}, (¬ ∃ root ∈ roots, root <+: target) →
      (tryRoots env original file mode target roots).1 = 0 ∧
        ∃ m, (tryRoots env original file mode target roots).2 = .error (.permission m)
  | [], _ => ⟨rfl, _, rfl⟩
  | root :: rest, h => by
    have hroot : ¬ root <+: target := fun hr => h ⟨root, List.mem_cons_self, hr⟩
    rw [tryRoots, if_neg hroot]
    exact tryRoots_outside fun ⟨r, hr, hpre⟩ => h ⟨r, List.mem_cons_of_mem _ hr, hpre⟩

theorem tryRoots_under {target : Parts} :
    ∀ {roots : List Parts}, (∃ root ∈ roots, root <+: target) →
      (tryRoots env original file mode target roots).1 ≠ 0
  | [], h => by
    obtain ⟨root, hroot, -⟩ := h
    cases hroot
  | root :: rest, h => by
    rw [tryRoots]
    by_cases hroot : root <+: target
    · rw [if_pos hroot]
      split
      · exact Nat.succ_ne_zero _
      · exact Nat.one_ne_zero
    · rw [if_neg hroot]
      refine tryRoots_under ?_
      obtain ⟨r, hr, hpre⟩ := h
      rcases List.mem_cons.1 hr with rfl | hr
      · exact absurd hpre hroot
      · exact ⟨r, hr, hpre⟩

theorem guarded_of_denied {outcome : Outcome H} (hcalls : outcome.1 = 0)
    (hdenied : ∃ m, outcome.2 = .error (.permission m)) : Guarded env roots file mode outcome := by
  refine ⟨fun handle h => ?_, fun _ => ⟨hcalls, hdenied⟩⟩
  obtain ⟨m, hm⟩ := hdenied
  rw [hm] at h
  cases h

theorem guarded_iff_of_called {outcome : Outcome H} (hcalls : outcome.1 ≠ 0) :
    Guarded env roots file mode outcome ↔ MayOpen env roots file mode := by
  refine ⟨fun h => ?_, fun h => ⟨fun _ _ => h, fun hnot => absurd h hnot⟩⟩
  by_contra hnot
  exact hcalls (h.denies hnot).1

theorem guarded_checked (text : String) (hchecked : file.isChecked = true)
    (hpath : file.toPath = .ok text) :
    Guarded env roots file mode (restrictedOpen env roots original file mode) ↔
      (UnderRoot env roots text → keepsFile mode → MayOpen env roots file mode) := by
  have hbind : file.toPath.bind env.resolve = env.resolve text := by
    rw [hpath]
    rfl
  unfold restrictedOpen
  rw [if_pos hchecked, hbind]
  cases hresolve : env.resolve text with
  | error e =>
    refine iff_of_true (guarded_of_denied rfl ⟨_, rfl⟩) fun ⟨target, htarget, _⟩ => ?_
    rw [hresolve] at htarget
    cases htarget
  | ok target =>
    dsimp only
    by_cases hkeeps : keepsFile mode
    · rw [if_pos hkeeps]
      by_cases hunder : ∃ root ∈ roots, root <+: target
      · rw [guarded_iff_of_called (tryRoots_under hunder)]
        exact ⟨fun h _ _ => h, fun h => h ⟨target, hresolve, hunder⟩ hkeeps⟩
      · obtain ⟨hcalls, hdenied⟩ := tryRoots_outside hunder
        refine iff_of_true (guarded_of_denied hcalls hdenied) fun ⟨target', htarget, hroot⟩ => ?_
        cases hresolve.symm.trans htarget
        exact absurd hroot hunder
    · rw [if_neg hkeeps]
      exact iff_of_true (guarded_of_denied rfl ⟨_, rfl⟩) fun _ h => absurd h hkeeps

theorem guarded_bytes (text : String) :
    Guarded env roots (.bytes text) mode (restrictedOpen env roots original (.bytes text) mode) :=
  guarded_of_denied rfl ⟨_, rfl⟩

theorem guarded_restrictedOpen (env : PyEnv) (roots : List Parts) (original : Open H) (file : FileArg)
    (mode : List Char) :
    Guarded env roots file mode (restrictedOpen env roots original file mode) ↔
      Covered env roots mode file := by
  cases file with
  | str text =>
    rw [guarded_checked text rfl rfl]
    refine ⟨fun h hunder hkeeps => (h hunder hkeeps).1.2, fun h hunder hkeeps => ?_⟩
    exact ⟨⟨hkeeps, h hunder hkeeps⟩, hunder⟩
  | bytes text => exact iff_of_true (guarded_bytes text) trivial
  | path own text =>
    rw [guarded_checked own rfl rfl]
    refine ⟨fun h hunder hkeeps => ?_, fun h hunder hkeeps => ?_⟩
    · exact ⟨(h hunder hkeeps).1.2, (h hunder hkeeps).2⟩
    · exact ⟨⟨hkeeps, (h hunder hkeeps).1⟩, (h hunder hkeeps).2⟩
  | pathLike text => exact guarded_iff_of_called Nat.one_ne_zero

end Guard

/-- **The guard, exactly**: for every file system, roots, `open` of the language, file and mode that
`open` accepts, a call in strict isolation is guarded exactly where it is covered. -/
theorem open_guarded (env₀ env : PyEnv) (allowedRoots : List String) (roots : List Parts)
    (hroots : resolveRoots env₀ allowedRoots = .ok roots) (original : Open H) (file : FileArg)
    (mode : Mode) :
    (∃ opener, apply true env₀ allowedRoots original = .ok opener ∧
      Guarded env roots file mode.chars (opener env file mode.chars)) ↔
    Covered env roots mode.chars file := by
  have happly : apply true env₀ allowedRoots original =
      .ok fun env' => restrictedOpen env' roots original := by
    rw [apply, if_pos rfl, hroots]
    rfl
  rw [happly, ← guarded_restrictedOpen env roots original file mode.chars]
  constructor
  · rintro ⟨opener, hopener, h⟩
    cases hopener
    exact h
  · exact fun h => ⟨_, rfl, h⟩

/-! ## Two calls -/

/-- The parts of a path, between its slashes. -/
def partsOf (text : String) : Parts := (text.toList.splitOn '/').map String.ofList

/-- A file system without links: a path is resolved by its text. -/
def plainEnv : PyEnv where
  resolve text := .ok (partsOf text)
  repr _ := ""

theorem plain_roots : resolveRoots plainEnv ["/plugins"] = .ok [["", "plugins"]] :=
  congrArg (fun parts => Except.ok [parts])
    (by decide : partsOf "/plugins" = ["", "plugins"])

def openAny : Open String := fun file _ => .ok file.fspath

def readMode : Mode := ⟨['r'], by decide⟩

def updateMode : Mode := ⟨['r', '+'], by decide⟩

/-- **A call that is guarded.** -/
theorem read_guarded : ∃ opener, apply true plainEnv ["/plugins"] openAny = .ok opener ∧
    Guarded plainEnv [["", "plugins"]] (.str "/plugins/a/plugin.py") readMode.chars
      (opener plainEnv (.str "/plugins/a/plugin.py") readMode.chars) :=
  (open_guarded plainEnv plainEnv ["/plugins"] [["", "plugins"]] plain_roots openAny
    (.str "/plugins/a/plugin.py") readMode).2 fun _ _ => by decide

/-- **A mode that also writes** is handed on, and so is a path of another kind. -/
theorem reads_and_writes : ¬ ∀ (env₀ env : PyEnv) (allowedRoots : List String) (roots : List Parts)
    (original : Open String) (file : FileArg) (mode : Mode),
    resolveRoots env₀ allowedRoots = .ok roots →
      ∃ opener, apply true env₀ allowedRoots original = .ok opener ∧
        Guarded env roots file mode.chars (opener env file mode.chars) := by
  intro hall
  obtain ⟨opener, hopener, hguarded⟩ := hall plainEnv plainEnv ["/plugins"] [["", "plugins"]] openAny
    (.str "/plugins/a/plugin.py") updateMode plain_roots
  have happly : apply true plainEnv ["/plugins"] openAny =
      .ok fun env' => restrictedOpen env' [["", "plugins"]] openAny := by
    rw [apply, if_pos rfl, plain_roots]
    rfl
  cases happly.symm.trans hopener
  have hcovered := (guarded_restrictedOpen _ _ _ _ _).1 hguarded
  have hparts : partsOf "/plugins/a/plugin.py" = ["", "plugins", "a", "plugin.py"] := by
    decide
  have hunder : UnderRoot plainEnv [["", "plugins"]] "/plugins/a/plugin.py" :=
    ⟨_, congrArg Except.ok hparts, ["", "plugins"], by simp, by decide⟩
  exact absurd (hcovered hunder (by decide)) (by decide)

end NeoTrader.Sandbox
