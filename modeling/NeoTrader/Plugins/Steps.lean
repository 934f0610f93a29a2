import NeoTrader.Plugins.Service

/-!
# What the plugin service does

* `PluginVisit`, **`PluginRun`**: requests one after the other;
* `PluginWorld.manifest?`, `PluginWorld.isActive`, `Analysed`: what the service looks at, and worlds
  that differ by the results of an analysis only;
* one lemma for each function of the service: **`wp_activate`**, **`wp_deactivate`**, `wp_remove`,
  **`wp_update`**.
-/

namespace NeoTrader

open Await Prog

/-- A request to the plugin service, and what became of it. -/
abbrev PluginVisit : Type := Visit pluginSig PluginWorld PluginEnv PluginRequest Unit

/-- **Requests to the plugin service**, one after the other. -/
abbrev PluginRun (lib : PluginLib) (start : PluginWorld) (l : List PluginVisit) (w : PluginWorld) :
    Prop := Session (S := pluginSig) handlePlugin (PluginRequest.body lib) start l w

/-- Requests with one environment each. -/
def servePlugins (lib : PluginLib) (requests : List (PluginRequest × PluginEnv)) (w : PluginWorld) :
    Option (List PluginVisit × PluginWorld) :=
  serve (S := pluginSig) handlePlugin (PluginRequest.body lib) requests w

/-- No statement of the database fails. -/
def PluginEnv.Answers (e : PluginEnv) : Prop := ∀ op : PluginOp, op.isStatement → e.failure op = none

def MayFail (A : PluginEnv → Prop) (op : PluginOp) : Prop := ∃ e, A e ∧ (e.failure op).isSome

theorem not_mayFail {A : PluginEnv → Prop} (hA : ∀ e, A e → e.Answers) {op : PluginOp}
    (hop : op.isStatement) : ¬ MayFail A op := by
  rintro ⟨e, he, hfail⟩
  rw [hA e he op hop] at hfail
  cases hfail

section Operations

variable {A : PluginEnv → Prop} {w : PluginWorld} {op : PluginOp}
  {Q : Except Err op.Ans → PluginWorld → Prop}

theorem wp_commit {x : Except Err (op.Ans × PluginWorld)}
    (hop : ∀ e, handlePlugin e op w = commit (e.failure op) w x)
    (hok : ∀ a w', x = .ok (a, w') → Q (.ok a) w')
    (herr : ∀ err, x = .error err ∨ MayFail A op → Q (.error err) w) :
    (issue op).Wp (pluginSem A) (fun _ _ => True) Q w := by
  refine wp_perform.2 ⟨trivial, ?_⟩
  rintro r w' ⟨e, he, hr⟩
  rw [hop] at hr
  cases hf : e.failure op with
  | some err =>
    rw [hf] at hr
    obtain ⟨rfl, rfl⟩ := Prod.mk.inj hr
    exact herr err (.inr ⟨e, he, by rw [hf]; rfl⟩)
  | none =>
    rw [hf] at hr
    cases x with
    | error err =>
      obtain ⟨rfl, rfl⟩ := Prod.mk.inj hr
      exact herr err (.inl rfl)
    | ok y =>
      obtain ⟨rfl, rfl⟩ := Prod.mk.inj hr
      exact hok y.1 y.2 rfl

theorem wp_read {a : op.Ans} (hop : ∀ e, handlePlugin e op w = (.ok a, w)) (hQ : Q (.ok a) w) :
    (issue op).Wp (pluginSem A) (fun _ _ => True) Q w := by
  refine wp_perform.2 ⟨trivial, ?_⟩
  rintro r w' ⟨e, -, hr⟩
  rw [hop] at hr
  obtain ⟨rfl, rfl⟩ := Prod.mk.inj hr
  exact hQ

theorem wp_sandbox {res : PluginEnv → op.Ans}
    (hop : ∀ e, handlePlugin e op w = commit (e.failure op) w (.ok (res e, w)))
    (hQ : ∀ r, Q r w) : (issue op).Wp (pluginSem A) (fun _ _ => True) Q w := by
  refine wp_perform.2 ⟨trivial, ?_⟩
  rintro r w' ⟨e, -, hr⟩
  rw [hop] at hr
  cases hf : e.failure op <;> rw [hf] at hr <;> obtain ⟨-, rfl⟩ := Prod.mk.inj hr <;> exact hQ r

end Operations

/-! ## What the service looks at -/

def PluginWorld.directory? (w : PluginWorld) (installedPath : Option String) : Option Directory :=
  installedPath.bind w.directories.get?

def PluginWorld.manifest? (lib : PluginLib) (w : PluginWorld) (p : Plugin) : Option Manifest :=
  readManifest lib (w.directory? p.installedPath)

def PluginWorld.isActive (w : PluginWorld) (id : String) : Prop :=
  ∃ p, w.plugins.get? id = some p ∧ p.active = true

/-- The row of a plugin without the results of its analyses. -/
def Plugin.unanalysed (p : Plugin) : Plugin := { p with scanResult := none, smokeTestResult := none }

/-- **Only results of analyses differ.** -/
def Analysed (w w' : PluginWorld) : Prop :=
  w'.directories = w.directories ∧ w'.audit = w.audit ∧
    ∀ id, (w'.plugins.get? id).map Plugin.unanalysed = (w.plugins.get? id).map Plugin.unanalysed

theorem Analysed.refl (w : PluginWorld) : Analysed w w := ⟨rfl, rfl, fun _ => rfl⟩

theorem PluginWorld.get?_patched (w : PluginWorld) (id id' : String) (patch : PluginPatch) :
    (w.patched id patch).plugins.get? id' =
      if id' = id then (w.plugins.get? id').map patch.apply else w.plugins.get? id' := by
  rw [PluginWorld.patched, Store.Indexed.get?_update]

theorem analysed_patched {w : PluginWorld} {id : String} {patch : PluginPatch}
    (hpatch : ∀ p, (patch.apply p).unanalysed = p.unanalysed) : Analysed w (w.patched id patch) := by
  refine ⟨rfl, rfl, fun id' => ?_⟩
  rw [w.get?_patched]
  split
  · rw [Option.map_map]
    exact congrArg (fun f => (w.plugins.get? id').map f) (funext hpatch)
  · rfl

/-! ## The functions of the service -/

section Service

variable {lib : PluginLib} {A : PluginEnv → Prop} {w : PluginWorld} {id : String}

theorem wp_findPlugin {Q : Except Err Plugin → PluginWorld → Prop}
    (hsome : ∀ p, w.plugins.get? id = some p → Q (.ok p) w)
    (herr : ∀ err, w.plugins.get? id = none ∨ MayFail A (.pluginFindUnique id) → Q (.error err) w) :
    (findPlugin id).Wp (pluginSem A) (fun _ _ => True) Q w := by
  refine (wp_bind _ _).2 (wp_commit (fun _ => rfl) ?_ ?_)
  · rintro a w' ⟨⟩
    cases hp : w.plugins.get? id with
    | none => exact herr _ (.inl hp)
    | some p => exact hsome p hp
  · rintro err (⟨⟨⟩⟩ | hfail)
    exact herr err (.inr hfail)

theorem wp_installedDirectory (installedPath : Option String) :
    (installedDirectory installedPath).Wp (pluginSem A) (fun _ _ => True)
      (fun r w' => r = .ok (w.directory? installedPath) ∧ w' = w) w := by
  cases installedPath with
  | none => exact ⟨rfl, rfl⟩
  | some path => exact wp_read (fun _ => rfl) ⟨rfl, rfl⟩

theorem wp_getManifest (p : Plugin) {Q : Except Err (Option Manifest) → PluginWorld → Prop}
    (hQ : Q (.ok (w.manifest? lib p)) w) :
    (getManifest lib p.installedPath).Wp (pluginSem A) (fun _ _ => True) Q w := by
  refine wp_bind_of (wp_installedDirectory p.installedPath) ?_ ?_
  · rintro d w' ⟨hd, rfl⟩
    cases hd
    exact hQ
  · rintro err w' ⟨herr, -⟩
    cases herr

theorem wp_storeAnalysis {α : Type} {patch : PluginPatch} {f : Except Err Plugin → PluginProg α}
    {Q : Except Err α → PluginWorld → Prop}
    (hpatch : ∀ p, (patch.apply p).unanalysed = p.unanalysed)
    (hf : ∀ r w', Analysed w w' → (f r).Wp (pluginSem A) (fun _ _ => True) Q w') :
    ((issue (.pluginUpdate id patch)).attempt >>= f).Wp (pluginSem A) (fun _ _ => True) Q w := by
  refine (wp_bind _ _).2 ((wp_attempt _ _).2 (wp_commit (fun _ => rfl) ?_ ?_))
  · intro p w' hx
    refine hf _ _ ?_
    split at hx
    · cases hx
    · cases hx
      exact analysed_patched hpatch
  · exact fun err _ => hf _ _ (.refl w)

theorem wp_smokeTestOnActivate :
    (smokeTestOnActivate id).Wp (pluginSem A) (fun _ _ => True)
      (fun r w' => r = .ok () ∧ Analysed w w') w := by
  refine (wp_bind _ _).2 ((wp_attempt _ _).2 (wp_sandbox (fun _ => rfl) fun r => ?_))
  cases r with
  | error err => exact ⟨rfl, .refl _⟩
  | ok res => exact wp_storeAnalysis (fun _ => rfl) fun _ _ h => ⟨rfl, h⟩

/-! ### Activation -/

/-- A requirement that is not active. -/
def PluginWorld.missing (w : PluginWorld) (dep : String) : List String :=
  if ((w.plugins.get? (depId dep)).filter Plugin.active).isNone then [depId dep] else []

theorem PluginWorld.missing_eq_nil {dep : String} : w.missing dep = [] ↔ w.isActive (depId dep) := by
  unfold PluginWorld.missing PluginWorld.isActive
  cases hp : w.plugins.get? (depId dep) with
  | none => simp
  | some p => cases ha : p.active <;> simp [Option.filter, ha]

theorem wp_missingDependencies (l : List String) :
    (missingDependencies l).Wp (pluginSem A) (fun _ _ => True)
      (fun r w' => w' = w ∧ ∀ missing, r = .ok missing → missing = l.flatMap w.missing) w := by
  have hround : ∀ dep ∈ l, (do
      let found ← issue (.pluginFindActive (depId dep))
      return if found.isNone then [depId dep] else [] : PluginProg (List String)).Wp (pluginSem A)
        (fun _ _ => True) (fun r w' => w' = w ∧ ∀ a, r = .ok a → a = w.missing dep) w := by
    intro dep _
    refine (wp_bind _ _).2 (wp_commit (fun _ => rfl) ?_ fun _ _ => ⟨rfl, nofun⟩)
    rintro found w' ⟨⟩
    refine ⟨rfl, fun a ha => ?_⟩
    cases ha
    rfl
  refine wp_bind_of (wp_collect_map hround) ?_ fun _ _ h => ⟨h.1, nofun⟩
  rintro missing w' ⟨rfl, hmissing⟩
  refine ⟨rfl, fun as has => ?_⟩
  cases has
  rw [hmissing missing rfl, List.flatMap_def]

/-- What a plugin requires, in a world: the ids without their versions. -/
def PluginWorld.requirements (lib : PluginLib) (w : PluginWorld) (p : Plugin) : List String :=
  (allRequires p (w.manifest? lib p)).map depId

/-- **What an activation does**: it is refused, or everything that the plugin requires is active and
the plugin is switched on. -/
inductive ActivateStep (lib : PluginLib) (A : PluginEnv → Prop) (id : String) (w : PluginWorld) :
    Except Err Plugin → PluginWorld → Prop
  | refused {err w'} (h : Analysed w w') : ActivateStep lib A id w (.error err) w'
  | activated {r p w₁} (hp : w.plugins.get? id = some p)
      (hdeps : ∀ dep ∈ w.requirements lib p, w.isActive dep) (h : Analysed w w₁)
      (hr : r.isOk ∨ MayFail A (.pluginFindUnique id)) :
      ActivateStep lib A id w r (w₁.patched id (.active true))

theorem wp_activate :
    (activate lib id).Wp (pluginSem A) (fun _ _ => True) (ActivateStep lib A id w) w := by
  refine (wp_bind _ _).2 (wp_findPlugin (fun p hp => ?_) fun _ _ => .refused (.refl w))
  refine (wp_bind _ _).2 (wp_getManifest p ?_)
  refine wp_bind_of (wp_missingDependencies (allRequires p (w.manifest? lib p))) ?_ ?_
  · rintro missing w' ⟨rfl, hmissing⟩
    refine wp_ite (fun _ => .refused (.refl w')) fun hnone => ?_
    replace hnone := not_ne_iff.1 hnone
    rw [hmissing missing rfl, List.flatMap_eq_nil_iff] at hnone
    have hdeps : ∀ dep ∈ w'.requirements lib p, w'.isActive dep :=
      List.forall_mem_map.2 fun dep hdep => PluginWorld.missing_eq_nil.1 (hnone dep hdep)
    refine wp_bind_of wp_smokeTestOnActivate ?_ ?_
    · rintro _ w₁ ⟨-, h⟩
      refine (wp_bind _ _).2 (wp_commit (fun _ => rfl) ?_ fun _ _ => .refused h)
      intro p₁ w₂ hx
      split at hx
      · cases hx
      · next p₂ hp₂ =>
        cases hx
        refine wp_findPlugin (fun _ _ => .activated hp hdeps h (.inl rfl)) ?_
        rintro err (hgone | hfail)
        · rw [w₁.get?_patched, if_pos rfl, hp₂] at hgone
          cases hgone
        · exact .activated hp hdeps h (.inr hfail)
    · rintro err w₁ ⟨herr, -⟩
      cases herr
  · rintro err w' ⟨rfl, -⟩
    exact .refused (.refl w')

/-! ### Deactivation and removal -/

def PluginWorld.named (lib : PluginLib) (w : PluginWorld) (id : String) : Prop :=
  ∃ q ∈ w.plugins.rows, q.active = true ∧ q.id ≠ id ∧ manifestNames (w.manifest? lib q) id = true

theorem wp_findActiveDependents :
    (findActiveDependents lib id).Wp (pluginSem A) (fun _ _ => True)
      (fun r w' => w' = w ∧ ∀ l, r = .ok l → (l = [] ↔ ¬ w.named lib id)) w := by
  refine (wp_bind _ _).2 (wp_commit (fun _ => rfl) ?_ fun _ _ => ⟨rfl, nofun⟩)
  rintro active w' ⟨⟩
  have hround : ∀ p ∈ (w.plugins.rows.filter Plugin.active).filter (fun p => p.id ≠ id),
      (do
        let manifest ← getManifest lib p.installedPath
        return if manifestNames manifest id then [p.id] else [] : PluginProg (List String)).Wp
        (pluginSem A) (fun _ _ => True) (fun r w' => w' = w ∧ ∀ a, r = .ok a →
          a = if manifestNames (w.manifest? lib p) id then [p.id] else []) w := by
    intro p _
    refine (wp_bind _ _).2 (wp_getManifest p ⟨rfl, fun a ha => ?_⟩)
    cases ha
    rfl
  refine wp_bind_of (wp_collect_map hround) ?_ fun _ _ h => ⟨h.1, nofun⟩
  rintro ls w' ⟨rfl, hls⟩
  refine ⟨rfl, fun l hl => ?_⟩
  cases hl
  rw [hls ls rfl, ← List.flatMap_def, List.flatMap_eq_nil_iff]
  simp only [PluginWorld.named, List.mem_filter]
  constructor
  · rintro hall ⟨q, hq, hact, hne, hnames⟩
    have hnil := hall q ⟨⟨hq, hact⟩, decide_eq_true hne⟩
    rw [if_pos hnames] at hnil
    cases hnil
  · rintro hno q ⟨⟨hq, hact⟩, hne⟩
    exact if_neg fun hnames => hno ⟨q, hq, hact, of_decide_eq_true hne, hnames⟩

/-- **What a deactivation does**: it is refused, or no manifest names the plugin and it is switched
off. -/
inductive DeactivateStep (lib : PluginLib) (A : PluginEnv → Prop) (id : String) (w : PluginWorld) :
    Except Err Plugin → PluginWorld → Prop
  | refused {err} : DeactivateStep lib A id w (.error err) w
  | deactivated {r} (hnamed : ¬ w.named lib id) (hr : r.isOk ∨ MayFail A (.pluginFindUnique id)) :
      DeactivateStep lib A id w r (w.patched id (.active false))

theorem wp_deactivate :
    (deactivate lib id).Wp (pluginSem A) (fun _ _ => True) (DeactivateStep lib A id w) w := by
  refine wp_bind_of wp_findActiveDependents ?_ ?_
  · rintro dependents w' ⟨rfl, hdep⟩
    refine wp_ite (fun _ => .refused) fun hnone => ?_
    have hnamed := (hdep dependents rfl).1 (not_ne_iff.1 hnone)
    refine (wp_bind _ _).2 (wp_commit (fun _ => rfl) ?_ fun _ _ => .refused)
    intro p w₁ hx
    split at hx
    · cases hx
    · next p' hp' =>
      cases hx
      refine wp_findPlugin (fun _ _ => .deactivated hnamed (.inl rfl)) ?_
      rintro err (hgone | hfail)
      · rw [w'.get?_patched, if_pos rfl, hp'] at hgone
        cases hgone
      · exact .deactivated hnamed (.inr hfail)
  · rintro err w' ⟨rfl, -⟩
    exact .refused

/-- **A removal** is refused, or deletes the row. -/
theorem wp_remove : (remove id).Wp (pluginSem A) (fun _ _ => True)
    (fun r w' => (∃ err, r = .error err ∧ w' = w) ∨
      r = .ok () ∧ w' = { w with plugins := w.plugins.delete id }) w := by
  refine (wp_bind _ _).2 (wp_findPlugin (fun p hp => ?_) fun err _ => .inl ⟨err, rfl, rfl⟩)
  refine wp_commit (fun _ => rfl) ?_ fun err _ => .inl ⟨err, rfl, rfl⟩
  intro u w' hx
  rw [hp] at hx
  cases hx
  exact .inr ⟨rfl, rfl⟩

/-! ### Updates -/

/-- The plugin was installed from a git repository into the directory. -/
def Plugin.ClonedTo (p : Plugin) (path : String) : Prop :=
  (p.gitUrl.filter (· ≠ "")).isSome ∧ p.installedPath = some path

/-- The files on disk after a pull: those of before, or the fetched ones. -/
def Pulled (A : PluginEnv → Prop) (w : PluginWorld) (path : String) (w' : PluginWorld) : Prop :=
  w' = w ∨ ((w.directories.get? path).bind Directory.remote).isSome ∧
    ∃ e, A e ∧ w' = w.pulled path e.fetched

theorem Pulled.plugins {path : String} {w' : PluginWorld} (h : Pulled A w path w') :
    w'.plugins = w.plugins := by
  obtain rfl | ⟨-, e, -, rfl⟩ := h <;> rfl

theorem Pulled.audit {path : String} {w' : PluginWorld} (h : Pulled A w path w') :
    w'.audit = w.audit := by
  obtain rfl | ⟨-, e, -, rfl⟩ := h <;> rfl

theorem wp_gitPull {α : Type} {path : String} {f : Except Err (String × String) → PluginProg α}
    {Q : Except Err α → PluginWorld → Prop}
    (hf : ∀ r w', Pulled A w path w' → (f r).Wp (pluginSem A) (fun _ _ => True) Q w') :
    ((issue (.gitPull path)).attempt >>= f).Wp (pluginSem A) (fun _ _ => True) Q w := by
  refine wp_attempt_perform_bind.2 (And.intro trivial ?_)
  rintro r w' ⟨e, he, hr⟩
  refine hf r w' ?_
  cases hremote : (w.directories.get? path).bind Directory.remote with
  | none =>
    simp only [handlePlugin, hremote] at hr
    exact .inl (Prod.mk.inj hr).2.symm
  | some url =>
    cases hfail : e.failure (.gitPull path) with
    | none =>
      simp only [handlePlugin, hremote, hfail] at hr
      exact .inr ⟨by rw [hremote]; rfl, e, he, (Prod.mk.inj hr).2.symm⟩
    | some err =>
      simp only [handlePlugin, hremote, hfail] at hr
      have hw' := (Prod.mk.inj hr).2.symm
      by_cases hleaves : e.leavesFiles = true
      · rw [if_pos hleaves] at hw'
        exact .inr ⟨by rw [hremote]; rfl, e, he, hw'⟩
      · rw [if_neg hleaves] at hw'
        exact .inl hw'

/-- The version of a manifest is not compatible with the installed one. -/
def Incompatible (p : Plugin) (m : Option Manifest) : Prop :=
  ∃ v, m.bind (fun m => m.section? PluginSection.version) = some v ∧
    checkPluginVersion v (some p.version) ≠ []

/-- The name and the version of a row have been written, if they had to. -/
def Released (p : Plugin) (w w' : PluginWorld) : Prop :=
  w' = w ∨ ∃ name version, w' = w.patched p.id (.release name version)

theorem Released.get?_ne_none {p : Plugin} {w' : PluginWorld} (h : Released p w w')
    (hid : w.plugins.get? id ≠ none) : w'.plugins.get? id ≠ none := by
  obtain rfl | ⟨name, version, rfl⟩ := h
  · exact hid
  · rw [w.get?_patched]
    split
    · simpa using hid
    · exact hid

/-- What the refresh of the name and the version does. -/
inductive ReleaseStep (p : Plugin) (m : Option Manifest) (w : PluginWorld) :
    Except Err (List String) → PluginWorld → Prop
  | failed {err} : ReleaseStep p m w (.error err) w
  | refused {errors} (h : Incompatible p m) (hne : errors ≠ []) : ReleaseStep p m w (.ok errors) w
  | released {w'} (h : ¬ Incompatible p m) (hw' : Released p w w') : ReleaseStep p m w (.ok []) w'

theorem wp_refreshRelease (p : Plugin) (m : Option Manifest) :
    (refreshRelease p m).Wp (pluginSem A) (fun _ _ => True) (ReleaseStep p m w) w := by
  unfold refreshRelease
  cases m with
  | none => exact .released nofun (.inl rfl)
  | some m =>
    cases hplugin : m.plugin with
    | none =>
      simp only [hplugin]
      exact .failed
    | some plugin =>
      cases hversion : plugin.version with
      | none =>
        simp only [hplugin, hversion]
        exact .failed
      | some version =>
        simp only [hplugin, hversion]
        have hv : (some m).bind (fun m => m.section? PluginSection.version) = some version := by
          simp [Manifest.section?, hplugin, hversion]
        refine wp_ite (fun herrors => .refused ⟨version, hv, herrors⟩ herrors) fun hnone => ?_
        have hcompatible : ¬ Incompatible p (some m) := by
          rintro ⟨v, hv', herrors⟩
          rw [hv] at hv'
          cases hv'
          exact hnone herrors
        refine (wp_bind _ _).2 (wp_commit (fun _ => rfl) ?_ fun _ _ => .failed)
        intro p' w' hx
        split at hx
        · cases hx
        · cases hx
          exact .released hcompatible (.inr ⟨_, _, rfl⟩)

/-- The world with the audit event of a change, if the stored checksum differs from the new one. -/
def PluginWorld.audited (w : PluginWorld) (id : String) (prev next : Option String) : PluginWorld :=
  match prev with
  | some old => if prev ≠ next then { w with audit := w.audit ++ [⟨id, old, next⟩] } else w
  | none => w

/-- **The checksum after an update**: a change is audited, and then the checksum is stored. -/
inductive ChecksumStep (lib : PluginLib) (A : PluginEnv → Prop) (id path : String)
    (prev : Option String) (w : PluginWorld) : PluginWorld → Prop
  | complete {next} (hnext : next = computeContentChecksum lib (w.directories.get? path)) :
      ChecksumStep lib A id path prev w ((w.audited id prev next).patched id (.contentChecksum next))
  | failed {w' next} (hw' : w' = w ∨ w' = w.audited id prev next)
      (hfail : (∃ event, MayFail A (.auditLog event)) ∨
        ∃ c, MayFail A (.pluginUpdate id (.contentChecksum c))) :
      ChecksumStep lib A id path prev w w'

@[simp] theorem PluginWorld.audited_plugins (w : PluginWorld) (prev next : Option String) :
    (w.audited id prev next).plugins = w.plugins := by
  unfold PluginWorld.audited
  split
  · split <;> rfl
  · rfl

@[simp] theorem PluginWorld.audited_directories (w : PluginWorld) (prev next : Option String) :
    (w.audited id prev next).directories = w.directories := by
  unfold PluginWorld.audited
  split
  · split <;> rfl
  · rfl

theorem wp_storeChecksum {path : String} {prev next : Option String} {w₀ : PluginWorld}
    (hw : w = w₀.audited id prev next) (hid : w.plugins.get? id ≠ none)
    (hnext : next = computeContentChecksum lib (w₀.directories.get? path)) :
    (issue (.pluginUpdate id (.contentChecksum next))).discard.Wp (pluginSem A) (fun _ _ => True)
      (fun _ => ChecksumStep lib A id path prev w₀) w := by
  refine (wp_bind _ _).2 (wp_commit (fun _ => rfl) ?_ ?_)
  · intro p w' hx
    split at hx
    · cases hx
    · cases hx
      rw [hw]
      exact .complete hnext
  · rintro err (hx | hfail)
    · split at hx
      · next hnone => exact absurd hnone hid
      · cases hx
    · exact .failed (.inr hw) (.inr ⟨next, hfail⟩)

theorem wp_auditChange {prev next : Option String} :
    (auditChange id prev next).Wp (pluginSem A) (fun _ _ => True) (fun r w' =>
      r = .ok () ∧ w' = w.audited id prev next ∨
        (∃ err, r = .error err) ∧ w' = w ∧ ∃ event, MayFail A (.auditLog event)) w := by
  unfold auditChange PluginWorld.audited
  cases prev with
  | none => exact .inl ⟨rfl, rfl⟩
  | some old =>
    dsimp only
    refine wp_ite (fun hne => ?_) fun heq => ?_
    · refine wp_commit (fun _ => rfl) ?_ ?_
      · rintro u w' ⟨⟩
        rw [if_pos hne]
        exact .inl ⟨rfl, rfl⟩
      · rintro err (⟨⟨⟩⟩ | hfail)
        exact .inr ⟨⟨err, rfl⟩, rfl, _, hfail⟩
    · rw [if_neg heq]
      exact .inl ⟨rfl, rfl⟩

theorem wp_checksumOnUpdate {path : String} {prev : Option String}
    (hid : w.plugins.get? id ≠ none) :
    (checksumOnUpdate lib id path prev).Wp (pluginSem A) (fun _ _ => True)
      (fun _ => ChecksumStep lib A id path prev w) w := by
  refine (wp_bind _ _).2 (wp_read (fun _ => rfl) ?_)
  refine wp_bind_of wp_auditChange ?_ ?_
  · rintro u w' (⟨-, rfl⟩ | ⟨⟨err, ⟨⟩⟩, -⟩)
    refine wp_storeChecksum rfl ?_ rfl
    rwa [PluginWorld.audited_plugins]
  · rintro err w' (⟨⟨⟩, -⟩ | ⟨-, rfl, hfail⟩)
    have hsame : w' = w' ∨ w' = w'.audited id prev none := .inl rfl
    exact .failed hsame (.inl hfail)

/-- **What an update does**: the files are pulled, and unless the version is refused, the name, the
version and the checksum are written. -/
inductive UpdateStep (lib : PluginLib) (A : PluginEnv → Prop) (id : String) (w : PluginWorld) :
    Except Err (Bool × String) → PluginWorld → Prop
  | refused {err} : UpdateStep lib A id w (.error err) w
  | failed {err p path w₁} (hp : w.plugins.get? id = some p) (hpath : p.ClonedTo path)
      (hpull : Pulled A w path w₁) : UpdateStep lib A id w (.error err) w₁
  | incompatible {x p path w₁} (hp : w.plugins.get? id = some p)
      (hpath : p.ClonedTo path) (hpull : Pulled A w path w₁)
      (h : Incompatible p (readManifest lib (w₁.directories.get? path))) :
      UpdateStep lib A id w (.ok x) w₁
  | updated {x p path w₁ w₂ w₃} (hp : w.plugins.get? id = some p)
      (hpath : p.ClonedTo path) (hpull : Pulled A w path w₁)
      (h : ¬ Incompatible p (readManifest lib (w₁.directories.get? path)))
      (hrelease : Released p w₁ w₂) (hsum : ChecksumStep lib A id path p.contentChecksum w₂ w₃) :
      UpdateStep lib A id w (.ok x) w₃

theorem wp_update : (update lib id).Wp (pluginSem A) (fun _ _ => True) (UpdateStep lib A id w) w := by
  refine (wp_bind _ _).2 (wp_findPlugin (fun p hp => ?_) fun _ _ => .refused)
  dsimp only [bindPost]
  split
  · next url path hgit hinstalled =>
    have hpath : p.ClonedTo path := ⟨by rw [hgit]; rfl, hinstalled⟩
    refine wp_gitPull fun r w₁ hpull => ?_
    refine (wp_bind _ _).2 (wp_read (fun _ => rfl) ?_)
    refine wp_bind_of (wp_refreshRelease p _) ?_ ?_
    · rintro errors w₂ hstep
      cases hstep with
      | refused h hne =>
        refine wp_ite (fun _ => ?_) fun hnil => absurd hne hnil
        exact .incompatible hp hpath hpull h
      | released h hrelease =>
        refine wp_ite (fun hne => absurd rfl hne) fun _ => ?_
        have hid : w₂.plugins.get? id ≠ none := by
          refine hrelease.get?_ne_none ?_
          rw [hpull.plugins, hp]
          exact Option.some_ne_none p
        refine (wp_bind _ _).2 ((wp_attempt _ _).2 ?_)
        exact wp_post (fun r w₃ hsum => .updated hp hpath hpull h hrelease hsum)
          (wp_checksumOnUpdate hid)
    · rintro err w₂ hstep
      cases hstep
      exact .failed hp hpath hpull
  · exact .refused

end Service

end NeoTrader
