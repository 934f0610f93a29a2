import NeoTrader.Plugins.Sandbox
import NeoTrader.Plugins.Steps

/-!
# Changes of a plugin's code

The checksum of a plugin's content should tell whether the code that it runs has changed, and an
update should store it and report a change.

* `CodeDiffers`: two directories differ in a file that is run; `checksum_detects_iff`;
* `ChangeDetected`: what an update promises; `DetectsChange`: the condition under which it keeps the
  promise, **`UpdateStep.changeDetected`**;
* **`content_changes_detected`**, and an imported module and a refused version that go unnoticed
  (**`content_changes_missed`**).
-/

namespace NeoTrader

open Await Prog

/-! ## Directories -/

/-- The directories differ in a Python file that one of them runs. -/
def CodeDiffers (lib : PluginLib) (imports : Imports) (d d' : Directory) : Prop :=
  ∃ path, (Executes lib imports d path ∨ Executes lib imports d' path) ∧ d.bytes? path ≠ d'.bytes? path

/-- **The checksum tells different code apart** exactly where the covered texts differ too. -/
theorem checksum_detects_iff {lib : PluginLib} (hsha : Function.Injective lib.sha256)
    (imports : Imports) (d d' : Directory) :
    (CodeDiffers lib imports d d' →
      computeContentChecksum lib (some d) ≠ computeContentChecksum lib (some d')) ↔
    (CodeDiffers lib imports d d' → coveredPieces lib d ≠ coveredPieces lib d') := by
  rw [ne_eq, computeContentChecksum_inj hsha]

/-! ## Updates -/

/-- **What an update promises**: the stored checksum is that of the files on disk, and if it is not
the one that was stored before, its change has been audited. -/
def ChangeDetected (lib : PluginLib) (id : String) (w w' : PluginWorld) : Prop :=
  ∀ p p', w.plugins.get? id = some p → w'.plugins.get? id = some p' →
    p'.contentChecksum = computeContentChecksum lib (w'.directory? p'.installedPath) ∧
      (p'.contentChecksum ≠ p.contentChecksum → ∃ old, p.contentChecksum = some old ∧
        w'.audit = w.audit ++ [⟨id, old, p'.contentChecksum⟩])

/-- **The condition of an update**: the version on disk after the pull is compatible, there was a
checksum before unless there is still nothing to be covered, and neither the audit log nor the
storing of a checksum fails. -/
def DetectsChange (lib : PluginLib) (A : PluginEnv → Prop) (w : PluginWorld) (id : String) : Prop :=
  (∀ p path w₁, w.plugins.get? id = some p → p.ClonedTo path → Pulled A w path w₁ →
    ¬ Incompatible p (readManifest lib (w₁.directories.get? path)) ∧
      (p.contentChecksum = none → ∀ d, w₁.directories.get? path = some d → coveredTexts lib d = [])) ∧
  ∀ e, A e → (∀ event, e.failure (.auditLog event) = none) ∧
    ∀ c, e.failure (.pluginUpdate id (.contentChecksum c)) = none

section Update

variable {lib : PluginLib} {A : PluginEnv → Prop} {w w' w₁ : PluginWorld} {id path : String}

theorem computeContentChecksum_eq_none {d : Option Directory}
    (hd : ∀ d', d = some d' → coveredTexts lib d' = []) : computeContentChecksum lib d = none := by
  cases d with
  | none => rfl
  | some d =>
    rw [computeContentChecksum, Option.bind_some]
    exact if_pos (hd d rfl)

theorem Released.keeps {p q : Plugin} (h : Released p w w')
    (hq : w'.plugins.get? p.id = some q) : w'.directories = w.directories ∧ w'.audit = w.audit ∧
      ∃ p', w.plugins.get? p.id = some p' ∧ q.installedPath = p'.installedPath := by
  obtain rfl | ⟨name, version, rfl⟩ := h
  · exact ⟨rfl, rfl, q, hq, rfl⟩
  · rw [w.get?_patched, if_pos rfl] at hq
    obtain ⟨p', hp', rfl⟩ := Option.map_eq_some_iff.1 hq
    exact ⟨rfl, rfl, p', hp', rfl⟩

theorem PluginWorld.audited_of_ne {old : String} {next : Option String} (hne : next ≠ some old) :
    (w.audited id (some old) next).audit = w.audit ++ [⟨id, old, next⟩] := by
  rw [PluginWorld.audited, if_pos hne.symm]

/-- **An update under its condition keeps its promise.** -/
theorem UpdateStep.changeDetected {x : Bool × String} (h : UpdateStep lib A id w (.ok x) w')
    (hk : DetectsChange lib A w id) : ChangeDetected lib id w w' := by
  obtain ⟨hfiles, hanswers⟩ := hk
  intro p p' hp hp'
  cases h with
  | incompatible hq hpath hpull h => exact absurd h (hfiles _ _ _ hq hpath hpull).1
  | @updated _ q path w₁ w₂ _ hq hpath hpull h hrelease hsum =>
    rw [hp] at hq
    cases hq
    have hnone := (hfiles _ _ _ hp hpath hpull).2
    have hid : p.id = id := Store.Indexed.key_of_get? hp
    cases hsum with
    | failed hw' hfail =>
      obtain ⟨event, e, he, hfail⟩ | ⟨c, e, he, hfail⟩ := hfail
      · rw [(hanswers e he).1 event] at hfail
        cases hfail
      · rw [(hanswers e he).2 c] at hfail
        cases hfail
    | @complete next hnext =>
      rw [PluginWorld.get?_patched, if_pos rfl, PluginWorld.audited_plugins] at hp'
      obtain ⟨q, hq, rfl⟩ := Option.map_eq_some_iff.1 hp'
      rw [← hid] at hq
      obtain ⟨hdirs, haudit, p₁, hp₁, hplace⟩ := hrelease.keeps hq
      have hwhere : q.installedPath = some path := by
        rw [hpull.plugins, hid, hp] at hp₁
        cases hp₁
        exact hplace.trans hpath.2
      have hafter : ((w₂.audited id p.contentChecksum next).patched id
          (.contentChecksum next)).directory? q.installedPath = w₂.directories.get? path := by
        rw [hwhere, PluginWorld.directory?, PluginWorld.patched, PluginWorld.audited_directories]
        rfl
      refine ⟨hnext.trans (congrArg _ hafter.symm), fun hne => ?_⟩
      replace hne : next ≠ p.contentChecksum := hne
      have hwas : w₂.audit = w.audit := haudit.trans hpull.audit
      cases hprev : p.contentChecksum with
      | none =>
        rw [hprev] at hne
        refine absurd (hnext.trans (computeContentChecksum_eq_none fun d hd => ?_)) hne
        rw [hdirs] at hd
        exact hnone hprev d hd
      | some old =>
        rw [hprev] at hne
        refine ⟨old, rfl, ?_⟩
        rw [← hwas]
        exact PluginWorld.audited_of_ne hne

end Update

/-! ## Runs -/

/-- **Changes of code are detected** exactly where they show in the covered texts; and every update
that meets its condition stores the checksum of the files on disk and reports a change. -/
theorem content_changes_detected {lib : PluginLib} (hsha : Function.Injective lib.sha256)
    (imports : Imports) : (∀ d d', (CodeDiffers lib imports d d' →
        computeContentChecksum lib (some d) ≠ computeContentChecksum lib (some d')) ↔
      (CodeDiffers lib imports d d' → coveredPieces lib d ≠ coveredPieces lib d')) ∧
    ∀ {start w : PluginWorld} {l : List PluginVisit}, PluginRun lib start l w →
      (∀ v ∈ l, ∀ id, v.request = .update id → DetectsChange lib v.allows v.before id) →
      ∀ v ∈ l, ∀ id, v.request = .update id → v.outcome = .ok () →
        ChangeDetected lib id v.before v.after := by
  refine ⟨checksum_detects_iff hsha imports, fun {start w l} hrun hk v hv id hreq hok => ?_⟩
  have hx := hrun.exec hv
  rw [hreq, hok] at hx
  have hbody : (PluginRequest.body lib (.update id)).Wp (pluginSem v.allows) (fun _ _ => True)
      (fun x w' => x = .ok () → ChangeDetected lib id v.before w') v.before :=
    wp_bind_of wp_update (fun _ _ h _ => h.changeDetected (hk v hv id hreq)) fun _ _ _ => nofun
  exact hbody.exec hx rfl

/-! ## Changes that go unnoticed -/

def trendManifest (version : String) : Manifest where
  plugin := some
    { id := some "trend-following", name := some "Trend Following", version := some version
      type := some "skill" }

/-- Libraries for which `1` and `2` are manifests of the first and of the second major version. -/
def trendLib : PluginLib where
  parseToml s := if s = "1" then some (trendManifest "1.0.0") else
    if s = "2" then some (trendManifest "2.0.0") else none
  tomllib _ := .ok (some (trendManifest "1.0.0"))
  sha256 := id
  localeLe a b := a ≤ b

/-- A hook that imports a module of the plugin, and the module. -/
def trendDirectory (script : List UInt8) : Directory where
  name := "trend-following"
  files := [(["manifest.toml"], some [0x31]), (["hooks", "cycle.py"], some [0x68]),
    (["scripts", "trend_following.py"], some script)]
  remote := some "https://example.org/trend-following"

def trendImports : Imports := fun _ path =>
  if path = ["hooks", "cycle.py"] then [["scripts", "trend_following.py"]] else []

theorem trendDirectory_codeDiffers :
    CodeDiffers trendLib trendImports (trendDirectory [0x61]) (trendDirectory [0x62]) := by
  have hhook : Executes trendLib trendImports (trendDirectory [0x61]) ["hooks", "cycle.py"] :=
    .hook (by decide)
  refine ⟨["scripts", "trend_following.py"], .inl (.imported hhook ?_), by decide⟩
  exact List.mem_singleton_self _

def trendWorld : PluginWorld where
  plugins := ⟨[
    { id := "trend-following", name := "Trend Following", version := "1.0.0", type := "skill"
      gitUrl := some "https://example.org/trend-following"
      installedPath := some "trend-following"
      contentChecksum := computeContentChecksum trendLib (some (trendDirectory [0x61])) }], by decide⟩
  directories := ⟨[trendDirectory [0x61]], by decide⟩

/-- An update that fetches files. -/
def trendUpdate (files : Files) : Option (List PluginVisit × PluginWorld) :=
  servePlugins trendLib [(.update "trend-following", { fetched := files })] trendWorld

/-- What is seen of an update: whether it returned, whether the stored checksum is that of the files
on disk, and the audit log. -/
def trendView (v : PluginVisit) : Bool × Option Bool × ℕ :=
  (v.outcome.isOk, (v.after.plugins.get? "trend-following").map fun p =>
    decide (p.contentChecksum = computeContentChecksum trendLib (v.after.directory? p.installedPath)),
    v.after.audit.length)

theorem trendUpdate_refused : (trendUpdate [(["manifest.toml"], some [0x32]),
    (["hooks", "cycle.py"], some [0x69])]).map (fun y => y.1.map trendView) =
      some [(true, some false, 0)] := by
  decide

theorem trendLib_injective : Function.Injective trendLib.sha256 := Function.injective_id

/-- **A changed module that a hook imports keeps the checksum**, and the files of a refused version
stay on disk under the checksum of the files before. -/
theorem content_changes_missed :
    (¬ ∀ {lib : PluginLib}, Function.Injective lib.sha256 → ∀ imports d d',
      CodeDiffers lib imports d d' →
        computeContentChecksum lib (some d) ≠ computeContentChecksum lib (some d')) ∧
    ¬ ∀ {lib : PluginLib} {start w : PluginWorld} {l : List PluginVisit},
      Function.Injective lib.sha256 → PluginRun lib start l w →
      ∀ v ∈ l, ∀ id, v.request = .update id → v.outcome = .ok () →
        ChangeDetected lib id v.before v.after := by
  constructor
  · intro hall
    refine hall trendLib_injective trendImports _ _ trendDirectory_codeDiffers ?_
    decide
  · intro hall
    obtain ⟨⟨l, w⟩, hrun, hview⟩ := Option.map_eq_some_iff.1 trendUpdate_refused
    obtain ⟨x, rfl⟩ := serve_singleton hrun
    simp only [trendView, List.map_cons, List.map_nil, List.cons.injEq, Prod.mk.injEq,
      and_true] at hview
    obtain ⟨hok, hstored, -⟩ := hview
    cases x with
    | error err => cases hok
    | ok u =>
      obtain ⟨p', hp', hdiffers⟩ := Option.map_eq_some_iff.1 hstored
      have hdetected := hall trendLib_injective (session_of_serve hrun) _
        (List.mem_singleton_self _) _ rfl rfl
      exact of_decide_eq_false hdiffers (hdetected _ p' rfl hp').1

def hookUpdate : Files := [(["manifest.toml"], some [0x31]), (["hooks", "cycle.py"], some [0x69])]

theorem trendUpdate_accepted : (trendUpdate hookUpdate).map (fun y => y.1.map trendView) =
    some [(true, some true, 1)] := by
  decide

theorem trendWorld_detectsChange :
    DetectsChange trendLib (· = { fetched := hookUpdate }) trendWorld "trend-following" := by
  constructor
  · rintro p path w₁ ⟨⟩ hpath hpull
    cases hpath.2
    have hmanifest : readManifest trendLib (w₁.directories.get? "trend-following") =
        some (trendManifest "1.0.0") := by
      obtain rfl | ⟨-, e, rfl, rfl⟩ := hpull <;> decide
    rw [hmanifest]
    refine ⟨?_, nofun⟩
    rintro ⟨v, ⟨⟩, herrors⟩
    exact herrors (by decide)
  · rintro e rfl
    exact ⟨fun _ => rfl, fun _ => rfl⟩

/-- An update is detected, and so is a change of the hook. -/
theorem content_changes_detected_hook :
    (∃ l w, PluginRun trendLib trendWorld l w ∧ w.audit.length = 1 ∧
      ChangeDetected trendLib "trend-following" trendWorld w) ∧
    computeContentChecksum trendLib (some (trendDirectory [0x61])) ≠
      computeContentChecksum trendLib (some { trendDirectory [0x61] with files := hookUpdate }) := by
  obtain ⟨hfiles, hruns⟩ := content_changes_detected trendLib_injective trendImports
  constructor
  · obtain ⟨⟨l, w⟩, hrun, hview⟩ := Option.map_eq_some_iff.1 trendUpdate_accepted
    obtain ⟨x, rfl⟩ := serve_singleton hrun
    simp only [trendView, List.map_cons, List.map_nil, List.cons.injEq, Prod.mk.injEq,
      and_true] at hview
    obtain ⟨hok, -, haudit⟩ := hview
    have hsession : PluginRun trendLib trendWorld _ w := session_of_serve hrun
    refine ⟨_, w, hsession, haudit, ?_⟩
    cases x with
    | error err => cases hok
    | ok u =>
      refine hruns hsession ?_ _ (List.mem_singleton_self _) _ rfl rfl
      refine List.forall_mem_singleton.2 fun id hid => ?_
      cases hid
      exact trendWorld_detectsChange
  · refine (hfiles _ _).2 (fun _ => by decide) ⟨["hooks", "cycle.py"], .inl ?_, ?_⟩
    · exact .hook (by decide)
    · decide

end NeoTrader
