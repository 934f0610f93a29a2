import NeoTrader.Plugins.Steps
import NeoTrader.Store.Dependencies

/-!
# The active plugins and what they require

The requirements of a plugin stand in its manifest, and for a stack also in the section of its
components or in its row. An activation looks at all of them. A deactivation looks at the first list
of the manifests only, a removal at none, and an update may bring new ones.

* `PluginWorld.requires`, **`PluginWorld.closed`**: whatever an active plugin requires is active;
* **`active_dependencies_closed`**, and the stack whose component is switched off
  (**`active_dependencies_open`**).
-/

namespace NeoTrader

open Await Prog Dependencies

/-- The plugin of an id requires another id. -/
def PluginWorld.requires (lib : PluginLib) (w : PluginWorld) (a b : String) : Prop :=
  ∃ p, w.plugins.get? a = some p ∧ b ∈ w.requirements lib p

/-- **Whatever an active plugin requires is active.** -/
def PluginWorld.closed (lib : PluginLib) (w : PluginWorld) : Prop :=
  Closed w.isActive (w.requires lib)

/-! ## What the active set depends on -/

/-- What the requirements of a plugin, and whether it is active, depend on. -/
def Plugin.wiring (p : Plugin) : Bool × String × Option (List String) × Option String :=
  (p.active, p.type, p.stackPlugins, p.installedPath)

/-- **The worlds agree on what is active and on what it requires.** -/
def SameWiring (w w' : PluginWorld) : Prop :=
  w'.directories = w.directories ∧
    ∀ id, (w'.plugins.get? id).map Plugin.wiring = (w.plugins.get? id).map Plugin.wiring

section Wiring

variable {lib : PluginLib} {w w' w'' : PluginWorld} {id a b : String}

theorem SameWiring.refl (w : PluginWorld) : SameWiring w w := ⟨rfl, fun _ => rfl⟩

theorem SameWiring.symm (h : SameWiring w w') : SameWiring w' w :=
  ⟨h.1.symm, fun id => (h.2 id).symm⟩

theorem SameWiring.trans (h : SameWiring w w') (h' : SameWiring w' w'') : SameWiring w w'' :=
  ⟨h'.1.trans h.1, fun id => (h'.2 id).trans (h.2 id)⟩

theorem Analysed.sameWiring (h : Analysed w w') : SameWiring w w' := by
  refine ⟨h.1, fun id => ?_⟩
  have hid := congrArg (Option.map Plugin.wiring) (h.2.2 id)
  rwa [Option.map_map, Option.map_map] at hid

theorem sameWiring_patched {patch : PluginPatch} (hpatch : ∀ p, (patch.apply p).wiring = p.wiring) :
    SameWiring w (w.patched id patch) := by
  refine ⟨rfl, fun id' => ?_⟩
  rw [w.get?_patched]
  split
  · rw [Option.map_map]
    exact congrArg (fun f => (w.plugins.get? id').map f) (funext hpatch)
  · rfl

theorem SameWiring.get? (h : SameWiring w w') {p : Plugin} (hp : w'.plugins.get? a = some p) :
    ∃ q, w.plugins.get? a = some q ∧ q.wiring = p.wiring := by
  have hid := h.2 a
  rw [hp, Option.map_some] at hid
  exact Option.map_eq_some_iff.1 hid.symm

theorem SameWiring.isActive_of (h : SameWiring w w') (ha : w'.isActive a) : w.isActive a := by
  obtain ⟨p, hp, hact⟩ := ha
  obtain ⟨q, hq, hqp⟩ := h.get? hp
  exact ⟨q, hq, (Prod.mk.inj hqp).1.trans hact⟩

theorem SameWiring.isActive_iff (h : SameWiring w w') : w'.isActive a ↔ w.isActive a :=
  ⟨h.isActive_of, h.symm.isActive_of⟩

theorem requirements_congr {p q : Plugin} (hdir : w'.directories = w.directories)
    (htype : p.type = q.type) (hstack : p.stackPlugins = q.stackPlugins)
    (hpath : p.installedPath = q.installedPath) :
    w'.requirements lib p = w.requirements lib q := by
  unfold PluginWorld.requirements PluginWorld.manifest? PluginWorld.directory? allRequires stackRequires
  rw [hdir, htype, hstack, hpath]

theorem SameWiring.requires_of (h : SameWiring w w') (hreq : w'.requires lib a b) :
    w.requires lib a b := by
  obtain ⟨p, hp, hb⟩ := hreq
  obtain ⟨q, hq, hqp⟩ := h.get? hp
  simp only [Plugin.wiring, Prod.mk.injEq] at hqp
  refine ⟨q, hq, ?_⟩
  rwa [← requirements_congr h.1 hqp.2.1.symm hqp.2.2.1.symm hqp.2.2.2.symm]

theorem SameWiring.requires_iff (h : SameWiring w w') :
    w'.requires lib a b ↔ w.requires lib a b := ⟨h.requires_of, h.symm.requires_of⟩

theorem SameWiring.closed (h : SameWiring w w') (hw : w.closed lib) : w'.closed lib :=
  Closed.congr hw (fun _ => h.isActive_iff) fun _ _ _ => h.requires_iff

/-! ## What a switch does -/

theorem get?_switched {on : Bool} {p' : Plugin}
    (h : (w.patched id (.active on)).plugins.get? a = some p') :
    ∃ p, w.plugins.get? a = some p ∧ p' = if a = id then { p with active := on } else p := by
  rw [w.get?_patched] at h
  split_ifs at h ⊢ with ha
  · obtain ⟨p, hp, rfl⟩ := Option.map_eq_some_iff.1 h
    exact ⟨p, hp, rfl⟩
  · exact ⟨p', h, rfl⟩

theorem requires_switched {on : Bool} :
    (w.patched id (.active on)).requires lib a b ↔ w.requires lib a b := by
  constructor
  · rintro ⟨p', hp', hb⟩
    obtain ⟨p, hp, rfl⟩ := get?_switched hp'
    refine ⟨p, hp, ?_⟩
    split_ifs at hb <;> exact hb
  · rintro ⟨p, hp, hb⟩
    refine ⟨if a = id then { p with active := on } else p, ?_, ?_⟩
    · rw [w.get?_patched, hp]
      split_ifs <;> rfl
    · split_ifs <;> exact hb

theorem isActive_switchedOn {p : Plugin} (hid : w.plugins.get? id = some p) :
    (w.patched id (.active true)).isActive a ↔ a = id ∨ w.isActive a := by
  unfold PluginWorld.isActive
  rw [w.get?_patched]
  by_cases ha : a = id
  · subst ha
    simp [hid, PluginPatch.apply]
  · simp [ha]

theorem isActive_switchedOff :
    (w.patched id (.active false)).isActive a ↔ a ≠ id ∧ w.isActive a := by
  unfold PluginWorld.isActive
  rw [w.get?_patched]
  by_cases ha : a = id
  · subst ha
    simp [PluginPatch.apply]
  · simp [ha]

theorem get?_deleted : ({ w with plugins := w.plugins.delete id } : PluginWorld).plugins.get? a =
    if a = id then none else w.plugins.get? a := Store.Indexed.get?_delete a

theorem isActive_deleted :
    ({ w with plugins := w.plugins.delete id } : PluginWorld).isActive a ↔ a ≠ id ∧ w.isActive a := by
  unfold PluginWorld.isActive
  rw [get?_deleted]
  by_cases ha : a = id <;> simp [ha]

theorem requires_deleted (ha : a ≠ id) :
    ({ w with plugins := w.plugins.delete id } : PluginWorld).requires lib a b ↔
      w.requires lib a b := by
  unfold PluginWorld.requires
  rw [get?_deleted, if_neg ha]
  rfl

end Wiring

/-! ## The condition of a request -/

/-- An active stack has the plugin among its components. -/
def PluginWorld.isComponent (lib : PluginLib) (w : PluginWorld) (id : String) : Prop :=
  ∃ q ∈ w.plugins.rows, q.active = true ∧ q.id ≠ id ∧
    id ∈ (stackRequires q (w.manifest? lib q)).map depId

/-- The requests that switch plugins on and off, and the updates. -/
def PluginRequest.isLifecycle : PluginRequest → Bool
  | activate _ | deactivate _ | remove _ | update _ => true
  | _ => false

/-- **The condition of a request.** An active plugin is deactivated only if a manifest names it, so
that this is refused, or if it is not a component of an active stack; it is removed only if no active
plugin requires it; and what an update brings for the active plugins of its directory is active. -/
def KeepsClosed (lib : PluginLib) (A : PluginEnv → Prop) (w : PluginWorld) : PluginRequest → Prop
  | .deactivate id => w.isActive id → w.named lib id ∨ ¬ w.isComponent lib id
  | .remove id => w.isActive id → ∀ c, c ≠ id → w.isActive c → ¬ w.requires lib c id
  | .update id => ∀ p path w₁, w.plugins.get? id = some p → p.ClonedTo path → Pulled A w path w₁ →
      ∀ q ∈ w.plugins.rows, q.active = true → q.installedPath = some path →
        ∀ b ∈ w₁.requirements lib q, w.isActive b
  | _ => True

section Steps

variable {lib : PluginLib} {A : PluginEnv → Prop} {w w' : PluginWorld} {id a b : String}

theorem named_or_isComponent (ha : a ≠ id) (hact : w.isActive a) (hreq : w.requires lib a id) :
    w.named lib id ∨ w.isComponent lib id := by
  obtain ⟨p, hp, hb⟩ := hreq
  obtain ⟨q, hq, hact⟩ := hact
  rw [hp] at hq
  cases hq
  have hmem := Store.Indexed.mem_of_get? hp
  have hne : p.id ≠ id := by rwa [Store.Indexed.key_of_get? hp]
  obtain ⟨r, hr, hdep⟩ := List.mem_map.1 hb
  rw [allRequires, List.mem_eraseDups, List.mem_append] at hr
  rcases hr with hr | hr
  · exact .inl ⟨p, hmem, hact, hne, List.any_eq_true.2 ⟨r, hr, decide_eq_true hdep⟩⟩
  · exact .inr ⟨p, hmem, hact, hne, List.mem_map.2 ⟨r, hr, hdep⟩⟩

theorem ActivateStep.closed {r : Except Err Plugin} (h : ActivateStep lib A id w r w')
    (hw : w.closed lib) : w'.closed lib := by
  cases h with
  | refused h => exact h.sameWiring.closed hw
  | @activated r p w₁ hp hdeps h hr =>
    obtain ⟨p₁, hp₁, hwiring⟩ := h.sameWiring.symm.get? hp
    refine Closed.congr ((h.sameWiring.closed hw).insert (a := id) ?_)
      (fun _ => isActive_switchedOn hp₁) fun _ _ _ => requires_switched
    intro b hb
    obtain ⟨q, hq, hb⟩ := h.sameWiring.requires_of hb
    rw [hp] at hq
    cases hq
    exact h.sameWiring.isActive_iff.2 (hdeps b hb)

theorem PluginWorld.closed.erase (hw : w.closed lib)
    (hno : w.isActive id → ∀ c, c ≠ id → w.isActive c → ¬ w.requires lib c id) :
    Closed (fun a => a ≠ id ∧ w.isActive a) (w.requires lib) := by
  refine (closed_erase_iff hw).2 fun c hne hc hreq => ?_
  exact hno (hw c hc id hreq) c hne hc hreq

theorem DeactivateStep.closed {r : Except Err Plugin} (h : DeactivateStep lib A id w r w')
    (hw : w.closed lib) (hk : KeepsClosed lib A w (.deactivate id)) : w'.closed lib := by
  cases h with
  | refused => exact hw
  | deactivated hnamed hr =>
    have hno : w.isActive id → ∀ c, c ≠ id → w.isActive c → ¬ w.requires lib c id := by
      intro hact c hne hc hreq
      have hcomponent := (hk hact).resolve_left hnamed
      exact (named_or_isComponent hne hc hreq).elim hnamed hcomponent
    exact Closed.congr (PluginWorld.closed.erase hw hno) (fun _ => isActive_switchedOff)
      fun _ _ _ => requires_switched

theorem closed_deleted (hw : w.closed lib) (hk : KeepsClosed lib A w (.remove id)) :
    PluginWorld.closed lib { w with plugins := w.plugins.delete id } :=
  Closed.congr (PluginWorld.closed.erase hw hk) (fun _ => isActive_deleted) fun _ _ ha =>
    requires_deleted ha.1

theorem Pulled.requirements {path : String} (h : Pulled A w path w') {q : Plugin}
    (hq : q.installedPath ≠ some path) : w'.requirements lib q = w.requirements lib q := by
  obtain rfl | ⟨-, e, -, rfl⟩ := h
  · rfl
  · have hdir : (w.pulled path e.fetched).directory? q.installedPath =
        w.directory? q.installedPath := by
      unfold PluginWorld.directory?
      cases hpath : q.installedPath with
      | none => rfl
      | some other =>
        have hne : other ≠ path := by
          rintro rfl
          exact hq hpath
        rw [Option.bind_some, Option.bind_some, PluginWorld.pulled, Store.Indexed.get?_update,
          if_neg hne]
    unfold PluginWorld.requirements PluginWorld.manifest?
    rw [hdir]

theorem Pulled.closed {p : Plugin} {path : String} (h : Pulled A w path w')
    (hp : w.plugins.get? id = some p) (hpath : p.ClonedTo path) (hw : w.closed lib)
    (hk : KeepsClosed lib A w (.update id)) : w'.closed lib := by
  have hactive : ∀ a, w'.isActive a ↔ w.isActive a := by
    intro a
    rw [PluginWorld.isActive, h.plugins]
    rfl
  have hrewired : Closed w.isActive (w'.requires lib) ↔
      ∀ a b, w.isActive a → w'.requires lib a b → w.requires lib a b ∨ w.isActive b :=
    closed_rewire_iff hw
  refine Closed.congr (hrewired.2 ?_) hactive fun _ _ _ => Iff.rfl
  rintro a b ⟨q, hq, hact⟩ ⟨q', hq', hb⟩
  rw [h.plugins, hq] at hq'
  cases hq'
  by_cases hsame : q.installedPath = some path
  · exact .inr (hk p path w' hp hpath h q (Store.Indexed.mem_of_get? hq) hact hsame b hb)
  · rw [h.requirements hsame] at hb
    exact .inl ⟨q, hq, hb⟩

theorem Released.sameWiring {p : Plugin} (h : Released p w w') : SameWiring w w' := by
  obtain rfl | ⟨name, version, rfl⟩ := h
  · exact .refl _
  · exact sameWiring_patched fun _ => rfl

theorem sameWiring_audited {prev next : Option String} : SameWiring w (w.audited id prev next) := by
  refine ⟨w.audited_directories prev next, fun id' => ?_⟩
  rw [w.audited_plugins]

theorem ChecksumStep.sameWiring {path : String} {prev : Option String}
    (h : ChecksumStep lib A id path prev w w') : SameWiring w w' := by
  cases h with
  | complete hnext => exact sameWiring_audited.trans (sameWiring_patched fun _ => rfl)
  | failed hw' hfail =>
    obtain rfl | rfl := hw'
    · exact .refl _
    · exact sameWiring_audited

theorem UpdateStep.pulled {r : Except Err (Bool × String)} (h : UpdateStep lib A id w r w') :
    w' = w ∨ ∃ p path w₁, w.plugins.get? id = some p ∧ p.ClonedTo path ∧ Pulled A w path w₁ ∧
      SameWiring w₁ w' := by
  cases h with
  | refused => exact .inl rfl
  | failed hp hpath hpull => exact .inr ⟨_, _, _, hp, hpath, hpull, .refl _⟩
  | incompatible hp hpath hpull _ => exact .inr ⟨_, _, _, hp, hpath, hpull, .refl _⟩
  | updated hp hpath hpull _ hrelease hsum =>
    exact .inr ⟨_, _, _, hp, hpath, hpull, hrelease.sameWiring.trans hsum.sameWiring⟩

theorem UpdateStep.closed {r : Except Err (Bool × String)} (h : UpdateStep lib A id w r w')
    (hw : w.closed lib) (hk : KeepsClosed lib A w (.update id)) : w'.closed lib := by
  obtain rfl | ⟨p, path, w₁, hp, hpath, hpull, hsame⟩ := h.pulled
  · exact hw
  · exact hsame.closed (hpull.closed hp hpath hw hk)

theorem UpdateStep.isActive_iff {r : Except Err (Bool × String)} (h : UpdateStep lib A id w r w') :
    w'.isActive a ↔ w.isActive a := by
  obtain rfl | ⟨p, path, w₁, hp, hpath, hpull, hsame⟩ := h.pulled
  · exact Iff.rfl
  · rw [hsame.isActive_iff, PluginWorld.isActive, hpull.plugins]
    rfl

/-- **A request under its condition** keeps the active plugins closed. -/
theorem PluginRequest.closed {r : PluginRequest} {x : Except Err Unit} (hr : r.isLifecycle)
    (hx : (r.body lib).Exec (pluginSem A) w x w') (hw : w.closed lib) (hk : KeepsClosed lib A w r) :
    w'.closed lib := by
  have hbody : (r.body lib).Wp (pluginSem A) (fun _ _ => True) (fun _ w' => w'.closed lib) w := by
    cases r with
    | activate id => exact wp_bind_of wp_activate (fun _ _ h => h.closed hw) fun _ _ h => h.closed hw
    | deactivate id =>
      exact wp_bind_of wp_deactivate (fun _ _ h => h.closed hw hk) fun _ _ h => h.closed hw hk
    | remove id =>
      refine wp_post ?_ wp_remove
      rintro _ _ (⟨_, _, rfl⟩ | ⟨_, rfl⟩)
      · exact hw
      · exact closed_deleted (A := A) hw hk
    | update id =>
      exact wp_bind_of wp_update (fun _ _ h => h.closed hw hk) fun _ _ h => h.closed hw hk
    | _ => cases hr
  exact hbody.exec hx

/-- **A refused request** leaves the active plugins as they are, where no statement fails. -/
theorem PluginRequest.refused {r : PluginRequest} {err : Err} (hr : r.isLifecycle)
    (hA : ∀ e, A e → e.Answers) (hx : (r.body lib).Exec (pluginSem A) w (.error err) w') :
    w'.isActive a ↔ w.isActive a := by
  have hbody : (r.body lib).Wp (pluginSem A) (fun _ _ => True)
      (fun x w' => x = .error err → (w'.isActive a ↔ w.isActive a)) w := by
    cases r with
    | activate id =>
      refine wp_bind_of wp_activate (fun _ _ _ => nofun) fun _ _ h _ => ?_
      cases h with
      | refused h => exact h.sameWiring.isActive_iff
      | activated _ _ _ hr => exact absurd (hr.resolve_left nofun) (not_mayFail hA rfl)
    | deactivate id =>
      refine wp_bind_of wp_deactivate (fun _ _ _ => nofun) fun _ _ h _ => ?_
      cases h with
      | refused => exact Iff.rfl
      | deactivated _ hr => exact absurd (hr.resolve_left nofun) (not_mayFail hA rfl)
    | remove id =>
      refine wp_post ?_ wp_remove
      rintro _ _ (⟨_, _, rfl⟩ | ⟨rfl, _⟩)
      · exact fun _ => Iff.rfl
      · exact nofun
    | update id => exact wp_bind_of wp_update (fun _ _ _ => nofun) fun _ _ h _ => h.isActive_iff
    | _ => cases hr
  exact hbody.exec hx rfl

end Steps

/-! ## Runs -/

/-- **The active plugins stay closed** under their requirements in every run whose requests meet their
conditions; and a refused request never changes which plugins are active, where no statement
fails. -/
theorem active_dependencies_closed {lib : PluginLib} {start w : PluginWorld} {l : List PluginVisit}
    (hrun : PluginRun lib start l w) (hstart : ∀ id, ¬ start.isActive id)
    (hlife : ∀ v ∈ l, v.request.isLifecycle) :
    ((∀ v ∈ l, KeepsClosed lib v.allows v.before v.request) → w.closed lib) ∧
      ∀ v ∈ l, (∀ e, v.allows e → e.Answers) → ∀ err, v.outcome = .error err →
        ∀ id, v.after.isActive id ↔ v.before.isActive id := by
  constructor
  · intro hk
    exact (hrun.invariant (closed_of_none hstart) fun v hv hw hx =>
      PluginRequest.closed (hlife v hv) hx hw (hk v hv)).2
  · intro v hv hA err herr id
    have hx := hrun.exec hv
    rw [herr] at hx
    exact PluginRequest.refused (hlife v hv) hA hx

/-! ## A stack and its component -/

def stackManifest : Manifest where
  plugin := some
    { id := some "momentum-stack", name := some "Momentum", version := some "1.0.0"
      type := some "stack" }
  stackRequires := some ["rsi-analysis@1.0.0"]

/-- Libraries for which one text is the manifest of the stack. -/
def stackLib : PluginLib where
  parseToml s := if s = "stack" then some stackManifest else none
  tomllib _ := .ok none
  sha256 := id
  localeLe a b := a ≤ b

def stackWorld : PluginWorld where
  plugins := ⟨[
    { id := "rsi-analysis", name := "RSI", version := "1.0.0", type := "skill"
      installedPath := some "rsi-analysis" },
    { id := "momentum-stack", name := "Momentum", version := "1.0.0", type := "stack"
      installedPath := some "momentum-stack" }], by decide⟩
  directories := ⟨[
    { name := "rsi-analysis" },
    { name := "momentum-stack"
      files := [(["manifest.toml"], some [0x73, 0x74, 0x61, 0x63, 0x6b])] }], by decide⟩

/-- Requests in the world of the stack. -/
def stackRun (requests : List PluginRequest) : Option (List PluginVisit × PluginWorld) :=
  servePlugins stackLib (requests.map fun r => (r, {})) stackWorld

def PluginWorld.activeNow (w : PluginWorld) (id : String) : Bool :=
  (w.plugins.get? id).any Plugin.active

theorem activeNow_iff {w : PluginWorld} {id : String} : w.activeNow id = true ↔ w.isActive id :=
  Option.any_eq_true _ _

theorem stackWorld_inactive (id : String) : ¬ stackWorld.isActive id := by
  rintro ⟨p, hp, hact⟩
  have hall : stackWorld.plugins.rows.all fun p => !p.active := by decide
  have hoff := List.all_eq_true.1 hall p (Store.Indexed.mem_of_get? hp)
  rw [hact] at hoff
  cases hoff

/-- What is seen of a run: whether the stack and its component are active, and whether the stack
requires the component. -/
def stackView (w : PluginWorld) : Bool × Bool × Bool :=
  (w.activeNow "momentum-stack", w.activeNow "rsi-analysis",
    (w.plugins.get? "momentum-stack").any fun p => "rsi-analysis" ∈ w.requirements stackLib p)

theorem stackRun_open : (stackRun [.activate "rsi-analysis", .activate "momentum-stack",
    .deactivate "rsi-analysis"]).map (fun y => (y.1.all fun v => v.request.isLifecycle,
      stackView y.2)) = some (true, true, false, true) := by
  decide

/-- **The component of an active stack is deactivated**, and the stack stays active. -/
theorem active_dependencies_open : ¬ ∀ {lib : PluginLib} {start w : PluginWorld}
    {l : List PluginVisit}, PluginRun lib start l w → (∀ id, ¬ start.isActive id) →
    (∀ v ∈ l, v.request.isLifecycle) → w.closed lib := by
  intro hall
  obtain ⟨⟨l, w⟩, hrun, hview⟩ := Option.map_eq_some_iff.1 stackRun_open
  simp only [stackView, Prod.mk.injEq] at hview
  obtain ⟨hlife, hstack, hcomponent, hreq⟩ := hview
  have hclosed := hall (session_of_serve hrun) stackWorld_inactive (List.all_eq_true.1 hlife)
  obtain ⟨p, hp, hmem⟩ := (Option.any_eq_true _ _).1 hreq
  have hactive := hclosed _ (activeNow_iff.1 hstack) _ ⟨p, hp, of_decide_eq_true hmem⟩
  rw [← activeNow_iff, hcomponent] at hactive
  cases hactive

theorem stackRun_closed : (stackRun [.activate "rsi-analysis", .activate "momentum-stack"]).map
    (fun y => (y.1.all fun v => v.request.isLifecycle, stackView y.2)) =
      some (true, true, true, true) := by
  decide

/-- The component and the stack are activated, and the active plugins are closed. -/
theorem active_dependencies_closed_stack : ∃ l w, PluginRun stackLib stackWorld l w ∧
    w.isActive "momentum-stack" ∧ w.closed stackLib := by
  obtain ⟨⟨l, w⟩, hrun, hview⟩ := Option.map_eq_some_iff.1 stackRun_closed
  simp only [stackView, Prod.mk.injEq] at hview
  obtain ⟨hlife, hstack, -⟩ := hview
  have hrun' : PluginRun stackLib stackWorld l w := session_of_serve hrun
  refine ⟨l, w, hrun', activeNow_iff.1 hstack, ?_⟩
  refine (active_dependencies_closed hrun' stackWorld_inactive (List.all_eq_true.1 hlife)).1 ?_
  have hkeeps : ∀ v ∈ l, ∀ w, KeepsClosed stackLib v.allows w v.request :=
    forall_of_serve (P := fun r A => ∀ w, KeepsClosed stackLib A w r)
      (by simp [KeepsClosed]) hrun
  exact fun v hv => hkeeps v hv v.before

end NeoTrader
