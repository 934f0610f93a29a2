import Mathlib.Tactic.NormNum
import NeoTrader.Cycle.Runner
import NeoTrader.Cycle.VetoRun

/-!
# The configuration that a cycle runs with

Each plugin has a stored configuration, over the defaults of its manifest. A cycle sends its context
to the runner, which makes the configuration of each hook from it.

* `StoredIsInert`: the stored configuration of a skill sets nothing, and that of a discipline nothing
  that the answers before it have not left;
* **`configInForce_iff`**: the one holds exactly where the other does.
-/

namespace NeoTrader

open Js

/-! ## The hooks that a cycle calls -/

section Calls

variable (folders : List PluginFolder) (env : CycleEnv)

def skillCalls : List HookCall :=
  match pluginsById folders [] with
  | .ok plugins => (runSkills plugins env.activeIds (cycleCtx env)).2.calls
  | .error _ => []

/-- The answers of the disciplines. -/
def cycleEvents : List VetoEvent :=
  let env := runnerEnv folders env
  vetoEvents env.runHook env.mlInjection (mlFirst env.disciplinePlugins)
    (initialVeto env.hookCtx (listField env.hookCtx "pending_signals"))

def disciplineCall (e : VetoEvent) : Option HookCall :=
  match findFolder folders e.disc.id with
  | .error _ => none
  | .ok folder =>
    match hookCall folder e.disc.id "on_cycle" (hookCtxFor e.disc e.handed.ctx env.mlInjection) with
    | .ok call => call
    | .error _ => none

/-- **The hooks that a cycle calls.** -/
def cycleCalls : List HookCall :=
  skillCalls folders env ++ (cycleEvents folders env).filterMap (disciplineCall folders env)

end Calls

/-! ## The property -/

def SameConfig (a b : Obj) : Prop := ∀ key, a.get key = b.get key

def HookCall.config (call : HookCall) : Obj :=
  match call.ctx.get "config" with
  | some (.obj fields) => fields
  | _ => []

def storedConfig (env : CycleEnv) (pluginId : String) : Obj :=
  ((env.activePlugins.find? fun p => p.id = pluginId).map ActivePlugin.config).getD []

/-- **The stored configurations are in force**: each hook receives the defaults of its plugin under
its stored configuration. -/
def ConfigInForce (folders : List PluginFolder) (env : CycleEnv) : Prop :=
  ∀ call ∈ cycleCalls folders env,
    SameConfig call.config (configDefaults call.manifest ++ storedConfig env call.pluginId)

def Hooked (folders : List PluginFolder) (pluginId : String) (m : RunnerManifest) : Prop :=
  ∃ folder fn, findFolder folders pluginId = .ok folder ∧ folder.readManifest = .ok m ∧
    hookFunction folder m "on_cycle" = .ok (some fn)

/-- **The stored configurations set nothing**: that of a skill no more than its defaults, and that of
a discipline no more than its defaults under what the answers before it have left. -/
structure StoredIsInert (folders : List PluginFolder) (env : CycleEnv) : Prop where
  skills : ∀ plugins, pluginsById folders [] = .ok plugins →
    ∀ p ∈ activeOfType env.activeIds "skill" plugins, ∀ fn, loadCycleHook p = .ok (some fn) →
      ∀ key v, (storedConfig env p.id).get key = some v → (configDefaults p.manifest).get key = some v
  disciplines : ∀ before e after, cycleEvents folders env = before ++ e :: after →
    ∀ m, Hooked folders e.disc.id m → ∀ left, asMapping (leftField "config" none before) = .ok left →
      SameConfig (configDefaults m ++ left) (configDefaults m ++ storedConfig env e.disc.id)

/-! ## Skills -/

section Skills

variable {context : Obj} {symbols : List String}

@[simp] theorem fail_calls (st : RunnerState) (pluginId stage error : String) :
    (st.fail pluginId stage error).calls = st.calls := rfl

@[simp] theorem collect_calls (st : RunnerState) (pluginId : String) (result : Obj) :
    (collect st pluginId result).calls = st.calls := by
  unfold collect
  split
  · rfl
  · dsimp only
    split <;> rfl

/-- The skills that a cycle calls: those with a hook. -/
inductive SkillCalled (context : Obj) (p : CyclePlugin) (call : HookCall) : Prop
  | called (fn : HookFn) (config : Obj) (hook : loadCycleHook p = .ok (some fn))
      (given : configFor context p = .ok config) (id : call.pluginId = p.id)
      (manifest : call.manifest = p.manifest) (received : call.config = config)

theorem skillCtx_config (config : Obj) (pending : List Json) :
    (skillCtx context symbols config pending).get "config" = some (.obj config) := by
  rw [skillCtx, Obj.get_append]
  rfl

variable (context symbols) in
/-- **One skill** adds its call, if it is called. -/
theorem runSkill_calls (st : RunnerState) (p : CyclePlugin) :
    (∃ call, (runSkill context symbols st p).calls = st.calls ++ [call] ∧
      SkillCalled context p call) ∨
    ((runSkill context symbols st p).calls = st.calls ∧ ∀ call, ¬ SkillCalled context p call) := by
  unfold runSkill
  cases hload : loadCycleHook p with
  | error e =>
    refine Or.inr ⟨rfl, ?_⟩
    rintro call ⟨fn, config, hook, -, -, -, -⟩
    rw [hload] at hook
    cases hook
  | ok loaded =>
    cases loaded with
    | none =>
      refine Or.inr ⟨rfl, ?_⟩
      rintro call ⟨fn, config, hook, -, -, -, -⟩
      rw [hload] at hook
      cases hook
    | some fn =>
      cases hconfig : configFor context p with
      | error e =>
        refine Or.inr ⟨rfl, ?_⟩
        rintro call ⟨fn, config, -, given, -, -, -⟩
        rw [hconfig] at given
        cases given
      | ok config =>
        refine Or.inl ⟨⟨p.id, p.manifest, fn, skillCtx context symbols config st.pendingSignals⟩, ?_,
          fn, config, hload, hconfig, rfl, rfl, ?_⟩
        · dsimp only
          split <;> simp
        · rw [HookCall.config, skillCtx_config]

/-- **A run of skills** calls those with a hook. -/
theorem mem_foldl_calls (plugins : List CyclePlugin) (st : RunnerState) (call : HookCall)
    (hmem : call ∈ (plugins.foldl (runSkill context symbols) st).calls) :
    call ∈ st.calls ∨ ∃ p ∈ plugins, SkillCalled context p call := by
  induction plugins generalizing st with
  | nil => exact Or.inl hmem
  | cons p rest ih =>
    rcases ih _ hmem with hst | ⟨q, hq, hcalled⟩
    · rcases runSkill_calls context symbols st p with
        ⟨call', hcalls, hcalled⟩ | ⟨hcalls, -⟩
      · rw [hcalls, List.mem_append, List.mem_singleton] at hst
        rcases hst with hst | rfl
        · exact Or.inl hst
        · exact Or.inr ⟨p, List.mem_cons_self, hcalled⟩
      · rw [hcalls] at hst
        exact Or.inl hst
    · exact Or.inr ⟨q, List.mem_cons_of_mem _ hq, hcalled⟩

theorem foldl_calls_of_mem (plugins : List CyclePlugin) (st : RunnerState) :
    (∀ call ∈ st.calls, call ∈ (plugins.foldl (runSkill context symbols) st).calls) ∧
    ∀ p ∈ plugins, (∃ call, SkillCalled context p call) →
      ∃ call ∈ (plugins.foldl (runSkill context symbols) st).calls, SkillCalled context p call := by
  induction plugins generalizing st with
  | nil => exact ⟨fun _ h => h, fun p hp => absurd hp List.not_mem_nil⟩
  | cons p rest ih =>
    obtain ⟨hkeep, hrest⟩ := ih (runSkill context symbols st p)
    rcases runSkill_calls context symbols st p with
      ⟨call', hcalls, hcalled⟩ | ⟨hcalls, hnone⟩
    · refine ⟨fun call hcall => hkeep call (hcalls ▸ List.mem_append_left _ hcall), ?_⟩
      intro q hq hq'
      rcases List.mem_cons.1 hq with rfl | hq
      · exact ⟨call', hkeep call' (hcalls ▸ List.mem_append_right _ List.mem_cons_self), hcalled⟩
      · exact hrest q hq hq'
    · refine ⟨fun call hcall => hkeep call (hcalls ▸ hcall), ?_⟩
      rintro q hq ⟨call, hcall⟩
      rcases List.mem_cons.1 hq with rfl | hq
      · exact absurd hcall (hnone call)
      · exact hrest q hq ⟨call, hcall⟩

theorem configFor_cycleCtx (env : CycleEnv) (p : CyclePlugin) :
    configFor (cycleCtx env) p = .ok (configDefaults p.manifest) := by
  show Except.ok (configDefaults p.manifest ++ [] ++ []) = _
  rw [List.append_nil, List.append_nil]

theorem foldl_addSymbols_calls (plugins : List CyclePlugin) (acc : List String × RunnerState) :
    (plugins.foldl addSymbols acc).2.calls = acc.2.calls := by
  induction plugins generalizing acc with
  | nil => rfl
  | cons p rest ih =>
    rw [List.foldl_cons, ih, addSymbols]
    split <;> rfl

variable (context) in
theorem runSkills_calls (plugins : List CyclePlugin) (activeIds : List String) :
    (∀ call ∈ (runSkills plugins activeIds context).2.calls,
      ∃ p ∈ activeOfType activeIds "skill" plugins, SkillCalled context p call) ∧
    ∀ p ∈ activeOfType activeIds "skill" plugins, (∃ call, SkillCalled context p call) →
      ∃ call ∈ (runSkills plugins activeIds context).2.calls, SkillCalled context p call := by
  refine ⟨fun call hcall => ?_, (foldl_calls_of_mem _ _).2⟩
  rcases mem_foldl_calls _ _ _ hcall with hst | hp
  · rw [foldl_addSymbols_calls] at hst
    cases hst
  · exact hp

end Skills

theorem sameConfig_iff (defaults stored : Obj) :
    SameConfig defaults (defaults ++ stored) ↔
      ∀ key v, stored.get key = some v → defaults.get key = some v := by
  unfold SameConfig
  simp only [Obj.get_append]
  constructor
  · intro h key v hv
    rw [h key, hv]
    rfl
  · intro h key
    cases hv : stored.get key with
    | none => rfl
    | some v => exact h key v hv

/-- **The skills receive what is stored** exactly where it sets nothing. -/
theorem skills_inForce_iff (folders : List PluginFolder) (env : CycleEnv) :
    (∀ call ∈ skillCalls folders env,
      SameConfig call.config (configDefaults call.manifest ++ storedConfig env call.pluginId)) ↔
    ∀ plugins, pluginsById folders [] = .ok plugins →
      ∀ p ∈ activeOfType env.activeIds "skill" plugins, ∀ fn, loadCycleHook p = .ok (some fn) →
        ∀ key v, (storedConfig env p.id).get key = some v →
          (configDefaults p.manifest).get key = some v := by
  have hcalled : ∀ {p call}, SkillCalled (cycleCtx env) p call →
      (SameConfig call.config (configDefaults call.manifest ++ storedConfig env call.pluginId) ↔
        ∀ key v, (storedConfig env p.id).get key = some v →
          (configDefaults p.manifest).get key = some v) := by
    rintro p call ⟨fn, config, -, given, id, manifest, received⟩
    rw [configFor_cycleCtx] at given
    rw [id, manifest, received, ← Except.ok.inj given]
    exact sameConfig_iff _ _
  unfold skillCalls
  cases pluginsById folders [] with
  | error e => exact ⟨(fun _ plugins h => by cases h), fun _ call h => by cases h⟩
  | ok plugins =>
    obtain ⟨hfrom, hto⟩ := runSkills_calls (cycleCtx env) plugins env.activeIds
    constructor
    · rintro h _ ⟨⟩ p hp fn hfn
      obtain ⟨call, hcall, hskill⟩ := hto p hp ⟨⟨p.id, p.manifest, fn,
        skillCtx (cycleCtx env) [] (configDefaults p.manifest) []⟩, fn, _, hfn,
          configFor_cycleCtx env p, rfl, rfl, by rw [HookCall.config, skillCtx_config]⟩
      exact (hcalled hskill).1 (h call hcall)
    · intro h call hcall
      obtain ⟨p, hp, hskill⟩ := hfrom call hcall
      obtain ⟨fn, config, hfn, given, id, manifest, received⟩ := id hskill
      exact (hcalled hskill).2 (h plugins rfl p hp fn hfn)

/-! ## Disciplines -/

theorem leftField_init (key : String) (init : Option Json) (events : List VetoEvent) :
    leftField key init events = (leftField key none events).or init := by
  unfold leftField
  induction events generalizing init with
  | nil => rfl
  | cons e rest ih =>
    rw [List.foldl_cons, List.foldl_cons, ih, ih ((e.reply.field key).or none), Option.or_none,
      Option.or_assoc]

theorem mlInjection_config (env : CycleEnv) : env.mlInjection.get "config" = none := by
  unfold CycleEnv.mlInjection
  split <;> rfl

theorem hookCtxFor_config (disc : ActivePlugin) (ctx : Obj) (env : CycleEnv) :
    (hookCtxFor disc ctx env.mlInjection).get "config" = ctx.get "config" := by
  unfold hookCtxFor
  split
  · rw [Obj.get_append, mlInjection_config]
    rfl
  · rfl

theorem cmdRunCycle_config {folders : List PluginFolder} {activeIds : List String} {context : Obj}
    {result : Obj} (h : cmdRunCycle folders activeIds context = .ok result) :
    result.get "config" = none := by
  unfold cmdRunCycle at h
  cases hplugins : pluginsById folders [] with
  | error e =>
    rw [hplugins] at h
    cases h
  | ok plugins =>
    rw [hplugins] at h
    cases h
    rw [Obj.get_append]
    split <;> rfl

theorem hookCtx_config (folders : List PluginFolder) (env : CycleEnv) :
    (runnerEnv folders env).hookCtx.get "config" = none ∨
      (runnerEnv folders env).hookCtx.get "config" = some (.obj []) := by
  have hget : ∀ base, (hookCtx (runnerEnv folders env) base).get "config" = base.get "config" := by
    intro base
    rw [hookCtx, Obj.get_append]
    rfl
  rw [CycleEnv.hookCtx, hget]
  cases h : cmdRunCycle folders (runnerEnv folders env).activeIds
      (cycleCtx (runnerEnv folders env)) with
  | error e =>
    have hreply : (runnerEnv folders env).runCycle (runnerEnv folders env).activeIds
        (cycleCtx (runnerEnv folders env)) = { ok := false, error := some e } :=
      congrArg replyOf h
    rw [hreply]
    exact Or.inr rfl
  | ok result =>
    have hreply : (runnerEnv folders env).runCycle (runnerEnv folders env).activeIds
        (cycleCtx (runnerEnv folders env)) = { ok := true, result := some result } :=
      congrArg replyOf h
    rw [hreply]
    exact Or.inl (cmdRunCycle_config h)

/-- **The configuration that a discipline is handed** is what the answers before it have left. -/
theorem handed_config {folders : List PluginFolder} {env : CycleEnv} {before after : List VetoEvent}
    {e : VetoEvent} (h : cycleEvents folders env = before ++ e :: after) :
    asMapping ((hookCtxFor e.disc e.handed.ctx env.mlInjection).get "config") =
      asMapping (leftField "config" none before) := by
  have hinit : asMapping ((runnerEnv folders env).hookCtx.get "config") = .ok [] := by
    rcases hookCtx_config folders env with hnone | hempty
    · rw [hnone]
      rfl
    · rw [hempty]
      rfl
  rw [hookCtxFor_config, handed_field _ _ h (by decide), leftField_init]
  cases leftField "config" none before with
  | some v => rfl
  | none =>
    refine Eq.trans ?_ hinit
    exact congrArg asMapping (Obj.get_set_of_ne _ (by decide) _)

/-- **A discipline is called** where it has a hook and what it is handed is an object. -/
theorem disciplineCall_eq_some_iff (folders : List PluginFolder) (env : CycleEnv) (e : VetoEvent)
    (call : HookCall) :
    disciplineCall folders env e = some call ↔
    ∃ folder m fn given, findFolder folders e.disc.id = .ok folder ∧ folder.readManifest = .ok m ∧
      hookFunction folder m "on_cycle" = .ok (some fn) ∧
      asMapping ((hookCtxFor e.disc e.handed.ctx env.mlInjection).get "config") = .ok given ∧
      call = ⟨e.disc.id, m, fn, (hookCtxFor e.disc e.handed.ctx env.mlInjection).set "config"
        (.obj (configDefaults m ++ given))⟩ := by
  unfold disciplineCall
  cases hfolder : findFolder folders e.disc.id with
  | error err => exact ⟨(fun h => by cases h), fun ⟨_, _, _, _, h, _⟩ => by cases h⟩
  | ok folder =>
    have hcall := hookCall_eq_some_iff folder e.disc.id "on_cycle"
      (hookCtxFor e.disc e.handed.ctx env.mlInjection) call
    constructor
    · intro h
      have hsome : hookCall folder e.disc.id "on_cycle"
          (hookCtxFor e.disc e.handed.ctx env.mlInjection) = .ok (some call) := by
        dsimp only at h
        split at h
        case h_1 call' heq => rw [heq, h]
        case h_2 => cases h
      obtain ⟨m, fn, given, hm, hfn, hgiven, hc⟩ := hcall.1 hsome
      exact ⟨folder, m, fn, given, rfl, hm, hfn, hgiven, hc⟩
    · rintro ⟨folder', m, fn, given, ⟨⟩, hm, hfn, hgiven, hc⟩
      dsimp only
      rw [hcall.2 ⟨m, fn, given, hm, hfn, hgiven, hc⟩]

/-- **The disciplines receive what is stored** exactly where it sets nothing that is not left. -/
theorem disciplines_inForce_iff (folders : List PluginFolder) (env : CycleEnv) :
    (∀ call ∈ (cycleEvents folders env).filterMap (disciplineCall folders env),
      SameConfig call.config (configDefaults call.manifest ++ storedConfig env call.pluginId)) ↔
    ∀ before e after, cycleEvents folders env = before ++ e :: after →
      ∀ m, Hooked folders e.disc.id m →
        ∀ left, asMapping (leftField "config" none before) = .ok left →
          SameConfig (configDefaults m ++ left) (configDefaults m ++ storedConfig env e.disc.id) := by
  constructor
  · rintro h before e after hevents m ⟨folder, fn, hfolder, hm, hfn⟩ left hleft
    have hcall := (disciplineCall_eq_some_iff folders env e _).2 ⟨folder, m, fn, left, hfolder, hm,
      hfn, (handed_config hevents).trans hleft, rfl⟩
    have hmem : e ∈ cycleEvents folders env := by
      rw [hevents]
      exact List.mem_append_right _ List.mem_cons_self
    have hsame := h _ (List.mem_filterMap.2 ⟨e, hmem, hcall⟩)
    rw [HookCall.config, Obj.get_set_self] at hsame
    exact hsame
  · intro h call hcall
    obtain ⟨e, he, hcall⟩ := List.mem_filterMap.1 hcall
    obtain ⟨before, after, hevents⟩ := List.append_of_mem he
    obtain ⟨folder, m, fn, given, hfolder, hm, hfn, hgiven, rfl⟩ :=
      (disciplineCall_eq_some_iff folders env e call).1 hcall
    rw [HookCall.config, Obj.get_set_self]
    exact h before e after hevents m ⟨folder, fn, hfolder, hm, hfn⟩ given
      ((handed_config hevents).symm.trans hgiven)

/-! ## The property, exactly -/

/-- **The stored configurations are in force** exactly where they set nothing: for all folders,
manifests, stored configurations and cycles. -/
theorem configInForce_iff (folders : List PluginFolder) (env : CycleEnv) :
    ConfigInForce folders env ↔ StoredIsInert folders env := by
  have hsplit : ConfigInForce folders env ↔
      (∀ call ∈ skillCalls folders env,
        SameConfig call.config (configDefaults call.manifest ++ storedConfig env call.pluginId)) ∧
      ∀ call ∈ (cycleEvents folders env).filterMap (disciplineCall folders env),
        SameConfig call.config (configDefaults call.manifest ++ storedConfig env call.pluginId) := by
    simp only [ConfigInForce, cycleCalls, List.mem_append, or_imp, forall_and]
  rw [hsplit, skills_inForce_iff, disciplines_inForce_iff]
  exact ⟨fun ⟨hs, hd⟩ => ⟨hs, hd⟩, fun ⟨hs, hd⟩ => ⟨hs, hd⟩⟩

/-! ## A limit that is lost -/

def riskManagerManifest : RunnerManifest where
  plugin := some { id := some "risk-manager", type := some "discipline" }
  hooks := [("on_cycle", "hooks/cycle.py")]
  config := [("max_position_pct", .obj [("type", .str "number"), ("default", .num (.fin (2 / 5)))])]

def riskManagerFolder : PluginFolder where
  name := "risk-manager"
  manifest := .ok (some riskManagerManifest)
  modules path := if path = ["hooks", "cycle.py"] then
    some (.loaded fun hook => if hook = "on_cycle" then some fun _ => .ok (.obj []) else none) else none

/-- A cycle in which the risk manager has a stored limit. -/
def limitedCycle (limit : Json) : CycleEnv where
  cycleId := "c1"
  activePlugins := [{ riskManager with config := [("max_position_pct", limit)] }]
  symbols := ["SPY"]
  ohlcv := []
  capitalSetting := none
  runCycle _ _ := { ok := true }
  runHook _ _ := { ok := true }
  runExtra _ _ := { ok := true }
  preStage _ := false

/-- **A limit that is stored in vain**: the risk manager receives the default of its manifest. -/
theorem limit_lost : ¬ ∀ (folders : List PluginFolder) (env : CycleEnv),
    ConfigInForce folders env := by
  intro hall
  obtain ⟨e, after, hevents, hdisc⟩ : ∃ e after,
      cycleEvents [riskManagerFolder] (limitedCycle (.num (.fin (1 / 20)))) = [] ++ e :: after ∧
        e.disc.id = "risk-manager" := ⟨_, _, rfl, rfl⟩
  have hhooked : Hooked [riskManagerFolder] e.disc.id riskManagerManifest := by
    rw [hdisc]
    exact ⟨riskManagerFolder, _, rfl, rfl, rfl⟩
  have h := (disciplines_inForce_iff [riskManagerFolder] (limitedCycle (.num (.fin (1 / 20))))).1
    (fun call hcall => hall _ _ call (List.mem_append_right _ hcall)) [] e after hevents _ hhooked
    [] rfl "max_position_pct"
  rw [hdisc] at h
  have hlost : some (Json.num (.fin (2 / 5))) = some (Json.num (.fin (1 / 20))) := h
  simp only [Option.some.injEq, Json.num.injEq, Number.fin.injEq] at hlost
  norm_num at hlost

end NeoTrader
