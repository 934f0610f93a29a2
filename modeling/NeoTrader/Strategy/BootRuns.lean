import NeoTrader.Common.Retry
import NeoTrader.Strategy.SchedulerText

/-!
# What the steps of the bootstrap leave

Whichever operations fail, a step leaves the database somewhere between where it was and where the
complete step leaves it.

* **`momentumTried_eq`**, **`pretestTried_eq`**: what the two steps leave, whatever fails;
* **`configured_momentumTried`**, **`withSeeds_seedTried`**: steps that fail move towards that;
* `NothingCaught`, `SeedsQuiet`: no operation whose error is caught fails;
  **`configured_complete`**, **`portfolio_foldl_seedTried`**: then the steps are complete.
-/

namespace NeoTrader

namespace Bootstrap

open Js Await Prog

/-! ## What the steps do -/

/-- A setting is written. -/
def BootWorld.set (w : BootWorld) (key value : String) : BootWorld :=
  ⟨{ w.db with settings := kvSet w.db.settings key value }, w.written ++ [.kvSet key value]⟩

/-- A plugin is switched on or off. -/
def BootWorld.setActive (w : BootWorld) (id : String) (active : Bool) : BootWorld :=
  ⟨w.db.setActive id active, w.written ++ [.setActive id active]⟩

/-- A plugin is switched on or off, if that does not fail. -/
def activeTried (fails : Failures) (active : Bool) (w : BootWorld) (id : String) : BootWorld :=
  if fails (.setActive id active) then w else w.setActive id active

def pluginsTried (fails : Failures) (w : BootWorld) : BootWorld :=
  pluginsToDeactivate.foldl (activeTried fails false)
    (pluginsToActivate.foldl (activeTried fails true) w)

section Runs

variable {numeral : Number → String} {fails : Failures} {w : BootWorld}

theorem handle_of_fails {op : BootOp} (h : fails op = true) :
    handle fails op w = (.error .database, w) := if_pos h

theorem handle_kvGet {key : String} (h : fails (.kvGet key) = false) :
    handle fails (.kvGet key) w = (.ok (kvGet w.db.settings key), w) :=
  if_neg (Bool.eq_false_iff.1 h)

theorem handle_kvSet {key value : String} (h : fails (.kvSet key value) = false) :
    handle fails (.kvSet key value) w = (.ok (), w.set key value) :=
  if_neg (Bool.eq_false_iff.1 h)

theorem run_bind_fails {op : BootOp} {α : Type} (h : fails op = true)
    (f : bootSig.Ans op → Prog bootSig α) :
    (perform (S := bootSig) op >>= f).run (handle fails) w = (.error .database, w) :=
  run_bind_error (by rw [run_perform, handle_of_fails h])

theorem run_bind_kvGet {key : String} {α : Type} (h : fails (.kvGet key) = false)
    (f : Option String → Prog bootSig α) :
    (perform (S := bootSig) (.kvGet key) >>= f).run (handle fails) w =
      (f (kvGet w.db.settings key)).run (handle fails) w :=
  run_bind_ok (by rw [run_perform, handle_kvGet h])

theorem run_bind_kvSet {key value : String} {α : Type} (h : fails (.kvSet key value) = false)
    (f : Unit → Prog bootSig α) :
    (perform (S := bootSig) (.kvSet key value) >>= f).run (handle fails) w =
      (f ()).run (handle fails) (w.set key value) :=
  run_bind_ok (by rw [run_perform, handle_kvSet h])

theorem run_kvSet (key value : String) (w : BootWorld) :
    ((perform (S := bootSig) (.kvSet key value)).run (handle fails) w).2 =
      if fails (.kvSet key value) then w else w.set key value := by
  rw [run_perform]
  by_cases h : fails (.kvSet key value) = true
  · rw [handle_of_fails h, if_pos h]
  · rw [handle_kvSet (Bool.eq_false_iff.2 h), if_neg h]

theorem run_setPluginActive (active : Bool) (id : String) (w : BootWorld) :
    (setPluginActive id active).run (handle fails) w = (.ok (), activeTried fails active w id) := by
  rw [setPluginActive, run_bind_ok (run_attempt _), run_perform]
  show (Except.ok (), _) = _
  by_cases h : fails (.setActive id active) = true
  · rw [handle_of_fails h, activeTried, if_pos h]
  · rw [activeTried, if_neg h, handle, if_neg h]
    rfl

def schedulerTried (numeral : Number → String) (fails : Failures) (w : BootWorld) : BootWorld :=
  ((writeScheduler numeral).run (handle fails) w).2

theorem run_enableScheduler :
    (enableScheduler numeral).run (handle fails) w = (.ok (), schedulerTried numeral fails w) := by
  rw [enableScheduler, run_bind_ok (run_attempt _)]
  rfl

theorem schedulerTried_eq : schedulerTried numeral fails w =
    if fails (.kvGet schedulerKey) then w
    else (enabledText numeral (kvGet w.db.settings schedulerKey)).elim w fun text =>
      if fails (.kvSet schedulerKey text) then w else w.set schedulerKey text := by
  rw [schedulerTried, writeScheduler]
  by_cases hget : fails (.kvGet schedulerKey) = true
  · rw [if_pos hget, run_bind_fails hget]
  · rw [if_neg hget, run_bind_kvGet (Bool.eq_false_iff.2 hget)]
    cases enabledText numeral (kvGet w.db.settings schedulerKey) with
    | none => rfl
    | some text => exact run_kvSet schedulerKey text w

/-- Everything of the momentum step but its flag, where nothing is thrown. -/
def configured (numeral : Number → String) (fails : Failures) (w : BootWorld) : BootWorld :=
  schedulerTried numeral fails
    ((pluginsTried fails (w.set universeKey momentumUniverse)).set executionRealKey "false")

/-- The momentum step has been applied. -/
def Db.applied (db : Db) : Bool := kvBool (kvGet db.settings bootstrapAppliedKey) false

/-- The pretest portfolios have been created. -/
def Db.seeded (db : Db) : Bool := kvBool (kvGet db.settings pretestSeedKey) false

/-- The momentum step, as far as it gets. -/
def momentumTried (numeral : Number → String) (fails : Failures) (w : BootWorld) : BootWorld :=
  ((applyMomentumBootstrap numeral).run (handle fails) w).2

/-- **What the momentum step leaves**, whatever fails. -/
theorem momentumTried_eq : momentumTried numeral fails w =
    if fails (.kvGet bootstrapAppliedKey) ∨ w.db.applied ∨
      fails (.kvSet universeKey momentumUniverse) then w
    else if fails (.kvSet executionRealKey "false") then
      pluginsTried fails (w.set universeKey momentumUniverse)
    else if fails (.kvSet bootstrapAppliedKey "true") then configured numeral fails w
    else (configured numeral fails w).set bootstrapAppliedKey "true" := by
  rw [momentumTried, applyMomentumBootstrap]
  by_cases hget : fails (.kvGet bootstrapAppliedKey) = true
  · rw [run_bind_fails hget, if_pos (.inl hget)]
  rw [run_bind_kvGet (Bool.eq_false_iff.2 hget)]
  by_cases happlied : kvBool (kvGet w.db.settings bootstrapAppliedKey) false = true
  · rw [if_pos happlied, if_pos (.inr (.inl happlied))]
    rfl
  rw [if_neg happlied]
  by_cases huniverse : fails (.kvSet universeKey momentumUniverse) = true
  · rw [run_bind_fails huniverse, if_pos (.inr (.inr huniverse))]
  rw [run_bind_kvSet (Bool.eq_false_iff.2 huniverse),
    if_neg (by simp [hget, huniverse, Db.applied, happlied]),
    run_bind_ok (run_forEach (run_setPluginActive true) _),
    run_bind_ok (run_forEach (run_setPluginActive false) _)]
  by_cases hexec : fails (.kvSet executionRealKey "false") = true
  · rw [run_bind_fails hexec, if_pos hexec]
    rfl
  rw [run_bind_kvSet (Bool.eq_false_iff.2 hexec), if_neg hexec, run_bind_ok run_enableScheduler]
  exact run_kvSet bootstrapAppliedKey "true" _

/-! ## The pretest step -/

def BootWorld.create (w : BootWorld) (row : PretestRow) : BootWorld :=
  ⟨{ w.db with portfolios := w.db.portfolios.put row }, w.written ++ [.createPortfolio row]⟩

def seedTried (numeral : Number → String) (fails : Failures) (w : BootWorld)
    (spec : PretestPortfolioSeed) : BootWorld :=
  ((createPretestPortfolio numeral spec).run (handle fails) w).2

theorem seedTried_eq (spec : PretestPortfolioSeed) : seedTried numeral fails w spec =
    if fails (.findPortfolio spec.name) ∨ w.db.portfolios.get? spec.name ≠ none ∨
      fails (.createPortfolio (spec.row numeral)) then w
    else w.create (spec.row numeral) := by
  rw [seedTried, createPretestPortfolio]
  by_cases hfind : fails (.findPortfolio spec.name) = true
  · rw [run_bind_fails hfind, if_pos (.inl hfind)]
  have hrun : (perform (S := bootSig) (.findPortfolio spec.name)).run (handle fails) w =
      (.ok (w.db.portfolios.get? spec.name), w) := by
    rw [run_perform, handle, if_neg hfind]
  rw [run_bind_ok hrun]
  cases hget : w.db.portfolios.get? spec.name with
  | some row =>
    show w = _
    rw [if_pos (.inr (.inl (by simp)))]
  | none =>
    show ((perform (S := bootSig) _).run (handle fails) w).2 = _
    rw [run_perform]
    by_cases hcreate : fails (.createPortfolio (spec.row numeral)) = true
    · rw [handle_of_fails hcreate, if_pos (.inr (.inr hcreate))]
    · rw [if_neg (by simp [hfind, hcreate]), handle, if_neg hcreate]
      have hfree : w.db.portfolios.get? (spec.row numeral).name = none := hget
      simp only [hfree, dif_pos, BootWorld.create, Store.Indexed.put]

/-- The pretest step, as far as it gets. -/
def pretestTried (numeral : Number → String) (fails : Failures) (w : BootWorld) : BootWorld :=
  ((seedPretestPortfoliosIfNeeded numeral).run (handle fails) w).2

/-- **What the pretest step leaves**, whatever fails. -/
theorem pretestTried_eq : pretestTried numeral fails w =
    if fails (.kvGet pretestSeedKey) ∨ w.db.seeded then w
    else if fails (.kvSet pretestSeedKey "true") then
      pretestPortfoliosToSeed.foldl (seedTried numeral fails) w
    else (pretestPortfoliosToSeed.foldl (seedTried numeral fails) w).set pretestSeedKey "true" := by
  have hbody (spec : PretestPortfolioSeed) (w : BootWorld) :
      ((createPretestPortfolio numeral spec).attempt >>= fun _ => .ret ()).run (handle fails) w =
        (.ok (), seedTried numeral fails w spec) := by
    rw [run_bind_ok (run_attempt _)]
    rfl
  rw [pretestTried, seedPretestPortfoliosIfNeeded]
  by_cases hget : fails (.kvGet pretestSeedKey) = true
  · rw [run_bind_fails hget, if_pos (.inl hget)]
  rw [run_bind_kvGet (Bool.eq_false_iff.2 hget)]
  by_cases hseeded : kvBool (kvGet w.db.settings pretestSeedKey) false = true
  · rw [if_pos hseeded, if_pos (.inr hseeded)]
    rfl
  rw [if_neg hseeded, if_neg (by simp [hget, Db.seeded, hseeded]), seedPretestPortfolios,
    run_bind_ok (run_forEach hbody _)]
  exact run_kvSet pretestSeedKey "true" _

/-- **A boot** is one step after the other. -/
theorem boot_eq (db : Db) :
    boot numeral fails db = pretestTried numeral fails (momentumTried numeral fails ⟨db, []⟩) := by
  rw [boot, onModuleInit, run_bind_ok (run_attempt _), run_bind_ok (run_attempt _)]
  rfl

end Runs

/-! ## What the momentum step is about -/

/-- What the momentum step writes. -/
@[ext] structure MomentumData where
  symbols : Option String
  executionReal : Option String
  scheduler : Option String
  active : String → Option Bool

/-- What the database says about it. -/
def Db.momentum (db : Db) : MomentumData where
  symbols := kvGet db.settings universeKey
  executionReal := kvGet db.settings executionRealKey
  scheduler := kvGet db.settings schedulerKey
  active id := (db.plugins.get? id).map PluginRow.active

def MomentumData.switch (d : MomentumData) (id : String) (active : Bool) : MomentumData :=
  { d with active := fun x => if x = id then (d.active x).map fun _ => active else d.active x }

/-- What a complete momentum step leaves. -/
def MomentumData.configured (numeral : Number → String) (d : MomentumData) : MomentumData where
  symbols := some momentumUniverse
  executionReal := some "false"
  scheduler := (enabledText numeral d.scheduler).or d.scheduler
  active id :=
    if id ∈ pluginsToDeactivate then (d.active id).map fun _ => false
    else if id ∈ pluginsToActivate then (d.active id).map fun _ => true
    else d.active id

section Momentum

variable {numeral : Number → String} {fails : Failures} {w : BootWorld}

theorem kvGet_set (key value key' : String) : kvGet (w.set key value).db.settings key' =
    if key' = key then some value else kvGet w.db.settings key' := kvGet_kvSet

theorem momentum_set_universe (value : String) : (w.set universeKey value).db.momentum =
    { w.db.momentum with symbols := some value } := by
  ext1
  · exact kvGet_set _ _ _
  · exact kvGet_set _ _ _
  · exact kvGet_set _ _ _
  · rfl

theorem momentum_set_executionReal (value : String) :
    (w.set executionRealKey value).db.momentum =
      { w.db.momentum with executionReal := some value } := by
  ext1
  · exact kvGet_set _ _ _
  · exact kvGet_set _ _ _
  · exact kvGet_set _ _ _
  · rfl

theorem momentum_set_scheduler (value : String) : (w.set schedulerKey value).db.momentum =
    { w.db.momentum with scheduler := some value } := by
  ext1
  · exact kvGet_set _ _ _
  · exact kvGet_set _ _ _
  · exact kvGet_set _ _ _
  · rfl

theorem momentum_set_flag {key : String} (h : key ∈ [bootstrapAppliedKey, pretestSeedKey])
    (value : String) : (w.set key value).db.momentum = w.db.momentum := by
  have hne : ∀ k ∈ [bootstrapAppliedKey, pretestSeedKey],
      universeKey ≠ k ∧ executionRealKey ≠ k ∧ schedulerKey ≠ k := by decide
  obtain ⟨huniverse, hexec, hscheduler⟩ := hne key h
  ext1
  · exact (kvGet_set _ _ _).trans (if_neg huniverse)
  · exact (kvGet_set _ _ _).trans (if_neg hexec)
  · exact (kvGet_set _ _ _).trans (if_neg hscheduler)
  · rfl

theorem momentum_setActive (id : String) (active : Bool) :
    (w.setActive id active).db.momentum = w.db.momentum.switch id active := by
  ext1
  · rfl
  · rfl
  · rfl
  · funext x
    show ((w.db.setActive id active).plugins.get? x).map _ = _
    rw [Db.setActive, Store.Indexed.get?_update]
    by_cases hx : x = id
    · simp [MomentumData.switch, Db.momentum, hx, Function.comp_def]
    · simp [MomentumData.switch, Db.momentum, hx]

/-! ## Towards the complete step -/

/-- The value that a plugin is switched to. -/
def Listed (id : String) (active : Bool) : Prop :=
  if active then id ∈ pluginsToActivate else id ∈ pluginsToDeactivate

theorem not_listed_both {id : String} (h : id ∈ pluginsToActivate) : id ∉ pluginsToDeactivate := by
  revert id
  decide

theorem configured_switch {id : String} {active : Bool} (h : Listed id active)
    (d : MomentumData) : (d.switch id active).configured numeral = d.configured numeral := by
  ext1
  · rfl
  · rfl
  · rfl
  · funext x
    by_cases hx : x = id
    · subst hx
      cases active with
      | true =>
        have hact : x ∈ pluginsToActivate := h
        simp [MomentumData.configured, MomentumData.switch, not_listed_both hact, hact,
          Function.comp_def]
      | false =>
        have hdeact : x ∈ pluginsToDeactivate := h
        simp [MomentumData.configured, MomentumData.switch, hdeact, Function.comp_def]
    · simp [MomentumData.configured, MomentumData.switch, hx]

theorem foldl_keeps {α β γ : Type} {step : α → β → α} (value : α → γ) {l : List β}
    (h : ∀ a, ∀ b ∈ l, value (step a b) = value a) (a : α) : value (l.foldl step a) = value a := by
  induction l generalizing a with
  | nil => rfl
  | cons b l ih =>
    rw [List.foldl_cons, ih (fun a b hb => h a b (List.mem_cons_of_mem _ hb)),
      h a b List.mem_cons_self]

theorem configured_activeTried {id : String} {active : Bool} (h : Listed id active)
    (w : BootWorld) : (activeTried fails active w id).db.momentum.configured numeral =
      w.db.momentum.configured numeral := by
  rw [activeTried]
  split_ifs
  · rfl
  · rw [momentum_setActive, configured_switch h]

theorem configured_pluginsTried (fails : Failures) (w : BootWorld) :
    (pluginsTried fails w).db.momentum.configured numeral =
      w.db.momentum.configured numeral := by
  rw [pluginsTried,
    foldl_keeps (fun w => w.db.momentum.configured numeral) fun w id hid =>
      configured_activeTried (show Listed id false from hid) w,
    foldl_keeps (fun w => w.db.momentum.configured numeral) fun w id hid =>
      configured_activeTried (show Listed id true from hid) w]

theorem kvGet_pluginsTried (fails : Failures) (w : BootWorld) (key : String) :
    kvGet (pluginsTried fails w).db.settings key = kvGet w.db.settings key := by
  have hstep (active : Bool) (w : BootWorld) (id : String) :
      kvGet (activeTried fails active w id).db.settings key = kvGet w.db.settings key := by
    rw [activeTried]
    split_ifs <;> rfl
  rw [pluginsTried, foldl_keeps (fun w => kvGet w.db.settings key) fun w id _ => hstep false w id,
    foldl_keeps (fun w => kvGet w.db.settings key) fun w id _ => hstep true w id]

theorem kvGet_schedulerTried {key : String} (h : key ≠ schedulerKey) (w : BootWorld) :
    kvGet (schedulerTried numeral fails w).db.settings key = kvGet w.db.settings key := by
  rw [schedulerTried_eq]
  split_ifs
  · rfl
  · cases enabledText numeral (kvGet w.db.settings schedulerKey) with
    | none => rfl
    | some text =>
      rw [Option.elim_some]
      split_ifs
      · rfl
      · rw [kvGet_set, if_neg h]

theorem kvGet_configured {key : String} (h : key ∉ [universeKey, executionRealKey, schedulerKey])
    (w : BootWorld) :
    kvGet (configured numeral fails w).db.settings key = kvGet w.db.settings key := by
  simp only [List.mem_cons, List.not_mem_nil, or_false, not_or] at h
  rw [configured, kvGet_schedulerTried h.2.2, kvGet_set, if_neg h.2.1, kvGet_pluginsTried,
    kvGet_set, if_neg h.1]

theorem portfolios_pluginsTried (w : BootWorld) :
    (pluginsTried fails w).db.portfolios = w.db.portfolios := by
  have hactive (active : Bool) (w : BootWorld) (id : String) :
      (activeTried fails active w id).db.portfolios = w.db.portfolios := by
    rw [activeTried]
    split_ifs <;> rfl
  rw [pluginsTried, foldl_keeps (fun w => w.db.portfolios) fun w id _ => hactive false w id,
    foldl_keeps (fun w => w.db.portfolios) fun w id _ => hactive true w id]

theorem portfolios_configured (w : BootWorld) :
    (configured numeral fails w).db.portfolios = w.db.portfolios := by
  rw [configured, schedulerTried_eq]
  split_ifs
  · exact portfolios_pluginsTried _
  · cases enabledText numeral (kvGet _ schedulerKey) with
    | none => exact portfolios_pluginsTried _
    | some text =>
      rw [Option.elim_some]
      split_ifs
      · exact portfolios_pluginsTried _
      · exact portfolios_pluginsTried _

section Towards

variable (hinterval : Json.Reads (numeral (.fin defaultSchedulerIntervalMs))
    defaultSchedulerIntervalMs) (hzero : Json.Reads (numeral (.fin 0)) 0)
include hinterval hzero

theorem configured_schedulerTried (fails : Failures)
    (h : SchedulerReads numeral (kvGet w.db.settings schedulerKey)) :
    (schedulerTried numeral fails w).db.momentum.configured numeral =
        w.db.momentum.configured numeral ∧
      SchedulerReads numeral
        (kvGet (schedulerTried numeral fails w).db.settings schedulerKey) := by
  rw [schedulerTried_eq]
  split_ifs with hget
  · exact ⟨rfl, h⟩
  · cases htext : enabledText numeral (kvGet w.db.settings schedulerKey) with
    | none => exact ⟨rfl, h⟩
    | some text =>
      rw [Option.elim_some]
      split_ifs with hset
      · exact ⟨rfl, h⟩
      obtain ⟨hagain, hreads⟩ := enabledText_again hinterval hzero h htext
      refine ⟨?_, ?_⟩
      · rw [momentum_set_scheduler]
        have hwritten : (enabledText numeral (some text)).or (some text) =
            (enabledText numeral (kvGet w.db.settings schedulerKey)).or
              (kvGet w.db.settings schedulerKey) := by
          rw [hagain, htext]
          rfl
        ext1
        · rfl
        · rfl
        · exact hwritten
        · rfl
      · rw [kvGet_set, if_pos rfl]
        exact hreads

/-- **Whatever fails**, the momentum step moves towards the complete one. -/
theorem configured_momentumTried (fails : Failures)
    (h : SchedulerReads numeral (kvGet w.db.settings schedulerKey)) :
    (momentumTried numeral fails w).db.momentum.configured numeral =
        w.db.momentum.configured numeral ∧
      SchedulerReads numeral
        (kvGet (momentumTried numeral fails w).db.settings schedulerKey) := by
  have huniverse : (w.set universeKey momentumUniverse).db.momentum.configured numeral =
      w.db.momentum.configured numeral := by
    rw [momentum_set_universe]
    rfl
  have hplugins := (configured_pluginsTried fails _).trans huniverse
  have hsame : kvGet (pluginsTried fails (w.set universeKey momentumUniverse)).db.settings
      schedulerKey = kvGet w.db.settings schedulerKey := by
    rw [kvGet_pluginsTried, kvGet_set, if_neg (by decide)]
  have hexec : ((pluginsTried fails (w.set universeKey momentumUniverse)).set executionRealKey
      "false").db.momentum.configured numeral = w.db.momentum.configured numeral := by
    rw [momentum_set_executionReal]
    exact hplugins
  obtain ⟨hscheduler, hreads⟩ := configured_schedulerTried hinterval hzero fails
    (w := (pluginsTried fails (w.set universeKey momentumUniverse)).set executionRealKey "false")
    (by rw [kvGet_set, if_neg (by decide), hsame]; exact h)
  rw [momentumTried_eq]
  split_ifs
  · exact ⟨rfl, h⟩
  · exact ⟨hplugins, hsame ▸ h⟩
  · exact ⟨hscheduler.trans hexec, hreads⟩
  · refine ⟨?_, ?_⟩
    · rw [momentum_set_flag (by decide)]
      exact hscheduler.trans hexec
    · rw [kvGet_set, if_neg (by decide)]
      exact hreads

end Towards

/-! ## The complete step -/

/-- **No caught operation of the momentum step fails**: not the update of a plugin that exists, nor
the reading and writing of the scheduler. -/
structure NothingCaught (numeral : Number → String) (fails : Failures) (db : Db) : Prop where
  plugins : ∀ id active, Listed id active → db.plugins.get? id ≠ none →
    fails (.setActive id active) = false
  reads : fails (.kvGet schedulerKey) = false
  writes : ∀ text, enabledText numeral (kvGet db.settings schedulerKey) = some text →
    fails (.kvSet schedulerKey text) = false

theorem active_eq_none {db : Db} {id : String} :
    db.momentum.active id = none ↔ db.plugins.get? id = none := Option.map_eq_none_iff

theorem switch_of_absent {d : MomentumData} {id : String} (h : d.active id = none)
    (active : Bool) : d.switch id active = d := by
  ext1
  · rfl
  · rfl
  · rfl
  · funext x
    by_cases hx : x = id
    · subst hx
      simp [MomentumData.switch, h]
    · simp [MomentumData.switch, hx]

theorem written_activeTried {op : BootOp} {active : Bool} (h : op ∈ w.written) (id : String) :
    op ∈ (activeTried fails active w id).written := by
  rw [activeTried]
  split_ifs
  · exact h
  · exact List.mem_append_left _ h

theorem written_foldl {β : Type} {step : BootWorld → β → BootWorld} {op : BootOp}
    (hstep : ∀ w b, op ∈ w.written → op ∈ (step w b).written) (l : List β) {w : BootWorld}
    (h : op ∈ w.written) : op ∈ (l.foldl step w).written := by
  induction l generalizing w with
  | nil => exact h
  | cons b l ih => exact ih (hstep w b h)

theorem momentum_foldl_active (active : Bool) (l : List String) {w : BootWorld}
    (h : ∀ id ∈ l, w.db.momentum.active id ≠ none → fails (.setActive id active) = false) :
    (l.foldl (activeTried fails active) w).db.momentum =
        { w.db.momentum with active := fun x =>
            if x ∈ l then (w.db.momentum.active x).map fun _ => active
            else w.db.momentum.active x } ∧
      ∀ id ∈ l, w.db.momentum.active id ≠ none →
        .setActive id active ∈ (l.foldl (activeTried fails active) w).written := by
  induction l generalizing w with
  | nil =>
    refine ⟨?_, fun id hid => absurd hid List.not_mem_nil⟩
    ext1 <;> simp
  | cons a l ih =>
    have hone : (activeTried fails active w a).db.momentum = w.db.momentum.switch a active := by
      rw [activeTried]
      by_cases hfails : fails (.setActive a active) = true
      · rw [if_pos hfails, switch_of_absent]
        by_contra hrow
        rw [h a List.mem_cons_self hrow] at hfails
        cases hfails
      · rw [if_neg hfails, momentum_setActive]
    have hrows (x : String) : (w.db.momentum.switch a active).active x = none ↔
        w.db.momentum.active x = none := by
      by_cases hx : x = a <;> simp [MomentumData.switch, hx]
    obtain ⟨hdata, hwritten⟩ := ih (w := activeTried fails active w a) fun id hid hrow =>
      h id (List.mem_cons_of_mem _ hid) (by rwa [hone, ne_eq, hrows] at hrow)
    refine ⟨?_, ?_⟩
    · rw [List.foldl_cons, hdata, hone]
      ext1
      · rfl
      · rfl
      · rfl
      · funext x
        by_cases hx : x = a
        · subst hx
          by_cases hl : x ∈ l <;> simp [MomentumData.switch, hl, Function.comp_def]
        · by_cases hl : x ∈ l <;> simp [MomentumData.switch, hl, hx]
    · intro id hid hrow
      rw [List.foldl_cons]
      rcases List.mem_cons.1 hid with rfl | hid
      · refine written_foldl (fun w b hw => written_activeTried hw b) l ?_
        rw [activeTried, h id List.mem_cons_self hrow]
        simp [BootWorld.setActive]
      · exact hwritten id hid (by rwa [hone, ne_eq, hrows])

/-- **Every write of the momentum step succeeded**, but for plugins that do not exist. -/
structure MomentumWritten (db : Db) (written : List BootOp) : Prop where
  symbols : .kvSet universeKey momentumUniverse ∈ written
  plugins : ∀ id active, Listed id active → db.plugins.get? id ≠ none →
    .setActive id active ∈ written
  executionReal : .kvSet executionRealKey "false" ∈ written
  scheduler : ∃ text, .kvSet schedulerKey text ∈ written

theorem written_set {op : BootOp} (key value : String) (h : op ∈ w.written) :
    op ∈ (w.set key value).written := List.mem_append_left _ h

theorem mem_written_set (key value : String) (w : BootWorld) :
    .kvSet key value ∈ (w.set key value).written := by simp [BootWorld.set]

theorem momentum_pluginsTried (numeral : Number → String) (fails : Failures)
    (h : ∀ id active, Listed id active → w.db.momentum.active id ≠ none →
      fails (.setActive id active) = false) :
    (pluginsTried fails w).db.momentum =
        { w.db.momentum with active := (w.db.momentum.configured numeral).active } ∧
      ∀ id active, Listed id active → w.db.momentum.active id ≠ none →
        .setActive id active ∈ (pluginsTried fails w).written := by
  obtain ⟨hact, hactWritten⟩ := momentum_foldl_active true pluginsToActivate
    fun id hid => h id true hid
  have hrows (x : String) :
      (pluginsToActivate.foldl (activeTried fails true) w).db.momentum.active x = none ↔
        w.db.momentum.active x = none := by
    rw [hact]
    by_cases hx : x ∈ pluginsToActivate <;> simp [hx]
  obtain ⟨hdeact, hdeactWritten⟩ := momentum_foldl_active false pluginsToDeactivate
    (w := pluginsToActivate.foldl (activeTried fails true) w)
    fun id hid hrow => h id false hid (by rwa [ne_eq, hrows] at hrow)
  refine ⟨?_, fun id active hid hrow => ?_⟩
  · rw [pluginsTried, hdeact, hact]
    ext1
    · rfl
    · rfl
    · rfl
    · funext x
      by_cases hx : x ∈ pluginsToDeactivate
      · by_cases hx' : x ∈ pluginsToActivate <;>
          simp [MomentumData.configured, hx, hx', Function.comp_def]
      · simp [MomentumData.configured, hx]
  · cases active with
    | true =>
      exact written_foldl (fun w b hw => written_activeTried hw b) _ (hactWritten id hid hrow)
    | false => exact hdeactWritten id hid (by rwa [ne_eq, hrows])

theorem momentum_schedulerTried {db : Db} (h : NothingCaught numeral fails db)
    (hsame : kvGet w.db.settings schedulerKey = kvGet db.settings schedulerKey) :
    (schedulerTried numeral fails w).db.momentum =
        { w.db.momentum with
          scheduler := (enabledText numeral db.momentum.scheduler).or db.momentum.scheduler } ∧
      (∀ op ∈ w.written, op ∈ (schedulerTried numeral fails w).written) ∧
      (enabledText numeral (kvGet db.settings schedulerKey) ≠ none →
        ∃ text, .kvSet schedulerKey text ∈ (schedulerTried numeral fails w).written) := by
  rw [schedulerTried_eq, if_neg (by simp [h.reads]), hsame]
  show _ ∧ _ ∧ (enabledText numeral db.momentum.scheduler ≠ none → _)
  cases htext : enabledText numeral db.momentum.scheduler with
  | none =>
    refine ⟨?_, fun op hop => ?_, fun hne => absurd rfl hne⟩
    · rw [show enabledText numeral (kvGet db.settings schedulerKey) = none from htext]
      ext1
      · rfl
      · rfl
      · exact hsame
      · rfl
    · rw [show enabledText numeral (kvGet db.settings schedulerKey) = none from htext]
      exact hop
  | some text =>
    rw [show enabledText numeral (kvGet db.settings schedulerKey) = some text from htext,
      Option.elim_some, if_neg (by simp [h.writes text htext])]
    exact ⟨momentum_set_scheduler text, fun op hop => List.mem_append_left _ hop,
      fun _ => ⟨text, by simp [BootWorld.set]⟩⟩

/-- **Where nothing that is caught fails**, the step is complete. -/
theorem configured_complete (h : NothingCaught numeral fails w.db) :
    (configured numeral fails w).db.momentum = w.db.momentum.configured numeral ∧
      (enabledText numeral (kvGet w.db.settings schedulerKey) ≠ none →
        MomentumWritten w.db (configured numeral fails w).written) := by
  obtain ⟨hplugins, hwritten⟩ := momentum_pluginsTried numeral fails
    (w := w.set universeKey momentumUniverse) fun id active hid hrow =>
      h.plugins id active hid (by
        rw [momentum_set_universe] at hrow
        exact fun hnone => hrow (active_eq_none.2 hnone))
  have hsame : kvGet ((pluginsTried fails (w.set universeKey momentumUniverse)).set
      executionRealKey "false").db.settings schedulerKey = kvGet w.db.settings schedulerKey := by
    rw [kvGet_set, if_neg (by decide), kvGet_pluginsTried, kvGet_set, if_neg (by decide)]
  obtain ⟨hdata, hkept, hscheduler⟩ := momentum_schedulerTried h hsame
  refine ⟨?_, fun htext => ⟨?_, fun id active hid hrow => ?_, ?_, hscheduler htext⟩⟩
  · rw [configured, hdata, momentum_set_executionReal, hplugins, momentum_set_universe]
    rfl
  · refine hkept _ (written_set _ _ ?_)
    rw [pluginsTried]
    exact written_foldl (fun w b hw => written_activeTried hw b) _
      (written_foldl (fun w b hw => written_activeTried hw b) _ (mem_written_set _ _ _))
  · refine hkept _ (written_set _ _ (hwritten id active hid ?_))
    rw [momentum_set_universe]
    exact fun hnone => hrow (active_eq_none.1 hnone)
  · exact hkept _ (mem_written_set _ _ _)

end Momentum

/-! ## The portfolios -/

def Db.portfolio (db : Db) : String → Option PretestRow := db.portfolios.get?

/-- What a complete pretest step leaves. -/
def withSeeds (numeral : Number → String) (l : List PretestPortfolioSeed)
    (f : String → Option PretestRow) : String → Option PretestRow :=
  fun name => (f name).or ((l.find? fun spec => spec.name = name).map fun spec => spec.row numeral)

/-- **No caught operation of the pretest step fails.** -/
def SeedsQuiet (numeral : Number → String) (fails : Failures) (l : List PretestPortfolioSeed)
    (db : Db) : Prop :=
  ∀ spec ∈ l, fails (.findPortfolio spec.name) = false ∧
    (db.portfolio spec.name = none → fails (.createPortfolio (spec.row numeral)) = false)

/-- **Every portfolio has been created**, unless there was one of its name. -/
def SeedsWritten (numeral : Number → String) (l : List PretestPortfolioSeed) (db : Db)
    (written : List BootOp) : Prop :=
  ∀ spec ∈ l, db.portfolio spec.name = none → .createPortfolio (spec.row numeral) ∈ written

section Portfolios

variable {numeral : Number → String} {fails : Failures} {w : BootWorld}

theorem portfolio_create (row : PretestRow) (name : String) :
    (w.create row).db.portfolio name = if name = row.name then some row else w.db.portfolio name :=
  Store.Indexed.get?_put _

theorem seedTried_cases (numeral : Number → String) (fails : Failures) (w : BootWorld)
    (spec : PretestPortfolioSeed) :
    seedTried numeral fails w spec = w ∨
      (w.db.portfolio spec.name = none ∧
        seedTried numeral fails w spec = w.create (spec.row numeral)) := by
  rw [seedTried_eq]
  split_ifs with h
  · exact .inl rfl
  · simp only [not_or, not_not] at h
    exact .inr ⟨h.2.1, rfl⟩

/-- **Whatever fails**, the pretest step moves towards the complete one. -/
theorem withSeeds_seedTried {l : List PretestPortfolioSeed}
    (hnames : (l.map PretestPortfolioSeed.name).Nodup) {spec : PretestPortfolioSeed}
    (hspec : spec ∈ l) (w : BootWorld) :
    withSeeds numeral l (seedTried numeral fails w spec).db.portfolio =
      withSeeds numeral l w.db.portfolio := by
  rcases seedTried_cases numeral fails w spec with h | ⟨hnone, h⟩
  · rw [h]
  · rw [h]
    funext name
    rw [withSeeds, withSeeds, portfolio_create]
    by_cases hname : name = (spec.row numeral).name
    · have hfind : l.find? (fun spec => spec.name = name) = some spec := by
        cases hfound : l.find? fun spec => spec.name = name with
        | none =>
          rw [List.find?_eq_none] at hfound
          exact absurd (decide_eq_true hname.symm) (hfound spec hspec)
        | some found =>
          have hmem := List.mem_of_find?_eq_some hfound
          have heq := List.find?_some hfound
          have hfoundName : found.name = spec.name := (of_decide_eq_true heq).trans hname
          rw [List.inj_on_of_nodup_map hnames hmem hspec hfoundName]
      have habsent : w.db.portfolio name = none := by
        rw [hname]
        exact hnone
      rw [if_pos hname, hfind, habsent]
      rfl
    · rw [if_neg hname]

/-- **Where nothing that is caught fails**, the pretest step is complete. -/
theorem portfolio_foldl_seedTried {l : List PretestPortfolioSeed}
    (hnames : (l.map PretestPortfolioSeed.name).Nodup) {w : BootWorld}
    (h : SeedsQuiet numeral fails l w.db) :
    (l.foldl (seedTried numeral fails) w).db.portfolio = withSeeds numeral l w.db.portfolio ∧
      SeedsWritten numeral l w.db (l.foldl (seedTried numeral fails) w).written := by
  have hmono {op : BootOp} (w : BootWorld) (spec : PretestPortfolioSeed) (hop : op ∈ w.written) :
      op ∈ (seedTried numeral fails w spec).written := by
    rcases seedTried_cases numeral fails w spec with h | ⟨-, h⟩
    · rwa [h]
    · rw [h]
      exact List.mem_append_left _ hop
  induction l generalizing w with
  | nil =>
    refine ⟨?_, fun spec hspec => absurd hspec List.not_mem_nil⟩
    funext name
    simp [withSeeds]
  | cons a l ih =>
    obtain ⟨hnew, hnames⟩ := List.nodup_cons.1 hnames
    obtain ⟨hfind, hcreate⟩ := h a List.mem_cons_self
    have hone : seedTried numeral fails w a =
        if w.db.portfolio a.name = none then w.create (a.row numeral) else w := by
      rw [seedTried_eq]
      by_cases hnone : w.db.portfolio a.name = none
      · rw [if_pos hnone, if_neg]
        rintro (hf | hf | hf)
        · rw [hfind] at hf
          cases hf
        · exact hf hnone
        · rw [hcreate hnone] at hf
          cases hf
      · rw [if_neg hnone, if_pos (.inr (.inl hnone))]
    have hother {name : String} (hname : name ≠ a.name) :
        (seedTried numeral fails w a).db.portfolio name = w.db.portfolio name := by
      rw [hone]
      split_ifs
      · rw [portfolio_create]
        exact if_neg hname
      · rfl
    have hne {spec : PretestPortfolioSeed} (hspec : spec ∈ l) : spec.name ≠ a.name :=
      fun heq => hnew (List.mem_map.2 ⟨spec, hspec, heq⟩)
    obtain ⟨hdata, hwritten⟩ := ih hnames (w := seedTried numeral fails w a) fun spec hspec => by
      rw [hother (hne hspec)]
      exact h spec (List.mem_cons_of_mem _ hspec)
    refine ⟨?_, fun spec hspec hnone => ?_⟩
    · rw [List.foldl_cons, hdata]
      funext name
      by_cases hname : name = a.name
      · subst hname
        rw [withSeeds, withSeeds, List.find?_cons_of_pos (by simp), hone]
        split_ifs with hnone
        · have hrow : a.name = (a.row numeral).name := rfl
          rw [portfolio_create, if_pos hrow, hnone]
          rfl
        · obtain ⟨row, hrow⟩ := Option.ne_none_iff_exists'.1 hnone
          rw [hrow]
          rfl
      · rw [withSeeds, withSeeds, hother hname,
          List.find?_cons_of_neg (by simpa using Ne.symm hname)]
    · rw [List.foldl_cons]
      rcases List.mem_cons.1 hspec with rfl | hspec
      · refine written_foldl (fun w b hw => hmono w b hw) l ?_
        rw [hone, if_pos hnone]
        simp [BootWorld.create]
      · exact hwritten spec hspec ((hother (hne hspec)).trans hnone)

/-! ## What the steps leave alone -/

theorem names_nodup : (pretestPortfoliosToSeed.map PretestPortfolioSeed.name).Nodup := by decide

theorem momentumTried_frame (w : BootWorld) :
    (momentumTried numeral fails w).db.portfolio = w.db.portfolio ∧
      (momentumTried numeral fails w).db.seeded = w.db.seeded := by
  have hseeded : (configured numeral fails w).db.seeded = w.db.seeded := by
    rw [Db.seeded, kvGet_configured (by decide), Db.seeded]
  have hportfolio : (configured numeral fails w).db.portfolio = w.db.portfolio :=
    congrArg Store.Indexed.get? (portfolios_configured w)
  rw [momentumTried_eq]
  split_ifs
  · exact ⟨rfl, rfl⟩
  · refine ⟨congrArg Store.Indexed.get? (portfolios_pluginsTried _), ?_⟩
    · rw [Db.seeded, kvGet_pluginsTried, kvGet_set, if_neg (by decide), Db.seeded]
  · exact ⟨hportfolio, hseeded⟩
  · refine ⟨hportfolio, ?_⟩
    rw [Db.seeded, kvGet_set, if_neg (by decide)]
    exact hseeded

theorem pretestTried_frame (w : BootWorld) :
    (pretestTried numeral fails w).db.momentum = w.db.momentum ∧
      (pretestTried numeral fails w).db.applied = w.db.applied ∧
      ∀ op ∈ w.written, op ∈ (pretestTried numeral fails w).written := by
  have hseed (w : BootWorld) (spec : PretestPortfolioSeed) :
      (seedTried numeral fails w spec).db.momentum = w.db.momentum ∧
        (seedTried numeral fails w spec).db.applied = w.db.applied ∧
        ∀ op ∈ w.written, op ∈ (seedTried numeral fails w spec).written := by
    rcases seedTried_cases numeral fails w spec with h | ⟨-, h⟩
    · rw [h]
      exact ⟨rfl, rfl, fun op hop => hop⟩
    · rw [h]
      exact ⟨rfl, rfl, fun op hop => List.mem_append_left _ hop⟩
  have hmomentum := foldl_keeps (fun w : BootWorld => w.db.momentum)
    (l := pretestPortfoliosToSeed) (fun w spec _ => (hseed w spec).1) w
  have happlied := foldl_keeps (fun w : BootWorld => w.db.applied)
    (l := pretestPortfoliosToSeed) (fun w spec _ => (hseed w spec).2.1) w
  have hwritten {op : BootOp} (hop : op ∈ w.written) :
      op ∈ (pretestPortfoliosToSeed.foldl (seedTried numeral fails) w).written :=
    written_foldl (fun w spec h => (hseed w spec).2.2 op h) _ hop
  rw [pretestTried_eq]
  split_ifs
  · exact ⟨rfl, rfl, fun op hop => hop⟩
  · exact ⟨hmomentum, happlied, fun op hop => hwritten hop⟩
  · refine ⟨(momentum_set_flag (by decide) _).trans hmomentum, ?_,
      fun op hop => List.mem_append_left _ (hwritten hop)⟩
    rw [Db.applied, kvGet_set, if_neg (by decide)]
    exact happlied

end Portfolios

end Bootstrap

end NeoTrader
