import NeoTrader.Strategy.Steps

/-!
# Settings of real money and the second factor

The routes that write the execution policy or clear the kill-switch need a second factor. The
application of a strategy needs none, and writes whatever keys the strategy's map has.

* **`real_money_keys_kept`**: requests without a second factor keep these settings where each of them
  spares them, and otherwise only by a failure;
* **`real_money_keys_moved`**: a strategy switches real execution on and the kill-switch off.
-/

namespace NeoTrader

open Js Await Prog

/-! ## The settings of real money -/

/-- The switches of real execution, its limits, and the kill-switch. -/
def realMoneyKey (k : String) : Bool :=
  k ∈ [policyKey "real", policyKey "autonomous", policyKey "broker_plugin_id",
    realExecutionHaltedKey] || (policyKey "max_").toList.isPrefixOf k.toList

def SameRealMoney (w w' : StrategyWorld) : Prop := ∀ k, realMoneyKey k → w'.kv k = w.kv k

theorem SameRealMoney.refl (w : StrategyWorld) : SameRealMoney w w := fun _ _ => rfl

theorem SameRealMoney.trans {w w' w'' : StrategyWorld} (h : SameRealMoney w w')
    (h' : SameRealMoney w' w'') : SameRealMoney w w'' := fun k hk => (h' k hk).trans (h k hk)

/-- **The request leaves the settings of real money alone**: the map of a strategy that it applies
writes them with the values that they have. -/
def Spares (w : StrategyWorld) : Request → Prop
  | .strategyApply id => ∀ c, (w.strategy? id).bind Strategy.config = some c →
    ∀ k v, (k, v) ∈ stringEntries c.entries → realMoneyKey k → w.kv k = some v
  | _ => True

/-! ## Operations that spare the settings -/

/-- The operation writes no setting of real money. -/
def StrategyOp.spares : StrategyOp → Bool
  | kvSet k _ | kvDelete k => ¬ realMoneyKey k
  | _ => true

theorem statement_cases {α : Type} {o : StrategyOracle} {w w' : StrategyWorld}
    {x : Except Err (α × StrategyWorld)} {r : Except Err α} (h : statement o w x = (r, w')) :
    w' = w ∨ ∃ a, x = .ok (a, w') := by
  unfold statement at h
  split at h
  · cases h
    exact .inl rfl
  · cases h
    exact .inl rfl
  · cases h
    exact .inr ⟨_, rfl⟩

theorem statement_query {α : Type} {o : StrategyOracle} {w w' : StrategyWorld} {a : α}
    {r : Except Err α} (h : statement o w (.ok (a, w)) = (r, w')) :
    w' = w ∧ ∀ b, r = .ok b → b = a := by
  unfold statement at h
  split at h
  · cases h
    exact ⟨rfl, fun b hb => by cases hb⟩
  · next heq => cases heq
  · next heq =>
    cases heq
    cases h
    exact ⟨rfl, fun b hb => by cases hb; rfl⟩

theorem updateRow_kv {w w' : StrategyWorld} {id : String} {f : Strategy → Strategy} {s : Strategy}
    (h : w.updateRow id f = .ok (s, w')) : w'.kv = w.kv := by
  unfold StrategyWorld.updateRow at h
  split at h
  · cases h
  · cases h
    rfl

theorem handleStrategy_kv {o : StrategyOracle} {op : StrategyOp} {w w' : StrategyWorld}
    {r : Except Err op.Ans} (h : handleStrategy o op w = (r, w')) :
    w'.kv = w.kv ∨ (∃ k v, op = .kvSet k v ∧ w'.kv = Function.update w.kv k (some v)) ∨
      ∃ k, op = .kvDelete k ∧ w'.kv = Function.update w.kv k none := by
  cases op with
  | kvSet k v =>
    obtain rfl | ⟨u, hx⟩ := statement_cases h
    · exact .inl rfl
    · cases hx
      exact .inr (.inl ⟨k, v, rfl, rfl⟩)
  | kvDelete k =>
    obtain rfl | ⟨u, hx⟩ := statement_cases h
    · exact .inl rfl
    · cases hx
      exact .inr (.inr ⟨k, rfl, rfl⟩)
  | strategyCreate dto config =>
    obtain rfl | ⟨s, hx⟩ := statement_cases h
    · exact .inl rfl
    · split at hx
      · cases hx
      · cases hx
        exact .inl rfl
  | strategyUpdate id dto =>
    obtain rfl | ⟨s, hx⟩ := statement_cases h
    · exact .inl rfl
    · by_cases htaken : w.nameTaken id dto.name = true
      · cases (if_pos htaken).symm.trans hx
      · exact .inl (updateRow_kv ((if_neg htaken).symm.trans hx))
  | strategySetActive id active =>
    obtain rfl | ⟨s, hx⟩ := statement_cases h
    · exact .inl rfl
    · exact .inl (updateRow_kv hx)
  | strategyRecord id verdict =>
    obtain rfl | ⟨u, hx⟩ := statement_cases h
    · exact .inl rfl
    · cases hrow : w.updateRow id fun s => { s with
          walkForwardVerdict := some verdict, walkForwardCheckedAt := some o.time } with
      | error e =>
        rw [hrow] at hx
        cases hx
      | ok y =>
        rw [hrow] at hx
        cases hx
        exact .inl (updateRow_kv hrow)
  | _ =>
    obtain rfl | ⟨u, hx⟩ := statement_cases h
    · exact .inl rfl
    · cases hx
      exact .inl rfl

theorem handleStrategy_spares {o : StrategyOracle} {op : StrategyOp} {w w' : StrategyWorld}
    {r : Except Err op.Ans} (hop : op.spares) (h : handleStrategy o op w = (r, w')) :
    SameRealMoney w w' := by
  intro k hk
  rcases handleStrategy_kv h with hkv | ⟨k', v, rfl, hkv⟩ | ⟨k', rfl, hkv⟩
  · rw [hkv]
  · have hne : k ≠ k' := by
      rintro rfl
      exact of_decide_eq_true hop hk
    rw [hkv, Function.update_of_ne hne]
  · have hne : k ≠ k' := by
      rintro rfl
      exact of_decide_eq_true hop hk
    rw [hkv, Function.update_of_ne hne]

/-- The program awaits sparing operations only. -/
abbrev Sparing {α : Type} (p : Service α) : Prop :=
  Always (S := strategySig) (fun _ op => op.spares) p

theorem sparing_call {op : StrategyOp} (h : op.spares) : Sparing (call op) :=
  always_perform fun _ => h

theorem wp_sparing {α : Type} {A : StrategyOracle → Prop} {p : Service α} (hp : Sparing p)
    (w : StrategyWorld) :
    p.Wp (strategySem A) (fun _ _ => True) (fun _ w' => SameRealMoney w w') w := by
  have hkeeps : p.Keeps (strategySem A) (SameRealMoney w) := by
    refine Always.keeps (K := fun _ _ => True) hp ?_
    rintro w₁ w₂ h op r hsame - hop ⟨o, -, hh⟩
    exact ⟨hsame.trans (handleStrategy_spares hop hh), trivial, fun _ _ => trivial⟩
  exact wp_mono (fun _ _ _ => trivial) (fun _ _ h => h) (hkeeps w (.refl w))

/-! ## The services that spare the settings -/

theorem sparing_getStrategy (id : String) : Sparing (getStrategy id) := by
  refine always_bind (sparing_call rfl) fun s => ?_
  cases s
  · exact always_throw _
  · exact always_ret _

theorem sparing_captureCurrentConfig : Sparing captureCurrentConfig :=
  always_bind (always_collect fun _ => sparing_call rfl) fun _ => always_ret _

theorem sparing_createStrategy (dto : CreateStrategyDto) : Sparing (createStrategy dto) := by
  have hrest (config : StrategyConfig) : Sparing (insertStrategy dto config) := by
    refine always_bind (always_attempt (sparing_call rfl)) fun r => ?_
    cases r
    · exact always_throw _
    · exact always_ret _
  unfold createStrategy
  cases dto.config with
  | some config => exact always_bind (always_ret config) hrest
  | none => exact always_bind sparing_captureCurrentConfig hrest

theorem sparing_updateStrategy (id : String) (dto : UpdateStrategyDto) :
    Sparing (updateStrategy id dto) := by
  refine always_bind (sparing_getStrategy id) fun _ => ?_
  refine always_bind (always_attempt (sparing_call rfl)) fun r => ?_
  cases r
  · exact always_throw _
  · exact always_ret _

theorem sparing_writeSettings {l : List (String × Option String)}
    (hl : ∀ e ∈ l, ¬ realMoneyKey e.1) : Sparing (writeSettings l) := by
  induction l with
  | nil => exact always_ret ()
  | cons e l ih =>
    obtain ⟨k, v⟩ := e
    refine always_bind ?_ fun _ => ih fun e he => hl e (List.mem_cons_of_mem _ he)
    cases v with
    | none => exact always_ret ()
    | some v => exact sparing_call (decide_eq_true (hl _ List.mem_cons_self))

theorem sparing_setConfig (toUpperCase : String → String) (dto : UpdateCycleConfigDto) :
    Sparing (setConfig toUpperCase dto) := by
  refine always_bind (sparing_writeSettings ?_) fun _ => ?_
  · simp only [UpdateCycleConfigDto.settings, List.forall_mem_cons]
    refine ⟨?_, ?_, ?_, ?_, ?_, List.forall_mem_nil _⟩ <;> decide
  · exact always_bind (always_collect fun _ => sparing_call rfl) fun _ => always_ret _

theorem sparing_runWalkForward (dto : RunBacktestDto) :
    Sparing (BacktestService.runWalkForward dto) := by
  refine always_bind (sparing_call rfl) fun verdict => ?_
  split
  · exact always_ret _
  · refine always_bind ?_ fun _ => always_ret _
    exact always_bind (always_attempt (sparing_call rfl)) fun _ => always_ret ()

theorem sparing_service (toUpperCase : String → String) {r : Request}
    (hr : match r with
      | .strategyApply _ | .executionConfig _ | .realHaltClear => False
      | _ => True) : Sparing (r.service toUpperCase) := by
  cases r with
  | strategyCreate dto => exact always_bind (sparing_createStrategy dto) fun _ => always_ret _
  | strategyUpdate id dto => exact always_bind (sparing_updateStrategy id dto) fun _ => always_ret _
  | strategyRemove id =>
    exact always_bind (always_bind (sparing_getStrategy id) fun _ => sparing_call rfl) fun _ =>
      always_ret _
  | strategySetActive id active =>
    exact always_bind (always_bind (sparing_getStrategy id) fun _ => sparing_call rfl) fun _ =>
      always_ret _
  | strategyApply id => exact hr.elim
  | cycleConfig dto => exact always_bind (sparing_setConfig toUpperCase dto) fun _ => always_ret _
  | backtest dto => exact always_bind (sparing_call rfl) fun _ => always_ret _
  | walkForward dto => exact always_bind (sparing_runWalkForward dto) fun _ => always_ret _
  | executionConfig patch => exact hr.elim
  | realHaltClear => exact hr.elim

/-! ## Applications -/

theorem wp_applyEntries_sparing {A : StrategyOracle → Prop} {l : List (String × Json)}
    {w : StrategyWorld}
    (hl : ∀ k v, (k, v) ∈ stringEntries l → realMoneyKey k → w.kv k = some v) :
    (Prog.forEach l applyEntry).Wp (strategySem A) (fun _ _ => True)
      (fun _ w' => SameRealMoney w w') w := by
  induction l generalizing w with
  | nil => exact .refl w
  | cons e l ih =>
    obtain ⟨k, j⟩ := e
    cases j with
    | str v =>
      refine (wp_bind _ _).2 (And.intro trivial ?_)
      rintro r w₁ ⟨o, -, hh⟩
      have hsame : SameRealMoney w w₁ := by
        obtain rfl | ⟨u, hx⟩ := statement_cases hh
        · exact .refl _
        · cases hx
          intro k' hk'
          by_cases he : k' = k
          · subst he
            exact (Function.update_self _ _ _).trans (hl k' v List.mem_cons_self hk').symm
          · exact Function.update_of_ne he _ _
      cases r with
      | error e => exact hsame
      | ok u =>
        refine wp_post (fun _ _ h => hsame.trans h) (ih fun k' v' hv' hk' => ?_)
        exact (hsame k' hk').trans (hl k' v' (List.mem_cons_of_mem _ hv') hk')
    | _ => exact .refl w

theorem wp_applyStrategy_sparing {A : StrategyOracle → Prop} {w : StrategyWorld} {id : String}
    (hs : Spares w (.strategyApply id)) :
    (applyStrategy id).Wp (strategySem A) (fun _ _ => True)
      (fun _ w' => SameRealMoney w w') w := by
  have hget : (getStrategy id).Wp (strategySem A) (fun _ _ => True)
      (fun r w' => w' = w ∧ ∀ s, r = .ok s → w.strategy? id = some s) w := by
    refine (wp_bind _ _).2 (And.intro trivial ?_)
    rintro r w₁ ⟨o, -, hh⟩
    obtain ⟨rfl, hr⟩ := statement_query hh
    cases r with
    | error e => exact ⟨rfl, fun s hs => by cases hs⟩
    | ok found =>
      have hfound := hr found rfl
      cases found with
      | none => exact ⟨rfl, fun s hs => by cases hs⟩
      | some s =>
        refine ⟨rfl, fun s' hs' => ?_⟩
        cases hs'
        exact hfound.symm
  refine wp_bind_of hget ?_ ?_
  · rintro s w₁ ⟨rfl, hfound⟩
    cases hc : s.config with
    | none => exact .refl _
    | some c =>
      have hentries : ∀ k v, (k, v) ∈ stringEntries c.entries → realMoneyKey k →
          w₁.kv k = some v := by
        refine hs c ?_
        rw [hfound s rfl, Option.bind_some, hc]
      refine wp_bind_of (wp_applyEntries_sparing hentries) (fun _ w₂ hsame => ?_) fun _ _ h => h
      have hno : ¬ realMoneyKey strategyAppliedKey = true := by decide
      have hkey : StrategyOp.spares (.kvSet strategyAppliedKey id) := decide_eq_true hno
      exact wp_post (fun _ _ h => hsame.trans h) (wp_sparing (sparing_call hkey) w₂)
  · rintro e w₁ ⟨rfl, -⟩
    exact .refl _

/-! ## Requests without a second factor -/

/-- **A request without a second factor** keeps the settings of real money if it spares them. -/
theorem Request.kept {toUpperCase : String → String} {A : StrategyOracle → Prop}
    {totpVerified : Option Bool} {r : Request} {w w' : StrategyWorld}
    {x : Except Err (Option String)} (hv : totpVerified ≠ some true) (hs : Spares w r)
    (hx : (r.body toUpperCase totpVerified).Exec (strategySem A) w x w') : SameRealMoney w w' := by
  have hbody : (r.body toUpperCase totpVerified).Wp (strategySem A) (fun _ _ => True)
      (fun _ w' => SameRealMoney w w') w := by
    refine (wp_bind _ _).2 (wp_ofOutcome.2 ?_)
    cases hg : r.guards totpVerified with
    | error e => exact .refl w
    | ok u =>
      cases r with
      | strategyApply id =>
        exact wp_bind_of (wp_applyStrategy_sparing hs) (fun _ _ h => h) fun _ _ h => h
      | executionConfig patch => exact absurd (totpRequiredGuard_ok.1 hg) hv
      | realHaltClear => exact absurd (totpRequiredGuard_ok.1 hg) hv
      | _ => exact wp_sparing (sparing_service toUpperCase trivial) w
  exact hbody.exec hx

theorem Request.spares_of_same {toUpperCase : String → String} {A : StrategyOracle → Prop}
    (hA : ∀ o, A o → o.failure = none) {totpVerified : Option Bool} {r : Request}
    {w w' : StrategyWorld} {x : Except Err (Option String)} (hv : totpVerified.isSome)
    (hx : (r.body toUpperCase totpVerified).Exec (strategySem A) w x w')
    (hsame : SameRealMoney w w') : Spares w r := by
  cases r with
  | strategyApply id =>
    intro c hc k v hmem hk
    have hbody : ((Request.strategyApply id).body toUpperCase totpVerified).Wp (strategySem A)
        (fun _ _ => True) (fun _ w' => w' = w.applied id c) w := by
      refine (wp_bind _ _).2 (wp_ofOutcome.2 ?_)
      obtain ⟨b, rfl⟩ := Option.isSome_iff_exists.1 hv
      refine wp_bind_of (wp_applyStrategy hA id) ?_ ?_
      · intro u w₁ hw₁
        rw [StrategyWorld.afterApply, hc] at hw₁
        exact hw₁
      · intro e w₁ hw₁
        rw [StrategyWorld.afterApply, hc] at hw₁
        exact hw₁
    have hne : k ≠ strategyAppliedKey := by
      rintro rfl
      exact absurd hk (by decide)
    rw [← hsame k hk, hbody.exec hx]
    exact StrategyWorld.applied_of_mem hne hmem
  | _ => trivial

/-- **Requests without a second factor keep the settings of real money** where each of them spares
these settings; where no statement fails, they are kept only there. -/
theorem real_money_keys_kept {toUpperCase : String → String} {A : StrategyOracle → Prop}
    {start w : StrategyWorld} {l : List Moment} (hrun : Run toUpperCase A start l w)
    (hfactor : ∀ m ∈ l, m.totpVerified ≠ some true) :
    ((∀ m ∈ l, Spares m.before m.request) → SameRealMoney start w) ∧
      ((∀ o, A o → o.failure = none) → (∀ m ∈ l, SameRealMoney m.before m.after) →
        ∀ m ∈ l, m.totpVerified.isSome → Spares m.before m.request) := by
  induction hrun with
  | nil => exact ⟨fun _ => .refl start, fun _ _ => List.forall_mem_nil _⟩
  | @snoc l m hrun hx ih =>
    obtain ⟨hl, hm⟩ := List.forall_mem_append.1 hfactor
    replace hm := hm m (List.mem_singleton_self m)
    obtain ⟨hkept, hspares⟩ := ih hl
    constructor
    · intro hall
      obtain ⟨hall, hlast⟩ := List.forall_mem_append.1 hall
      exact (hkept hall).trans (Request.kept hm (hlast m (List.mem_singleton_self m)) hx)
    · intro hA hsame
      obtain ⟨hsame, hlast⟩ := List.forall_mem_append.1 hsame
      refine List.forall_mem_append.2 ⟨hspares hA hsame, List.forall_mem_singleton.2 fun hv => ?_⟩
      exact Request.spares_of_same hA hv hx (hlast m (List.mem_singleton_self m))

/-! ## Strategies without settings of real money -/

/-- No strategy's map has a setting of real money. -/
def StrategyWorld.harmless (w : StrategyWorld) : Bool := w.strategies.all fun s =>
  s.config.all fun c => (stringEntries c.entries).all fun e => ¬ realMoneyKey e.1

theorem spares_of_harmless {w : StrategyWorld} (hw : w.harmless) (r : Request) : Spares w r := by
  cases r with
  | strategyApply id =>
    intro c hc k v hmem hk
    obtain ⟨s, hs, hc⟩ := Option.bind_eq_some_iff.1 hc
    have hrow := List.all_eq_true.1 hw s (List.mem_of_find?_eq_some hs)
    rw [hc, Option.all_some, List.all_eq_true] at hrow
    exact absurd hk (of_decide_eq_true (hrow _ hmem))
  | _ => trivial

/-! ## A strategy that arms real trading -/

/-- A map that switches real execution on and the kill-switch off. -/
def armingConfig : StrategyConfig where
  entries := [("execution.real", .str "true"), ("real_execution.halted", .str "false")]
  nodup := by decide

/-- A strategy is created with the map, and applied. -/
def armingRequests (config : StrategyConfig) : List Request :=
  [.strategyCreate { name := "Momentum", config := some config }, .strategyApply "s1"]

def haltedWorld : StrategyWorld where
  kv k := if k = realExecutionHaltedKey then some "true" else none

/-- The requests, without a second factor. -/
def armingRun (config : StrategyConfig) : Option (List Moment × StrategyWorld) :=
  runRequests id { newId := "s1" } (some false) (armingRequests config) haltedWorld

theorem armingRun_moves : (armingRun armingConfig).map (fun y => y.2.kv realExecutionHaltedKey) =
    some (some "false") := by
  decide

/-- **Without a second factor a strategy turns the tripped kill-switch off.** -/
theorem real_money_keys_moved : ¬ ∀ {toUpperCase : String → String} {A : StrategyOracle → Prop}
    {start w : StrategyWorld} {l : List Moment}, Run toUpperCase A start l w →
    (∀ m ∈ l, m.totpVerified ≠ some true) → SameRealMoney start w := by
  intro hall
  obtain ⟨⟨l, w⟩, hrun, hkv⟩ := Option.map_eq_some_iff.1 armingRun_moves
  have hsame := hall (A := fun _ => True) (run_of_runRequests trivial hrun) (fun m hm => ?_)
    realExecutionHaltedKey (by decide)
  · have hkv : w.kv realExecutionHaltedKey = some "false" := hkv
    rw [hkv] at hsame
    exact absurd hsame (by decide)
  · rw [totpVerified_of_runRequests hrun m hm]
    simp

def hourlyConfig : StrategyConfig where
  entries := [("cycle.timeframe", .str "1h"), ("cycle.universe", .str "SPY,QQQ")]
  nodup := by decide

theorem armingRun_harmless : (armingRun hourlyConfig).map (fun y =>
    (y.1.all fun m => m.before.harmless, y.2.kv "cycle.timeframe")) = some (true, some "1h") := by
  decide

/-- A strategy of market data is applied, and the kill-switch stays tripped. -/
theorem real_money_keys_kept_hourly : ∃ l w, Run id (fun _ => True) haltedWorld l w ∧
    w.kv "cycle.timeframe" = some "1h" ∧ SameRealMoney haltedWorld w := by
  obtain ⟨⟨l, w⟩, hrun, hres⟩ := Option.map_eq_some_iff.1 armingRun_harmless
  obtain ⟨hharmless, hkv⟩ := Prod.mk.inj hres
  have hrun' := run_of_runRequests (A := fun _ => True) trivial hrun
  refine ⟨l, w, hrun', hkv, (real_money_keys_kept hrun' fun m hm => ?_).1 fun m hm => ?_⟩
  · rw [totpVerified_of_runRequests hrun m hm]
    simp
  · exact spares_of_harmless (List.all_eq_true.1 hharmless m hm) m.request

end NeoTrader
