import NeoTrader.Await.Invariant
import NeoTrader.Strategy.Service

/-!
# What the requests do

* `StrategyWorld.applied`, **`wp_applyStrategy`**: the world after a strategy has been applied.
-/

namespace NeoTrader

open Js Await Prog

/-! ## Runs -/

/-- One request: who sent it, and what became of it. -/
structure Moment where
  totpVerified : Option Bool
  request : Request
  before : StrategyWorld
  outcome : Except Err (Option String)
  after : StrategyWorld

/-- **Requests one after the other.** -/
inductive Run (toUpperCase : String → String) (A : StrategyOracle → Prop) (start : StrategyWorld) :
    List Moment → StrategyWorld → Prop
  | nil : Run toUpperCase A start [] start
  | snoc {l : List Moment} {m : Moment} : Run toUpperCase A start l m.before →
      (m.request.body toUpperCase m.totpVerified).Exec (strategySem A) m.before m.outcome m.after →
      Run toUpperCase A start (l ++ [m]) m.after

/-- Requests of one session, all of which meet the same oracle. -/
def runRequests (toUpperCase : String → String) (o : StrategyOracle) (totpVerified : Option Bool) :
    List Request → StrategyWorld → Option (List Moment × StrategyWorld)
  | [], w => some ([], w)
  | request :: l, w => do
    let (outcome, after) ← (request.body toUpperCase totpVerified).execute (handleStrategy o)
      (fun _ _ => true) w
    let (moments, w') ← runRequests toUpperCase o totpVerified l after
    return (⟨totpVerified, request, w, outcome, after⟩ :: moments, w')

section RunRequests

variable {toUpperCase : String → String} {A : StrategyOracle → Prop} {o : StrategyOracle}
  {v : Option Bool} {requests : List Request} {start w₀ w : StrategyWorld} {l₀ l : List Moment}

theorem Run.append_runRequests (ho : A o) (hrun : Run toUpperCase A start l₀ w₀)
    (h : runRequests toUpperCase o v requests w₀ = some (l, w)) :
    Run toUpperCase A start (l₀ ++ l) w := by
  induction requests generalizing l₀ w₀ l with
  | nil =>
    cases h
    rwa [List.append_nil]
  | cons r rs ih =>
    obtain ⟨⟨x, w₁⟩, hx, h⟩ := Option.bind_eq_some_iff.1 h
    obtain ⟨⟨l', w'⟩, hl', h⟩ := Option.bind_eq_some_iff.1 h
    cases h
    have hexec := exec_of_execute (M := strategySem A) (fun op w _ => ⟨o, ho, rfl⟩) hx
    have hfirst : Run toUpperCase A start (l₀ ++ [⟨v, r, w₀, x, w₁⟩]) w₁ := .snoc hrun hexec
    have hall := ih hfirst hl'
    rwa [List.append_assoc] at hall

/-- **Requests that can be executed are a run.** -/
theorem run_of_runRequests (ho : A o) (h : runRequests toUpperCase o v requests start = some (l, w)) :
    Run toUpperCase A start l w := Run.nil.append_runRequests ho h

theorem totpVerified_of_runRequests (h : runRequests toUpperCase o v requests w₀ = some (l, w)) :
    ∀ m ∈ l, m.totpVerified = v := by
  induction requests generalizing w₀ l with
  | nil =>
    cases h
    exact List.forall_mem_nil _
  | cons r rs ih =>
    obtain ⟨⟨x, w₁⟩, hx, h⟩ := Option.bind_eq_some_iff.1 h
    obtain ⟨⟨l', w'⟩, hl', h⟩ := Option.bind_eq_some_iff.1 h
    cases h
    exact List.forall_mem_cons.2 ⟨rfl, ih hl'⟩

theorem requests_of_runRequests (h : runRequests toUpperCase o v requests w₀ = some (l, w)) :
    l.map Moment.request = requests := by
  induction requests generalizing w₀ l with
  | nil =>
    cases h
    rfl
  | cons r rs ih =>
    obtain ⟨⟨x, w₁⟩, hx, h⟩ := Option.bind_eq_some_iff.1 h
    obtain ⟨⟨l', w'⟩, hl', h⟩ := Option.bind_eq_some_iff.1 h
    cases h
    rw [List.map_cons, ih hl']

end RunRequests

/-! ## Settings after writes -/

/-- The entries up to the first value that is not a string. -/
def stringEntries : List (String × Json) → List (String × String)
  | (k, .str v) :: l => (k, v) :: stringEntries l
  | _ => []

/-- Every value is a string. -/
def allStrings (l : List (String × Json)) : Bool := l.all fun e => (Json.asString? (some e.2)).isSome

/-- The settings after some have been written. -/
def writeAll (l : List (String × String)) (kv : String → Option String) : String → Option String :=
  l.foldl (fun kv e => Function.update kv e.1 (some e.2)) kv

@[simp] theorem writeAll_cons (e : String × String) (l : List (String × String))
    (kv : String → Option String) :
    writeAll (e :: l) kv = writeAll l (Function.update kv e.1 (some e.2)) := rfl

theorem writeAll_of_not_mem {l : List (String × String)} {kv : String → Option String} {k : String}
    (hk : k ∉ l.map Prod.fst) : writeAll l kv k = kv k := by
  induction l generalizing kv with
  | nil => rfl
  | cons e l ih =>
    rw [List.map_cons, List.mem_cons, not_or] at hk
    rw [writeAll_cons, ih hk.2, Function.update_of_ne hk.1]

theorem writeAll_of_mem {l : List (String × String)} {kv : String → Option String} {k v : String}
    (hl : (l.map Prod.fst).Nodup) (hk : (k, v) ∈ l) : writeAll l kv k = some v := by
  induction l generalizing kv with
  | nil => cases hk
  | cons e l ih =>
    rw [List.map_cons, List.nodup_cons] at hl
    rw [writeAll_cons]
    rcases List.mem_cons.1 hk with rfl | hk
    · rw [writeAll_of_not_mem hl.1, Function.update_self]
    · exact ih hl.2 hk

theorem writeAll_cases (l : List (String × String)) (kv : String → Option String) (k : String) :
    writeAll l kv k = kv k ∨ ∃ v, (k, v) ∈ l ∧ writeAll l kv k = some v := by
  induction l generalizing kv with
  | nil => exact .inl rfl
  | cons e l ih =>
    rw [writeAll_cons]
    obtain hkv | ⟨v, hv, hkv⟩ := ih (Function.update kv e.1 (some e.2))
    · rw [hkv]
      by_cases he : k = e.1
      · subst he
        rw [Function.update_self]
        exact .inr ⟨e.2, List.mem_cons_self, rfl⟩
      · exact .inl (Function.update_of_ne he _ _)
    · exact .inr ⟨v, List.mem_cons_of_mem e hv, hkv⟩

theorem stringEntries_keys (l : List (String × Json)) :
    ((stringEntries l).map Prod.fst).Sublist (l.map Prod.fst) := by
  fun_induction stringEntries l with
  | case1 k v l ih => exact ih.cons_cons k
  | case2 => exact List.nil_sublist _

theorem mem_stringEntries_of_all {l : List (String × Json)} (hl : allStrings l) {k v : String}
    (h : (k, Json.str v) ∈ l) : (k, v) ∈ stringEntries l := by
  induction l with
  | nil => cases h
  | cons e l ih =>
    obtain ⟨k', j⟩ := e
    rw [allStrings, List.all_cons, Bool.and_eq_true] at hl
    cases j with
    | str v' =>
      rcases List.mem_cons.1 h with he | he
      · cases he
        exact List.mem_cons_self
      · exact List.mem_cons_of_mem _ (ih hl.2 he)
    | _ => exact absurd hl.1 Bool.false_ne_true

/-! ## Where no statement fails -/

section Answered

variable {A : StrategyOracle → Prop} (hA : ∀ o, A o → o.failure = none) {w : StrategyWorld}

include hA

theorem wp_statement {op : StrategyOp} {a : op.Ans} {w' : StrategyWorld}
    {Q : Except Err op.Ans → StrategyWorld → Prop}
    (hop : ∀ o, handleStrategy o op w = statement o w (.ok (a, w'))) (hQ : Q (.ok a) w') :
    (call op).Wp (strategySem A) (fun _ _ => True) Q w := by
  refine wp_perform.2 ⟨trivial, ?_⟩
  rintro r w₁ ⟨o, ho, hh⟩
  have hanswer : statement o w (.ok (a, w')) = (.ok a, w') := by
    unfold statement
    rw [hA o ho]
  obtain ⟨rfl, rfl⟩ := Prod.mk.inj (hanswer.symm.trans ((hop o).symm.trans hh))
  exact hQ

theorem wp_getStrategy (id : String) {Q : Except Err Strategy → StrategyWorld → Prop}
    (hsome : ∀ s, w.strategy? id = some s → Q (.ok s) w)
    (hnone : w.strategy? id = none → ∀ e, Q (.error e) w) :
    (getStrategy id).Wp (strategySem A) (fun _ _ => True) Q w := by
  refine (wp_bind _ _).2 (wp_statement hA (fun _ => rfl) ?_)
  cases hs : w.strategy? id with
  | none => exact hnone hs _
  | some s => exact hsome s hs

theorem wp_applyEntries (l : List (String × Json)) :
    (Prog.forEach l applyEntry).Wp (strategySem A) (fun _ _ => True)
      (fun r w' => w' = { w with kv := writeAll (stringEntries l) w.kv } ∧
        (r = .ok () ↔ allStrings l)) w := by
  induction l generalizing w with
  | nil => exact ⟨rfl, by simp [allStrings]⟩
  | cons e l ih =>
    obtain ⟨k, j⟩ := e
    cases j with
    | str v =>
      refine (wp_bind _ _).2 (wp_statement hA (fun _ => rfl) ?_)
      refine wp_post ?_ (ih (w := { w with kv := Function.update w.kv k (some v) }))
      rintro r w' ⟨hw', hr⟩
      exact ⟨hw', hr.trans (by simp [allStrings, Json.asString?])⟩
    | _ => exact ⟨rfl, by simp [allStrings, Json.asString?]⟩

end Answered

/-- **The world after a strategy has been applied.** -/
def StrategyWorld.applied (w : StrategyWorld) (id : String) (c : StrategyConfig) : StrategyWorld :=
  let kv := writeAll (stringEntries c.entries) w.kv
  { w with kv := if allStrings c.entries then Function.update kv strategyAppliedKey (some id) else kv }

theorem StrategyWorld.applied_kv {w : StrategyWorld} {id : String} {c : StrategyConfig} {k : String}
    (hk : k ≠ strategyAppliedKey) :
    (w.applied id c).kv k = writeAll (stringEntries c.entries) w.kv k := by
  rw [applied]
  split
  · exact Function.update_of_ne hk _ _
  · rfl

theorem StrategyWorld.applied_of_mem {w : StrategyWorld} {id : String} {c : StrategyConfig}
    {k v : String} (hk : k ≠ strategyAppliedKey) (hv : (k, v) ∈ stringEntries c.entries) :
    (w.applied id c).kv k = some v := by
  rw [applied_kv hk]
  exact writeAll_of_mem ((stringEntries_keys c.entries).nodup c.nodup) hv

/-- The world after the strategy of an id has been applied, if there is one. -/
def StrategyWorld.afterApply (w : StrategyWorld) (id : String) : StrategyWorld :=
  ((w.strategy? id).bind Strategy.config).elim w (w.applied id)

/-- **An application writes the entries of the map**, and then the pointer to the strategy. -/
theorem wp_applyStrategy {A : StrategyOracle → Prop} (hA : ∀ o, A o → o.failure = none)
    {w : StrategyWorld} (id : String) :
    (applyStrategy id).Wp (strategySem A) (fun _ _ => True) (fun _ w' => w' = w.afterApply id) w := by
  unfold StrategyWorld.afterApply
  refine (wp_bind _ _).2 (wp_getStrategy hA id (fun s hs => ?_) fun hs _ => ?_)
  · rw [hs]
    cases hc : s.config with
    | none =>
      rw [Option.bind_some, hc]
      dsimp only [bindPost]
      rw [hc]
      exact rfl
    | some c =>
      rw [Option.bind_some, hc, Option.elim_some]
      dsimp only [bindPost]
      rw [hc]
      refine wp_bind_of (wp_applyEntries hA c.entries) ?_ ?_
      · rintro _ w₁ ⟨hw₁, hok⟩
        rw [hw₁]
        refine wp_statement hA (fun _ => rfl) ?_
        rw [StrategyWorld.applied, if_pos (hok.1 rfl)]
      · rintro e w₁ ⟨hw₁, hok⟩
        have hno : ¬ allStrings c.entries = true := fun hall => by cases hok.2 hall
        rw [hw₁, StrategyWorld.applied, if_neg hno]
  · rw [hs]
    rfl

/-! ## What one request does -/

/-- The world with the row of an id changed. -/
def StrategyWorld.modified (w : StrategyWorld) (id : String) (f : Strategy → Strategy) :
    StrategyWorld :=
  { w with strategies := Store.modify (fun s => s.id = id) f w.strategies }

/-- The row with a verdict of the given time. -/
def Strategy.record (verdict : String) (time : ℤ) (s : Strategy) : Strategy :=
  { s with walkForwardVerdict := some verdict, walkForwardCheckedAt := some time }

def givenSettings (l : List (String × Option String)) : List (String × String) :=
  l.filterMap fun e => e.2.map fun v => (e.1, v)

def StrategyWorld.written (w : StrategyWorld) (l : List (String × String)) : StrategyWorld :=
  { w with kv := writeAll l w.kv }

def Request.settings (toUpperCase : String → String) : Request → List (String × String)
  | .cycleConfig dto => givenSettings (dto.settings toUpperCase)
  | .executionConfig patch => givenSettings patch.settings
  | _ => []

/-- **What a request other than an application can do**, and what it then returns. Of the settings
that it writes, those before a failure are written. -/
inductive RequestStep (toUpperCase : String → String) (A : StrategyOracle → Prop)
    (w : StrategyWorld) : Request → Except Err (Option String) → StrategyWorld → Prop
  | same {r x} : RequestStep toUpperCase A w r x w
  | created {dto config x} {o : StrategyOracle} (ho : A o) :
      RequestStep toUpperCase A w (.strategyCreate dto) x
        { w with strategies := w.strategies ++ [dto.row o.newId config] }
  | updated {id dto x} : RequestStep toUpperCase A w (.strategyUpdate id dto) x
      (w.modified id dto.apply)
  | activated {id active x} : RequestStep toUpperCase A w (.strategySetActive id active) x
      (w.modified id fun s => { s with active })
  | removed {id x} : RequestStep toUpperCase A w (.strategyRemove id) x
      { w with strategies := w.strategies.filter fun s => s.id ≠ id }
  | wrote {r l x} (hl : l <+: r.settings toUpperCase) :
      RequestStep toUpperCase A w r x (w.written l)
  | cleared {x kv} (hkv : ∀ k, k ≠ realExecutionHaltedKey → k ≠ realExecutionHaltReasonKey →
      kv k = w.kv k) : RequestStep toUpperCase A w .realHaltClear x { w with kv }
  | recorded {dto id verdict} {time : ℤ} (hid : dto.strategyRowId = some id) :
      RequestStep toUpperCase A w (.walkForward dto) (.ok (some verdict))
        (w.modified id (Strategy.record verdict time))

section RequestStep

variable {toUpperCase : String → String} {A : StrategyOracle → Prop} {w : StrategyWorld}

theorem wp_outcome {op : StrategyOp} {x : StrategyOracle → Except Err (op.Ans × StrategyWorld)}
    {Q : Except Err op.Ans → StrategyWorld → Prop}
    (hop : ∀ o, handleStrategy o op w = statement o w (x o)) (herr : ∀ e, Q (.error e) w)
    (hok : ∀ o a w', A o → x o = .ok (a, w') → Q (.ok a) w') :
    (call op).Wp (strategySem A) (fun _ _ => True) Q w := by
  refine wp_perform.2 ⟨trivial, ?_⟩
  rintro r w₁ ⟨o, ho, hh⟩
  have hstatement : statement o w (x o) = (r, w₁) := (hop o).symm.trans hh
  unfold statement at hstatement
  split at hstatement
  · cases hstatement
    exact herr _
  · cases hstatement
    exact herr _
  · next heq =>
    cases hstatement
    exact hok o _ _ ho heq

theorem wp_query {op : StrategyOp} {a : op.Ans} {Q : Except Err op.Ans → StrategyWorld → Prop}
    (hop : ∀ o, handleStrategy o op w = statement o w (.ok (a, w))) (hQ : ∀ r, Q r w) :
    (call op).Wp (strategySem A) (fun _ _ => True) Q w := by
  refine wp_outcome hop (fun e => hQ _) fun o b w' _ hb => ?_
  cases hb
  exact hQ _

theorem wp_getStrategy_any {id : String} {Q : Except Err Strategy → StrategyWorld → Prop}
    (hQ : ∀ r, Q r w) : (getStrategy id).Wp (strategySem A) (fun _ _ => True) Q w := by
  refine (wp_bind _ _).2 (wp_query (fun _ => rfl) fun r => ?_)
  rcases r with e | _ | s
  · exact hQ _
  · exact hQ _
  · exact hQ _

theorem wp_bind_any {α β : Type} {p : Service α} {f : α → Service β}
    {Q : Except Err β → StrategyWorld → Prop}
    (hp : p.Wp (strategySem A) (fun _ _ => True) (fun _ w' => w' = w) w)
    (herr : ∀ e, Q (.error e) w) (hf : ∀ a, (f a).Wp (strategySem A) (fun _ _ => True) Q w) :
    (p >>= f).Wp (strategySem A) (fun _ _ => True) Q w := by
  refine wp_bind_of hp ?_ ?_
  · rintro a w₁ rfl
    exact hf a
  · rintro e w₁ rfl
    exact herr e

theorem wp_kvGets {keys : List String} :
    (Prog.collect keys fun k => call (.kvGet k)).Wp (strategySem A) (fun _ _ => True)
      (fun _ w' => w' = w) w := by
  refine wp_collect (I := fun w' => w' = w) (fun k _ w₁ hw₁ => ?_) rfl
  exact wp_query (fun _ => rfl) fun _ => hw₁

theorem wp_writeSettings (l : List (String × Option String)) :
    (writeSettings l).Wp (strategySem A) (fun _ _ => True)
      (fun _ w' => ∃ l', l' <+: givenSettings l ∧ w' = w.written l') w := by
  induction l generalizing w with
  | nil => exact ⟨[], List.prefix_refl _, rfl⟩
  | cons e l ih =>
    obtain ⟨k, _ | v⟩ := e
    · exact ih
    · refine (wp_bind _ _).2 (wp_outcome (fun _ => rfl) (fun e => ?_) fun o u w' _ hw' => ?_)
      · exact ⟨[], List.nil_prefix, rfl⟩
      · cases hw'
        refine wp_post ?_ ih
        rintro r w₂ ⟨l', hl', rfl⟩
        exact ⟨(k, v) :: l', (List.prefix_cons_inj _).2 hl', rfl⟩

theorem updateRow_modified {id : String} {f : Strategy → Strategy} {s : Strategy}
    {w' : StrategyWorld} (h : w.updateRow id f = .ok (s, w')) : w' = w.modified id f := by
  unfold StrategyWorld.updateRow at h
  split at h
  · cases h
  · cases h
    rfl

theorem wp_createStrategy (dto : CreateStrategyDto) :
    (createStrategy dto).Wp (strategySem A) (fun _ _ => True)
      (fun _ w' => ∀ x, RequestStep toUpperCase A w (.strategyCreate dto) x w') w := by
  have hrest (config : StrategyConfig) : (insertStrategy dto config).Wp (strategySem A)
      (fun _ _ => True)
      (fun _ w' => ∀ x, RequestStep toUpperCase A w (.strategyCreate dto) x w') w := by
    refine (wp_bind _ _).2 ((wp_attempt _ _).2 ?_)
    refine wp_outcome (fun _ => rfl) (fun e x => .same) fun o s w' ho hw' => ?_
    split at hw'
    · cases hw'
    · cases hw'
      exact fun x => .created ho
  unfold createStrategy
  cases dto.config with
  | some config => exact hrest config
  | none =>
    refine wp_bind_any ?_ (fun e x => .same) hrest
    exact wp_bind_any wp_kvGets (fun e => rfl) fun values => rfl

theorem wp_updateStrategy (id : String) (dto : UpdateStrategyDto) :
    (updateStrategy id dto).Wp (strategySem A) (fun _ _ => True)
      (fun _ w' => ∀ x, RequestStep toUpperCase A w (.strategyUpdate id dto) x w') w := by
  refine wp_bind_any (wp_getStrategy_any fun _ => rfl) (fun e x => .same) fun s => ?_
  refine (wp_bind _ _).2 ((wp_attempt _ _).2 ?_)
  refine wp_outcome (fun _ => rfl) (fun e x => .same) fun o s w' ho hw' => ?_
  by_cases htaken : w.nameTaken id dto.name = true
  · cases (if_pos htaken).symm.trans hw'
  · rw [updateRow_modified ((if_neg htaken).symm.trans hw')]
    exact fun x => .updated

theorem wp_recordWalkForward (id verdict : String) :
    (recordWalkForward id verdict).Wp (strategySem A) (fun _ _ => True)
      (fun r w' => r = .ok () ∧
        (w' = w ∨ ∃ time, w' = w.modified id (Strategy.record verdict time))) w := by
  refine (wp_bind _ _).2 ((wp_attempt _ _).2 ?_)
  refine wp_outcome (fun _ => rfl) (fun e => ⟨rfl, .inl rfl⟩) fun o u w' _ hw' => ?_
  cases hrow : w.updateRow id (Strategy.record verdict o.time) with
  | error e =>
    have hw' : (w.updateRow id (Strategy.record verdict o.time)).map _ = _ := hw'
    rw [hrow] at hw'
    cases hw'
  | ok y =>
    have hw' : (w.updateRow id (Strategy.record verdict o.time)).map _ = _ := hw'
    rw [hrow] at hw'
    cases hw'
    exact ⟨rfl, .inr ⟨o.time, updateRow_modified hrow⟩⟩

theorem wp_runWalkForward (dto : RunBacktestDto) :
    (BacktestService.runWalkForward dto).Wp (strategySem A) (fun _ _ => True)
      (fun r w' => RequestStep toUpperCase A w (.walkForward dto) (r.map some) w') w := by
  refine wp_bind_any ?_ (fun e => .same) fun verdict => ?_
  · have hop : ∀ o, handleStrategy o (.runWalkForward dto) w = statement o w (.ok (o.verdict, w)) :=
      fun _ => rfl
    refine wp_outcome hop (fun _ => rfl) fun o verdict w' _ hw' => ?_
    cases hw'
    rfl
  split
  · exact .same
  next strategyRowId hid =>
  refine wp_bind_of (wp_recordWalkForward strategyRowId verdict) ?_ ?_
  · rintro u w₁ ⟨-, rfl | ⟨time, rfl⟩⟩
    · exact .same
    · exact .recorded (Option.filter_eq_some_iff.1 hid).1
  · rintro e w₁ ⟨hok, -⟩
    cases hok

theorem wp_clearRealExecutionHalt :
    clearRealExecutionHalt.Wp (strategySem A) (fun _ _ => True)
      (fun _ w' => ∀ x, RequestStep toUpperCase A w .realHaltClear x w') w := by
  refine (wp_bind _ _).2 (wp_outcome (fun _ => rfl) (fun e x => .same) fun o u w₁ _ hw₁ => ?_)
  cases hw₁
  have hhalted : ∀ x, RequestStep toUpperCase A w .realHaltClear x
      { w with kv := Function.update w.kv realExecutionHaltedKey (some "false") } := fun x =>
    .cleared fun k hk _ => Function.update_of_ne hk _ _
  refine (wp_bind _ _).2 ((wp_attempt _ _).2 ?_)
  refine wp_outcome (fun _ => rfl) (fun e => hhalted) fun o' u' w₂ _ hw₂ => ?_
  cases hw₂
  exact fun x => .cleared fun k hk hk' =>
    (Function.update_of_ne hk' _ _).trans (Function.update_of_ne hk _ _)

theorem wp_setConfig (dto : UpdateCycleConfigDto) :
    (setConfig toUpperCase dto).Wp (strategySem A) (fun _ _ => True)
      (fun _ w' => ∀ x, RequestStep toUpperCase A w (.cycleConfig dto) x w') w := by
  refine wp_bind_of (wp_writeSettings _) ?_ ?_
  · rintro u w₁ ⟨l, hl, rfl⟩
    have hwrote : ∀ x, RequestStep toUpperCase A w (.cycleConfig dto) x (w.written l) := fun x =>
      .wrote hl
    exact wp_bind_any wp_kvGets (fun e => hwrote) fun values => hwrote
  · rintro e w₁ ⟨l, hl, rfl⟩
    exact fun x => .wrote hl

/-- **What a request other than an application does.** -/
theorem Request.wp_body {totpVerified : Option Bool} {r : Request}
    (hr : ∀ id, r ≠ .strategyApply id) :
    (r.body toUpperCase totpVerified).Wp (strategySem A) (fun _ _ => True)
      (RequestStep toUpperCase A w r) w := by
  refine (wp_bind _ _).2 (wp_ofOutcome.2 ?_)
  cases r.guards totpVerified with
  | error e => exact .same
  | ok u =>
    cases r with
    | strategyCreate dto =>
      exact wp_bind_of (wp_createStrategy dto) (fun _ _ h => h _) fun _ _ h => h _
    | strategyUpdate id dto =>
      exact wp_bind_of (wp_updateStrategy id dto) (fun _ _ h => h _) fun _ _ h => h _
    | strategyRemove id =>
      refine (wp_bind _ _).2 (wp_bind_any (wp_getStrategy_any fun _ => rfl) (fun e => .same) ?_)
      refine fun s => wp_outcome (fun _ => rfl) (fun e => .same) fun o u w' _ hw' => ?_
      cases hw'
      exact .removed
    | strategySetActive id active =>
      refine (wp_bind _ _).2 (wp_bind_any (wp_getStrategy_any fun _ => rfl) (fun e => .same) ?_)
      refine fun s => wp_outcome (fun _ => rfl) (fun e => .same) fun o u w' _ hw' => ?_
      rw [updateRow_modified hw']
      exact .activated
    | strategyApply id => exact absurd rfl (hr id)
    | cycleConfig dto => exact wp_bind_of (wp_setConfig dto) (fun _ _ h => h _) fun _ _ h => h _
    | backtest dto => exact (wp_bind _ _).2 (wp_query (fun _ => rfl) fun r => by cases r <;> exact .same)
    | walkForward dto => exact wp_bind_of (wp_runWalkForward dto) (fun _ _ h => h) fun _ _ h => h
    | executionConfig patch =>
      refine wp_bind_of (wp_writeSettings _) ?_ ?_
      · rintro u w₁ ⟨l, hl, rfl⟩
        exact .wrote hl
      · rintro e w₁ ⟨l, hl, rfl⟩
        exact .wrote hl
    | realHaltClear =>
      exact wp_bind_of wp_clearRealExecutionHalt (fun _ _ h => h _) fun _ _ h => h _

end RequestStep

end NeoTrader
