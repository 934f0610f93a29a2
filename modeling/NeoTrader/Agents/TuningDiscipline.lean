import NeoTrader.Agents.ParamTuning

/-!
# The discipline of parameter changes

* `Permitted`, `TuneEffect`, **`tune_effect`**: what a change does, whatever it is answered;
* `TuneInv`, **`safe_of_run`**: the changes of a run are spaced, limited, journaled and validated,
  whatever the folder of the discipline holds;
* **`disciplined_iff`**: with the folder as it is, a run is disciplined when no change of it is due.
-/

namespace NeoTrader

open Js Await Prog

/-! ## What a call writes -/

abbrev TuneEvent : Type := Event tuneSig

inductive TuneWrite
  | journal (entries : List JournalEntry)
  | config (pluginId : String) (config : Obj)

def writeOf : TuneEvent → Option TuneWrite
  | ⟨.kvSetJournal entries, .ok _⟩ => some (.journal entries)
  | ⟨.updateConfig id config, .ok _⟩ => some (.config id config)
  | _ => none

def writesOf (h : List TuneEvent) : List TuneWrite := h.filterMap writeOf

/-- What the world is after a write. -/
def TuneWrite.apply (w : TuneWorld) : TuneWrite → TuneWorld
  | .journal entries => { w with journal := some entries }
  | .config id c =>
    let plugins := w.plugins.map fun p => if p.id = id then { p with config := some c } else p
    { w with plugins }

/-- The call has changed the configuration of a plugin. -/
def TuneStep.applied (r : TuneStep) (pluginId : String) : Bool :=
  (writesOf r.events).any fun
    | .config id _ => id = pluginId
    | .journal _ => false

/-- The entry that the call has written. -/
def TuneStep.entry? (r : TuneStep) : Option JournalEntry :=
  (writesOf r.events).findSome? fun
    | .journal entries => entries.getLast?
    | .config _ _ => none

def TuneStep.isCycle (r : TuneStep) : Bool :=
  match r.request with
  | .cycle _ _ _ => true
  | .tune _ => false

/-! ## The property -/

def appliedEntries (pluginId : String) (l : List TuneStep) : List JournalEntry :=
  l.filterMap fun r => if r.applied pluginId then r.entry? else none

/-- The cycles since the last change of a plugin. -/
def cyclesAfter (pluginId : String) (l : List TuneStep) : ℕ :=
  (l.reverse.takeWhile fun r => !r.applied pluginId).countP TuneStep.isCycle

def LockElapsed (pluginId : String) (lock : ℤ) (l : List TuneStep) : Prop :=
  (∃ r ∈ l, r.applied pluginId) → lock ≤ cyclesAfter pluginId l

/-- The changes of the week before a time. -/
def appliedInWeek (pluginId : String) (time : ℚ) (l : List TuneStep) : ℕ :=
  (appliedEntries pluginId l).countP fun e => time - weekSeconds < e.ts

/-- The configuration of the active discipline. -/
def TuneWorld.discipline? (w : TuneWorld) : Option Obj :=
  ((w.plugins.filter TunedPlugin.active).find? fun p => p.id = "param-discipline").map fun p =>
    p.config.getD []

def ValidChange (w : TuneWorld) (req : TuneRequest) (p : TunedPlugin) (schema : ConfigSchema) : Prop :=
  w.plugin? req.pluginId = some p ∧ p.type = "skill" ∧ p.schema = some schema ∧
    ∃ spec, schema.spec? req.param = some spec ∧ validateField req.param req.value spec = []

/-- **A change that is due**: it is valid and has its reason, the lock has elapsed, the week has room,
and no operation of the call has failed. -/
structure Due (l : List TuneStep) (r : TuneStep) (req : TuneRequest) : Prop where
  kv : req.hasKv = true
  answered : ∀ e ∈ r.events, e.2.isOk = true
  valid : ∃ p schema, ValidChange r.before req p schema ∧
    validateConfig (mergedConfig (p.config.getD []) req.param req.value) schema = []
  governed : ∃ config lock max minLength, r.before.discipline? = some config ∧
    lockCyclesOf config = .ok lock ∧ maxPerWeekOf config = .ok max ∧
    minHypothesisOf config = .ok minLength ∧ ReasonGiven config minLength req.hypothesis ∧
    LockElapsed req.pluginId lock l ∧ (appliedInWeek req.pluginId req.time l : ℤ) < max

/-- **What is applied is governed**: spaced by the lock, limited in a week, in the journal, and
validated. -/
structure GovernedChange (l : List TuneStep) (r : TuneStep) (pluginId : String) : Prop where
  request : ∃ req p schema, r.request = .tune req ∧ req.pluginId = pluginId ∧
    ValidChange r.before req p schema ∧ ∃ config lock max, r.before.discipline? = some config ∧
      lockCyclesOf config = .ok lock ∧ LockElapsed pluginId lock l ∧
      maxPerWeekOf config = .ok max ∧ (appliedInWeek pluginId req.time l : ℤ) < max
  journaled : ∃ e ∈ r.after.stored, r.entry? = some e ∧ e.pluginId = pluginId

/-- **The discipline of a run.** -/
structure Disciplined (l : List TuneStep) : Prop where
  governed : ∀ l₁ r l₂ pluginId, l = l₁ ++ r :: l₂ → r.applied pluginId = true →
    GovernedChange l₁ r pluginId
  accepted : ∀ l₁ r l₂ req, l = l₁ ++ r :: l₂ → r.request = .tune req → Due l₁ r req →
    ∃ id, r.outcome = .ok (.accepted id)

/-! ## What a change does -/

/-- The chain has let the change pass, and has written this journal. -/
structure Permitted (w : TuneWorld) (req : TuneRequest) (journal : List JournalEntry) : Prop where
  valid : ∃ p schema, ValidChange w req p schema
  governed : ∃ config status before newId id, w.discipline? = some config ∧
    (∃ name, callFunction w.folder "check_lock" = .ok name) ∧
    checkLock w.stored req.pluginId config = .ok status ∧ status.locked = false ∧
    journalEntry w.stored (req.journalArgs before) config req.time newId = .ok (journal, .ok id)

/-- The writes of a change: none, or the journal, or the journal and then the configuration. -/
def WrittenBy (w : TuneWorld) (req : TuneRequest) (ws : List TuneWrite) : Prop :=
  ws = [] ∨ ∃ journal, Permitted w req journal ∧ (ws = [.journal journal] ∨
    ∃ config, ws = [.journal journal, .config req.pluginId config])

/-- **What a change does**: it writes what the chain has permitted, and it is only done where the
configuration is written. -/
structure TuneEffect (w : TuneWorld) (req : TuneRequest) (done : Prop) (ws : List TuneWrite) : Prop where
  written : WrittenBy w req ws
  done : done → ∃ journal config, ws = [.journal journal, .config req.pluginId config]

section Effect

/-- The writes so far, and the world after them. -/
def AfterWrites (w : TuneWorld) (ws : List TuneWrite) (x : TuneWorld × List TuneEvent) : Prop :=
  x.1 = ws.foldl TuneWrite.apply w ∧ writesOf x.2 = ws

variable {w : TuneWorld} {ws : List TuneWrite} {x : TuneWorld × List TuneEvent} {α β : Type}

/-- The operation writes nothing. -/
def TuneOp.reads : TuneOp → Bool
  | .kvSetJournal _ | .updateConfig _ _ => false
  | _ => true

theorem tune_cases {op : TuneOp} {w' : TuneWorld} {r : Except String op.Ans}
    (h : tuneSem.rel op w r w') :
    (∃ e, r = .error e ∧ w' = w) ∨ ∃ o, answerTune o op w = (r, w') := by
  obtain ⟨o, -, h⟩ := h
  unfold handleTune at h
  split at h
  · cases h
    exact .inl ⟨_, rfl, rfl⟩
  · exact .inr ⟨o, h⟩

theorem answer_of_reads {op : TuneOp} (hop : op.reads = true) {o : TuneOracle} {w' : TuneWorld}
    {r : Except String op.Ans} (h : answerTune o op w = (r, w')) : w' = w := by
  cases op with
  | kvSetJournal | updateConfig => cases hop
  | findById id =>
    simp only [answerTune] at h
    split at h <;> cases h <;> rfl
  | _ =>
    cases h
    rfl

theorem writeOf_of_reads {e : TuneEvent} (he : e.1.reads = true) : writeOf e = none := by
  obtain ⟨op, r⟩ := e
  cases op with
  | kvSetJournal | updateConfig => cases he
  | _ => rfl

theorem afterWrites_read (op : TuneOp) (hop : op.reads = true) {r : Except String op.Ans}
    {x' : TuneWorld × List TuneEvent} (hx : AfterWrites w ws x) (hm : tuneSem.traced.rel op x r x') :
    AfterWrites w ws x' ∧ ∀ a, r = .ok a →
      ∃ o, answerTune o op (ws.foldl TuneWrite.apply w) = (.ok a, ws.foldl TuneWrite.apply w) := by
  obtain ⟨hm, htrace⟩ := hm
  have hwrites : writesOf x'.2 = ws := by
    rw [htrace, writesOf, List.filterMap_append, List.filterMap_cons_none (writeOf_of_reads hop),
      List.filterMap_nil, List.append_nil]
    exact hx.2
  rcases tune_cases hm with ⟨e, rfl, hw⟩ | ⟨o, ho⟩
  · exact ⟨⟨hw.trans hx.1, hwrites⟩, nofun⟩
  · have hw := answer_of_reads hop ho
    refine ⟨⟨hw.trans hx.1, hwrites⟩, ?_⟩
    rintro a rfl
    exact ⟨o, by rw [← hx.1, ho, hw]⟩

/-- **A read**, and what follows its answer. -/
theorem wp_tuneRead (op : TuneOp) (hop : op.reads = true) {f : op.Ans → Tune β}
    {Q : Except String β → TuneWorld × List TuneEvent → Prop} (hx : AfterWrites w ws x)
    (herr : ∀ e x', AfterWrites w ws x' → Q (.error e) x')
    (hok : ∀ a x', AfterWrites w ws x' →
      (∃ o, answerTune o op (ws.foldl TuneWrite.apply w) = (.ok a, ws.foldl TuneWrite.apply w)) →
      (f a).Wp tuneSem.traced (fun _ _ => True) Q x') :
    (issueTune op >>= f).Wp tuneSem.traced (fun _ _ => True) Q x := by
  refine wp_perform_bind.2 ⟨trivial, fun r x' hm => ?_⟩
  obtain ⟨hx', hanswer⟩ := afterWrites_read op hop hx hm
  cases r with
  | error e => exact herr e x' hx'
  | ok a => exact hok a x' hx' (hanswer a rfl)

theorem plugin?_of_answer {id : String} {o : TuneOracle} {p : TunedPlugin} {w' : TuneWorld}
    (h : answerTune o (.findById id) w = (.ok p, w')) : w.plugin? id = some p := by
  simp only [answerTune] at h
  split at h
  · cases h
  · next hp =>
    cases h
    exact hp

theorem wp_getConfigSchema (id : String) {f : Option ConfigSchema → Tune β}
    {Q : Except String β → TuneWorld × List TuneEvent → Prop} (hx : AfterWrites w ws x)
    (herr : ∀ e x', AfterWrites w ws x' → Q (.error e) x')
    (hok : ∀ p x', AfterWrites w ws x' → (ws.foldl TuneWrite.apply w).plugin? id = some p →
      (f p.schema).Wp tuneSem.traced (fun _ _ => True) Q x') :
    (getConfigSchema id >>= f).Wp tuneSem.traced (fun _ _ => True) Q x := by
  unfold getConfigSchema
  rw [bind_assoc']
  refine wp_tuneRead (.findById id) rfl hx herr fun p x' hx' hp => ?_
  obtain ⟨o, hp⟩ := hp
  exact hok p x' hx' (plugin?_of_answer hp)

theorem wp_validateSingleField {id param : String} {value : Option Json} {spec : ConfigFieldSpec}
    {schema : ConfigSchema} {f : List String → Tune β}
    {Q : Except String β → TuneWorld × List TuneEvent → Prop} (hx : AfterWrites w ws x)
    (hspec : schema.spec? param = some spec)
    (hschema : ∀ p, (ws.foldl TuneWrite.apply w).plugin? id = some p → p.schema = some schema)
    (herr : ∀ e x', AfterWrites w ws x' → Q (.error e) x')
    (hok : ∀ x', AfterWrites w ws x' →
      (f (validateField param value spec)).Wp tuneSem.traced (fun _ _ => True) Q x') :
    (validateSingleField id param value >>= f).Wp tuneSem.traced (fun _ _ => True) Q x := by
  unfold validateSingleField
  rw [bind_assoc']
  refine wp_getConfigSchema id hx herr fun p x' hx' hp => ?_
  rw [hschema p hp, Option.bind_some, hspec]
  exact hok x' hx'

theorem wp_tuneWrite (op : TuneOp) (write : TuneWrite) {r : Except String op.Ans}
    {x' : TuneWorld × List TuneEvent} (hx : AfterWrites w ws x)
    (hop : ∀ o w', answerTune o op x.1 = (r, w') → w' = write.apply x.1 ∧ writeOf ⟨op, r⟩ = some write)
    (herror : ∀ e, writeOf ⟨op, .error e⟩ = none) (hm : tuneSem.traced.rel op x r x') :
    ((∃ e, r = .error e) ∧ AfterWrites w ws x') ∨ AfterWrites w (ws ++ [write]) x' := by
  obtain ⟨hm, htrace⟩ := hm
  rcases tune_cases hm with ⟨e, rfl, hw⟩ | ⟨o, ho⟩
  · refine .inl ⟨⟨e, rfl⟩, hw.trans hx.1, ?_⟩
    rw [htrace, writesOf, List.filterMap_append, List.filterMap_cons_none (herror e),
      List.filterMap_nil, List.append_nil]
    exact hx.2
  · obtain ⟨hw, hwrite⟩ := hop o x'.1 ho
    refine .inr ⟨?_, ?_⟩
    · rw [hw, hx.1, List.foldl_append]
      rfl
    · rw [htrace, writesOf, List.filterMap_append, List.filterMap_cons_some hwrite]
      exact congrArg (· ++ [write]) hx.2

def MergeWrites (ws : List TuneWrite) (id : String) (r : Except String Unit)
    (ws' : List TuneWrite) : Prop :=
  (ws' = ws ∧ r ≠ .ok ()) ∨ ∃ config, ws' = ws ++ [.config id config]

theorem wp_updateConfig_find (id : String) (config : Obj) (hx : AfterWrites w ws x) :
    (do issueTune (.updateConfig id config)
        let _ ← issueTune (.findById id)
        return () : Tune Unit).Wp tuneSem.traced (fun _ _ => True)
      (fun r x' => ∃ ws', AfterWrites w ws' x' ∧ MergeWrites ws id r ws') x := by
  refine wp_perform_bind.2 ⟨trivial, fun r x' hm => ?_⟩
  have hcases := wp_tuneWrite (.updateConfig id config) (.config id config) hx
    (fun o w' h => by cases h; exact ⟨rfl, rfl⟩) (fun _ => rfl) hm
  cases r with
  | error e =>
    rcases hcases with ⟨-, hx'⟩ | hx'
    · exact ⟨ws, hx', .inl ⟨rfl, nofun⟩⟩
    · exact ⟨_, hx', .inr ⟨config, rfl⟩⟩
  | ok u =>
    rcases hcases with ⟨⟨e, he⟩, -⟩ | hx'
    · cases he
    · exact wp_tuneRead (.findById id) rfl hx' (fun _ x'' hx'' => ⟨_, hx'', .inr ⟨config, rfl⟩⟩)
        fun _ x'' hx'' _ => ⟨_, hx'', .inr ⟨config, rfl⟩⟩

theorem wp_mergeConfig (id param : String) (value : Option Json) (hx : AfterWrites w ws x) :
    (mergeConfig id param value).Wp tuneSem.traced (fun _ _ => True)
      (fun r x' => ∃ ws', AfterWrites w ws' x' ∧ MergeWrites ws id r ws') x := by
  have hnone : ∀ e x', AfterWrites w ws x' →
      ∃ ws', AfterWrites w ws' x' ∧ MergeWrites ws id (.error e) ws' :=
    fun e x' hx' => ⟨ws, hx', .inl ⟨rfl, nofun⟩⟩
  refine wp_tuneRead (.findById id) rfl hx hnone fun p x' hx' _ => ?_
  refine wp_getConfigSchema id hx' hnone fun p' x'' hx'' _ => ?_
  cases p'.schema with
  | none => exact wp_updateConfig_find id _ hx''
  | some schema =>
    refine wp_ite (fun _ => hnone _ x'' hx'') fun _ => ?_
    exact wp_updateConfig_find id _ hx''

section Chain

variable {req : TuneRequest} {p : TunedPlugin} {schema : ConfigSchema} {config : Obj}

theorem TuneEffect.none {done : Prop} (h : ¬ done) : TuneEffect w req done [] :=
  ⟨.inl rfl, fun hdone => absurd hdone h⟩

theorem sandboxed_eq_some {folder : DisciplineFolder} {fn : String} {x : Except String α} {a : α}
    (h : sandboxed folder fn x = some a) : (∃ name, callFunction folder fn = .ok name) ∧ x = .ok a := by
  unfold sandboxed at h
  split at h
  · cases h
  · next name hname =>
    cases x with
    | error e => cases h
    | ok b =>
      cases h
      exact ⟨⟨name, hname⟩, rfl⟩

def ChainEnd (w : TuneWorld) (req : TuneRequest) (r : Except String ChainResult)
    (x : TuneWorld × List TuneEvent) : Prop :=
  ∃ ws, AfterWrites w ws x ∧ TuneEffect w req (∃ before id, r = .ok (.changed before id)) ws

theorem chainEnd_gate (hx : AfterWrites w [] x) (reason : String) :
    ChainEnd w req (.ok (.gate reason)) x :=
  ⟨[], hx, .none fun ⟨_, _, h⟩ => by cases h⟩

theorem chainEnd_error (hx : AfterWrites w [] x) (e : String) : ChainEnd w req (.error e) x :=
  ⟨[], hx, .none fun ⟨_, _, h⟩ => by cases h⟩

/-- **The chain** writes the journal that the discipline has given it, and then the configuration. -/
theorem wp_runTuneChain (hvalid : ValidChange w req p schema) (pluginConfig : Obj)
    (hdiscipline : w.discipline? = some config) (hx : AfterWrites w [] x) :
    (runTuneChain req pluginConfig config).Wp tuneSem.traced (fun _ _ => True)
      (ChainEnd w req) x := by
  unfold runTuneChain
  refine wp_ite (fun _ => chainEnd_gate hx _) fun _ => ?_
  refine wp_tuneRead .kvGetJournal rfl hx (fun e x hx => chainEnd_error hx e)
    fun journal x hx hjournal => ?_
  obtain ⟨o, hjournal⟩ := hjournal
  obtain rfl : w.journal = journal := Except.ok.inj (Prod.mk.inj hjournal).1
  refine wp_tuneRead (.callCheckLock _ _ _) rfl hx (fun e x hx => chainEnd_error hx e)
    fun lock x hx hlock => ?_
  obtain ⟨o, hlock⟩ := hlock
  cases lock with
  | none => exact chainEnd_gate hx _
  | some lock =>
    obtain ⟨hcall, hchecked⟩ := sandboxed_eq_some (Except.ok.inj (Prod.mk.inj hlock).1)
    refine wp_ite (fun _ => chainEnd_gate hx _) fun hunlocked => ?_
    refine wp_tuneRead (.callJournalEntry _ _ _ _) rfl hx (fun e x hx => chainEnd_error hx e)
      fun entry x hx hentry => ?_
    obtain ⟨o, hentry⟩ := hentry
    rcases entry with _ | ⟨updated, e | entryId⟩
    · exact chainEnd_gate hx _
    · exact chainEnd_gate hx _
    · obtain ⟨-, hwritten⟩ := sandboxed_eq_some (Except.ok.inj (Prod.mk.inj hentry).1)
      have hpermitted : Permitted w req updated :=
        ⟨⟨p, schema, hvalid⟩, config, lock, _, o.newId, entryId, hdiscipline, hcall, hchecked,
          by simpa using hunlocked, hwritten⟩
      refine wp_attempt_perform_bind.2 ⟨trivial, fun r x' hm => ?_⟩
      have hcases := wp_tuneWrite (.kvSetJournal updated) (.journal updated) hx
        (fun o w' h => by cases h; exact ⟨rfl, rfl⟩) (fun _ => rfl) hm
      have hpersisted : ∀ x, AfterWrites w [.journal updated] x → ∀ reason,
          ChainEnd w req (.ok (.gate reason)) x := fun x hx reason =>
        ⟨_, hx, .inr ⟨updated, hpermitted, .inl rfl⟩, fun ⟨_, _, h⟩ => by cases h⟩
      cases r with
      | error e =>
        rcases hcases with ⟨-, hx'⟩ | hx'
        · exact chainEnd_gate hx' _
        · exact hpersisted x' hx' _
      | ok u =>
        rcases hcases with ⟨⟨e, he⟩, -⟩ | hx'
        · cases he
        · refine wp_attempt_bind.2 (wp_post (fun r x'' hmerged => ?_)
            (wp_mergeConfig req.pluginId req.param req.value hx'))
          obtain ⟨ws', hx'', ⟨rfl, hfailed⟩ | ⟨c, rfl⟩⟩ := hmerged
          · cases r with
            | error e => exact hpersisted x'' hx'' _
            | ok u => exact absurd rfl hfailed
          · have hdone : ∀ done : Prop, TuneEffect w req done
                [.journal updated, .config req.pluginId c] := fun done =>
              ⟨.inr ⟨updated, hpermitted, .inr ⟨c, rfl⟩⟩, fun _ => ⟨updated, c, rfl⟩⟩
            cases r <;> exact ⟨_, hx'', hdone _⟩

def TuneEnd (w : TuneWorld) (req : TuneRequest) (r : Except String TuneResult)
    (x : TuneWorld × List TuneEvent) : Prop :=
  ∃ ws, AfterWrites w ws x ∧ TuneEffect w req (∃ id, r = .ok (.accepted id)) ws

theorem tuneEnd_rejected {ws : List TuneWrite} (hx : AfterWrites w ws x) (hws : WrittenBy w req ws)
    (reason detail : String) : TuneEnd w req (.ok (.rejected reason detail)) x :=
  ⟨ws, hx, hws, fun ⟨_, h⟩ => by cases h⟩

theorem tuneEnd_error {ws : List TuneWrite} (hx : AfterWrites w ws x) (hws : WrittenBy w req ws)
    (e : String) : TuneEnd w req (.error e) x :=
  ⟨ws, hx, hws, fun ⟨_, h⟩ => by cases h⟩

theorem wp_tuneSteps (req : TuneRequest) (hx : AfterWrites w [] x) :
    (tuneSteps req).Wp tuneSem.traced (fun _ _ => True) (TuneEnd w req) x := by
  have hno : WrittenBy w req [] := .inl rfl
  have hreject : ∀ reason detail x, AfterWrites w [] x →
      TuneEnd w req (.ok (.rejected reason detail)) x := fun _ _ _ hx => tuneEnd_rejected hx hno _ _
  have herror : ∀ e x, AfterWrites w [] x → TuneEnd w req (.error e) x := fun _ _ hx =>
    tuneEnd_error hx hno _
  refine wp_attempt_perform_bind.2 ⟨trivial, fun r x' hm => ?_⟩
  obtain ⟨hx', hanswer⟩ := afterWrites_read (.findById req.pluginId) rfl hx hm
  cases r with
  | error e => exact hreject _ _ x' hx'
  | ok p =>
    obtain ⟨o, hp⟩ := hanswer p rfl
    replace hp := plugin?_of_answer hp
    refine wp_ite (fun _ => hreject _ _ x' hx') fun htype => ?_
    refine wp_getConfigSchema _ hx' herror fun p' x hx hp' => ?_
    obtain rfl : p = p' := Option.some.inj (hp.symm.trans hp')
    cases hspec : p.schema.bind fun schema => schema.spec? req.param with
    | none => exact hreject _ _ x hx
    | some spec =>
      obtain ⟨schema, hschema, hspec⟩ := Option.bind_eq_some_iff.1 hspec
      refine wp_validateSingleField hx hspec (fun p' hp' => ?_) herror fun x hx => ?_
      · rw [← Option.some.inj (hp.symm.trans hp'), hschema]
      refine wp_ite (fun _ => hreject _ _ x hx) fun hfield => ?_
      have hvalid : ValidChange w req p schema :=
        ⟨hp, not_not.1 htype, hschema, spec, hspec, not_not.1 hfield⟩
      refine wp_tuneRead .findActive rfl hx herror fun active x hx hactive => ?_
      obtain ⟨o, hactive⟩ := hactive
      obtain rfl : w.plugins.filter TunedPlugin.active = active :=
        Except.ok.inj (Prod.mk.inj hactive).1
      cases hdiscipline : (w.plugins.filter TunedPlugin.active).find?
        fun p => p.id = "param-discipline" with
      | none => exact hreject _ _ x hx
      | some discipline =>
        have hconfig : w.discipline? = some (discipline.config.getD []) := by
          rw [TuneWorld.discipline?, hdiscipline]
          rfl
        refine wp_bind_of (wp_runTuneChain hvalid (p.config.getD []) hconfig hx)
          (fun result x hend => ?_) fun e x hend => ?_
        · obtain ⟨ws, hx, heffect⟩ := hend
          cases result with
          | gate reason => exact tuneEnd_rejected hx heffect.written _ _
          | changed before entryId =>
            refine wp_tuneRead (.auditLog _) rfl hx (fun e x hx => ?_) fun _ x hx _ => ?_
            · exact tuneEnd_error hx heffect.written e
            · exact ⟨ws, hx, heffect.written, fun _ => heffect.done ⟨before, entryId, rfl⟩⟩
        · obtain ⟨ws, hx, heffect⟩ := hend
          exact tuneEnd_error hx heffect.written e

/-- **A change** writes what the chain has permitted. -/
theorem tune_effect (req : TuneRequest) (hx : AfterWrites w [] x) :
    (kernelTunePluginParam req).Wp tuneSem.traced (fun _ _ => True) (TuneEnd w req) x := by
  refine wp_attempt_bind.2 (wp_post (fun r x' hend => ?_) (wp_tuneSteps req hx))
  cases r with
  | ok result => exact hend
  | error e =>
    obtain ⟨ws, hx', heffect⟩ := hend
    refine wp_tuneRead (.auditLog _) rfl hx' (fun e x'' hx'' => ?_) fun _ x'' hx'' _ => ?_
    · exact tuneEnd_error hx'' heffect.written e
    · exact tuneEnd_rejected hx'' heffect.written _ _

end Chain

end Effect

/-! ## Runs -/

section Runs

variable {start w : TuneWorld} {l : List TuneStep} {r : TuneStep} {pluginId : String}

/-- **What a call of a run does.** -/
theorem step_effect (hr : r.Ran tuneSem tuneBody) :
    r.after = (writesOf r.events).foldl TuneWrite.apply r.before ∧
      ((∃ req, r.request = .tune req ∧
        TuneEffect r.before req (∃ id, r.outcome = .ok (.accepted id)) (writesOf r.events)) ∨
        r.isCycle = true ∧ writesOf r.events = [] ∧ ∀ id, r.outcome ≠ .ok (.accepted id)) := by
  obtain ⟨call, before, events, outcome, after⟩ := r
  cases call with
  | tune req =>
    obtain ⟨ws, ⟨hafter, rfl⟩, heffect⟩ := (tune_effect req ⟨rfl, rfl⟩).exec hr
    exact ⟨hafter, .inl ⟨req, rfl, heffect⟩⟩
  | cycle config activePluginIds pendingSignals =>
    have hend : (tuneBody (.cycle config activePluginIds pendingSignals)).Wp tuneSem.traced
        (fun _ _ => True) (fun outcome x => AfterWrites before [] x ∧
          ∀ id, outcome ≠ .ok (.accepted id)) (before, []) :=
      wp_tuneRead (.runOnCycle _) rfl ⟨rfl, rfl⟩ (fun _ _ hx => ⟨hx, nofun⟩)
        fun _ _ hx _ => ⟨hx, nofun⟩
    obtain ⟨⟨hafter, hwrites⟩, hrefused⟩ := hend.exec hr
    refine ⟨?_, .inr ⟨rfl, hwrites, hrefused⟩⟩
    show after = (writesOf events).foldl _ _
    rw [hwrites]
    exact hafter

theorem Permitted.entry {req : TuneRequest} {journal : List JournalEntry}
    (h : Permitted w req journal) : ∃ e : JournalEntry, journal = w.stored ++ [e] ∧
      e.pluginId = req.pluginId ∧ e.cyclesSince = 0 := by
  obtain ⟨config, status, before, newId, id, -, -, -, -, hentry⟩ := h.governed
  obtain ⟨-, -, -, -, hjournal⟩ := journalEntry_ok hentry
  exact ⟨_, hjournal, rfl, rfl⟩

/-- **The journal of a run**: no entry is older than its own cycle, and the changes that were applied
have their entries. -/
structure TuneInv (l : List TuneStep) (w : TuneWorld) : Prop where
  fresh : ∀ e ∈ w.stored, e.cyclesSince = 0
  written : ∀ r ∈ l, ∀ pluginId, r.applied pluginId = true → r.entry?.isSome
  kept : ∀ pluginId, (appliedEntries pluginId l).Sublist (entriesOf w.stored pluginId)

/-- What a call adds to the journal, and to the changes that were applied. -/
inductive TuneAdds (r : TuneStep) : Prop
  | nothing (stored : r.after.stored = r.before.stored)
      (applied : ∀ pluginId, r.applied pluginId = false)
  | journaled (e : JournalEntry) (stored : r.after.stored = r.before.stored ++ [e])
      (age : e.cyclesSince = 0) (applied : ∀ pluginId, r.applied pluginId = false)
  | applied (req : TuneRequest) (journal : List JournalEntry) (e : JournalEntry)
      (request : r.request = .tune req) (permitted : Permitted r.before req journal)
      (stored : r.after.stored = r.before.stored ++ [e]) (age : e.cyclesSince = 0)
      (plugin : e.pluginId = req.pluginId) (entry : r.entry? = some e)
      (applied : ∀ pluginId, r.applied pluginId = decide (req.pluginId = pluginId))

theorem tune_adds (hr : r.Ran tuneSem tuneBody) : TuneAdds r := by
  obtain ⟨hafter, heffect⟩ := step_effect hr
  have hnone : writesOf r.events = [] → TuneAdds r := by
    intro hws
    refine .nothing ?_ fun pluginId => ?_
    · rw [hafter, hws]
      rfl
    · rw [TuneStep.applied, hws]
      rfl
  rcases heffect with ⟨req, hreq, ⟨hws | ⟨journal, hpermitted, hws⟩, -⟩⟩ | ⟨-, hws, -⟩
  · exact hnone hws
  · obtain ⟨e, hjournal, hplugin, hage⟩ := hpermitted.entry
    rcases hws with hws | ⟨config, hws⟩
    · refine .journaled e ?_ hage fun pluginId => ?_
      · rw [hafter, hws]
        exact hjournal
      · rw [TuneStep.applied, hws]
        rfl
    · refine .applied req journal e hreq hpermitted ?_ hage hplugin ?_ fun pluginId => ?_
      · rw [hafter, hws]
        exact hjournal
      · rw [TuneStep.entry?, hws, hjournal]
        simp
      · rw [TuneStep.applied, hws]
        simp
  · exact hnone hws

theorem appliedEntries_snoc (pluginId : String) (l : List TuneStep) (r : TuneStep) :
    appliedEntries pluginId (l ++ [r]) = appliedEntries pluginId l ++
      (if r.applied pluginId then r.entry? else none).toList := by
  rw [appliedEntries, List.filterMap_append]
  cases h : (if r.applied pluginId then r.entry? else none) <;> simp [appliedEntries, h]

theorem entriesOf_snoc (journal : List JournalEntry) (e : JournalEntry) (pluginId : String) :
    entriesOf (journal ++ [e]) pluginId =
      entriesOf journal pluginId ++ if e.pluginId = pluginId then [e] else [] := by
  by_cases h : e.pluginId = pluginId <;> simp [entriesOf, h]

theorem TuneInv.quiet (hl : TuneInv l r.before) (hfresh : ∀ e ∈ r.after.stored, e.cyclesSince = 0)
    (hstored : r.before.stored.Sublist r.after.stored)
    (happlied : ∀ pluginId, r.applied pluginId = false) : TuneInv (l ++ [r]) r.after := by
  refine ⟨hfresh, ?_, fun pluginId => ?_⟩
  · intro r' hr' pluginId happlied'
    rcases List.mem_append.1 hr' with hr' | hr'
    · exact hl.written r' hr' pluginId happlied'
    · rw [List.mem_singleton.1 hr', happlied] at happlied'
      cases happlied'
  · rw [appliedEntries_snoc, happlied, if_neg Bool.false_ne_true, Option.toList_none,
      List.append_nil]
    exact (hl.kept pluginId).trans (hstored.filter _)

theorem TuneInv.step (hl : TuneInv l r.before) (hr : r.Ran tuneSem tuneBody) :
    TuneInv (l ++ [r]) r.after := by
  have hfresh : ∀ e : JournalEntry, e.cyclesSince = 0 → r.after.stored = r.before.stored ++ [e] →
      ∀ e ∈ r.after.stored, e.cyclesSince = 0 := by
    intro e hage hstored e' he'
    rw [hstored] at he'
    rcases List.mem_append.1 he' with he' | he'
    · exact hl.fresh e' he'
    · rw [List.mem_singleton.1 he']
      exact hage
  rcases tune_adds hr with ⟨hstored, happlied⟩ | ⟨e, hstored, hage, happlied⟩ |
    ⟨req, journal, e, -, -, hstored, hage, hplugin, hentry, happlied⟩
  · refine hl.quiet ?_ ?_ happlied <;> rw [hstored]
    exact hl.fresh
  · refine hl.quiet (hfresh e hage hstored) ?_ happlied
    rw [hstored]
    exact List.sublist_append_left _ _
  · refine ⟨hfresh e hage hstored, ?_, fun pluginId => ?_⟩
    · intro r' hr' pluginId happlied'
      rcases List.mem_append.1 hr' with hr' | hr'
      · exact hl.written r' hr' pluginId happlied'
      · rw [List.mem_singleton.1 hr', hentry]
        rfl
    · rw [appliedEntries_snoc, hstored, entriesOf_snoc, happlied, hentry, hplugin]
      refine (hl.kept pluginId).append ?_
      by_cases h : req.pluginId = pluginId <;> simp [h]

theorem tuneInv_of_run (hstart : start.journal = none) (hrun : TuneRun start l w) : TuneInv l w := by
  induction hrun with
  | nil =>
    have hempty : start.stored = [] := by
      rw [TuneWorld.stored, hstart]
      rfl
    refine ⟨?_, fun r hr => (List.not_mem_nil hr).elim, fun pluginId => List.nil_sublist _⟩
    rw [hempty]
    exact List.forall_mem_nil _
  | snoc hrun hr ih => exact ih.step hr

/-- **A change that is applied is governed.** -/
theorem governed_of_applied (hl : TuneInv l r.before) (hr : r.Ran tuneSem tuneBody)
    (happlied : r.applied pluginId = true) : GovernedChange l r pluginId := by
  rcases tune_adds hr with ⟨-, hnone⟩ | ⟨-, -, -, hnone⟩ |
    ⟨req, journal, e, hrequest, hpermitted, hstored, -, hplugin, hentry, hall⟩
  · rw [hnone] at happlied
    cases happlied
  · rw [hnone] at happlied
    cases happlied
  obtain rfl : req.pluginId = pluginId := by
    rw [hall] at happlied
    exact of_decide_eq_true happlied
  obtain ⟨p, schema, hvalid⟩ := hpermitted.valid
  obtain ⟨config, status, before, newId, id, hconfig, -, hcheck, hunlocked, hwritten⟩ :=
    hpermitted.governed
  obtain ⟨lock, hlock, hage⟩ := checkLock_unlocked hcheck hunlocked
  obtain ⟨max, hmax, hroom, -, -⟩ := journalEntry_ok hwritten
  refine ⟨⟨req, p, schema, hrequest, rfl, hvalid, config, lock, max, hconfig, hlock, ?_, hmax, ?_⟩,
    e, ?_, hentry, hplugin⟩
  · -- an earlier change has an entry, and no entry ages
    rintro ⟨r', hr', happlied'⟩
    rcases hage with hempty | ⟨e', he', hage⟩
    · have hnone := hl.kept req.pluginId
      rw [hempty, List.sublist_nil] at hnone
      obtain ⟨e', he'⟩ := Option.isSome_iff_exists.1 (hl.written r' hr' _ happlied')
      have hmem : e' ∈ appliedEntries req.pluginId l :=
        List.mem_filterMap.2 ⟨r', hr', by rw [happlied', if_pos rfl, he']⟩
      rw [hnone] at hmem
      cases hmem
    · rw [hl.fresh e' (List.mem_of_mem_filter he')] at hage
      omega
  · have hle : appliedInWeek req.pluginId req.time l ≤
        (recentEntries r.before.stored req.pluginId req.time).length := by
      rw [recentEntries, ← List.countP_eq_length_filter]
      exact (hl.kept req.pluginId).countP_le
    exact lt_of_le_of_lt (Int.ofNat_le.2 hle) hroom
  · rw [hstored]
    exact List.mem_append_right _ (List.mem_singleton_self _)

/-- **The changes of a run are governed**, whatever functions the folder of the discipline has. -/
theorem safe_of_run (hstart : start.journal = none) (hrun : TuneRun start l w) (l₁ l₂ : List TuneStep)
    (hl : l = l₁ ++ r :: l₂) (happlied : r.applied pluginId = true) :
    GovernedChange l₁ r pluginId := by
  obtain ⟨hbefore, hr⟩ := hrun.split hl
  exact governed_of_applied (tuneInv_of_run hstart hbefore) hr happlied

theorem folder_apply (w : TuneWorld) (write : TuneWrite) : (write.apply w).folder = w.folder := by
  cases write <;> rfl

theorem folder_of_run (hrun : TuneRun start l w) : w.folder = start.folder := by
  refine (hrun.invariant (P := fun w => w.folder = start.folder) rfl fun r _ hbefore hr => ?_).2
  rw [(step_effect hr).1]
  exact List.foldlRecOn (motive := fun w : TuneWorld => w.folder = start.folder) _ _ hbefore
    fun w hw write _ => (folder_apply w write).trans hw

theorem not_callable (fn : String) (hfn : '.' ∉ fn.toList) (name : String) :
    callFunction shippedFolder fn ≠ .ok name := by
  have hdenied : ∃ e, resolvePermittedFunction [] "param-discipline" fn = .error e := by
    unfold resolvePermittedFunction
    rw [if_neg List.not_mem_nil, if_neg List.not_mem_nil]
    dsimp only
    rw [if_neg hfn]
    exact ⟨_, rfl⟩
  obtain ⟨e, he⟩ := hdenied
  intro h
  obtain ⟨name', hname, -⟩ := Py.bind_eq_ok.1 h
  rw [show shippedFolder.skillKeys = [] from rfl, he] at hname
  cases hname

/-- **No change is accepted** with the folder of the repository. -/
theorem refused_of_shipped (hfolder : r.before.folder = shippedFolder)
    (hr : r.Ran tuneSem tuneBody) (id : String) : r.outcome ≠ .ok (.accepted id) := by
  intro haccepted
  obtain ⟨-, ⟨req, -, ⟨hnone | ⟨journal, hpermitted, -⟩, hdone⟩⟩ | ⟨-, -, hrefused⟩⟩ :=
    step_effect hr
  · obtain ⟨journal, config, hws⟩ := hdone ⟨id, haccepted⟩
    rw [hnone] at hws
    cases hws
  · obtain ⟨config, status, before, newId, id', -, ⟨name, hcall⟩, -⟩ := hpermitted.governed
    rw [hfolder] at hcall
    exact not_callable "check_lock" (by decide) name hcall
  · exact hrefused id haccepted

/-- **The discipline of a run**, with the folder of the discipline as the repository has it: the
changes are governed, and no change is accepted that is due. -/
theorem disciplined_iff (hstart : start.journal = none) (hfolder : start.folder = shippedFolder)
    (hrun : TuneRun start l w) : Disciplined l ↔
      ∀ l₁ r l₂ req, l = l₁ ++ r :: l₂ → r.request = .tune req → ¬ Due l₁ r req := by
  have hrefused : ∀ l₁ r l₂, l = l₁ ++ r :: l₂ → ∀ id, r.outcome ≠ .ok (.accepted id) := by
    intro l₁ r l₂ hl id
    obtain ⟨hbefore, hr⟩ := hrun.split hl
    exact refused_of_shipped ((folder_of_run hbefore).trans hfolder) hr id
  constructor
  · intro hdisciplined l₁ r l₂ req hl hreq hdue
    obtain ⟨id, haccepted⟩ := hdisciplined.accepted l₁ r l₂ req hl hreq hdue
    exact hrefused l₁ r l₂ hl id haccepted
  · intro hdue
    refine ⟨fun l₁ r l₂ pluginId hl happlied => safe_of_run hstart hrun l₁ l₂ hl happlied, ?_⟩
    exact fun l₁ r l₂ req hl hreq h => absurd h (hdue l₁ r l₂ req hl hreq)

end Runs

/-! ## A change that is due -/

def tunedDesk : TuneWorld :=
  { plugins := [
      { id := "trend-following", type := "skill", config := some [("period", .num 14)]
        schema := some [("period", { type := some "number", min := some 2, max := some 200 })] },
      { id := "param-discipline", type := "discipline" }] }

def dueRequest : TuneRequest :=
  { time := 0, cycleId := "cycle-1", pluginId := "trend-following", param := "period"
    value := some (.num 20)
    hypothesis := "A longer period should cut the false signals of the ranging weeks." }

def dueRun : Option (List TuneStep × TuneWorld) :=
  journal handleTune tuneBody [(.tune dueRequest, {})] tunedDesk

theorem dueRun_isSome : dueRun.isSome := by decide

def dueSteps : List TuneStep := (dueRun.get dueRun_isSome).1

theorem dueSteps_run : TuneRun tunedDesk dueSteps (dueRun.get dueRun_isSome).2 :=
  journal_of_run (A := fun _ => True) (fun o _ _ _ => ⟨o, trivial, rfl⟩) (fun _ _ => trivial)
    (Option.some_get dueRun_isSome).symm

theorem disciplined_dueSteps : Disciplined dueSteps ↔
    ∀ l₁ r l₂ req, dueSteps = l₁ ++ r :: l₂ → r.request = .tune req → ¬ Due l₁ r req :=
  disciplined_iff rfl rfl dueSteps_run

theorem dueSteps_requests :
    dueSteps.map (fun r => (r.request, r.before)) = [(.tune dueRequest, tunedDesk)] := rfl

theorem dueSteps_answered :
    (dueSteps.all fun r => r.events.all fun e => e.2.isOk) = true := by decide

theorem due_first {r : TuneStep} (hbefore : r.before = tunedDesk)
    (hanswered : ∀ e ∈ r.events, e.2.isOk = true) : Due [] r dueRequest := by
  refine ⟨rfl, hanswered, ?_, ?_⟩
  · refine ⟨_, _, ⟨by rw [hbefore]; rfl, rfl, rfl, _, rfl, ?_⟩, ?_⟩ <;> decide
  · refine ⟨[], 3, 5, 50, by rw [hbefore]; rfl, rfl, rfl, rfl, by decide, ?_, ?_⟩
    · rintro ⟨r, hr, -⟩
      cases hr
    · decide

/-- **A change that is due is refused**: the lock cannot be checked. -/
theorem change_refused : ¬ ∀ (start w : TuneWorld) (l : List TuneStep), start.journal = none →
    start.folder = shippedFolder → TuneRun start l w → Disciplined l := by
  intro hall
  have hdisciplined := hall tunedDesk _ dueSteps rfl rfl dueSteps_run
  obtain ⟨r, hsteps, hr⟩ := List.map_eq_singleton_iff.1 dueSteps_requests
  obtain ⟨hrequest, hbefore⟩ := Prod.mk.inj hr
  have hanswered := dueSteps_answered
  rw [hsteps] at hdisciplined hanswered
  simp only [List.all_cons, List.all_nil, Bool.and_true, List.all_eq_true] at hanswered
  obtain ⟨id, haccepted⟩ :=
    hdisciplined.accepted [] r [] dueRequest rfl hrequest (due_first hbefore hanswered)
  have hrun := dueSteps_run.ran (r := r) (by rw [hsteps]; exact List.mem_singleton_self _)
  exact refused_of_shipped (by rw [hbefore]; rfl) hrun id haccepted

end NeoTrader
