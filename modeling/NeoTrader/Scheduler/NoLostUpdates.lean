import NeoTrader.Scheduler.Model

/-!
# Updates of the scheduler's configuration

A tick reads the whole configuration, awaits, and writes it back with one more run; an update does the
same with its fields.

* **`no_lost_updates`**: the property holds in every run with fresh writes.
-/

namespace NeoTrader.Scheduler

open Await Prog Pool

/-! ## What a run has done -/

abbrev SchedulerEvent : Type := Event schedulerSig

/-- The world of a run, with the events in their order. -/
abbrev TracedWorld : Type := SchedulerWorld × List SchedulerEvent

abbrev SchedulerThread : Type := Thread schedulerSig SchedulerCall

/-- A run of any calls, interleaved at their awaits. -/
abbrev SchedulerRun (G : Guard schedulerSig SchedulerCall TracedWorld) :
    Pool schedulerSig SchedulerCall TracedWorld → Pool schedulerSig SchedulerCall TracedWorld → Prop :=
  Reaches schedulerSem.traced schedulerBody G

/-- A run before its first call. -/
def fromStart (w : SchedulerWorld) : Pool schedulerSig SchedulerCall TracedWorld := ⟨(w, []), []⟩

/-- The update that an event has completed. -/
def updateOf : SchedulerEvent → Option ConfigPatch
  | ⟨.setConfig (.update patch) _, .ok _⟩ => some patch
  | _ => none

/-- The updates, in the order of their completion. -/
def updatesOf (events : List SchedulerEvent) : List ConfigPatch := events.filterMap updateOf

def isAccepted : SchedulerEvent → Bool
  | ⟨.launch _ _, .ok .accepted⟩ | ⟨.launchNow _, .ok .accepted⟩ => true
  | _ => false

/-- A run was counted. -/
def isBump : SchedulerEvent → Bool
  | ⟨.setConfig .bump _, .ok _⟩ => true
  | _ => false

/-- The fields that an update may set. -/
structure SameSettings (c c' : SchedulerConfig) : Prop where
  enabled : c.enabled = c'.enabled
  overrideIntervalMs : c.overrideIntervalMs = c'.overrideIntervalMs
  prompt : c.prompt = c'.prompt

/-! ## The property -/

/-- **Every completed update is kept**, unless a later one changes it. -/
def SettingsKept (w : SchedulerWorld) (P : Pool schedulerSig SchedulerCall TracedWorld) : Prop :=
  SameSettings P.world.1.stored ((updatesOf P.world.2).foldl (fun c patch => patch.apply c) w.stored)

/-- **No later tick starts a cycle**: where the last update that says so turns the scheduler off, and
none turns it on again. -/
def NoLaunchAfter (w : SchedulerWorld) (P P' : Pool schedulerSig SchedulerCall TracedWorld) : Prop :=
  ((updatesOf P.world.2).foldl (fun c patch => patch.apply c) w.stored).enabled = false →
  (∀ patch ∈ (updatesOf P'.world.2).drop (updatesOf P.world.2).length, patch.enabled ≠ some true) →
  ∀ t ∈ P'.threads.drop P.threads.length, t.call = .tick → ∀ e ∈ t.hist, isAccepted e = false

/-- **Each accepted cycle is counted once**, where the calls have ended and no operation has failed. -/
def RunsCounted (w : SchedulerWorld) (P : Pool schedulerSig SchedulerCall TracedWorld) : Prop :=
  (∀ t ∈ P.threads, t.rest.finished = true) → (∀ t ∈ P.threads, ∀ e ∈ t.hist, e.2.isOk = true) →
  P.world.1.stored.runCount = w.stored.runCount + P.world.2.countP isAccepted

/-- **The writes are fresh**: the configuration is as the call that writes it has read it. -/
def Fresh : Guard schedulerSig SchedulerCall TracedWorld := fun w _ t e =>
  ∀ writer c raw, e.1 = .setConfig writer c →
    (⟨.getConfig, .ok raw⟩ : SchedulerEvent) ∈ t.hist → raw.getD {} = w.1.stored

/-! ## What a call does -/

def HasRead (c : SchedulerConfig) (h : List SchedulerEvent) : Prop :=
  ∃ raw, (⟨.getConfig, .ok raw⟩ : SchedulerEvent) ∈ h ∧ raw.getD {} = c

/-- What a call may await, after its events. -/
def configPre (call : SchedulerCall) (h : List SchedulerEvent) : SchedulerOp → Prop
  | .setConfig (.update patch) c => ∃ read, HasRead read h ∧ c = patch.apply read
  | .setConfig .bump c => ∃ read now, HasRead read h ∧
      c = { read with lastRun := some now, runCount := read.runCount + 1 }
  | .launch _ _ => ∃ read, HasRead read h ∧ read.enabled = true
  | .launchNow _ => call ≠ .tick
  | _ => True

def Failed (h : List SchedulerEvent) : Prop := ∃ e ∈ h, e.2.isOk = false

/-- What has been accepted and what has been counted, unless an operation has failed. -/
def Counts (accepts bumps : ℕ) (h : List SchedulerEvent) : Prop :=
  Failed h ∨ (h.countP isAccepted = accepts ∧ h.countP isBump = bumps)

/-- Each cycle that was accepted has been counted. -/
def Balanced (h : List SchedulerEvent) : Prop :=
  Failed h ∨ h.countP isAccepted = h.countP isBump

/-- An operation that neither starts a cycle nor writes the configuration. -/
def Quiet : SchedulerOp → Prop
  | .setConfig _ _ | .launch _ _ | .launchNow _ => False
  | _ => True

theorem configPre_of_quiet {call : SchedulerCall} {h : List SchedulerEvent} {op : SchedulerOp}
    (hop : Quiet op) : configPre call h op := by
  cases op <;> trivial

theorem HasRead.append {c : SchedulerConfig} {h : List SchedulerEvent} (hc : HasRead c h)
    (e : SchedulerEvent) : HasRead c (h ++ [e]) := by
  obtain ⟨raw, hmem, heq⟩ := hc
  exact ⟨raw, List.mem_append_left _ hmem, heq⟩

theorem Failed.append {h : List SchedulerEvent} (hf : Failed h) (e : SchedulerEvent) :
    Failed (h ++ [e]) := by
  obtain ⟨e', hmem, hfail⟩ := hf
  exact ⟨e', List.mem_append_left _ hmem, hfail⟩

theorem failed_error (h : List SchedulerEvent) (op : SchedulerOp) (err : String) :
    Failed (h ++ [⟨op, .error err⟩]) :=
  ⟨_, List.mem_append_right _ (List.mem_singleton_self _), rfl⟩

section Counts

variable {a b : ℕ} {h : List SchedulerEvent}

theorem Counts.append {e : SchedulerEvent} (hc : Counts a b h) (haccept : isAccepted e = false)
    (hbump : isBump e = false) : Counts a b (h ++ [e]) := by
  rcases hc with hf | ⟨ha, hb⟩
  · exact Or.inl (hf.append e)
  · refine Or.inr ⟨?_, ?_⟩
    · rw [List.countP_append, ha]
      simp [haccept]
    · rw [List.countP_append, hb]
      simp [hbump]

theorem Counts.quiet {e : SchedulerEvent} (hc : Counts a b h) (he : Quiet e.1) :
    Counts a b (h ++ [e]) := by
  obtain ⟨op, r⟩ := e
  cases op <;> first
    | exact absurd he id
    | exact hc.append rfl rfl

theorem Counts.accepted {e : SchedulerEvent} (hc : Counts a b h) (haccept : isAccepted e = true)
    (hbump : isBump e = false) : Counts (a + 1) b (h ++ [e]) := by
  rcases hc with hf | ⟨ha, hb⟩
  · exact Or.inl (hf.append _)
  · refine Or.inr ⟨?_, ?_⟩
    · rw [List.countP_append, ha]
      simp [haccept]
    · rw [List.countP_append, hb]
      simp [hbump]

theorem Counts.bumped (c : SchedulerConfig) (hc : Counts a b h) :
    Counts a (b + 1) (h ++ [⟨.setConfig .bump c, .ok ()⟩]) := by
  rcases hc with hf | ⟨ha, hb⟩
  · exact Or.inl (hf.append _)
  · refine Or.inr ⟨?_, ?_⟩
    · rw [List.countP_append, ha]
      rfl
    · rw [List.countP_append, hb]
      rfl

theorem Counts.balanced (hc : Counts a a h) : Balanced h := by
  rcases hc with hf | ⟨ha, hb⟩
  · exact Or.inl hf
  · exact Or.inr (ha.trans hb.symm)

end Counts

section Programs

variable {α β : Type} {call : SchedulerCall} {c : SchedulerConfig} {a b : ℕ}
  {h : List SchedulerEvent}

/-- What is known in the course of a call. -/
def Known (c : SchedulerConfig) (a b : ℕ) (h : List SchedulerEvent) : Prop :=
  HasRead c h ∧ Counts a b h

theorem Known.quiet (hk : Known c a b h) {e : SchedulerEvent} (he : Quiet e.1) :
    Known c a b (h ++ [e]) := ⟨hk.1.append e, hk.2.quiet he⟩

theorem wp_quiet {p : Sched α} (hp : Always (fun _ => Quiet) p) (hk : Known c a b h) :
    p.Wp (histSem schedulerSig) (configPre call) (fun _ => Known c a b) h :=
  wp_mono (fun _ _ hop => configPre_of_quiet hop.1) (fun _ _ hk => hk)
    (hp.carries (fun _ _ hk he => hk.quiet he) hk)

theorem wp_counts {p : Sched α} (hp : Always (fun _ => Quiet) p) (hc : Counts a b h) :
    p.Wp (histSem schedulerSig) (configPre call) (fun _ => Counts a b) h :=
  wp_mono (fun _ _ hop => configPre_of_quiet hop.1) (fun _ _ hk => hk)
    (hp.carries (fun _ _ hk he => hk.quiet he) hc)

theorem always_sched {op : SchedulerOp} (hop : Quiet op) : Always (fun _ => Quiet) (sched op) :=
  always_perform fun _ => hop

theorem quiet_checkCircuitBreaker (cb : CircuitBreakerState) :
    Always (fun _ => Quiet) (checkCircuitBreaker cb) := by
  unfold checkCircuitBreaker
  refine always_ite (fun _ => always_ret _) fun _ => ?_
  refine always_bind (always_sched trivial) fun now => ?_
  refine always_ite (fun _ => always_ret _) fun _ => ?_
  exact always_bind (always_sched trivial) fun _ => always_ret _

theorem quiet_getCircuitBreaker : Always (fun _ => Quiet) getCircuitBreaker :=
  always_bind (always_sched trivial) fun _ => always_ret _

theorem quiet_resolvePluginSchedules : Always (fun _ => Quiet) resolvePluginSchedules := by
  refine always_bind (always_attempt (always_sched trivial)) fun r => ?_
  cases r <;> exact always_ret _

theorem quiet_maybeReflect : Always (fun _ => Quiet) maybeReflect := by
  refine always_bind (always_sched trivial) fun running => ?_
  refine always_ite (fun _ => always_ret _) fun _ => ?_
  refine always_bind (always_attempt (always_sched trivial)) fun cadence => ?_
  refine always_ite (fun _ => always_ret _) fun _ => ?_
  refine always_bind (always_sched trivial) fun counter => ?_
  refine always_ite (fun _ => ?_) fun _ => always_sched trivial
  refine always_bind (always_attempt ?_) fun _ => always_ret _
  exact always_bind (always_sched trivial) fun _ => always_sched trivial

theorem quiet_handleTickError (msg : String) (cb : CircuitBreakerState) :
    Always (fun _ => Quiet) (handleTickError msg cb) :=
  always_bind (always_sched trivial) fun _ => always_sched trivial

theorem wp_sched_bind (op : SchedulerOp) {f : op.Ans → Sched β}
    {Q : Except String β → List SchedulerEvent → Prop} (hop : configPre call h op)
    (herr : ∀ e, Q (.error e) (h ++ [⟨op, .error e⟩]))
    (hok : ∀ x, (f x).Wp (histSem schedulerSig) (configPre call) Q (h ++ [⟨op, .ok x⟩])) :
    (sched op >>= f).Wp (histSem schedulerSig) (configPre call) Q h := by
  refine wp_perform_bind.2 ⟨hop, ?_⟩
  rintro r h' rfl
  cases r with
  | error e => exact herr e
  | ok x => exact hok x

theorem wp_sched (op : SchedulerOp) {Q : Except String op.Ans → List SchedulerEvent → Prop}
    (hop : configPre call h op) (herr : ∀ e, Q (.error e) (h ++ [⟨op, .error e⟩]))
    (hok : ∀ x, Q (.ok x) (h ++ [⟨op, .ok x⟩])) :
    (sched op).Wp (histSem schedulerSig) (configPre call) Q h := by
  refine wp_perform.2 ⟨hop, ?_⟩
  rintro r h' rfl
  cases r with
  | error e => exact herr e
  | ok x => exact hok x

theorem wp_getConfig {f : SchedulerConfig → Sched β}
    {Q : Except String β → List SchedulerEvent → Prop} (hc : Counts a b h)
    (herr : ∀ e h', Failed h' → Q (.error e) h')
    (hf : ∀ c h', Known c a b h' → (f c).Wp (histSem schedulerSig) (configPre call) Q h') :
    (getConfig >>= f).Wp (histSem schedulerSig) (configPre call) Q h := by
  unfold getConfig
  rw [bind_assoc']
  refine wp_sched_bind .getConfig trivial (fun e => herr e _ (failed_error _ _ _)) fun raw => ?_
  refine hf _ _ ⟨⟨raw, List.mem_append_right _ (List.mem_singleton_self _), rfl⟩, ?_⟩
  exact hc.quiet (e := ⟨.getConfig, .ok raw⟩) trivial

/-- **A run is counted** in the configuration as it was read. -/
theorem wp_bumpRunCount (hk : Known c a b h) :
    (bumpRunCount c).Wp (histSem schedulerSig) (configPre call) (fun _ => Counts a (b + 1)) h := by
  refine wp_sched_bind .now trivial (fun _ => Or.inl (failed_error _ _ _)) fun now => ?_
  have hk' := hk.quiet (e := ⟨.now, .ok now⟩) trivial
  exact wp_sched (.setConfig .bump _) ⟨c, now, hk'.1, rfl⟩ (fun _ => Or.inl (failed_error _ _ _))
    fun _ => hk'.2.bumped _

theorem wp_executeTick (hk : Known c (a + 1) a h) (cb : CircuitBreakerState) :
    (executeTick c cb true).Wp (histSem schedulerSig) (configPre call)
      (fun _ => Counts (a + 1) (a + 1)) h := by
  unfold executeTick
  refine wp_attempt_bind.2 (wp_post (Q := fun _ => Counts (a + 1) (a + 1)) ?_ ?_)
  · rintro r h' hc
    cases r with
    | ok _ => exact hc
    | error e => exact wp_counts (quiet_handleTickError e cb) hc
  · rw [if_pos rfl]
    refine wp_sched_bind .now trivial (fun _ => Or.inl (failed_error _ _ _)) fun now => ?_
    refine wp_sched_bind (.saveBreaker _) trivial (fun _ => Or.inl (failed_error _ _ _)) fun _ => ?_
    refine wp_bind_of (wp_bumpRunCount (a := a + 1) (b := a) ?_) (fun _ h' hc => ?_) fun _ _ hc => hc
    · exact (hk.quiet (by trivial)).quiet (by trivial)
    · exact wp_counts quiet_maybeReflect hc

theorem wp_finallyRelease {p : Sched Unit}
    (hp : p.Wp (histSem schedulerSig) (configPre call) (fun _ => Counts a b) h) :
    (finallyRelease p).Wp (histSem schedulerSig) (configPre call) (fun _ => Counts a b) h := by
  refine wp_attempt_bind.2 (wp_post (fun r h' hc => ?_) hp)
  refine wp_sched_bind .release trivial (fun _ => Or.inl (failed_error _ _ _)) fun _ => ?_
  refine wp_ofOutcome.2 ?_
  exact hc.quiet (e := ⟨.release, .ok ()⟩) trivial

theorem wp_tick : tick.Wp (histSem schedulerSig) (configPre .tick) (fun _ => Balanced) [] := by
  have hend : ∀ {a : ℕ} {h : List SchedulerEvent}, Counts a a h → Balanced h := Counts.balanced
  have hstart : Counts 0 0 [] := Or.inr ⟨rfl, rfl⟩
  refine wp_sched_bind .isRunning trivial (fun _ => Or.inl (failed_error _ _ _)) fun running => ?_
  have hc := hstart.quiet (e := ⟨.isRunning, .ok running⟩) trivial
  refine wp_ite (fun _ => hend hc) fun _ => ?_
  refine wp_getConfig hc (fun _ _ hf => Or.inl hf) fun c h hk => ?_
  refine wp_ite (fun _ => hend hk.2) fun henabled => ?_
  refine wp_bind_of (wp_quiet quiet_getCircuitBreaker hk) (fun cb h hk => ?_) fun _ _ hk => hend hk.2
  refine wp_bind_of (wp_quiet (quiet_checkCircuitBreaker cb) hk) (fun proceed h hk => ?_)
    fun _ _ hk => hend hk.2
  refine wp_ite (fun _ => hend hk.2) fun _ => ?_
  refine wp_bind_of (wp_quiet quiet_resolvePluginSchedules hk) (fun schedules h hk => ?_)
    fun _ _ hk => hend hk.2
  refine wp_sched_bind (.launch _ _) ⟨c, hk.1, by simpa using henabled⟩
    (fun _ => Or.inl (failed_error _ _ _)) fun result => ?_
  cases result with
  | notDue => exact hend (hk.2.append rfl rfl)
  | busy => exact hend (hk.2.append rfl rfl)
  | rejected =>
    have hquiet : Always (fun _ => Quiet) (executeTick c cb false) :=
      always_bind (always_attempt (always_ret _)) fun r => by
        cases r with
        | ok _ => exact always_ret _
        | error e => exact quiet_handleTickError e cb
    refine wp_post (Q := fun _ => Counts 0 0) (fun _ _ hc => hend hc)
      (wp_finallyRelease (wp_counts hquiet ?_))
    exact hk.2.append rfl rfl
  | accepted =>
    refine wp_post (fun _ _ hc => hend hc) (wp_finallyRelease (wp_executeTick (a := 0) ?_ cb))
    exact ⟨hk.1.append _, hk.2.accepted rfl rfl⟩

theorem wp_updateConfig (patch : ConfigPatch) :
    (updateConfig patch).Wp (histSem schedulerSig) (configPre (.updateConfig patch))
      (fun _ => Balanced) [] := by
  have hstart : Counts 0 0 [] := Or.inr ⟨rfl, rfl⟩
  refine wp_getConfig hstart (fun _ _ hf => Or.inl hf) fun c h hk => ?_
  refine wp_ite (fun _ => hk.2.balanced) fun _ => ?_
  refine wp_sched (.setConfig _ _) ⟨c, hk.1, rfl⟩ (fun _ => Or.inl (failed_error _ _ _)) fun _ => ?_
  exact (hk.2.append rfl rfl).balanced

theorem wp_runNow (prompt : Option String) :
    (runNow prompt).Wp (histSem schedulerSig) (configPre (.runNow prompt)) (fun _ => Balanced) [] := by
  have hstart : Counts 0 0 [] := Or.inr ⟨rfl, rfl⟩
  refine wp_sched_bind (.launchNow prompt) (fun h => by cases h)
    (fun _ => Or.inl (failed_error _ _ _)) fun result => ?_
  cases result with
  | notDue => exact (hstart.append (e := ⟨.launchNow prompt, .ok .notDue⟩) rfl rfl).balanced
  | busy => exact (hstart.append (e := ⟨.launchNow prompt, .ok .busy⟩) rfl rfl).balanced
  | rejected =>
    have hc := hstart.append (e := ⟨.launchNow prompt, .ok .rejected⟩) rfl rfl
    exact wp_post (fun _ _ hc => hc.balanced) (wp_finallyRelease (p := .throw _) hc)
  | accepted =>
    have hc := hstart.accepted (e := ⟨.launchNow prompt, .ok .accepted⟩) rfl rfl
    refine wp_post (fun _ _ hc => hc.balanced) (wp_finallyRelease (a := 1) (b := 1) ?_)
    exact wp_getConfig hc (fun _ _ hf => Or.inl hf) fun c h hk => wp_bumpRunCount hk

/-- **What each call does**, whatever it is answered. -/
theorem config_facts (call : SchedulerCall) :
    (schedulerBody call).Wp (histSem schedulerSig) (configPre call) (fun _ => Balanced) [] := by
  have hstart : Counts 0 0 [] := Or.inr ⟨rfl, rfl⟩
  cases call with
  | tick => exact wp_tick
  | updateConfig patch => exact wp_updateConfig patch
  | runNow prompt => exact wp_runNow prompt
  | resetCircuitBreaker =>
    exact wp_post (fun _ _ hc => hc.balanced) (wp_counts (always_sched trivial) hstart)
  | cycleEnds completed =>
    exact wp_post (fun _ _ hc => hc.balanced) (wp_counts (always_sched trivial) hstart)

end Programs

/-! ## What a step does to the configuration -/

namespace SameSettings

theorem refl (c : SchedulerConfig) : SameSettings c c := ⟨rfl, rfl, rfl⟩

theorem apply {c c' : SchedulerConfig} (h : SameSettings c c') (patch : ConfigPatch) :
    SameSettings (patch.apply c) (patch.apply c') := by
  obtain ⟨henabled, hinterval, hprompt⟩ := h
  refine ⟨?_, ?_, ?_⟩ <;> simp only [ConfigPatch.apply, henabled, hinterval, hprompt]

end SameSettings

/-- The settings after the updates of some events. -/
def settingsAfter (c : SchedulerConfig) (events : List SchedulerEvent) : SchedulerConfig :=
  (updatesOf events).foldl (fun c patch => patch.apply c) c

theorem updatesOf_snoc (events : List SchedulerEvent) (e : SchedulerEvent) :
    updatesOf (events ++ [e]) = updatesOf events ++ (updateOf e).toList := by
  simp only [updatesOf, List.filterMap_append]
  cases h : updateOf e <;> simp [h]

theorem settingsAfter_snoc (c : SchedulerConfig) (events : List SchedulerEvent)
    (e : SchedulerEvent) : settingsAfter c (events ++ [e]) =
      (updateOf e).toList.foldl (fun c patch => patch.apply c) (settingsAfter c events) := by
  rw [settingsAfter, updatesOf_snoc, List.foldl_append]
  rfl

theorem foldl_disabled {patches : List ConfigPatch} {c : SchedulerConfig} (hc : c.enabled = false)
    (h : ∀ patch ∈ patches, patch.enabled ≠ some true) :
    (patches.foldl (fun c patch => patch.apply c) c).enabled = false := by
  induction patches generalizing c with
  | nil => exact hc
  | cons patch patches ih =>
    refine ih ?_ fun p hp => h p (List.mem_cons_of_mem _ hp)
    have hpatch := h patch List.mem_cons_self
    show patch.enabled.getD c.enabled = false
    cases henabled : patch.enabled with
    | none => exact hc
    | some b => cases b <;> simp_all

def configAfter (c : SchedulerConfig) : SchedulerEvent → SchedulerConfig
  | ⟨.setConfig _ c', .ok _⟩ => c'
  | _ => c

theorem stored_after {op : SchedulerOp} {w w' : SchedulerWorld} {r : schedulerSig.Outcome op}
    (h : schedulerSem.rel op w r w') : w'.stored = configAfter w.stored ⟨op, r⟩ := by
  obtain ⟨o, -, h⟩ := h
  cases op <;> simp only [handleScheduler, storeOp] at h <;> (try split at h) <;> (try split at h) <;>
    cases h <;> rfl

theorem getConfig_answer {w w' : SchedulerWorld} {raw : Option SchedulerConfig}
    (h : schedulerSem.rel .getConfig w (.ok raw) w') : raw.getD {} = w.stored := by
  obtain ⟨o, -, h⟩ := h
  simp only [handleScheduler, storeOp] at h
  split at h
  · cases h
  · cases h
    rfl

/-- **What is stored** has the settings of the completed updates, and the runs that were counted. -/
structure Kept (start : SchedulerConfig) (w : TracedWorld) : Prop where
  settings : SameSettings w.1.stored (settingsAfter start w.2)
  runs : w.1.stored.runCount = start.runCount + w.2.countP isBump

theorem Kept.skip {start : SchedulerConfig} {w w' : TracedWorld} {e : SchedulerEvent}
    (hw : Kept start w) (htrace : w'.2 = w.2 ++ [e]) (hstored : w'.1.stored = w.1.stored)
    (hupdate : updateOf e = none) (hbump : isBump e = false) : Kept start w' := by
  refine ⟨?_, ?_⟩
  · rw [hstored, htrace, settingsAfter_snoc, hupdate]
    exact hw.settings
  · rw [hstored, htrace, List.countP_append, hw.runs]
    simp [hbump]

/-- **A step under fresh writes** keeps the settings and the count. -/
theorem step_config {start : SchedulerConfig} {w w' : TracedWorld} {ts : List SchedulerThread}
    {t : SchedulerThread} {op : SchedulerOp} {r : schedulerSig.Outcome op} (hw : Kept start w)
    (hop : configPre t.call t.hist op) (hfresh : Fresh w ts t ⟨op, r⟩)
    (hm : schedulerSem.traced.rel op w r w') : Kept start w' := by
  obtain ⟨hm, htrace⟩ := hm
  have hstored := stored_after hm
  have hread : ∀ writer c c', op = .setConfig writer c → HasRead c' t.hist → c' = w.1.stored := by
    rintro writer c _ rfl ⟨raw, hmem, rfl⟩
    exact hfresh writer c raw rfl hmem
  cases op
  case setConfig writer c =>
    cases r with
    | error e => exact hw.skip htrace hstored (by cases writer <;> rfl) (by cases writer <;> rfl)
    | ok u =>
      replace hstored : w'.1.stored = c := hstored
      cases writer with
      | update patch =>
        obtain ⟨read, hhas, rfl⟩ := hop
        obtain rfl := hread _ _ _ rfl hhas
        refine ⟨?_, ?_⟩
        · rw [hstored, htrace, settingsAfter_snoc]
          exact hw.settings.apply patch
        · rw [hstored, htrace, List.countP_append]
          exact hw.runs
      | bump =>
        obtain ⟨read, now, hhas, rfl⟩ := hop
        obtain rfl := hread _ _ _ rfl hhas
        refine ⟨?_, ?_⟩
        · rw [hstored, htrace, settingsAfter_snoc]
          exact ⟨hw.settings.1, hw.settings.2, hw.settings.3⟩
        · rw [hstored, htrace, List.countP_append]
          show w.1.stored.runCount + 1 = start.runCount + (w.2.countP isBump + 1)
          rw [hw.runs]
          omega
  all_goals exact hw.skip htrace hstored rfl rfl

/-! ## Runs -/

section Runs

variable {w : SchedulerWorld} {P P' : Pool schedulerSig SchedulerCall TracedWorld}

theorem kept_of_run (hr : SchedulerRun Fresh (fromStart w) P) : Kept w.stored P.world := by
  refine reaches_invariant (K := fun _ _ => True)
    (fun call => wp_post (fun _ _ _ => trivial) (config_facts call)) ?_ ⟨.refl _, rfl⟩ hr
  intro w w' ts t op r hw _ hop hfresh hm
  exact ⟨step_config hw hop hfresh hm, trivial, fun _ _ => trivial⟩

/-- **Each call that has ended** has counted the cycle that it has started. -/
theorem counted_of_run (hr : SchedulerRun Fresh (fromStart w) P) : RunsCounted w P := by
  intro hfinished hok
  have hbalanced : ∀ t ∈ P.threads, t.hist.countP isAccepted = t.hist.countP isBump := by
    intro t ht
    have hsound := reaches_sound config_facts hr t ht
    obtain ⟨r, hend⟩ := wp_finished (hfinished t ht) hsound.2
    rcases hend with ⟨e, hmem, hfail⟩ | heq
    · rw [hok t ht e hmem] at hfail
      cases hfail
    · exact heq
  rw [(kept_of_run hr).runs, reaches_countP isAccepted hr, reaches_countP isBump hr]
  rw [List.map_congr_left hbalanced]

/-- What the later ticks have read, where no later update turns the scheduler on. -/
def ReadsDisabled (P P' : Pool schedulerSig SchedulerCall TracedWorld) : Prop :=
  ∃ later, updatesOf P'.world.2 = updatesOf P.world.2 ++ later ∧
    ((∀ patch ∈ later, patch.enabled ≠ some true) → ∀ t ∈ P'.threads.drop P.threads.length,
      ∀ c, HasRead c t.hist → c.enabled = false)

theorem ReadsDisabled.step {Q Q' : Pool schedulerSig SchedulerCall TracedWorld}
    (hoff : (settingsAfter w.stored P.world.2).enabled = false) (hQ : Kept w.stored Q.world)
    (hreads : ReadsDisabled P Q) (hs : Step schedulerSem.traced schedulerBody Fresh Q Q') :
    ReadsDisabled P Q' := by
  obtain ⟨later, hlater, hreads⟩ := hreads
  cases hs with
  | start _ call =>
    refine ⟨later, hlater, fun hpatches t ht c hc => ?_⟩
    rw [List.drop_append, List.mem_append] at ht
    rcases ht with ht | ht
    · exact hreads hpatches t ht c hc
    · rw [List.mem_singleton.1 (List.mem_of_mem_drop ht)] at hc
      obtain ⟨raw, hmem, -⟩ := hc
      cases hmem
  | @await v v' xs ys call h op k r hg hm =>
    obtain ⟨hm, htrace⟩ := hm
    refine ⟨later ++ (updateOf ⟨op, r⟩).toList, ?_, fun hpatches => ?_⟩
    · show updatesOf v'.2 = _
      rw [htrace, updatesOf_snoc, ← List.append_assoc, ← hlater]
    · have hnone : ∀ patch ∈ later, patch.enabled ≠ some true := fun patch hp =>
        hpatches patch (List.mem_append_left _ hp)
      refine forall_later (hreads hnone) fun hold c hc => ?_
      obtain ⟨raw, hmem, rfl⟩ := hc
      rcases List.mem_append.1 hmem with hmem | hmem
      · exact hold _ ⟨raw, hmem, rfl⟩
      · -- the configuration is read in this step
        cases List.mem_singleton.1 hmem
        replace hlater : updatesOf v.2 = updatesOf P.world.2 ++ later := hlater
        rw [getConfig_answer hm, hQ.settings.enabled, settingsAfter, hlater, List.foldl_append]
        exact foldl_disabled hoff hnone

theorem readsDisabled_of_run (hr : SchedulerRun Fresh (fromStart w) P)
    (hoff : (settingsAfter w.stored P.world.2).enabled = false)
    (hr' : SchedulerRun Fresh P P') : ReadsDisabled P P' := by
  induction hr' with
  | refl =>
    refine ⟨[], (List.append_nil _).symm, fun _ t ht => ?_⟩
    rw [List.drop_length] at ht
    cases ht
  | tail hr' hs ih => exact ih.step hoff (kept_of_run (hr.trans hr')) hs

/-- **No tick starts a cycle** once the scheduler is off. -/
theorem noLaunch_of_run (hr : SchedulerRun Fresh (fromStart w) P) (hr' : SchedulerRun Fresh P P') :
    NoLaunchAfter w P P' := by
  intro hoff hpatches t ht htick e he
  obtain ⟨later, hlater, hreads⟩ := readsDisabled_of_run hr hoff hr'
  rw [hlater, List.drop_left] at hpatches
  have hsound := reaches_sound config_facts (hr.trans hr') t (List.mem_of_mem_drop ht)
  obtain ⟨h, hprefix, hop⟩ := hsound.1.mem he
  obtain ⟨op, r⟩ := e
  rcases op with _ | _ | _ | _ | _ | _ | _ | _ | ⟨dueAt, prompt⟩ | prompt | _ | _ | _ | _ | _ | _ | _
  case launch =>
    obtain ⟨c, ⟨raw, hmem, rfl⟩, henabled⟩ := hop
    have hc := hreads hpatches t ht _ ⟨raw, hprefix.subset (List.mem_append_left _ hmem), rfl⟩
    rw [henabled] at hc
    cases hc
  case launchNow => exact absurd htick hop
  all_goals rfl

/-- **No update is lost** in a run whose writes of the configuration are fresh: what a completed
update has set stays as it is until a later one changes it, no tick that begins after the scheduler
was turned off starts a cycle, and every cycle that was accepted is counted once. -/
theorem no_lost_updates (hr : SchedulerRun Fresh (fromStart w) P) :
    SettingsKept w P ∧ RunsCounted w P ∧
      ∀ P', SchedulerRun Fresh P P' → NoLaunchAfter w P P' :=
  ⟨(kept_of_run hr).settings, counted_of_run hr, fun _ hr' => noLaunch_of_run hr hr'⟩

end Runs

/-! ## Two schedules -/

def freshCheck : Check schedulerSig SchedulerCall TracedWorld := fun w _ t e =>
  match e.1 with
  | .setConfig _ _ => t.hist.all fun
    | ⟨.getConfig, .ok raw⟩ => raw.getD {} = w.1.stored
    | _ => true
  | _ => true

theorem fresh_of_check {w : TracedWorld} {ts : List SchedulerThread} {t : SchedulerThread}
    {e : SchedulerEvent} (h : freshCheck w ts t e = true) : Fresh w ts t e := by
  obtain ⟨op, r⟩ := e
  rintro writer c raw (rfl : op = _) hmem
  have hread := List.all_eq_true.1 h _ hmem
  exact of_decide_eq_true hread

def switchedOn : SchedulerWorld :=
  { config := some { enabled := true }, breaker := none, running := false, cycle := none,
    cadence := none, counter := 0 }

def scheduled (check : Check schedulerSig SchedulerCall TracedWorld)
    (moves : List (Move SchedulerCall SchedulerOracle)) :
    Option (Pool schedulerSig SchedulerCall TracedWorld) :=
  replay (fun o => Sem.recording (handleScheduler o)) schedulerBody check moves
    (fromStart switchedOn)

def updatedAfter : Option (Pool schedulerSig SchedulerCall TracedWorld) :=
  let o : SchedulerOracle := { time := 3600000 }
  scheduled freshCheck (.start .tick :: List.replicate 11 (.await 0 o) ++
    .start (.updateConfig { enabled := some false }) :: List.replicate 2 (.await 1 o))

theorem updatedAfter_isSome : updatedAfter.isSome := by decide

def afterUpdate : Pool schedulerSig SchedulerCall TracedWorld :=
  updatedAfter.get updatedAfter_isSome

/-- One update after one tick. -/
theorem no_lost_updates_inTurn :
    SettingsKept switchedOn afterUpdate ∧ RunsCounted switchedOn afterUpdate ∧
      ∀ P', SchedulerRun Fresh afterUpdate P' → NoLaunchAfter switchedOn afterUpdate P' :=
  no_lost_updates (traced_of_replay (fun _ _ _ _ hc => fresh_of_check hc)
    (Option.some_get updatedAfter_isSome).symm)

/-- The scheduler is turned off while a tick has read that it is on. -/
def updatedWithin : Option (Pool schedulerSig SchedulerCall TracedWorld) :=
  let o : SchedulerOracle := { time := 3600000 }
  scheduled unchecked (.start .tick :: List.replicate 5 (.await 0 o) ++
    .start (.updateConfig { enabled := some false }) :: List.replicate 2 (.await 1 o) ++
    List.replicate 6 (.await 0 o))

theorem updatedWithin_enabled :
    (updatedWithin.map fun P => (P.threads.map Thread.call, P.world.1.stored.enabled,
      updatesOf P.world.2)) =
      some ([.tick, .updateConfig { enabled := some false }], true,
        [{ enabled := some false }]) := by
  decide

/-- **The tick turns the scheduler on again.** -/
theorem update_lost : ¬ ∀ (w : SchedulerWorld) (P : Pool schedulerSig SchedulerCall TracedWorld),
    SchedulerRun free (fromStart w) P → (P.threads.map Thread.call).count .tick ≤ 1 →
    SettingsKept w P ∧ RunsCounted w P ∧
      ∀ P', SchedulerRun free P P' → NoLaunchAfter w P P' := by
  intro hall
  obtain ⟨P, hP, heq⟩ := Option.map_eq_some_iff.1 updatedWithin_enabled
  simp only [Prod.mk.injEq] at heq
  obtain ⟨hcalls, henabled, hupdates⟩ := heq
  have hkept := (hall _ P (traced_of_replay (fun _ _ _ _ _ => trivial) hP)
    (by rw [hcalls]; decide)).1.enabled
  rw [henabled, hupdates] at hkept
  exact absurd hkept (by decide)

end NeoTrader.Scheduler
