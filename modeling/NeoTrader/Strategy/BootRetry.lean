import NeoTrader.Strategy.BootRuns

/-!
# Boots until the flags are set

Each step of the bootstrap is retried on the next boot until its flag is set; but errors that the
step catches do not keep it from setting its flag.

* `MomentumCareful`, `PretestCareful`: in a boot that sets the flag, no caught operation of the step
  fails;
* **`bootstrap_all_or_retry`**: in careful boots a flag says that every write succeeded, one boot
  without failures makes up for all others, and a step whose flag is set is over;
* **`scheduler_forgotten`**: a boot in which the write of the scheduler fails sets the flag.
-/

namespace NeoTrader

namespace Bootstrap

open Js

/-! ## Careful boots -/

/-- Nothing keeps the momentum step from its flag. -/
structure MomentumReaches (fails : Failures) (db : Db) : Prop where
  unset : db.applied = false
  read : fails (.kvGet bootstrapAppliedKey) = false
  symbols : fails (.kvSet universeKey momentumUniverse) = false
  executionReal : fails (.kvSet executionRealKey "false") = false
  flag : fails (.kvSet bootstrapAppliedKey "true") = false

/-- **If nothing keeps the momentum step from its flag**, nothing that it catches goes wrong. -/
def MomentumCareful (numeral : Number → String) (fails : Failures) (db : Db) : Prop :=
  MomentumReaches fails db →
    NothingCaught numeral fails db ∧ enabledText numeral (kvGet db.settings schedulerKey) ≠ none

/-- Nothing keeps the pretest step from its flag. -/
structure PretestReaches (fails : Failures) (db : Db) : Prop where
  unset : db.seeded = false
  read : fails (.kvGet pretestSeedKey) = false
  flag : fails (.kvSet pretestSeedKey "true") = false

/-- **If nothing keeps the pretest step from its flag**, nothing that it catches fails. -/
def PretestCareful (numeral : Number → String) (fails : Failures) (db : Db) : Prop :=
  PretestReaches fails db → SeedsQuiet numeral fails pretestPortfoliosToSeed db

section Boots

variable {numeral : Number → String} {fails : Failures} {w : BootWorld} {db : Db}

theorem applied_configured (w : BootWorld) :
    (configured numeral fails w).db.applied = w.db.applied := by
  rw [Db.applied, kvGet_configured (by decide), Db.applied]

theorem applied_set (w : BootWorld) : (w.set bootstrapAppliedKey "true").db.applied = true := by
  rw [Db.applied, kvGet_set, if_pos rfl]
  decide

theorem seeded_set (w : BootWorld) : (w.set pretestSeedKey "true").db.seeded = true := by
  rw [Db.seeded, kvGet_set, if_pos rfl]
  decide

/-- **When the momentum step sets its flag.** -/
theorem applied_momentumTried (hunset : w.db.applied = false) :
    (momentumTried numeral fails w).db.applied = true ↔ MomentumReaches fails w.db := by
  rw [momentumTried_eq]
  constructor
  · intro h
    split_ifs at h with h₁ h₂ h₃
    · rw [hunset] at h
      cases h
    · rw [Db.applied, kvGet_pluginsTried, kvGet_set, if_neg (by decide)] at h
      exact absurd h (Bool.eq_false_iff.1 hunset)
    · rw [applied_configured, hunset] at h
      cases h
    · simp only [not_or, Bool.not_eq_true] at h₁ h₂ h₃
      exact ⟨hunset, h₁.1, h₁.2.2, h₂, h₃⟩
  · intro h
    rw [if_neg (by simp [h.read, h.unset, h.symbols]), if_neg (by simp [h.executionReal]),
      if_neg (by simp [h.flag])]
    exact applied_set _

theorem momentumTried_of_reaches (h : MomentumReaches fails w.db) :
    momentumTried numeral fails w =
      (configured numeral fails w).set bootstrapAppliedKey "true" := by
  rw [momentumTried_eq, if_neg (by simp [h.read, h.unset, h.symbols]),
    if_neg (by simp [h.executionReal]), if_neg (by simp [h.flag])]

theorem momentumTried_of_applied (h : w.db.applied = true) : momentumTried numeral fails w = w := by
  rw [momentumTried_eq, if_pos (.inr (.inl h))]

theorem pretestTried_of_seeded (h : w.db.seeded = true) : pretestTried numeral fails w = w := by
  rw [pretestTried_eq, if_pos (.inr h)]

/-- **When the pretest step sets its flag.** -/
theorem seeded_pretestTried (hunset : w.db.seeded = false) :
    (pretestTried numeral fails w).db.seeded = true ↔ PretestReaches fails w.db := by
  have hfold : (pretestPortfoliosToSeed.foldl (seedTried numeral fails) w).db.seeded = false := by
    refine (foldl_keeps (fun w => w.db.seeded) (fun w spec _ => ?_) w).trans hunset
    rcases seedTried_cases numeral fails w spec with h | ⟨-, h⟩
    · rw [h]
    · rw [h]
      rfl
  rw [pretestTried_eq]
  constructor
  · intro h
    split_ifs at h with h₁ h₂
    · rw [hunset] at h
      cases h
    · rw [hfold] at h
      cases h
    · simp only [not_or, Bool.not_eq_true] at h₁ h₂
      exact ⟨hunset, h₁.1, h₂⟩
  · intro h
    rw [if_neg (by simp [h.read, h.unset]), if_neg (by simp [h.flag])]
    exact seeded_set _

theorem pretestTried_of_reaches (h : PretestReaches fails w.db) :
    pretestTried numeral fails w =
      (pretestPortfoliosToSeed.foldl (seedTried numeral fails) w).set pretestSeedKey "true" := by
  rw [pretestTried_eq, if_neg (by simp [h.read, h.unset]), if_neg (by simp [h.flag])]

/-! ## One boot -/

/-- The world between the two steps of a boot. -/
def between (numeral : Number → String) (fails : Failures) (db : Db) : BootWorld :=
  momentumTried numeral fails ⟨db, []⟩

theorem boot_between : boot numeral fails db =
    pretestTried numeral fails (between numeral fails db) := boot_eq db

theorem boot_momentum : (boot numeral fails db).db.momentum =
    (between numeral fails db).db.momentum := by
  rw [boot_eq]
  exact (pretestTried_frame _).1

theorem boot_applied : (boot numeral fails db).db.applied =
    (between numeral fails db).db.applied := by
  rw [boot_eq]
  exact (pretestTried_frame _).2.1

theorem between_portfolio : (between numeral fails db).db.portfolio = db.portfolio :=
  (momentumTried_frame _).1

theorem between_seeded (numeral : Number → String) (fails : Failures) (db : Db) :
    (between numeral fails db).db.seeded = db.seeded :=
  (momentumTried_frame _).2

theorem between_reaches : PretestReaches fails (between numeral fails db).db ↔
    PretestReaches fails db := by
  constructor
  · exact fun h => ⟨between_seeded numeral fails db ▸ h.unset, h.read, h.flag⟩
  · exact fun h => ⟨(between_seeded numeral fails db).trans h.unset, h.read, h.flag⟩

theorem between_quiet (h : SeedsQuiet numeral fails pretestPortfoliosToSeed db) :
    SeedsQuiet numeral fails pretestPortfoliosToSeed (between numeral fails db).db := by
  intro spec hspec
  rw [between_portfolio]
  exact h spec hspec

/-- **A flag of the momentum step** that a careful boot sets says that every write succeeded. -/
theorem momentumWritten_boot (hunset : db.applied = false)
    (hset : (boot numeral fails db).db.applied = true)
    (hcareful : MomentumCareful numeral fails db) :
    MomentumWritten db (boot numeral fails db).written := by
  rw [boot_applied] at hset
  have hreaches := (applied_momentumTried (w := ⟨db, []⟩) hunset).1 hset
  obtain ⟨hquiet, htext⟩ := hcareful hreaches
  have hwritten := (configured_complete (w := ⟨db, []⟩) hquiet).2 htext
  have hkept {op : BootOp} (hop : op ∈ (configured numeral fails ⟨db, []⟩).written) :
      op ∈ (boot numeral fails db).written := by
    rw [boot_eq]
    refine (pretestTried_frame _).2.2 op ?_
    rw [momentumTried_of_reaches hreaches]
    exact written_set _ _ hop
  exact ⟨hkept hwritten.symbols,
    fun id active hid hrow => hkept (hwritten.plugins id active hid hrow),
    hkept hwritten.executionReal, hwritten.scheduler.imp fun _ h => hkept h⟩

/-- **A flag of the pretest step** that a careful boot sets says that all portfolios stand. -/
theorem seedsWritten_boot (hunset : db.seeded = false)
    (hset : (boot numeral fails db).db.seeded = true)
    (hcareful : PretestCareful numeral fails db) :
    SeedsWritten numeral pretestPortfoliosToSeed db (boot numeral fails db).written := by
  rw [boot_eq] at hset ⊢
  have hreaches := (seeded_pretestTried ((between_seeded numeral fails db).trans hunset)).1 hset
  have hquiet := hcareful (between_reaches.1 hreaches)
  have hwritten := (portfolio_foldl_seedTried names_nodup (between_quiet hquiet)).2
  intro spec hspec hnone
  show _ ∈ (pretestTried numeral fails (between numeral fails db)).written
  rw [pretestTried_of_reaches hreaches]
  exact written_set _ _ (hwritten spec hspec (by rw [between_portfolio]; exact hnone))

end Boots

/-! ## The steps as steps that are retried -/

section Steps

variable (numeral : Number → String)

/-- **The momentum step**, retried boot by boot. -/
def momentumStep (hinterval : Json.Reads (numeral (.fin defaultSchedulerIntervalMs))
    defaultSchedulerIntervalMs) (hzero : Json.Reads (numeral (.fin 0)) 0) :
    Retry.Step Db Failures MomentumData where
  data := Db.momentum
  goal := MomentumData.configured numeral
  flag := Db.applied
  attempt fails db := (boot numeral fails db).db
  ok := noFailures
  Valid db := SchedulerReads numeral (kvGet db.settings schedulerKey)
  Careful fails db := MomentumReaches fails db → NothingCaught numeral fails db
  valid_attempt {fails db} h := by
    have hbetween := (configured_momentumTried hinterval hzero fails (w := ⟨db, []⟩) h).2
    have hsame : (boot numeral fails db).db.momentum.scheduler = _ :=
      congrArg MomentumData.scheduler boot_momentum
    show SchedulerReads numeral (boot numeral fails db).db.momentum.scheduler
    rw [hsame]
    exact hbetween
  data_of_flag {fails db} h := by
    rw [boot_momentum, between, momentumTried_of_applied h]
  flag_of_flag {fails db} h := by
    rw [boot_applied, between, momentumTried_of_applied h]
    exact h
  goal_attempt {fails db} h hflag := by
    rw [boot_momentum]
    exact (configured_momentumTried hinterval hzero fails (w := ⟨db, []⟩) h).1
  reached {fails db} hflag hcareful hset := by
    rw [boot_applied] at hset
    have hreaches := (applied_momentumTried (w := ⟨db, []⟩) hflag).1 hset
    rw [boot_momentum, between, momentumTried_of_reaches hreaches, momentum_set_flag (by decide)]
    exact (configured_complete (w := ⟨db, []⟩) (hcareful hreaches)).1
  flag_ok {db} hflag := by
    rw [boot_applied]
    exact (applied_momentumTried (w := ⟨db, []⟩) hflag).2 ⟨hflag, rfl, rfl, rfl, rfl⟩
  careful_ok _ := ⟨fun _ _ _ _ => rfl, rfl, fun _ _ => rfl⟩

/-- **The pretest step**, retried boot by boot. -/
def pretestStep : Retry.Step Db Failures (String → Option PretestRow) where
  data := Db.portfolio
  goal := withSeeds numeral pretestPortfoliosToSeed
  flag := Db.seeded
  attempt fails db := (boot numeral fails db).db
  ok := noFailures
  Valid _ := True
  Careful fails db := PretestCareful numeral fails db
  valid_attempt h := h
  data_of_flag {fails db} h := by
    rw [boot_between, pretestTried_of_seeded ((between_seeded numeral fails db).trans h)]
    exact between_portfolio
  flag_of_flag {fails db} h := by
    have hbetween := (between_seeded numeral fails db).trans h
    rw [boot_between, pretestTried_of_seeded hbetween]
    exact hbetween
  goal_attempt {fails db} _ _ := by
    have hfold : withSeeds numeral pretestPortfoliosToSeed
        (pretestPortfoliosToSeed.foldl (seedTried numeral fails)
          (between numeral fails db)).db.portfolio =
        withSeeds numeral pretestPortfoliosToSeed (between numeral fails db).db.portfolio :=
      foldl_keeps (fun w => withSeeds numeral pretestPortfoliosToSeed w.db.portfolio)
        (fun w spec hspec => withSeeds_seedTried names_nodup hspec w) _
    rw [between_portfolio] at hfold
    rw [boot_between, pretestTried_eq]
    split_ifs
    · exact congrArg _ between_portfolio
    · exact hfold
    · exact hfold
  reached {fails db} hflag hcareful hset := by
    rw [boot_between] at hset ⊢
    have hreaches := (seeded_pretestTried ((between_seeded numeral fails db).trans hflag)).1 hset
    have hquiet := between_quiet (hcareful (between_reaches.1 hreaches))
    have hfold := (portfolio_foldl_seedTried names_nodup hquiet).1
    rw [between_portfolio] at hfold
    show (pretestTried numeral fails (between numeral fails db)).db.portfolio = _
    rw [pretestTried_of_reaches hreaches]
    exact hfold
  flag_ok {db} hflag := by
    have hbetween := (between_seeded numeral noFailures db).trans hflag
    rw [boot_between]
    exact (seeded_pretestTried hbetween).2 ⟨hbetween, rfl, rfl⟩
  careful_ok _ := fun _ _ => ⟨rfl, fun _ => rfl⟩

end Steps

/-! ## Runs of boots -/

/-- What holds of each boot of a run, in the database that it meets. -/
def EachBoot (numeral : Number → String) (db : Db) (l : List Failures)
    (P : Failures → Db → Prop) : Prop :=
  ∀ l₁ fails l₂, l = l₁ ++ fails :: l₂ → P fails (boots numeral db l₁)

/-- **A flag that a boot sets** says that every write of its step succeeded. -/
def FlagEarned (numeral : Number → String) (fails : Failures) (db : Db) : Prop :=
  (db.applied = false → (boot numeral fails db).db.applied = true →
    MomentumWritten db (boot numeral fails db).written) ∧
  (db.seeded = false → (boot numeral fails db).db.seeded = true →
    SeedsWritten numeral pretestPortfoliosToSeed db (boot numeral fails db).written)

/-- **All or retry**: flags are earned, one boot without failures makes up for all others, and
whatever an operator makes of the database, a step whose flag is set is over. -/
structure AllOrRetry (numeral : Number → String) (db : Db) (l : List Failures) : Prop where
  earned : EachBoot numeral db l (FlagEarned numeral)
  retried : noFailures ∈ l →
    (boots numeral db l).momentum = (boot numeral noFailures db).db.momentum ∧
    (boots numeral db l).portfolio = (boot numeral noFailures db).db.portfolio
  settled : ∀ (edited : Db) (later : List Failures),
    (edited.applied = true → (boots numeral edited later).momentum = edited.momentum) ∧
    (edited.seeded = true → (boots numeral edited later).portfolio = edited.portfolio)

/-- **The bootstrap is all or retry** in careful boots, where the stored numbers are finite. -/
theorem bootstrap_all_or_retry {numeral : Number → String} {db : Db} {l : List Failures}
    (hinterval : Json.Reads (numeral (.fin defaultSchedulerIntervalMs)) defaultSchedulerIntervalMs)
    (hzero : Json.Reads (numeral (.fin 0)) 0)
    (hprinted : Json.Printed numeral
      (schedulerConfig (kvGet db.settings schedulerKey)).numbers)
    (hfinite : ∀ key ∈ ["override_interval_ms", "run_count"], ∀ x,
      Obj.get (ownFields (schedulerConfig (kvGet db.settings schedulerKey))) key = some (.num x) →
        ∃ q, x = .fin q)
    (hmomentum : EachBoot numeral db l (MomentumCareful numeral))
    (hpretest : EachBoot numeral db l (PretestCareful numeral)) : AllOrRetry numeral db l where
  earned l₁ fails l₂ hl :=
    ⟨fun hunset hset => momentumWritten_boot hunset hset (hmomentum l₁ fails l₂ hl),
      fun hunset hset => seedsWritten_boot hunset hset (hpretest l₁ fails l₂ hl)⟩
  retried hok := by
    constructor
    · exact (momentumStep numeral hinterval hzero).data_run (s := db) ⟨hprinted, hfinite⟩
        (fun l₁ fails l₂ hl hreaches => (hmomentum l₁ fails l₂ hl hreaches).1) hok
    · exact (pretestStep numeral).data_run (s := db) trivial hpretest hok
  settled edited later :=
    ⟨fun h => (momentumStep numeral hinterval hzero).data_run_of_flag h,
      fun h => (pretestStep numeral).data_run_of_flag h⟩

/-! ## A fresh instance -/

theorem eachBoot_nil (numeral : Number → String) (db : Db) (P : Failures → Db → Prop) :
    EachBoot numeral db [] P := fun l₁ fails l₂ hl => absurd hl (by simp)

theorem eachBoot_cons {numeral : Number → String} {db : Db} {fails : Failures}
    {l : List Failures} {P : Failures → Db → Prop} (hfirst : P fails db)
    (hrest : EachBoot numeral (boot numeral fails db).db l P) :
    EachBoot numeral db (fails :: l) P := by
  intro l₁ fails' l₂ hl
  cases l₁ with
  | nil =>
    cases hl
    exact hfirst
  | cons first l₁ =>
    cases hl
    exact hrest l₁ fails' l₂ rfl

/-- The texts of the numbers that the bootstrap writes. -/
def printNumber (x : Number) : String :=
  match [(Number.fin 0.03, "0.03"), (.fin 0.05, "0.05"), (.fin 0.1, "0.1"), (.fin 0.2, "0.2"),
    (.fin 0.3, "0.3"), (.fin 0.0005, "0.0005"), (.fin 1.5, "1.5")].lookup x, x with
  | some text, _ => text
  | none, .fin q => toString q.num
  | none, _ => "null"

theorem reads_interval :
    Json.Reads (printNumber (.fin defaultSchedulerIntervalMs)) defaultSchedulerIntervalMs := by
  have htext : printNumber (.fin defaultSchedulerIntervalMs) = "2700000" := by decide +kernel
  have hvalue : defaultSchedulerIntervalMs = 2700000 := by decide +kernel
  rw [htext, hvalue]
  refine Json.reads_of_stop (by decide +kernel) (fun t c hc => ?_) (by decide +kernel)
  rcases hc with rfl | rfl | rfl <;> rfl

theorem reads_zero : Json.Reads (printNumber (.fin 0)) 0 := by
  have htext : printNumber (.fin 0) = "0" := by decide +kernel
  rw [htext]
  refine Json.reads_of_stop (by decide +kernel) (fun t c hc => ?_) (by decide +kernel)
  rcases hc with rfl | rfl | rfl <;> rfl

def freshDb : Db := ⟨∅, ∅, ∅⟩

def universeDown : Failures
  | .kvSet key _ => key = universeKey
  | _ => false

/-- A boot that fails, and one that does not. -/
theorem bootstrap_universe_down : AllOrRetry printNumber freshDb [universeDown, noFailures] := by
  refine bootstrap_all_or_retry reads_interval reads_zero ?_ ?_ ?_ ?_
  · intro q hq
    exact absurd hq List.not_mem_nil
  · intro key hkey x hx
    cases hx
  · refine eachBoot_cons (fun h => ?_) (eachBoot_cons (fun _ => ⟨?_, ?_⟩) (eachBoot_nil _ _ _))
    · exact absurd h.symbols (by decide)
    · exact ⟨fun _ _ _ _ => rfl, rfl, fun _ _ => rfl⟩
    · exact Option.isSome_iff_ne_none.1 (by decide)
  · exact eachBoot_cons (fun _ _ _ => ⟨rfl, fun _ => rfl⟩)
      (eachBoot_cons (fun _ _ _ => ⟨rfl, fun _ => rfl⟩) (eachBoot_nil _ _ _))

def schedulerDown : Failures
  | .kvSet key _ => key = schedulerKey
  | _ => false

def BootOp.isScheduler : BootOp → Bool
  | .kvSet key _ => key = schedulerKey
  | _ => false

/-- **The scheduler is forgotten**: its write fails, and the flag is set all the same. -/
theorem scheduler_forgotten : ¬ AllOrRetry printNumber freshDb [schedulerDown] := by
  intro h
  obtain ⟨text, hmem⟩ :=
    ((h.earned [] schedulerDown [] rfl).1 (by decide) (by decide)).scheduler
  have hnone : (boot printNumber schedulerDown freshDb).written.any BootOp.isScheduler = false := by
    decide
  exact absurd (List.any_eq_true.2 ⟨_, hmem, by simp [BootOp.isScheduler]⟩) (Bool.eq_false_iff.1 hnone)

end Bootstrap

end NeoTrader
