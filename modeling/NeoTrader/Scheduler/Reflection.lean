import NeoTrader.Common.Cadence
import NeoTrader.Scheduler.NoLostUpdates

/-!
# The cadence of the reflections

After it has started a cycle, a tick steps a counter, and every so often it asks for a reflection.
It does so only if it finds no cycle running when it looks, and a cycle runs on by itself.

* `turnsOf`, `idleChecks`, `automatic`: what a run has done, the ticks that found no cycle running,
  and the cycles that ticks have started;
* **`reflection_cadence`**: the reflections of a run;
* **`running_cycle_uncounted`**: a cycle that still runs when its tick looks is not counted.
-/

namespace NeoTrader.Scheduler

open Await Prog Pool Cadence

/-! ## What a run has done -/

/-- The turn of the counter that an event ends. The counter is set to zero after a reflection, which
has ended the turn. -/
def turnOf : SchedulerEvent → Option Turn
  | ⟨.reflectNow, .ok _⟩ => some .triggered
  | ⟨.reflectNow, .error _⟩ => some .failed
  | ⟨.setCounter m, .ok _⟩ => if m = 0 then none else some .counted
  | _ => none

def turnsOf (events : List SchedulerEvent) : List Turn := events.filterMap turnOf

/-- A tick finds no cycle running. -/
def isIdleCheck : SchedulerEvent → Bool
  | ⟨.cycleRunning, .ok false⟩ => true
  | _ => false

/-- The ticks that found no cycle running when they looked. -/
def idleChecks (events : List SchedulerEvent) : ℕ := events.countP isIdleCheck

/-- A tick finds a cycle running. -/
def isBusyCheck : SchedulerEvent → Bool
  | ⟨.cycleRunning, .ok true⟩ => true
  | _ => false

/-- The ticks that found a cycle running when they looked. -/
def busyChecks (events : List SchedulerEvent) : ℕ := events.countP isBusyCheck

/-- A tick has started a cycle. -/
def isAutomatic : SchedulerEvent → Bool
  | ⟨.launch _ _, .ok .accepted⟩ => true
  | _ => false

/-- The cycles that ticks have started. -/
def automatic (events : List SchedulerEvent) : ℕ := events.countP isAutomatic

/-! ## How far a call is -/

/-- The phases of a call: it has started no cycle, or has let go of it; it has started one; it has
found none running; it has read the cadence, and the counter; it has reflected; it is done with the
counter, or has failed to read or write it, or has failed before it looked. -/
inductive Phase
  | out | held | checked | paced (n : ℤ) | read (n c : ℤ) | reset | settled | failed | dropped
  deriving DecidableEq

/-- The cadence that an answer stands for. -/
def cadenceOf : Except String (Option ℤ) → ℤ
  | .ok (some n) => n
  | _ => 10

def nextPhase : Phase → SchedulerEvent → Phase
  | _, ⟨.launch _ _, .ok .accepted⟩ => .held
  | _, ⟨.launch _ _, .ok .rejected⟩ | _, ⟨.launchNow _, .ok .rejected⟩ => .settled
  | _, ⟨.launchNow _, .ok .accepted⟩ => .settled
  | _, ⟨.release, _⟩ => .out
  | .held, ⟨_, .error _⟩ => .dropped
  | _, ⟨.cycleRunning, .ok false⟩ => .checked
  | _, ⟨.cycleRunning, .ok true⟩ => .settled
  | _, ⟨.getCadence, r⟩ => .paced (cadenceOf r)
  | .paced n, ⟨.getCounter, .ok c⟩ => .read n c
  | _, ⟨.getCounter, .error _⟩ | _, ⟨.setCounter _, .error _⟩ => .failed
  | _, ⟨.setCounter _, .ok _⟩ => .settled
  | _, ⟨.reflectNow, .ok _⟩ => .reset
  | _, ⟨.reflectNow, .error _⟩ => .settled
  | ph, _ => ph

/-- The phase of a call, from its events. -/
def phase (h : List SchedulerEvent) : Phase := h.foldl nextPhase .out

theorem phase_snoc (h : List SchedulerEvent) (e : SchedulerEvent) :
    phase (h ++ [e]) = nextPhase (phase h) e := by
  rw [phase, List.foldl_append]
  rfl

/-- What a call may await in a phase. -/
def allowed : Phase → SchedulerOp → Prop
  | ph, .launch _ _ | ph, .launchNow _ => ph = .out
  | ph, .release => ph = .settled ∨ ph = .failed ∨ ph = .dropped ∨ ph = .paced 0
  | ph, .cycleRunning => ph = .held
  | ph, .getCadence => ph = .checked
  | ph, .getCounter => ∃ n, ph = .paced n ∧ n ≠ 0
  | ph, .reflectNow => ∃ n c, ph = .read n c ∧ n ≤ c + 1
  | ph, .setCounter m => (∃ n c, ph = .read n c ∧ c + 1 < n ∧ m = c + 1) ∨ (ph = .reset ∧ m = 0)
  | _, _ => True

/-- An operation that every phase allows, and that leaves it as it is, but for a failure before the
look at the cycle. -/
def Still : SchedulerOp → Prop
  | .launch _ _ | .launchNow _ | .release | .cycleRunning | .getCadence | .getCounter | .reflectNow
  | .setCounter _ => False
  | _ => True

theorem allowed_of_still {ph : Phase} {op : SchedulerOp} (hop : Still op) : allowed ph op := by
  cases op <;> first | exact absurd hop id | trivial

theorem nextPhase_of_still {ph : Phase} {e : SchedulerEvent} (he : Still e.1) (hph : ph ≠ .held) :
    nextPhase ph e = ph := by
  obtain ⟨op, r⟩ := e
  cases op <;> first
    | exact absurd he id
    | (cases r <;> cases ph <;> first | exact absurd rfl hph | rfl)

/-! ## What each call does -/

section Programs

variable {α β : Type} {ph : Phase} {h : List SchedulerEvent}

/-- What a call may await, after its events. -/
def phasePre (h : List SchedulerEvent) (op : SchedulerOp) : Prop := allowed (phase h) op

theorem wp_still {p : Sched α} (hp : Always (fun _ => Still) p) (hh : phase h = ph)
    (hph : ph ≠ .held) : p.Wp (histSem schedulerSig) phasePre (fun _ h' => phase h' = ph) h := by
  refine wp_mono (fun _ _ hop => allowed_of_still hop.1) (fun _ _ hk => hk)
    (hp.carries (I := fun h' => phase h' = ph) (fun h' e hk he => ?_) hh)
  rw [phase_snoc, hk, nextPhase_of_still he hph]

theorem wp_phase {op : SchedulerOp} {Q : Except String op.Ans → List SchedulerEvent → Prop}
    (hh : phase h = ph) (hop : allowed ph op)
    (hQ : ∀ r h', phase h' = nextPhase ph ⟨op, r⟩ → Q r h') :
    (sched op).Wp (histSem schedulerSig) phasePre Q h := by
  refine wp_perform.2 ⟨?_, ?_⟩
  · rw [phasePre, hh]
    exact hop
  · rintro r h' rfl
    exact hQ r _ (by rw [phase_snoc, hh])

theorem wp_phase_bind {op : SchedulerOp} {f : op.Ans → Sched β}
    {Q : Except String β → List SchedulerEvent → Prop} (hh : phase h = ph) (hop : allowed ph op)
    (herr : ∀ e h', phase h' = nextPhase ph ⟨op, .error e⟩ → Q (.error e) h')
    (hok : ∀ a h', phase h' = nextPhase ph ⟨op, .ok a⟩ →
      (f a).Wp (histSem schedulerSig) phasePre Q h') :
    (sched op >>= f).Wp (histSem schedulerSig) phasePre Q h := by
  rw [wp_bind]
  refine wp_phase hh hop fun r h' hr => ?_
  cases r with
  | ok a => exact hok a h' hr
  | error e => exact herr e h' hr

theorem still_sched {op : SchedulerOp} (hop : Still op) : Always (fun _ => Still) (sched op) :=
  always_perform fun _ => hop

theorem still_getConfig : Always (fun _ => Still) getConfig :=
  always_bind (still_sched trivial) fun _ => always_ret _

theorem still_bumpRunCount (c : SchedulerConfig) : Always (fun _ => Still) (bumpRunCount c) :=
  always_bind (still_sched trivial) fun _ => still_sched trivial

theorem still_handleTickError (msg : String) (cb : CircuitBreakerState) :
    Always (fun _ => Still) (handleTickError msg cb) :=
  always_bind (still_sched trivial) fun _ => still_sched trivial

theorem still_checkCircuitBreaker (cb : CircuitBreakerState) :
    Always (fun _ => Still) (checkCircuitBreaker cb) := by
  unfold checkCircuitBreaker
  refine always_ite (fun _ => always_ret _) fun _ => ?_
  refine always_bind (still_sched trivial) fun now => ?_
  refine always_ite (fun _ => always_ret _) fun _ => ?_
  exact always_bind (still_sched trivial) fun _ => always_ret _

theorem still_resolvePluginSchedules : Always (fun _ => Still) resolvePluginSchedules := by
  refine always_bind (always_attempt (still_sched trivial)) fun r => ?_
  cases r <;> exact always_ret _

/-- A call that is in a phase in which it lets go of its cycle. -/
def Done (h : List SchedulerEvent) : Prop := allowed (phase h) .release

theorem done_settled (hh : phase h = .settled) : Done h := Or.inl hh

theorem done_failed (hh : phase h = .failed) : Done h := Or.inr (Or.inl hh)

theorem done_dropped (hh : phase h = .dropped) : Done h := Or.inr (Or.inr (Or.inl hh))

theorem Done.not_held (hh : Done h) : phase h ≠ .held := by
  rcases hh with hh | hh | hh | hh <;> simp [hh]

theorem wp_reflect {n c : ℤ} (hh : phase h = .read n c) (hle : n ≤ c + 1) :
    (do sched .reflectNow; sched (.setCounter 0) : Sched Unit).Wp (histSem schedulerSig) phasePre
      (fun _ h' => Done h') h := by
  refine wp_phase_bind hh ⟨n, c, rfl, hle⟩ (fun e h' he => done_settled he) fun _ h' hh' => ?_
  refine wp_phase hh' (Or.inr ⟨rfl, rfl⟩) fun r h'' hr => ?_
  cases r with
  | ok _ => exact done_settled hr
  | error e => exact done_failed hr

theorem wp_paced {n : ℤ} (hh : phase h = .paced n) :
    (if n = 0 then return
      else do
        let counter := (← sched .getCounter) + 1
        if n ≤ counter then
          let _ ← (do
            sched .reflectNow
            sched (.setCounter 0)).attempt
          return
        else sched (.setCounter counter) : Sched Unit).Wp (histSem schedulerSig) phasePre
      (fun _ h' => Done h') h := by
  refine wp_ite (fun hzero => ?_) fun hne => ?_
  · exact Or.inr (Or.inr (Or.inr (hh.trans (congrArg Phase.paced hzero))))
  refine wp_phase_bind hh ⟨_, rfl, hne⟩ (fun e h' he => done_failed he) fun c h hh => ?_
  refine wp_ite (fun hle => ?_) fun hlt => ?_
  · exact wp_attempt_bind.2 (wp_post (fun _ _ hdone => hdone) (wp_reflect hh hle))
  · refine wp_phase hh (Or.inl ⟨_, c, rfl, not_le.1 hlt, rfl⟩) fun r h' hr => ?_
    cases r with
    | ok _ => exact done_settled hr
    | error e => exact done_failed hr

/-- **The counter and the reflection**, from the look at the cycle on. -/
theorem wp_maybeReflect (hh : phase h = .held) :
    maybeReflect.Wp (histSem schedulerSig) phasePre (fun _ h' => Done h') h := by
  unfold maybeReflect
  refine wp_phase_bind hh rfl (fun e h' he => done_dropped he) fun running h hh => ?_
  refine wp_ite (fun hrun => ?_) fun hidle => ?_
  · obtain rfl : running = true := by simpa using hrun
    exact done_settled hh
  obtain rfl : running = false := by simpa using hidle
  refine wp_attempt_bind.2 (wp_phase hh rfl fun r h hh => ?_)
  rcases r with e | (_ | n) <;> exact wp_paced hh

theorem wp_done {p : Sched α} (hp : Always (fun _ => Still) p) (hh : Done h) :
    p.Wp (histSem schedulerSig) phasePre (fun _ h' => Done h') h :=
  wp_post (fun _ h' (hk : phase h' = phase h) => by rw [Done, hk]; exact hh)
    (wp_still hp rfl hh.not_held)

theorem wp_executeTick_phase (hh : phase h = .held) (c : SchedulerConfig)
    (cb : CircuitBreakerState) : (executeTick c cb true).Wp (histSem schedulerSig) phasePre
      (fun _ h' => Done h') h := by
  unfold executeTick
  refine wp_attempt_bind.2 (wp_post (Q := fun _ h' => Done h') ?_ ?_)
  · rintro r h' hdone
    cases r with
    | ok _ => exact hdone
    | error e => exact wp_done (still_handleTickError e cb) hdone
  rw [if_pos rfl]
  have hdropped : ∀ e (h' : List SchedulerEvent), phase h' = .dropped →
      (fun _ h' => Done h' : Except String Unit → List SchedulerEvent → Prop) (.error e) h' :=
    fun e h' he => done_dropped he
  refine wp_phase_bind hh trivial hdropped fun now h hh => ?_
  refine wp_phase_bind hh trivial hdropped fun _ h hh => ?_
  rw [bumpRunCount, bind_assoc']
  refine wp_phase_bind hh trivial hdropped fun now h hh => ?_
  exact wp_phase_bind hh trivial hdropped fun _ h hh => wp_maybeReflect hh

theorem wp_finallyRelease_phase {p : Sched Unit}
    (hp : p.Wp (histSem schedulerSig) phasePre (fun _ h' => Done h') h) :
    (finallyRelease p).Wp (histSem schedulerSig) phasePre (fun _ h' => phase h' = .out) h := by
  refine wp_attempt_bind.2 (wp_post (fun r h' hdone => ?_) hp)
  refine wp_phase_bind rfl hdone (fun e h'' he => ?_) fun _ h'' he => wp_ofOutcome.2 ?_
  · exact he
  · exact he

theorem wp_tick_phase :
    tick.Wp (histSem schedulerSig) phasePre (fun _ h' => phase h' = .out) [] := by
  refine wp_phase_bind rfl trivial (fun e h' he => he) fun running h hh => ?_
  refine wp_ite (fun _ => hh) fun _ => ?_
  refine wp_bind_of (wp_still still_getConfig hh nofun) (fun c h hh => ?_) fun _ _ he => he
  refine wp_ite (fun _ => hh) fun _ => ?_
  refine wp_bind_of (wp_still (always_bind (still_sched trivial) fun _ => always_ret _) hh nofun)
    (fun cb h hh => ?_) fun _ _ he => he
  refine wp_bind_of (wp_still (still_checkCircuitBreaker cb) hh nofun) (fun proceed h hh => ?_)
    fun _ _ he => he
  refine wp_ite (fun _ => hh) fun _ => ?_
  refine wp_bind_of (wp_still still_resolvePluginSchedules hh nofun) (fun schedules h hh => ?_)
    fun _ _ he => he
  refine wp_phase_bind hh rfl (fun e h' he => he) fun result h hh => ?_
  cases result with
  | notDue => exact hh
  | busy => exact hh
  | rejected =>
    refine wp_finallyRelease_phase (wp_attempt_bind.2 ?_)
    exact done_settled hh
  | accepted => exact wp_finallyRelease_phase (wp_executeTick_phase hh c cb)

theorem wp_runNow_phase (prompt : Option String) :
    (runNow prompt).Wp (histSem schedulerSig) phasePre (fun _ h' => phase h' = .out) [] := by
  refine wp_phase_bind rfl rfl (fun e h' he => he) fun result h hh => ?_
  cases result with
  | notDue => exact hh
  | busy => exact hh
  | rejected => exact wp_finallyRelease_phase (done_settled hh)
  | accepted =>
    refine wp_finallyRelease_phase (wp_done ?_ (done_settled hh))
    exact always_bind still_getConfig fun c => still_bumpRunCount c

theorem still_updateConfig (patch : ConfigPatch) :
    Always (fun _ => Still) (updateConfig patch) := by
  refine always_bind still_getConfig fun c => ?_
  exact always_ite (fun _ => always_throw _) fun _ => still_sched trivial

/-- **What each call awaits**, in its phases, whatever it is answered. -/
theorem reflection_facts (call : SchedulerCall) : (schedulerBody call).Wp (histSem schedulerSig)
    phasePre (fun _ h' => phase h' = .out) [] := by
  cases call with
  | tick => exact wp_tick_phase
  | updateConfig patch => exact wp_still (still_updateConfig patch) rfl nofun
  | resetCircuitBreaker => exact wp_still (still_sched trivial) rfl nofun
  | runNow prompt => exact wp_runNow_phase prompt
  | cycleEnds completed => exact wp_still (still_sched trivial) rfl nofun

end Programs

/-! ## What a step does to the counter -/

section Steps

variable {n : ℤ} {ph : Phase} {w w' : TracedWorld} {op : SchedulerOp} {r : schedulerSig.Outcome op}

def counterAfter (counter : ℤ) : SchedulerEvent → ℤ
  | ⟨.setCounter m, .ok _⟩ => m
  | _ => counter

/-- The flag of the scheduler after an event. -/
def runningAfter (running : Bool) : SchedulerEvent → Bool
  | ⟨.launch _ _, .ok .accepted⟩ | ⟨.launchNow _, .ok .accepted⟩ => true
  | ⟨.release, _⟩ => false
  | _ => running

theorem world_after {v v' : SchedulerWorld} (h : schedulerSem.rel op v r v') :
    v'.counter = counterAfter v.counter ⟨op, r⟩ ∧ v'.running = runningAfter v.running ⟨op, r⟩ ∧
      v'.cadence = v.cadence := by
  obtain ⟨o, -, h⟩ := h
  cases op <;> simp only [handleScheduler, storeOp] at h <;> (try split at h) <;>
    (try split at h) <;> cases h <;> exact ⟨rfl, rfl, rfl⟩

theorem getCadence_answer {v v' : SchedulerWorld} {x : Option ℤ}
    (h : schedulerSem.rel .getCadence v (.ok x) v') : x = v.cadence := by
  obtain ⟨o, -, h⟩ := h
  simp only [handleScheduler, storeOp] at h
  split at h <;> cases h
  rfl

theorem getCounter_answer {v v' : SchedulerWorld} {c : ℤ}
    (h : schedulerSem.rel .getCounter v (.ok c) v') : c = v.counter := by
  obtain ⟨o, -, h⟩ := h
  simp only [handleScheduler, storeOp] at h
  split at h <;> cases h
  rfl

theorem not_rejected {v v' : SchedulerWorld} {dueAt : ℤ} {prompt : Option String} :
    ¬ schedulerSem.rel (.launch dueAt prompt) v (.ok .rejected) v' := by
  rintro ⟨o, -, h⟩
  simp only [handleScheduler] at h
  split_ifs at h <;> cases h

theorem not_rejected_now {v v' : SchedulerWorld} {prompt : Option String} :
    ¬ schedulerSem.rel (.launchNow prompt) v (.ok .rejected) v' := by
  rintro ⟨o, -, h⟩
  simp only [handleScheduler] at h
  split_ifs at h <;> cases h

/-- An operation on the cadence or the counter. -/
def onCounter : SchedulerOp → Bool
  | .getCadence | .getCounter | .setCounter _ => true
  | _ => false

/-- **In turn**: a call starts its cycle only while no other is under way with one, and the store
answers for the cadence and the counter. -/
def InTurn : Guard schedulerSig SchedulerCall TracedWorld := fun w _ _ e =>
  (isAccepted e = true → w.1.running = false) ∧ (onCounter e.1 = true → e.2.isOk = true)

/-- What the counter is to become in a phase. -/
def counterIn (ph : Phase) (counter : ℤ) : ℤ := if ph = .reset then 0 else counter

def openTurns : Phase → ℕ
  | .checked | .paced _ | .read _ _ => 1
  | _ => 0

/-- The cycles of a phase that have not been looked at. -/
def openCycles : Phase → ℕ
  | .held => 1
  | _ => 0

def Knows (n counter : ℤ) : Phase → Prop
  | .paced m => m = n
  | .read m c => m = n ∧ c = counter
  | .failed => False
  | _ => True

/-- An operation other than a reflection has failed. -/
def Broken (events : List SchedulerEvent) : Prop :=
  ∃ e ∈ events, e.1 ≠ .reflectNow ∧ e.2.isOk = false

/-- **The tally** of a run, in the phase of the call that is under way. -/
structure Tallied (n : ℤ) (ph : Phase) (w : TracedWorld) : Prop where
  cadence : w.1.cadence = some n
  follows : Follows n (turnsOf w.2) (counterIn ph w.1.counter)
  checks : idleChecks w.2 = (turnsOf w.2).length + openTurns ph
  cycles : idleChecks w.2 + busyChecks w.2 + openCycles ph = automatic w.2 ∨ Broken w.2
  knows : Knows n w.1.counter ph

theorem turnsOf_snoc (events : List SchedulerEvent) (e : SchedulerEvent) :
    turnsOf (events ++ [e]) = turnsOf events ++ (turnOf e).toList := by
  simp only [turnsOf, List.filterMap_append]
  cases h : turnOf e <;> simp [h]

theorem idleChecks_snoc (events : List SchedulerEvent) (e : SchedulerEvent) :
    idleChecks (events ++ [e]) = idleChecks events + (isIdleCheck e).toNat := by
  rw [idleChecks, List.countP_append]
  cases h : isIdleCheck e <;> simp [idleChecks, h]

theorem busyChecks_snoc (events : List SchedulerEvent) (e : SchedulerEvent) :
    busyChecks (events ++ [e]) = busyChecks events + (isBusyCheck e).toNat := by
  rw [busyChecks, List.countP_append]
  cases h : isBusyCheck e <;> simp [busyChecks, h]

theorem automatic_snoc (events : List SchedulerEvent) (e : SchedulerEvent) :
    automatic (events ++ [e]) = automatic events + (isAutomatic e).toNat := by
  rw [automatic, List.countP_append]
  cases h : isAutomatic e <;> simp [automatic, h]

theorem Broken.snoc {events : List SchedulerEvent} (h : Broken events) (e : SchedulerEvent) :
    Broken (events ++ [e]) := by
  obtain ⟨e', hmem, he'⟩ := h
  exact ⟨e', List.mem_append_left _ hmem, he'⟩

theorem Tallied.next {ph' : Phase} {e : SchedulerEvent} (h : Tallied n ph w)
    (htrace : w'.2 = w.2 ++ [e]) (hcadence : w'.1.cadence = w.1.cadence)
    (hfollows : Follows n (turnsOf w.2 ++ (turnOf e).toList) (counterIn ph' w'.1.counter))
    (hopen : openTurns ph + (isIdleCheck e).toNat = (turnOf e).toList.length + openTurns ph')
    (hcycles : openCycles ph' + (isIdleCheck e).toNat + (isBusyCheck e).toNat =
      openCycles ph + (isAutomatic e).toNat ∨ (e.1 ≠ .reflectNow ∧ e.2.isOk = false))
    (hknows : Knows n w'.1.counter ph') : Tallied n ph' w' := by
  have hchecks := h.checks
  refine ⟨hcadence.trans h.cadence, ?_, ?_, ?_, hknows⟩
  · rw [htrace, turnsOf_snoc]
    exact hfollows
  · rw [htrace, turnsOf_snoc, idleChecks_snoc, List.length_append]
    omega
  · rw [htrace, idleChecks_snoc, busyChecks_snoc, automatic_snoc]
    rcases h.cycles with hautos | hbroken
    · rcases hcycles with heq | hfail
      · exact Or.inl (by omega)
      · exact Or.inr ⟨e, List.mem_append_right _ (List.mem_singleton_self e), hfail⟩
    · exact Or.inr (hbroken.snoc e)

theorem Tallied.skip {ph' : Phase} {e : SchedulerEvent} (h : Tallied n ph w)
    (htrace : w'.2 = w.2 ++ [e]) (hcounter : w'.1.counter = w.1.counter)
    (hcadence : w'.1.cadence = w.1.cadence) (hturn : turnOf e = none)
    (hcheck : isIdleCheck e = false)
    (hin : counterIn ph' w.1.counter = counterIn ph w.1.counter)
    (hopen : openTurns ph' = openTurns ph)
    (hcycles : openCycles ph' + (isBusyCheck e).toNat = openCycles ph + (isAutomatic e).toNat ∨
      (e.1 ≠ .reflectNow ∧ e.2.isOk = false))
    (hknows : Knows n w.1.counter ph') : Tallied n ph' w' := by
  refine h.next htrace hcadence ?_ ?_ ?_ ?_
  · rw [hturn, hcounter, hin, Option.toList_none, List.append_nil]
    exact h.follows
  · rw [hturn, hcheck, hopen, Option.toList_none]
    exact (Nat.zero_add _).symm
  · rw [hcheck]
    exact hcycles
  · rw [hcounter]
    exact hknows

/-- **A step of the call that is under way** keeps the tally, in its next phase. -/
theorem step_tallied (hn : 1 ≤ n) (h : Tallied n ph w) (hop : allowed ph op)
    (hanswers : onCounter op = true → Except.isOk r = true)
    (hm : schedulerSem.traced.rel op w r w') : Tallied n (nextPhase ph ⟨op, r⟩) w' := by
  obtain ⟨hm, htrace⟩ := hm
  obtain ⟨hcounter, -, hcadence⟩ := world_after hm
  have hknows := h.knows
  have hfollows := h.follows
  cases op
  case launch dueAt prompt =>
    obtain rfl : ph = .out := hop
    rcases r with e | (_ | _ | _ | _) <;>
      exact h.skip htrace hcounter hcadence rfl rfl rfl rfl (.inl rfl) trivial
  case launchNow prompt =>
    obtain rfl : ph = .out := hop
    rcases r with e | (_ | _ | _ | _) <;>
      exact h.skip htrace hcounter hcadence rfl rfl rfl rfl (.inl rfl) trivial
  case release =>
    rcases hop with rfl | rfl | rfl | rfl
    · exact h.skip htrace hcounter hcadence rfl rfl rfl rfl (.inl rfl) trivial
    · exact absurd hknows id
    · exact h.skip htrace hcounter hcadence rfl rfl rfl rfl (.inl rfl) trivial
    · have hzero : (0 : ℤ) = n := hknows
      omega
  case cycleRunning =>
    obtain rfl : ph = .held := hop
    rcases r with e | (_ | _)
    · exact h.skip htrace hcounter hcadence rfl rfl rfl rfl (.inr ⟨nofun, rfl⟩) trivial
    · refine h.next htrace hcadence ?_ rfl (.inl rfl) trivial
      rw [hcounter]
      exact (List.append_nil (turnsOf w.2)).symm ▸ hfollows
    · exact h.skip htrace hcounter hcadence rfl rfl rfl rfl (.inl rfl) trivial
  case getCadence =>
    obtain rfl : ph = .checked := hop
    rcases r with e | x
    · exact absurd (hanswers rfl) Bool.false_ne_true
    · obtain rfl : x = some n := (getCadence_answer hm).trans h.cadence
      exact h.skip htrace hcounter hcadence rfl rfl rfl rfl (.inl rfl) rfl
  case getCounter =>
    obtain ⟨m, rfl, -⟩ := hop
    rcases r with e | c
    · exact absurd (hanswers rfl) Bool.false_ne_true
    · have hread : m = n ∧ c = w.1.counter := ⟨hknows, getCounter_answer hm⟩
      exact h.skip htrace hcounter hcadence rfl rfl rfl rfl (.inl rfl) hread
  case setCounter m =>
    rcases r with e | u
    · exact absurd (hanswers rfl) Bool.false_ne_true
    have hset : w'.1.counter = m := hcounter
    rcases hop with ⟨k, c, rfl, hlt, rfl⟩ | ⟨rfl, rfl⟩
    · obtain ⟨rfl, rfl⟩ := hknows
      have hpos : w.1.counter + 1 ≠ 0 := by
        have := hfollows.nonneg
        rw [counterIn, if_neg (by simp)] at this
        omega
      have hturn : turnOf ⟨.setCounter (w.1.counter + 1), .ok u⟩ = some .counted := if_neg hpos
      refine h.next htrace hcadence ?_ ?_ (.inl rfl) trivial
      · rw [hturn, hset]
        exact Follows.counted hfollows hlt
      · rw [hturn]
        rfl
    · refine h.next htrace hcadence ?_ rfl (.inl rfl) trivial
      rw [hset]
      exact (List.append_nil (turnsOf w.2)).symm ▸ hfollows
  case reflectNow =>
    obtain ⟨k, c, rfl, hle⟩ := hop
    obtain ⟨rfl, rfl⟩ := hknows
    rcases r with e | u
    · refine h.next htrace hcadence ?_ rfl (.inl rfl) trivial
      rw [hcounter]
      exact Follows.failed hfollows hle
    · exact h.next htrace hcadence (Follows.triggered hfollows hle) rfl (.inl rfl) trivial
  all_goals
    by_cases hheld : ph = .held
    · subst hheld
      rcases r with e | a
      · exact h.skip htrace hcounter hcadence rfl rfl rfl rfl (.inr ⟨nofun, rfl⟩) trivial
      · exact h.skip htrace hcounter hcadence rfl rfl rfl rfl (.inl rfl) trivial
    · rw [nextPhase_of_still (by trivial) hheld]
      exact h.skip htrace hcounter hcadence rfl rfl rfl rfl (.inl rfl) hknows

theorem step_out (hop : allowed .out op) (haccept : isAccepted ⟨op, r⟩ = false)
    (hm : schedulerSem.traced.rel op w r w') (h : Tallied n ph w) :
    nextPhase .out ⟨op, r⟩ = .out ∧ w'.1.running = w.1.running ∧ Tallied n ph w' := by
  obtain ⟨hm, htrace⟩ := hm
  obtain ⟨hcounter, hrunning, hcadence⟩ := world_after hm
  cases op
  case launch dueAt prompt =>
    rcases r with e | (_ | _ | _ | _)
    case ok.accepted => cases haccept
    case ok.rejected => exact absurd hm not_rejected
    all_goals
      refine ⟨rfl, hrunning, ?_⟩
      exact h.skip htrace hcounter hcadence rfl rfl rfl rfl (.inl rfl) h.knows
  case launchNow prompt =>
    rcases r with e | (_ | _ | _ | _)
    case ok.accepted => cases haccept
    case ok.rejected => exact absurd hm not_rejected_now
    all_goals
      refine ⟨rfl, hrunning, ?_⟩
      exact h.skip htrace hcounter hcadence rfl rfl rfl rfl (.inl rfl) h.knows
  case release => rcases hop with hop | hop | hop | hop <;> cases hop
  case cycleRunning => cases hop
  case getCadence => cases hop
  case getCounter => obtain ⟨m, hop, -⟩ := hop; cases hop
  case setCounter m => rcases hop with ⟨k, c, hop, -⟩ | ⟨hop, -⟩ <;> cases hop
  case reflectNow => obtain ⟨k, c, hop, -⟩ := hop; cases hop
  all_goals
    refine ⟨nextPhase_of_still (by trivial) nofun, hrunning, ?_⟩
    exact h.skip htrace hcounter hcadence rfl rfl rfl rfl (.inl rfl) h.knows

theorem flag_kept {running : Bool} {e : SchedulerEvent} (hnext : nextPhase ph e ≠ .out)
    (hflag : running = true) : runningAfter running e = true := by
  obtain ⟨op, r⟩ := e
  cases op
  case launch => rcases r with e | (_ | _ | _ | _) <;> first | rfl | exact hflag
  case launchNow => rcases r with e | (_ | _ | _ | _) <;> first | rfl | exact hflag
  case release => exact absurd (by cases ph <;> rfl) hnext
  all_goals exact hflag

theorem accepted_next {e : SchedulerEvent} (haccept : isAccepted e = true) :
    runningAfter w.1.running e = true := by
  obtain ⟨op, r⟩ := e
  cases op
  case launch => rcases r with e | (_ | _ | _ | _) <;> first | rfl | cases haccept
  case launchNow => rcases r with e | (_ | _ | _ | _) <;> first | rfl | cases haccept
  all_goals cases haccept

end Steps

/-! ## Runs -/

section Runs

variable {n : ℤ} {w w' : TracedWorld} {xs ys ts : List SchedulerThread}

/-- The phases of the calls that are under way with a cycle. -/
def phases (ts : List SchedulerThread) : List Phase :=
  (ts.map fun t => phase t.hist).filter (· ≠ .out)

/-- **The calls take turns**: at most one is under way with a cycle, with the flag up, and the
counter is tallied in its phase. -/
structure Turned (n : ℤ) (w : TracedWorld) (ts : List SchedulerThread) : Prop where
  alone : (phases ts).length ≤ 1
  flag : phases ts ≠ [] → w.1.running = true
  tally : Tallied n ((phases ts).headD .out) w

theorem phases_split (t : SchedulerThread) : phases (xs ++ t :: ys) =
    phases xs ++ ((if phase t.hist = .out then [] else [phase t.hist]) ++ phases ys) := by
  rw [phases, List.map_append, List.filter_append, List.map_cons, List.filter_cons]
  by_cases h : phase t.hist = .out <;> simp [h, phases]

theorem turned_of_alone {t : SchedulerThread} (hxs : phases xs = []) (hys : phases ys = [])
    (hflag : phase t.hist ≠ .out → w.1.running = true) (htally : Tallied n (phase t.hist) w) :
    Turned n w (xs ++ t :: ys) := by
  have hphases : phases (xs ++ t :: ys) =
      if phase t.hist = .out then [] else [phase t.hist] := by
    rw [phases_split, hxs, hys, List.append_nil, List.nil_append]
  by_cases hout : phase t.hist = .out
  · rw [if_pos hout] at hphases
    refine ⟨?_, fun hne => absurd hphases hne, ?_⟩
    · rw [hphases]
      exact Nat.zero_le 1
    · rw [hphases]
      exact hout ▸ htally
  · rw [if_neg hout] at hphases
    refine ⟨?_, fun _ => hflag hout, ?_⟩
    · rw [hphases]
      exact le_rfl
    · rw [hphases]
      exact htally

/-- **A step of a call in turn.** -/
theorem Turned.step (hn : 1 ≤ n) {call : SchedulerCall} {h : List SchedulerEvent}
    {op : SchedulerOp} {k : schedulerSig.Outcome op → Sched Unit} {r : schedulerSig.Outcome op}
    (hw : Turned n w (xs ++ ⟨call, h, .await op k⟩ :: ys)) (hop : phasePre h op)
    (hguard : InTurn w (xs ++ ys) ⟨call, h, .await op k⟩ ⟨op, r⟩)
    (hm : schedulerSem.traced.rel op w r w') :
    Turned n w' (xs ++ ⟨call, h ++ [⟨op, r⟩], k r⟩ :: ys) := by
  obtain ⟨halone, hflag, htally⟩ := hw
  rw [phases_split] at halone hflag htally
  dsimp only at halone hflag htally
  have hrunning := (world_after hm.1).2.1
  by_cases hout : phase h = .out
  · rw [if_pos hout, List.nil_append] at halone hflag htally
    rw [phasePre, hout] at hop
    by_cases haccept : isAccepted ⟨op, r⟩ = true
    · -- nobody else is under way with a cycle
      have hnone : phases xs ++ phases ys = [] := by
        by_contra hne
        rw [hguard.1 haccept] at hflag
        exact Bool.false_ne_true (hflag hne)
      rw [hnone] at htally
      obtain ⟨hxs, hys⟩ := List.append_eq_nil_iff.1 hnone
      refine turned_of_alone hxs hys (fun _ => ?_) ?_
      · rw [hrunning]
        exact accepted_next haccept
      · rw [phase_snoc, hout]
        exact step_tallied hn htally hop hguard.2 hm
    · obtain ⟨hstill, hrun, htally'⟩ :=
        step_out hop (Bool.eq_false_iff.2 haccept) hm htally
      have hphases : phases (xs ++ ⟨call, h ++ [⟨op, r⟩], k r⟩ :: ys) = phases xs ++ phases ys := by
        rw [phases_split]
        dsimp only
        rw [phase_snoc, hout, hstill, if_pos rfl, List.nil_append]
      refine ⟨?_, ?_, ?_⟩
      · rwa [hphases]
      · rw [hphases, hrun]
        exact hflag
      · rwa [hphases]
  · rw [if_neg hout] at halone hflag htally
    have hlen : (phases xs).length = 0 ∧ (phases ys).length = 0 := by
      simp only [List.length_append, List.length_singleton] at halone
      omega
    have hxs := List.length_eq_zero_iff.1 hlen.1
    have hys := List.length_eq_zero_iff.1 hlen.2
    rw [hxs] at htally
    have hup := hflag (by simp)
    refine turned_of_alone hxs hys (fun hnext => ?_) ?_
    · rw [phase_snoc] at hnext
      rw [hrunning]
      exact flag_kept hnext hup
    · rw [phase_snoc]
      exact step_tallied hn htally hop hguard.2 hm

theorem turned_of_run (hn : 1 ≤ n) {v : SchedulerWorld}
    {P : Pool schedulerSig SchedulerCall TracedWorld} (hcadence : v.cadence = some n)
    (hcounter : v.counter = 0) (hr : SchedulerRun InTurn (fromStart v) P) :
    Turned n P.world P.threads := by
  refine reaches_threads reflection_facts (fun w ts call hw => ?_)
    (fun w w' xs ys call h op k r hw hop hguard hm => hw.step hn hop hguard hm) ?_ hr
  · have hphases : phases (ts ++ [⟨call, [], schedulerBody call⟩]) = phases ts := by
      rw [phases_split]
      simp [phases, phase]
    refine ⟨?_, ?_, ?_⟩
    · rw [hphases]
      exact hw.alone
    · rw [hphases]
      exact hw.flag
    · rw [hphases]
      exact hw.tally
  · refine ⟨Nat.zero_le 1, fun hne => absurd rfl hne, hcadence, ?_, rfl, Or.inl rfl, trivial⟩
    show Follows n [] v.counter
    rw [hcounter]
    exact .nil

/-- The reflections that a run has asked for, and was answered. -/
def reflections (events : List SchedulerEvent) : ℕ :=
  events.countP fun e => turnOf e = some .triggered

theorem count_turnsOf (events : List SchedulerEvent) :
    (turnsOf events).count .triggered = reflections events := by
  rw [turnsOf, List.count, List.countP_filterMap, reflections]
  refine List.countP_congr fun e _ => ?_
  cases h : turnOf e <;> simp

/-- **The cadence of the reflections**, in every run whose calls have ended, where no cycle is
started by a call while another is under way with one, and the store answers for the cadence and the
counter. Every automatic cycle is counted whose tick finds no cycle running when it looks; unless an
operation has failed, these are all but those whose tick finds one running. If no reflection throws
there is one after every `n`-th of the counted cycles, and so there are `M / n` of them; and after a
reflection that throws the next counted cycle asks for one again. -/
theorem reflection_cadence (hn : 1 ≤ n) {v : SchedulerWorld}
    {P : Pool schedulerSig SchedulerCall TracedWorld} (hcadence : v.cadence = some n)
    (hcounter : v.counter = 0) (hr : SchedulerRun InTurn (fromStart v) P)
    (hended : ∀ t ∈ P.threads, t.rest.finished = true) :
    (idleChecks P.world.2 + busyChecks P.world.2 = automatic P.world.2 ∨ Broken P.world.2) ∧
    (turnsOf P.world.2).length = idleChecks P.world.2 ∧
    (Turn.failed ∉ turnsOf P.world.2 →
      (reflections P.world.2 : ℤ) = idleChecks P.world.2 / n ∧
      ∀ (k : ℕ) (hk : k < (turnsOf P.world.2).length),
        (turnsOf P.world.2)[k] = .triggered ↔ n ∣ k + 1) ∧
    ∀ turns next later, turnsOf P.world.2 = turns ++ .failed :: next :: later →
      next ≠ .counted := by
  have hturned := turned_of_run hn hcadence hcounter hr
  have hnone : phases P.threads = [] := by
    refine List.filter_eq_nil_iff.2 fun ph hph => ?_
    obtain ⟨t, ht, rfl⟩ := List.mem_map.1 hph
    obtain ⟨r, hout⟩ := wp_finished (hended t ht) (reaches_sound reflection_facts hr t ht).2
    simp [hout]
  have htally := hturned.tally
  rw [hnone] at htally
  have hlen : idleChecks P.world.2 = (turnsOf P.world.2).length := htally.checks
  have hfollows : Follows n (turnsOf P.world.2) P.world.1.counter := htally.follows
  refine ⟨htally.cycles, hlen.symm, fun hfail => ⟨?_, fun k hk => ?_⟩, ?_⟩
  · rw [← count_turnsOf, hlen]
    exact hfollows.count_triggered hn hfail
  · exact hfollows.triggered_iff hn hfail hk
  · intro turns next later hturns
    rw [hturns] at hfollows
    exact hfollows.failed_next

end Runs

/-! ## Two schedules -/

def inTurnCheck : Check schedulerSig SchedulerCall TracedWorld := fun w _ _ e =>
  (!isAccepted e || !w.1.running) && (!onCounter e.1 || e.2.isOk)

theorem inTurn_of_check {w : TracedWorld} {ts : List SchedulerThread} {t : SchedulerThread}
    {e : SchedulerEvent} (h : inTurnCheck w ts t e = true) : InTurn w ts t e := by
  simp only [inTurnCheck, Bool.and_eq_true, Bool.or_eq_true, Bool.not_eq_true'] at h
  refine ⟨fun haccept => ?_, fun hcounter => ?_⟩
  · rcases h.1 with hno | hfree
    · rw [haccept] at hno
      cases hno
    · exact hfree
  · rcases h.2 with hno | hok
    · rw [hcounter] at hno
      cases hno
    · exact hok

/-- A scheduler that is on, and that reflects after every cycle. -/
def everyCycle : SchedulerWorld := { switchedOn with cadence := some 1 }

/-- A schedule of one tick and of the end of its cycle, after some of the awaits of the tick. -/
def oneCycle (before after : ℕ) : Option (Pool schedulerSig SchedulerCall TracedWorld) :=
  let o : SchedulerOracle := { time := 3600000 }
  replay (fun o => Sem.recording (handleScheduler o)) schedulerBody inTurnCheck
    (.start .tick :: List.replicate before (.await 0 o) ++ .start (.cycleEnds true) :: .await 1 o ::
      List.replicate after (.await 0 o)) (fromStart everyCycle)

theorem cycleEnded_isSome : (oneCycle 9 6).isSome := by decide

def cycleEnded : Pool schedulerSig SchedulerCall TracedWorld := (oneCycle 9 6).get cycleEnded_isSome

theorem run_of_oneCycle {before after : ℕ} {P : Pool schedulerSig SchedulerCall TracedWorld}
    (hP : oneCycle before after = some P) : SchedulerRun InTurn (fromStart everyCycle) P :=
  traced_of_replay (fun _ _ _ _ hc => inTurn_of_check hc) hP

/-- One counted cycle, and one reflection. -/
theorem reflection_cadence_cycleEnded :
    (reflections cycleEnded.world.2 : ℤ) = idleChecks cycleEnded.world.2 / 1 ∧
      idleChecks cycleEnded.world.2 = 1 := by
  have hrun := run_of_oneCycle (Option.some_get cycleEnded_isSome).symm
  refine ⟨((reflection_cadence le_rfl rfl rfl hrun ?_).2.2.1 ?_).1, ?_⟩ <;> decide

def isEnd : SchedulerEvent → Bool
  | ⟨.endCycle _, .ok _⟩ => true
  | _ => false

theorem uncounted_run : (oneCycle 11 0).map (fun P => (P.threads.all fun t => t.rest.finished,
    P.world.2.all fun e => e.2.isOk, P.world.2.countP isEnd, automatic P.world.2,
    reflections P.world.2)) = some (true, true, 1, 1, 0) := by decide

/-- **A cycle that still runs when its tick looks is not counted**: of one completed cycle, with a
reflection after every cycle, there is none. -/
theorem running_cycle_uncounted : ¬ ∀ (n : ℤ) (v : SchedulerWorld)
    (P : Pool schedulerSig SchedulerCall TracedWorld), 1 ≤ n → v.cadence = some n → v.counter = 0 →
    SchedulerRun InTurn (fromStart v) P → (∀ t ∈ P.threads, t.rest.finished = true) →
    (∀ e ∈ P.world.2, e.2.isOk = true) → P.world.2.countP isEnd = automatic P.world.2 →
    (reflections P.world.2 : ℤ) = automatic P.world.2 / n := by
  intro hall
  obtain ⟨P, hP, heq⟩ := Option.map_eq_some_iff.1 uncounted_run
  simp only [Prod.mk.injEq] at heq
  obtain ⟨hended, hok, hends, hautomatic, hreflections⟩ := heq
  have hcount := hall 1 everyCycle P le_rfl rfl rfl (run_of_oneCycle hP)
    (List.all_eq_true.1 hended) (List.all_eq_true.1 hok) (by rw [hends, hautomatic])
  rw [hautomatic, hreflections] at hcount
  exact absurd hcount (by decide)

end NeoTrader.Scheduler
