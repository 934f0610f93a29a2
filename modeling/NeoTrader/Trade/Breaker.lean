import Mathlib.Data.List.ReduceOption
import NeoTrader.Trade.BreakerTick

/-!
# The circuit breaker of the reconciliation

Ticks run one after the other. What a tick attempts, and whether the breaker is open after it, is
read off the attempts of all ticks before: their outcomes, and the times of the failures.

* **`circuit_breaker`**: every tick does so, in every run in which the breaker can be read and
  written;
* **`unreadable_breaker`**: a tick that cannot read the breaker counts from the start.
-/

namespace NeoTrader.Breaker

open Js Await Prog SlidingWindow

/-! ## The runs -/

/-- **The persisted breaker counts the failures since the last success.** -/
structure Represents (past : List (Mark ℤ)) (cb : ReconciliationCircuitBreakerState) : Prop where
  failures : cb.consecutiveFailures = (streak past).length
  state : cb.state = if cbMaxFailures ≤ (streak past).length then .opened else .closed
  failedAt : cb.lastFailureAt = (times past).getLast?

theorem represents_nil : Represents [] closedCb := ⟨rfl, rfl, rfl⟩

variable {cb : ReconciliationCircuitBreakerState}

section Represents

variable {past : List (Mark ℤ)} {w w' : TickWorld} {part : List (Event tickSig)}
  {m : Option (Mark ℤ)}

theorem Represents.opens_iff (h : Represents past cb) :
    opens cb = true ↔ cbMaxFailures ≤ (streak past).length + 1 := by
  rw [opens, decide_eq_true_eq, h.failures, h.state]
  split_ifs with h3
  · exact ⟨fun _ => by omega, .inl⟩
  · simp

/-- **One tick keeps the count.** -/
theorem represents_step (h : Represents past (readCb w.breaker))
    (hstep : BreakerStep (readCb w.breaker) w w' part m) :
    Represents (past ++ m.toList) (readCb w'.breaker) := by
  cases hstep with
  | waits isOpen time cooling same quiet =>
    rw [Option.toList_none, List.append_nil, same]
    exact h
  | success due saved quiet =>
    rw [saved, readCb_some, Option.toList_some]
    refine ⟨?_, ?_, ?_⟩
    · simp
    · simp [cbMaxFailures]
    · simp [h.failedAt]
  | @failure t reason due saved loud =>
    rw [saved, readCb_some, Option.toList_some]
    refine ⟨?_, ?_, ?_⟩
    · simp [h.failures]
    · simp [h.opens_iff]
    · simp

theorem Represents.isOpen_iff (h : Represents past (readCb w.breaker)) :
    IsOpen w ↔ cbMaxFailures ≤ (streak past).length := by
  rw [IsOpen, h.state]
  split_ifs with h3 <;> simp [h3]

theorem exists_failedAt (h3 : cbMaxFailures ≤ (streak past).length) :
    ∃ t, (times past).getLast? = some t := by
  have hne : times past ≠ [] := by
    intro hnil
    have hlen := (streak_sublist past).length_le
    rw [hnil, List.length_nil] at hlen
    exact absurd (h3.trans hlen) (by decide)
  exact ⟨_, List.getLast?_eq_some_getLast hne⟩

theorem Represents.cooling_iff (h : Represents past cb) {now : ℤ}
    (h3 : cbMaxFailures ≤ (streak past).length) : coolingDown cb now = true ↔
      ∃ failedAt, (times past).getLast? = some failedAt ∧ now < failedAt + cbHalfOpenMs := by
  obtain ⟨t, ht⟩ := exists_failedAt h3
  rw [coolingDown, decide_eq_true_eq, h.failedAt, ht]
  simp

end Represents

def ThreeFailed (attempts : List (Mark ℤ)) : Prop :=
  ∃ before t₁ t₂ t₃, attempts = before ++ [.hit t₁, .hit t₂, .hit t₃]

theorem threeFailed_iff {attempts : List (Mark ℤ)} :
    ThreeFailed attempts ↔ cbMaxFailures ≤ (streak attempts).length := by
  rw [le_length_streak_iff]
  constructor
  · rintro ⟨before, t₁, t₂, t₃, rfl⟩
    exact ⟨before, [t₁, t₂, t₃], rfl, rfl⟩
  · rintro ⟨before, ts, rfl, hts⟩
    obtain ⟨t₁, t₂, t₃, rfl⟩ := List.length_eq_three.1 hts
    exact ⟨before, t₁, t₂, t₃, rfl⟩

/-- **What a tick does after the attempts of the past.** -/
structure AsSpecified (past : List (Mark ℤ)) (attempt : Option (Mark ℤ)) (r : TickRun) : Prop where
  /-- It reconciles unless the breaker is open and less than the cooldown has passed since the last
  failure. -/
  waits : attempt = none ↔ IsOpen r.before ∧ ∃ now failedAt, (clocks r.events).head? = some now ∧
    (times past).getLast? = some failedAt ∧ now < failedAt + cbHalfOpenMs
  /-- The breaker is open after it exactly where the last three attempts have failed. -/
  isOpen : IsOpen r.after ↔ ThreeFailed (past ++ attempt.toList)
  /-- A failed probe leaves it open. -/
  reopens : IsOpen r.before → (∃ t, attempt = some (.hit t)) → IsOpen r.after
  /-- A failure that opens it, or opens it again, raises each alarm once. -/
  alarm : (∃ t, attempt = some (.hit t)) → IsOpen r.after → halts r.events = 1 ∧ alerts r.events = 1
  /-- Nothing else raises one. -/
  quiet : ((∃ t, attempt = some (.hit t)) → ¬ IsOpen r.after) →
    halts r.events = 0 ∧ alerts r.events = 0
  /-- A success resets the count. -/
  resets : attempt = some .reset → (readCb r.after.breaker).consecutiveFailures = 0

theorem asSpecified {past : List (Mark ℤ)} {m : Option (Mark ℤ)} {r : TickRun}
    (h : Represents past (readCb r.before.breaker))
    (hstep : BreakerStep (readCb r.before.breaker) r.before r.after (watched r.events) m) :
    AsSpecified past m r := by
  have hafter := represents_step h hstep
  have hthree : IsOpen r.after ↔ ThreeFailed (past ++ m.toList) :=
    hafter.isOpen_iff.trans threeFailed_iff.symm
  have hdue (now' : ∃ now, (clocks r.events).head? = some now ∧ ∃ t,
      (times past).getLast? = some t ∧ now < t + cbHalfOpenMs) (hopen : IsOpen r.before)
      (due : (readCb r.before.breaker).state = .opened → ∃ now,
        ((watched r.events).filterMap clock).head? = some now ∧
          coolingDown (readCb r.before.breaker) now = false) : False := by
    obtain ⟨now, hnow, hlast⟩ := now'
    obtain ⟨now₁, hnow₁, hwarm⟩ := due hopen
    obtain rfl : now = now₁ := Option.some.inj (hnow.symm.trans hnow₁)
    rw [(h.cooling_iff (h.isOpen_iff.1 hopen)).2 hlast] at hwarm
    cases hwarm
  cases hstep with
  | @waits now isOpen time cooling same quiet =>
    refine ⟨⟨fun _ => ⟨isOpen, now, ?_⟩, fun _ => rfl⟩, hthree, ?_, ?_, fun _ => quiet, nofun⟩
    · obtain ⟨t, ht, hlt⟩ := (h.cooling_iff (h.isOpen_iff.1 isOpen)).1 cooling
      exact ⟨t, time, ht, hlt⟩
    · rintro - ⟨_, ⟨⟩⟩
    · rintro ⟨_, ⟨⟩⟩
  | success due saved quiet =>
    refine ⟨⟨nofun, ?_⟩, hthree, ?_, ?_, fun _ => quiet, fun _ => ?_⟩
    · rintro ⟨hopen, now, t, hnow, hlast⟩
      exact (hdue ⟨now, hnow, t, hlast⟩ hopen due).elim
    · rintro - ⟨_, ⟨⟩⟩
    · rintro ⟨_, ⟨⟩⟩
    · rw [saved, readCb_some]
  | @failure t reason due saved loud =>
    have hopens : IsOpen r.after ↔ opens (readCb r.before.breaker) = true := by
      rw [IsOpen, saved, readCb_some]
      split_ifs with ho <;> simp [ho]
    refine ⟨⟨nofun, ?_⟩, hthree, fun hopen _ => ?_, fun _ hopen => ?_, fun hclosed => ?_, nofun⟩
    · rintro ⟨hopen, now, t, hnow, hlast⟩
      exact (hdue ⟨now, hnow, t, hlast⟩ hopen due).elim
    · rw [hopens, h.opens_iff]
      exact (h.isOpen_iff.1 hopen).trans (Nat.le_succ _)
    · rw [if_pos (hopens.1 hopen)] at loud
      exact loud
    · rw [if_neg fun ho => hclosed ⟨t, rfl⟩ (hopens.2 ho)] at loud
      exact loud

abbrev Attempts (l : List TickRun) (attempts : List (Option (Mark ℤ))) : Prop :=
  List.Forall₂ (fun r m => Tried r.events m) l attempts

/-- What holds between two ticks of a run. -/
structure Between (l : List TickRun) (w : TickWorld) : Prop where
  flag : w.tickRunning = false
  counted : ∃ attempts, Attempts l attempts ∧ Represents attempts.reduceOption (readCb w.breaker)

/-- **Every run of ticks** is represented. -/
theorem between_run {w w' : TickWorld} {l : List TickRun} (hw : Between [] w)
    (hrun : Journal tickSem (fun _ => tick) w l w') (hans : ∀ r ∈ l, Answered r.events) :
    Between l w' := by
  induction hrun with
  | nil => exact hw
  | @snoc l r hrun hran ih =>
    have hbefore := ih fun r hr => hans r (List.mem_append_left _ hr)
    obtain ⟨attempts, hattempts, hrep⟩ := hbefore.counted
    obtain ⟨m, htried, hdone⟩ := (tick_yields hbefore.flag).exec hran
      (hans r (List.mem_append_right _ (List.mem_singleton_self r)))
    refine ⟨hdone.flag, attempts ++ [m], List.rel_append hattempts (.cons htried .nil), ?_⟩
    rw [List.reduceOption_append, List.reduceOption_singleton]
    exact represents_step hrep hdone.step

theorem Attempts.unique {l : List TickRun} {attempts attempts' : List (Option (Mark ℤ))}
    (h : Attempts l attempts) (h' : Attempts l attempts') : attempts' = attempts := by
  induction h generalizing attempts' with
  | nil =>
    cases h'
    rfl
  | cons hm _ ih =>
    cases h' with
    | cons hm' h' => rw [hm.unique hm', ih h']

/-- **The circuit breaker of the reconciliation.** In every run of ticks, one after the other, from
a breaker that was never saved, in which the persisted breaker can be read and written: each tick
has tried to reconcile or not, with a success or a failure, and does as specified by the attempts
before it. -/
theorem circuit_breaker {w w' : TickWorld} {l : List TickRun} {r : TickRun}
    (hbreaker : w.breaker = none) (hflag : w.tickRunning = false)
    (hrun : Journal tickSem (fun _ => tick) w (l ++ [r]) w')
    (hans : ∀ v ∈ l ++ [r], Answered v.events) :
    ∃ attempts m, (∀ attempts', Attempts l attempts' ↔ attempts' = attempts) ∧
      (∀ m', Tried r.events m' ↔ m' = m) ∧ AsSpecified attempts.reduceOption m r := by
  have hstart : Between [] w := by
    refine ⟨hflag, [], .nil, ?_⟩
    rw [hbreaker]
    exact represents_nil
  obtain ⟨hbefore, hran⟩ := hrun.split rfl
  have hbetween := between_run hstart hbefore fun v hv => hans v (List.mem_append_left _ hv)
  obtain ⟨attempts, hattempts, hrep⟩ := hbetween.counted
  obtain ⟨m, htried, hdone⟩ := (tick_yields hbetween.flag).exec hran
    (hans r (List.mem_append_right _ (List.mem_singleton_self r)))
  refine ⟨attempts, m, fun as => ⟨fun has => hattempts.unique has, ?_⟩,
    fun m' => ⟨fun hm' => hm'.unique htried, ?_⟩, asSpecified hrep hdone.step⟩
  · rintro rfl
    exact hattempts
  · rintro rfl
    exact htried

/-! ## Three failures -/

/-- A tick at this time that cannot read the orders, nor the breaker if it is not `readable`. -/
def failing (time : ℤ) (readable : Bool) : TickOp → TickInput
  | .reconcile _ => { oracle := { dbError := some (err []) } }
  | .breakerGet => { oracle := { dbError := if readable then none else some (err []) } }
  | _ => { oracle := { time } }

/-- Three ticks that fail, a minute after each other. -/
def failingTicks (readable : Bool) : Option (List TickRun × TickWorld) :=
  journal (fun f op => tickHandle (f op) op) (fun _ => tick)
    [((), failing 0 true), ((), failing 60000 true), ((), failing 120000 readable)] idleService

/-- The tick has reconciled, and has not read the open orders. -/
def hasFailed (r : TickRun) : Bool :=
  !(reconciliation r.events).isEmpty && (reconciliation r.events).all fun e =>
    match e with
    | ⟨.orderFindMany _, .ok _⟩ => false
    | _ => true

theorem exists_of_hasFailed {r : TickRun} {m : Option (Mark ℤ)} (hr : hasFailed r = true)
    (hm : Tried r.events m) : ∃ t, m = some (.hit t) := by
  rw [hasFailed, Bool.and_eq_true] at hr
  cases hm with
  | nothing idle => simp [idle] at hr
  | success ran =>
    obtain ⟨rows, hrows⟩ := reads_of_success ran
    exact absurd (List.all_eq_true.1 hr.2 _ hrows) Bool.false_ne_true
  | failure ran time => exact ⟨_, rfl⟩

theorem failingTicks_run (readable : Bool) {p : List TickRun → Bool}
    (h : (failingTicks readable).any fun x => x.1.length = 3 && x.1.all hasFailed && p x.1) :
    ∃ r₁ r₂ r₃ w', Journal tickSem (fun _ => tick) idleService ([r₁, r₂] ++ [r₃]) w' ∧
      hasFailed r₁ = true ∧ hasFailed r₂ = true ∧ hasFailed r₃ = true ∧
      p [r₁, r₂, r₃] = true := by
  obtain ⟨⟨l, w'⟩, hl, hx⟩ := (Option.any_eq_true _ _).1 h
  simp only [Bool.and_eq_true, decide_eq_true_eq] at hx
  obtain ⟨⟨hlen, hfailed⟩, hp⟩ := hx
  obtain ⟨r₁, r₂, r₃, rfl⟩ := List.length_eq_three.1 hlen
  have hrun : Journal tickSem (fun _ => tick) idleService [r₁, r₂, r₃] w' :=
    journal_of_run (A := fun _ => True) (fun f op w _ => ⟨f op, trivial, rfl⟩)
      (fun _ _ => trivial) hl
  simp only [List.all_cons, List.all_nil, Bool.and_true, Bool.and_eq_true] at hfailed
  exact ⟨r₁, r₂, r₃, w', hrun, hfailed.1, hfailed.2.1, hfailed.2.2, hp⟩

/-- The third failure opens the breaker. -/
theorem failingTicks_open : ∃ r₁ r₂ r₃ w',
    Journal tickSem (fun _ => tick) idleService ([r₁, r₂] ++ [r₃]) w' ∧ IsOpen r₃.after ∧
      ∃ attempts m, (∀ attempts', Attempts [r₁, r₂] attempts' ↔ attempts' = attempts) ∧
        (∀ m', Tried r₃.events m' ↔ m' = m) ∧ AsSpecified attempts.reduceOption m r₃ := by
  obtain ⟨r₁, r₂, r₃, w', hrun, -, -, -, hp⟩ := failingTicks_run true
    (p := fun l => (l.all fun r => r.events.all answered) && l.getLast?.all fun r => IsOpen r.after)
    (by decide)
  rw [Bool.and_eq_true, List.all_eq_true] at hp
  refine ⟨r₁, r₂, r₃, w', hrun, of_decide_eq_true hp.2, ?_⟩
  exact circuit_breaker rfl rfl hrun fun v hv e he => List.all_eq_true.1 (hp.1 v hv) e he

/-- **A breaker that cannot be read counts from the start**: after three failures it is closed. -/
theorem unreadable_breaker : ¬ ∀ (w w' : TickWorld) (l : List TickRun) (r : TickRun),
    w.breaker = none → w.tickRunning = false →
    Journal tickSem (fun _ => tick) w (l ++ [r]) w' →
    ∃ attempts m, (∀ attempts', Attempts l attempts' ↔ attempts' = attempts) ∧
      (∀ m', Tried r.events m' ↔ m' = m) ∧ AsSpecified attempts.reduceOption m r := by
  intro hall
  obtain ⟨r₁, r₂, r₃, w', hrun, h₁, h₂, h₃, hp⟩ := failingTicks_run false
    (p := fun l => l.getLast?.all fun r => ¬ IsOpen r.after) (by decide)
  obtain ⟨attempts, m, hattempts, hm, hspec⟩ := hall idleService w' [r₁, r₂] r₃ rfl rfl hrun
  obtain ⟨t₃, rfl⟩ := exists_of_hasFailed h₃ ((hm m).2 rfl)
  cases (hattempts attempts).2 rfl with
  | cons htried₁ hrest =>
    cases hrest with
    | cons htried₂ hrest =>
      cases hrest
      obtain ⟨t₁, rfl⟩ := exists_of_hasFailed h₁ htried₁
      obtain ⟨t₂, rfl⟩ := exists_of_hasFailed h₂ htried₂
      exact of_decide_eq_true hp (hspec.isOpen.2 ⟨[], t₁, t₂, t₃, rfl⟩)

end NeoTrader.Breaker
