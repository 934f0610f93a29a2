import Mathlib.Data.Int.ConditionallyCompleteOrder
import NeoTrader.Common.Baseline
import NeoTrader.Trade.EntryGate

/-!
# The baselines of the loss breaker

* **`baselines_kept_iff`**: the baselines are kept exactly in the runs in which no call loses one;
  **`baseline_lost`**: the first entry of a day may lose it.
-/

namespace NeoTrader

open Js Await Prog Baseline

/-- The database answers; everything else may fail. -/
def databaseAnswers (o : Oracle) (_ : TradeOp) : Prop := o.dbError = none

/-! ## Evaluations -/

/-- The time and the equity of a gate that could price the account. -/
def PaperWatch.evaluation : PaperWatch → Option (ℤ × ℚ)
  | .gated s quotes now | .quoted s quotes now _ => some (now, equityOf s (viewOf quotes now))
  | _ => none

def evaluation (r : Decided) : Option (ℤ × ℚ) := (watch r.events).evaluation

/-- The gate of the call has reset a baseline, and the quote of the traded symbol is not valid. -/
def LosesBaseline (r : Decided) : Prop :=
  ∃ quotes now, watch r.events = .quoted r.before.account quotes now none ∧
    r.before.account.stale now

/-- The stored baselines are those of the day and the week of the last evaluation. -/
structure BaselinesOf (s : PaperState) (evaluations : List (ℤ × ℚ)) (now : ℤ) : Prop where
  dayKey : s.dayKey = some (dayKey now)
  weekKey : s.weekKey = some (weekKey now)
  dayStartEquity : s.dayStartEquity = firstIn NeoTrader.dayKey now evaluations
  weekStartEquity : s.weekStartEquity = firstIn NeoTrader.weekKey now evaluations

/-- **The baselines are kept**: after each evaluation the stored ones are those of its day and its
week, of which they are the first equity. -/
def BaselinesKept (l : List Decided) : Prop :=
  ∀ l₁ r, l₁ ++ [r] <+: l → ∀ now equity, evaluation r = some (now, equity) →
    BaselinesOf r.after.account ((l₁ ++ [r]).filterMap evaluation) now

/-! ## One call -/

/-- The baselines of a day and of a week. -/
def PaperState.periods (s : PaperState) : (Option ℤ × Option ℚ) × (Option ℤ × Option ℚ) :=
  ((s.dayKey, s.dayStartEquity), (s.weekKey, s.weekStartEquity))

section Step

variable {s : PaperState} {policy : RiskPolicy} {v : GateView} {r : Decided}

theorem periods_gateOf :
    (gateOf s policy v).state.periods = (s.rolled (equityOf s v) v.now).periods := by
  rcases (gateOf_state : (gateOf s policy v).state = _ ∨ _) with h | h <;> rw [h]
  rfl

theorem periods_rolled_of_not_stale {equity : ℚ} {now : ℤ} (h : ¬ s.stale now) :
    (s.rolled equity now).periods = s.periods := by
  have hkeys : s.dayKey = some (dayKey now) ∧ s.weekKey = some (weekKey now) := by
    simpa [PaperState.stale] using h
  simp [PaperState.periods, PaperState.rolled, PaperState.dayStart, PaperState.weekStart,
    hkeys.1, hkeys.2]

theorem periods_fill (c : FillCall) (s : PaperState) : (c.fill s).newState.periods = s.periods := by
  have h := revalued_fill c s
  rw [PaperState.periods, h.dayKey, h.dayStartEquity, h.weekKey, h.weekStartEquity]
  rfl

theorem periods_write (f : PaperFill) (s : PaperState) :
    (PaperWrite.apply s (.fill f)).periods = (f.gated s).periods := periods_fill f.call (f.gated s)

theorem Stores.answered {w w' : World} {write : PaperWrite}
    (h : Stores databaseAnswers w w' write) : w'.account = write.apply w.account := by
  rcases h with ⟨haccount, -⟩ | ⟨-, o, op, ho, hfails⟩
  · exact haccount
  · exact absurd ho hfails

theorem periods_of_quiet (hr : r.Ran (meeting databaseAnswers) DecisionCall.body)
    (h : evaluation r = none) : r.after.account.periods = r.before.account.periods := by
  have hsettled := settled_of_ran hr
  unfold evaluation at h
  cases hwatch : watch r.events with
  | gated s quotes now =>
    rw [hwatch] at h
    cases h
  | quoted s quotes now price =>
    rw [hwatch] at h
    cases h
  | idle =>
    rw [hwatch] at hsettled
    rw [SameAccount.account hsettled]
  | elsewhere =>
    rw [hwatch] at hsettled
    rw [SameAccount.account hsettled]
  | priced s quotes =>
    rw [hwatch] at hsettled
    obtain ⟨-, t, -, ⟨-, -, hsame⟩ | ⟨-, price, -, -, hstores⟩⟩ := hsettled
    · rw [hsame.account]
    · rw [hstores.answered]
      exact periods_write _ _

/-- **A call with an evaluation stores its baselines**, unless it loses one. -/
theorem periods_of_evaluated (hr : r.Ran (meeting databaseAnswers) DecisionCall.body) {now : ℤ}
    {equity : ℚ} (h : evaluation r = some (now, equity)) (hkept : ¬ LosesBaseline r) :
    r.after.account.periods = (r.before.account.rolled equity now).periods := by
  have hsettled := settled_of_ran hr
  unfold evaluation at h
  cases hwatch : watch r.events with
  | idle | elsewhere | priced s quotes =>
    rw [hwatch] at h
    cases h
  | gated s quotes now' =>
    rw [hwatch] at h hsettled
    cases h
    obtain ⟨rfl, -, -, hrefuses⟩ := hsettled
    unfold Refuses at hrefuses
    rw [gateOf_baselineChanged, viewOf_now] at hrefuses
    by_cases hstale : r.before.account.stale now
    · rw [if_pos hstale] at hrefuses
      rw [hrefuses.answered]
      exact periods_gateOf
    · rw [if_neg hstale] at hrefuses
      rw [hrefuses.account, periods_rolled_of_not_stale hstale]
  | quoted s quotes now' price =>
    rw [hwatch] at h hsettled
    cases h
    obtain ⟨rfl, -, -, t, -, -, hfills⟩ := hsettled
    cases price with
    | none =>
      have hstale : ¬ r.before.account.stale now := fun hstale => hkept ⟨quotes, now, hwatch, hstale⟩
      rw [SameAccount.account hfills, periods_rolled_of_not_stale hstale]
    | some price =>
      rw [hfills.2.answered]
      exact (periods_write _ _).trans periods_gateOf

/-- **A call that loses a baseline** has an evaluation, and the account stays as it was. -/
theorem account_of_lost (hr : r.Ran (meeting databaseAnswers) DecisionCall.body)
    (h : LosesBaseline r) : r.after.account = r.before.account ∧
      ∃ now equity, evaluation r = some (now, equity) ∧ r.before.account.stale now := by
  obtain ⟨quotes, now, hwatch, hstale⟩ := h
  have hsettled := settled_of_ran hr
  rw [hwatch] at hsettled
  obtain ⟨-, -, -, t, -, -, hsame⟩ := hsettled
  refine ⟨SameAccount.account hsame, now, equityOf r.before.account (viewOf quotes now), ?_, hstale⟩
  rw [evaluation, hwatch]
  rfl

end Step

/-! ## Runs -/

theorem monotone_dayKey : Monotone dayKey := by
  intro a b h
  unfold dayKey
  omega

theorem monotone_weekKey : Monotone weekKey := by
  intro a b h
  have hday := monotone_dayKey h
  unfold weekKey
  omega

/-- A stored key and equity are those of a baseline. -/
def Remembers (p : Option ℤ × Option ℚ) (b : Option (ℤ × ℚ)) : Prop :=
  p.1 = b.map Prod.fst ∧ ∀ x, b = some x → p.2 = some x.2

theorem Remembers.roll {key : ℤ → ℤ} {p : Option ℤ × Option ℚ} {b : Option (ℤ × ℚ)}
    (h : Remembers p b) (x : ℤ × ℚ) :
    Remembers (some (key x.1), if p.1 = some (key x.1) then p.2 else some x.2)
      (some (Baseline.roll key b x)) := by
  obtain ⟨hkey, hvalue⟩ := h
  cases b with
  | none =>
    rw [hkey]
    exact ⟨rfl, fun y hy => by cases hy; rfl⟩
  | some y =>
    rw [hkey]
    by_cases hsame : y.1 = key x.1
    · simp [Remembers, Baseline.roll, hsame, hvalue y rfl]
    · simp [Remembers, Baseline.roll, hsame]

/-- The stored baselines are those of the evaluations. -/
structure Remembered (s : PaperState) (evaluations : List (ℤ × ℚ)) : Prop where
  day : Remembers s.periods.1 (baseline dayKey evaluations)
  week : Remembers s.periods.2 (baseline weekKey evaluations)

section Run

variable {w w' : World} {l : List Decided}

/-- **The stored baselines follow the evaluations** as long as no call loses one. -/
theorem remembered_of_run (hday : w.account.dayKey = none) (hweek : w.account.weekKey = none)
    (hrun : Journal (meeting databaseAnswers) DecisionCall.body w l w')
    (hkept : ∀ r ∈ l, ¬ LosesBaseline r) : Remembered w'.account (l.filterMap evaluation) := by
  induction hrun with
  | nil => exact ⟨⟨hday, nofun⟩, ⟨hweek, nofun⟩⟩
  | @snoc l r hrun hr ih =>
    have ih := ih fun r' hr' => hkept r' (List.mem_append_left _ hr')
    have hlast : ¬ LosesBaseline r := hkept r (by simp)
    rw [List.filterMap_append]
    cases heval : evaluation r with
    | none =>
      have hperiods := periods_of_quiet hr heval
      rw [List.filterMap_cons_none heval, List.filterMap_nil, List.append_nil]
      constructor <;> rw [hperiods]
      · exact ih.day
      · exact ih.week
    | some x =>
      have hperiods := periods_of_evaluated hr heval hlast
      rw [List.filterMap_cons_some heval, List.filterMap_nil]
      constructor <;> rw [hperiods, baseline_snoc]
      · exact ih.day.roll x
      · exact ih.week.roll x

theorem Remembers.first {key : ℤ → ℤ} (hkey : Monotone key) {p : Option ℤ × Option ℚ}
    {evaluations : List (ℤ × ℚ)} {x : ℤ × ℚ}
    (hsorted : (evaluations ++ [x]).Pairwise fun a b => a.1 ≤ b.1)
    (h : Remembers p (baseline key (evaluations ++ [x]))) :
    p.1 = some (key x.1) ∧ p.2 = firstIn key x.1 (evaluations ++ [x]) := by
  rw [baseline_concat hkey hsorted] at h
  have hsome : (firstIn key x.1 (evaluations ++ [x])).isSome := by
    rw [firstIn, Option.isSome_map, List.find?_isSome]
    exact ⟨x, by simp, by simp⟩
  obtain ⟨v, hv⟩ := Option.isSome_iff_exists.1 hsome
  rw [hv] at h ⊢
  exact ⟨h.1, h.2 _ rfl⟩

/-- **The baselines of the loss breaker.** In every run of decisions, one after the other at times in
order, that starts without baselines, they are kept if and only if no call loses one: its gate has
passed at the first evaluation of a day or a week, and then there is no valid quote to fill it at. -/
theorem baselines_kept_iff (hday : w.account.dayKey = none) (hweek : w.account.weekKey = none)
    (hrun : Journal (meeting databaseAnswers) DecisionCall.body w l w')
    (hsorted : (l.filterMap evaluation).Pairwise fun a b => a.1 ≤ b.1) :
    BaselinesKept l ↔ ∀ r ∈ l, ¬ LosesBaseline r := by
  constructor
  · intro hkept r hr hlost
    obtain ⟨l₁, l₂, rfl⟩ := List.append_of_mem hr
    have hupTo : l₁ ++ [r] <+: l₁ ++ r :: l₂ := ⟨l₂, by simp⟩
    obtain ⟨haccount, now, equity, heval, hstale⟩ := account_of_lost (hrun.ran hr) hlost
    have hbaselines := hkept l₁ r hupTo now equity heval
    have hdayKey := hbaselines.dayKey
    have hweekKey := hbaselines.weekKey
    rw [haccount] at hdayKey hweekKey
    simp [PaperState.stale, hdayKey, hweekKey] at hstale
  · intro hlost l₁ r hupTo now equity heval
    have hremembered := remembered_of_run hday hweek (hrun.upTo hupTo)
      fun r' hr' => hlost r' (hupTo.subset hr')
    have hsorted' := hsorted.sublist (hupTo.sublist.filterMap evaluation)
    have hevals : (l₁ ++ [r]).filterMap evaluation =
        l₁.filterMap evaluation ++ [(now, equity)] := by
      rw [List.filterMap_append, List.filterMap_cons_some heval, List.filterMap_nil]
    rw [hevals] at hremembered hsorted' ⊢
    obtain ⟨hdayKey, hdayStart⟩ := hremembered.day.first monotone_dayKey hsorted'
    obtain ⟨hweekKey, hweekStart⟩ := hremembered.week.first monotone_weekKey hsorted'
    exact ⟨hdayKey, hweekKey, hdayStart, hweekStart⟩

end Run

theorem journal_answered {requests : List (DecisionCall × Oracle)} {w w' : World}
    {l : List Decided} (hA : ∀ r ∈ requests, r.2.dbError = none)
    (h : journal handle DecisionCall.body requests w = some (l, w')) :
    Journal (meeting databaseAnswers) DecisionCall.body w l w' := by
  refine journal_of_run (A := fun o => o.dbError = none) (fun o op w ho => ?_) hA h
  exact ⟨o, ho, rfl⟩

theorem enteredAndLeft_sorted :
    ((enteredAndLeft.get enteredAndLeft_isSome).1.filterMap evaluation).Pairwise
      fun a b => a.1 ≤ b.1 := by
  decide +kernel

theorem baselines_kept_enteredAndLeft :
    BaselinesKept (enteredAndLeft.get enteredAndLeft_isSome).1 ↔
      ∀ r ∈ (enteredAndLeft.get enteredAndLeft_isSome).1, ¬ LosesBaseline r :=
  baselines_kept_iff (w := longAndExit) rfl rfl
    (journal_answered (by simp [sampleOracle]) (Option.some_get enteredAndLeft_isSome).symm)
    enteredAndLeft_sorted

def unquoted : Option (List Decided × World) :=
  journal handle DecisionCall.body [(.autoProcess "intent-1", {})]
    { kv := fun _ => none, intents := [sampleIntent "intent-1" "SPY" .long] }

theorem unquoted_baselines : (unquoted.map fun x => x.1.map fun r =>
    (evaluation r, r.after.account.dayKey)) = some [(some (0, 10000), none)] := by
  decide +kernel

/-- **The baseline of a day can be lost.** The gate passes, and there is no quote to fill the entry
at. -/
theorem baseline_lost : ¬ ∀ (w w' : World) (l : List Decided),
    w.account.dayKey = none → w.account.weekKey = none →
    Journal (meeting databaseAnswers) DecisionCall.body w l w' →
    ((l.filterMap evaluation).Pairwise fun a b => a.1 ≤ b.1) → BaselinesKept l := by
  intro hall
  obtain ⟨⟨l, w'⟩, hrun, heq⟩ := Option.map_eq_some_iff.1 unquoted_baselines
  obtain ⟨r, rfl, hr⟩ : ∃ r, l = [r] ∧
      (evaluation r, r.after.account.dayKey) = (some (0, 10000), none) := by
    obtain ⟨r, l', rfl, hr, hl'⟩ := List.map_eq_cons_iff.1 heq
    exact ⟨r, by rw [List.map_eq_nil_iff.1 hl'], hr⟩
  obtain ⟨heval, hday⟩ := Prod.mk.inj hr
  have hjournal := journal_answered (by simp) hrun
  have hkept := hall _ w' [r] rfl rfl hjournal (by simp [heval])
  have hbaselines := hkept [] r (List.prefix_refl _) 0 10000 heval
  have hkey := hbaselines.dayKey
  rw [hday] at hkey
  cases hkey

end NeoTrader
