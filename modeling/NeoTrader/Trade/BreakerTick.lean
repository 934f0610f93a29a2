import NeoTrader.Await.Session
import NeoTrader.Await.Yields
import NeoTrader.Common.SlidingWindow
import NeoTrader.Trade.Tick

/-!
# What one tick does to the circuit breaker

A tick waits while the breaker is cooling down. Otherwise it reconciles, saves the outcome, and
raises the alarm where the breaker opens.

* **`tick_yields`**: what a tick has tried, and what it has done to the breaker.
-/

namespace NeoTrader.Breaker

open Js Await Prog SlidingWindow

/-! ## What a tick has awaited -/

abbrev TickRun : Type := Handled tickSig TickWorld Unit Unit

/-- The awaits of `reconcileAllOpenOrders`. -/
def reconciliation (h : List (Event tickSig)) : List (Event tradeSig) := h.filterMap fun e =>
  match e with
  | ⟨.reconcile op, r⟩ => some ⟨op, r⟩
  | _ => none

/-- The test of the overlap flag. -/
def isTest : Event tickSig → Bool
  | ⟨.tickRunningGet, _⟩ => true
  | _ => false

/-- The events from the test of the flag on: the portfolio sync comes before. -/
def watched (h : List (Event tickSig)) : List (Event tickSig) := h.dropWhile fun e => !isTest e

def clock : Event tickSig → Option ℤ
  | ⟨.own .now, .ok now⟩ => some now
  | _ => none

/-- The kill-switch is tripped. -/
def isHalt : Event tickSig → Bool
  | ⟨.own (.kvSet key _), _⟩ => key = realExecutionHaltedKey
  | _ => false

def isAlert : Event tickSig → Bool
  | ⟨.own (.alertsCreate alert), _⟩ => alert.type = "RECONCILIATION_HALTED"
  | _ => false

/-- The times of a tick, from its test of the flag on. -/
def clocks (h : List (Event tickSig)) : List ℤ := (watched h).filterMap clock

/-- How often the breaker trips the kill-switch. -/
def halts (h : List (Event tickSig)) : ℕ := (watched h).countP isHalt

/-- How often the breaker alerts the operator. -/
def alerts (h : List (Event tickSig)) : ℕ := (watched h).countP isAlert

/-- No read or write of the persisted breaker has failed here. -/
def answered : Event tickSig → Bool
  | ⟨.breakerGet, .error _⟩ | ⟨.breakerSet _, .error _⟩ => false
  | _ => true

/-- The persisted breaker was read and written. -/
abbrev Answered (h : List (Event tickSig)) : Prop := ∀ e ∈ h, answered e = true

theorem reconciliation_append (h h' : List (Event tickSig)) :
    reconciliation (h ++ h') = reconciliation h ++ reconciliation h' := List.filterMap_append

/-- **What a tick has tried**: nothing, a reconciliation that succeeded, or one that failed, with
the time of the failure. -/
inductive Tried (h : List (Event tickSig)) : Option (Mark ℤ) → Prop
  | nothing (idle : reconciliation h = []) : Tried h none
  | success (ran : reconcileAllOpenOrders.Exec (histSem tradeSig) [] (.ok ()) (reconciliation h)) :
      Tried h (some .reset)
  | failure {e : Err} {t : ℤ}
      (ran : reconcileAllOpenOrders.Exec (histSem tradeSig) [] (.error e) (reconciliation h))
      (time : (clocks h).getLast? = some t) : Tried h (some (.hit t))

theorem reconciliation_ne_nil {h : List (Event tickSig)} {x : Except Err Unit}
    (hx : reconcileAllOpenOrders.Exec (histSem tradeSig) [] x (reconciliation h)) :
    reconciliation h ≠ [] := by
  intro hnil
  rw [hnil] at hx
  obtain ⟨op, k, hawait⟩ : ∃ op k, reconcileAllOpenOrders = .await op k := ⟨_, _, rfl⟩
  rw [hawait] at hx
  cases hx with
  | await hr hk =>
    rw [show _ = _ from hr] at hk
    exact absurd (List.prefix_nil.1 hk.hist_prefix) (by simp)

/-- **The events of a tick determine what it has tried.** -/
theorem Tried.unique {h : List (Event tickSig)} {m m' : Option (Mark ℤ)} (hm : Tried h m)
    (hm' : Tried h m') : m = m' := by
  cases hm with
  | nothing idle =>
    cases hm' with
    | nothing idle' => rfl
    | success ran => exact absurd idle (reconciliation_ne_nil ran)
    | failure ran time => exact absurd idle (reconciliation_ne_nil ran)
  | success ran =>
    cases hm' with
    | nothing idle => exact absurd idle (reconciliation_ne_nil ran)
    | success ran' => rfl
    | failure ran' time => cases ran.hist_unique ran'
  | failure ran time =>
    cases hm' with
    | nothing idle => exact absurd idle (reconciliation_ne_nil ran)
    | success ran' => cases ran.hist_unique ran'
    | failure ran' time' =>
      obtain rfl := Option.some.inj (time.symm.trans time')
      rfl

theorem reads_of_success {l : List (Event tradeSig)}
    (hx : reconcileAllOpenOrders.Exec (histSem tradeSig) [] (.ok ()) l) :
    ∃ rows, (⟨.orderFindMany [.submitted, .accepted, .partiallyFilled], .ok rows⟩ :
      Event tradeSig) ∈ l := by
  suffices hwp : reconcileAllOpenOrders.Wp (histSem tradeSig) (fun _ _ => True) (fun x l =>
      x = .ok () → ∃ rows, (⟨.orderFindMany [.submitted, .accepted, .partiallyFilled], .ok rows⟩ :
        Event tradeSig) ∈ l) [] from hwp.exec hx rfl
  refine wp_attempt_bind.2 (wp_post (fun _ l₁ _ => ?_) (wp_any _ _))
  refine wp_attempt_bind.2 (wp_post (fun _ l₂ _ => ?_) (wp_any _ _))
  refine wp_perform_bind.2 ⟨trivial, ?_⟩
  rintro r l₃ rfl
  cases r with
  | error e => exact fun hx => nomatch hx
  | ok rows =>
    refine bindPost_ok.2 (wp_post (fun _ l₄ hl _ => ⟨rows, hl.subset ?_⟩)
      (wp_history _ _ _ List.prefix_rfl))
    exact List.mem_append_right _ (List.mem_singleton_self _)

/-! ## The persisted breaker -/

/-- The breaker that a tick reads. -/
def readCb : Option (Option ReconciliationCircuitBreakerState) → ReconciliationCircuitBreakerState
  | some (some cb) => cb
  | _ => closedCb

@[simp] theorem readCb_some (cb : ReconciliationCircuitBreakerState) :
    readCb (some (some cb)) = cb := rfl

def IsOpen (w : TickWorld) : Prop := (readCb w.breaker).state = .opened

instance : DecidablePred IsOpen :=
  fun w => inferInstanceAs (Decidable ((readCb w.breaker).state = .opened))

/-- A failure opens the breaker: it is the third, or that of a probe. -/
def opens (cb : ReconciliationCircuitBreakerState) : Bool :=
  cbMaxFailures ≤ cb.consecutiveFailures + 1 ∨ cb.state ≠ .closed

/-- **What a tick does to the persisted breaker** `cb`: it waits, or notes what it has tried. -/
inductive BreakerStep (cb : ReconciliationCircuitBreakerState) (w w' : TickWorld)
    (part : List (Event tickSig)) : Option (Mark ℤ) → Prop
  | waits {now : ℤ} (isOpen : cb.state = .opened) (time : (part.filterMap clock).head? = some now)
      (cooling : coolingDown cb now = true) (same : w'.breaker = w.breaker)
      (quiet : part.countP isHalt = 0 ∧ part.countP isAlert = 0) : BreakerStep cb w w' part none
  | success {now : ℤ}
      (due : cb.state = .opened → ∃ now, (part.filterMap clock).head? = some now ∧
        coolingDown cb now = false)
      (saved : w'.breaker = some (some ⟨.closed, 0, cb.lastFailureAt, some now, none⟩))
      (quiet : part.countP isHalt = 0 ∧ part.countP isAlert = 0) :
      BreakerStep cb w w' part (some .reset)
  | failure {t : ℤ} {reason : Option Text}
      (due : cb.state = .opened → ∃ now, (part.filterMap clock).head? = some now ∧
        coolingDown cb now = false)
      (saved : w'.breaker = some (some ⟨if opens cb then .opened else .closed,
        cb.consecutiveFailures + 1, some t, cb.lastSuccessAt, reason⟩))
      (loud : part.countP isHalt = (if opens cb then 1 else 0) ∧
        part.countP isAlert = if opens cb then 1 else 0) : BreakerStep cb w w' part (some (.hit t))

theorem BreakerStep.congr {cb : ReconciliationCircuitBreakerState} {w w₁ w' : TickWorld}
    {part : List (Event tickSig)} {m : Option (Mark ℤ)} (h : BreakerStep cb w₁ w' part m)
    (hb : w₁.breaker = w.breaker) : BreakerStep cb w w' part m := by
  cases h with
  | waits isOpen time cooling same quiet => exact .waits isOpen time cooling (same.trans hb) quiet
  | success due saved quiet => exact .success due saved quiet
  | failure due saved loud => exact .failure due saved loud

/-! ## The portfolio sync -/

/-- The operations that are none of the breaker's. -/
def TickOp.isAside : TickOp → Prop
  | .own _ | .lastPortfolioSyncAtGet | .lastPortfolioSyncAtSet _ => True
  | _ => False

/-- The breaker and the flag are as they were. -/
structure SameBreaker (w w' : TickWorld) : Prop where
  breaker : w'.breaker = w.breaker
  flag : w'.tickRunning = w.tickRunning

theorem sameBreaker_of_rel {op : TickOp} {w w' : TickWorld} {r : Except Err op.Ans}
    (hop : TickOp.isAside op) (hrel : tickSem.rel op w r w') : SameBreaker w w' := by
  obtain ⟨i, -, hi⟩ := hrel
  cases op with
  | own op =>
    cases hi
    exact ⟨rfl, rfl⟩
  | lastPortfolioSyncAtGet =>
    cases hi
    exact ⟨rfl, rfl⟩
  | lastPortfolioSyncAtSet now =>
    cases hi
    exact ⟨rfl, rfl⟩
  | _ => exact hop.elim

theorem sameBreaker_own {op : TradeOp} {w w' : TickWorld} {r : Except Err op.Ans}
    (hrel : tickSem.rel (.own op) w r w') : SameBreaker w w' :=
  sameBreaker_of_rel (show TickOp.isAside (.own op) from trivial) hrel

theorem aside_own {α : Type} (p : Trade α) :
    Always (S := tickSig) (fun _ op => TickOp.isAside op) (own p) :=
  always_embed ownEmb (fun _ => trivial) p

theorem aside_maybeSyncPortfolioOnTick :
    Always (S := tickSig) (fun _ op => TickOp.isAside op) maybeSyncPortfolioOnTick := by
  refine always_bind (aside_own _) fun broker => ?_
  refine always_ite (fun _ => always_ret _) fun _ => ?_
  refine always_bind (always_perform fun _ => trivial) fun now => ?_
  refine always_bind (always_perform fun _ => trivial) fun last => ?_
  refine always_ite (fun _ => always_ret _) fun _ => ?_
  refine always_bind (always_perform fun _ => trivial) fun _ => ?_
  exact always_bind (always_attempt (aside_own _)) fun _ => always_ret _

theorem maybeSyncPortfolioOnTick_returns (w : TickWorld) :
    Yields tickSem maybeSyncPortfolioOnTick w fun x _ _ => x = .ok () := by
  refine yields_await fun r w₁ hr => ?_
  have hrest : ∀ broker, Yields tickSem (if broker = "" then Prog.ret () else do
      let now : ℤ ← tickAwait (.own .now)
      let last : Option ℤ ← tickAwait .lastPortfolioSyncAtGet
      if last.any fun t => now - t < portfolioSyncThrottleMs then return ()
      else
        let _ ← tickAwait (.lastPortfolioSyncAtSet now)
        let _ ← (own (syncPortfolio broker "poll")).attempt
        return ()) w₁ fun x _ _ => x = .ok () := by
    intro broker
    refine yields_ite (fun _ => yields_ret rfl) fun _ => ?_
    refine yields_perform_bind (fun now w₂ _ => ?_) fun e w₂ hnow => ?_
    · refine yields_perform_bind (fun last w₃ _ => ?_) fun e w₃ hlast => ?_
      · refine yields_ite (fun _ => yields_ret rfl) fun _ => ?_
        refine yields_perform_bind (fun u w₄ _ => ?_) fun e w₄ hset => ?_
        · exact yields_attempt_bind (yields_any _ _) fun _ _ _ _ => yields_ret rfl
        · obtain ⟨i, -, hi⟩ := hset
          cases hi
      · obtain ⟨i, -, hi⟩ := hlast
        cases hi
    · obtain ⟨i, -, hi⟩ := hnow
      cases hi
  cases r with
  | ok raw => exact hrest _
  | error e => exact hrest (trimmed ((kvStr none).getD ""))

theorem maybeSyncPortfolioOnTick_yields (w : TickWorld) :
    Yields tickSem maybeSyncPortfolioOnTick w fun x part w' =>
      x = .ok () ∧ (∀ e ∈ part, TickOp.isAside e.1) ∧ SameBreaker w w' :=
  (maybeSyncPortfolioOnTick_returns w).and (Always.yields aside_maybeSyncPortfolioOnTick
    (fun _ _ _ _ hop hw hrel =>
      ⟨(sameBreaker_of_rel hop hrel).1.trans hw.1, (sameBreaker_of_rel hop hrel).2.trans hw.2⟩)
    ⟨rfl, rfl⟩)

/-! ## The reconciliation -/

/-- The awaits of the reconciliation, seen from the tick. -/
def inTick (e : Event tradeSig) : Event tickSig := ⟨.reconcile e.1, e.2⟩

theorem reconcile_yields {α : Type} (p : Trade α) (w : TickWorld) (h : List (Event tradeSig)) :
    Yields tickSem (p.embed reconcileEmb) w fun x part w' => SameBreaker w w' ∧
      ∃ part', part = part'.map inTick ∧ p.Exec (histSem tradeSig) h x (h ++ part') := by
  induction p generalizing w h with
  | ret a => exact yields_ret ⟨⟨rfl, rfl⟩, [], rfl, by rw [List.append_nil]; exact .ret a h⟩
  | throw e => exact yields_throw ⟨⟨rfl, rfl⟩, [], rfl, by rw [List.append_nil]; exact .throw e h⟩
  | await op k ih =>
    refine yields_await fun r w' hrel => ?_
    have hsame : SameBreaker w w' := by
      obtain ⟨i, -, hi⟩ := hrel
      cases hi
      exact ⟨rfl, rfl⟩
    refine (ih r w' (h ++ [⟨op, r⟩])).mono ?_
    rintro x part w'' ⟨hsame', part', rfl, hx⟩
    refine ⟨⟨hsame'.1.trans hsame.1, hsame'.2.trans hsame.2⟩, ⟨op, r⟩ :: part', rfl, ?_⟩
    rw [List.append_assoc] at hx
    exact .await rfl hx

/-! ## A failure -/

theorem now_of_rel {w w' : TickWorld} {r : Except Err ℤ} (hrel : tickSem.rel (.own .now) w r w') :
    (∃ now, r = .ok now) ∧ SameBreaker w w' := by
  obtain ⟨i, -, hi⟩ := hrel
  cases hi
  exact ⟨⟨_, rfl⟩, rfl, rfl⟩

theorem saved_of_rel {cb : ReconciliationCircuitBreakerState} {w w' : TickWorld} {u : Unit}
    (hrel : tickSem.rel (.breakerSet cb) w (.ok u) w') :
    w'.breaker = some (some cb) ∧ w'.tickRunning = w.tickRunning := by
  obtain ⟨i, -, hi⟩ := hrel
  simp only [tickHandle] at hi
  split at hi
  · cases hi
  · cases hi
    exact ⟨rfl, rfl⟩

theorem yields_own {op : TradeOp} {w : TickWorld}
    {Φ : Except Err op.Ans → List (Event tickSig) → TickWorld → Prop}
    (h : ∀ r w', SameBreaker w w' → Φ r [⟨.own op, r⟩] w') :
    Yields tickSem (own (await op)) w Φ := by
  refine yields_await fun r w' hrel => ?_
  replace h := h r w' (sameBreaker_own hrel)
  cases r with
  | ok a => exact yields_ret h
  | error e => exact yields_throw h

/-- Nothing of the breaker's, but an alarm. -/
structure Alarmed (n : ℕ) (w w' : TickWorld) (part : List (Event tickSig)) : Prop where
  same : SameBreaker w w'
  time : part.filterMap clock = []
  idle : reconciliation part = []
  halted : part.countP isHalt = n
  alerted : part.countP isAlert = n

theorem haltRealExecution_yields (reason : String) (w : TickWorld) :
    Yields tickSem (own (haltRealExecution reason)) w fun _ part w' => SameBreaker w w' ∧
      part.filterMap clock = [] ∧ reconciliation part = [] ∧ part.countP isHalt = 1 ∧
      part.countP isAlert = 0 := by
  refine yields_await fun r w₁ hrel => ?_
  have hsame₁ : SameBreaker w w₁ := sameBreaker_own hrel
  cases r with
  | error e => exact yields_throw ⟨hsame₁, rfl, rfl, rfl, rfl⟩
  | ok u =>
    refine yields_own fun r w₂ hsame₂ => ?_
    exact ⟨⟨hsame₂.1.trans hsame₁.1, hsame₂.2.trans hsame₁.2⟩, rfl, rfl, rfl, rfl⟩

/-- **The alarm**: the operator is alerted and the kill-switch is tripped, once each. -/
theorem alarm_yields {alert : AlertEntry} (halert : alert.type = "RECONCILIATION_HALTED")
    (w : TickWorld) :
    Yields tickSem (do
      let _ ← (own (await (.alertsCreate alert))).attempt
      let _ ← (own (haltRealExecution "reconciliation circuit breaker open")).attempt
      return ()) w fun _ part w' => Alarmed 1 w w' part := by
  have hfirst : Yields tickSem (own (await (.alertsCreate alert))) w fun _ part w' =>
      SameBreaker w w' ∧ part.filterMap clock = [] ∧ reconciliation part = [] ∧
        part.countP isHalt = 0 ∧ part.countP isAlert = 1 :=
    yields_own fun r w₁ hsame => ⟨hsame, rfl, rfl, rfl, by simp [isAlert, halert]⟩
  refine yields_attempt_bind hfirst ?_
  rintro r part w₁ ⟨hsame₁, htime₁, hidle₁, hhalt₁, halert₁⟩
  refine yields_attempt_bind (haltRealExecution_yields _ w₁) ?_
  rintro r' part' w₂ ⟨hsame₂, htime₂, hidle₂, hhalt₂, halert₂⟩
  refine yields_ret ⟨⟨hsame₂.1.trans hsame₁.1, hsame₂.2.trans hsame₁.2⟩, ?_, ?_, ?_, ?_⟩
  · rw [List.append_nil, List.filterMap_append, htime₁, htime₂, List.append_nil]
  · rw [List.append_nil, reconciliation_append, hidle₁, hidle₂, List.append_nil]
  · rw [List.append_nil, List.countP_append, hhalt₁, hhalt₂]
  · rw [List.append_nil, List.countP_append, halert₁, halert₂]

theorem not_answered {h : List (Event tickSig)} (hans : Answered h)
    {cb : ReconciliationCircuitBreakerState} {e : Err}
    (hmem : (⟨.breakerSet cb, .error e⟩ : Event tickSig) ∈ h) : False :=
  Bool.false_ne_true (hans _ hmem)

/-- What a failure at `t` does: it is counted, and the alarm is raised where the breaker opens. -/
structure Failed (cb : ReconciliationCircuitBreakerState) (t : ℤ) (w w' : TickWorld)
    (part : List (Event tickSig)) : Prop where
  saved : ∃ reason, w'.breaker = some (some ⟨if opens cb then .opened else .closed,
    cb.consecutiveFailures + 1, some t, cb.lastSuccessAt, reason⟩)
  flag : w'.tickRunning = w.tickRunning
  time : part.filterMap clock = [t]
  idle : reconciliation part = []
  halted : part.countP isHalt = if opens cb then 1 else 0
  alerted : part.countP isAlert = if opens cb then 1 else 0

theorem Failed.of_alarmed {cb : ReconciliationCircuitBreakerState} {t : ℤ}
    {w w₁ w₂ w' : TickWorld} {part : List (Event tickSig)} {reason : Option Text} {u : Unit}
    (hsame : SameBreaker w w₁)
    (hset : tickSem.rel (.breakerSet ⟨if opens cb then .opened else .closed,
      cb.consecutiveFailures + 1, some t, cb.lastSuccessAt, reason⟩) w₁ (.ok u) w₂)
    (halarm : Alarmed (if opens cb then 1 else 0) w₂ w' part) :
    Failed cb t w w' (⟨.own .now, .ok t⟩ :: ⟨.breakerSet ⟨if opens cb then .opened else .closed,
      cb.consecutiveFailures + 1, some t, cb.lastSuccessAt, reason⟩, .ok u⟩ :: part) := by
  obtain ⟨hsaved, hflag⟩ := saved_of_rel hset
  refine ⟨⟨reason, halarm.same.breaker.trans hsaved⟩,
    (halarm.same.flag.trans hflag).trans hsame.flag, ?_, ?_, ?_, ?_⟩
  · exact congrArg (t :: ·) halarm.time
  · exact halarm.idle
  · rw [List.countP_cons_of_neg Bool.false_ne_true, List.countP_cons_of_neg Bool.false_ne_true,
      halarm.halted]
  · rw [List.countP_cons_of_neg Bool.false_ne_true, List.countP_cons_of_neg Bool.false_ne_true,
      halarm.alerted]

/-- **A failure** of a tick that has not found the breaker cooling down. -/
theorem handleTickFailure_yields {cb : ReconciliationCircuitBreakerState} (hcb : cb.state ≠ .opened)
    (e : Err) (w : TickWorld) : Yields tickSem (handleTickFailure e cb) w fun _ part w' =>
      Answered part → ∃ t, Failed cb t w w' part := by
  have hopens : (cbMaxFailures ≤ cb.consecutiveFailures + 1 ∨ cb.state = .halfOpen) ↔
      opens cb = true := by
    rw [opens, decide_eq_true_eq]
    cases hs : cb.state with
    | closed => simp
    | opened => exact absurd hs hcb
    | halfOpen => simp
  unfold handleTickFailure
  simp only [decide_eq_true_eq, hopens, hcb, ne_eq, not_false_eq_true, and_true]
  refine yields_perform_bind (fun t w₁ hnow => ?_) fun e w₁ hnow => ?_
  · obtain ⟨-, hsame⟩ := now_of_rel hnow
    refine yields_perform_bind (fun u w₂ hset => ?_) fun e w₂ _ hans => ?_
    · refine yields_ite (fun ho => ?_) fun ho => yields_ret fun _ => ⟨t, ?_⟩
      · refine (alarm_yields rfl w₂).mono fun x part w' halarm _ => ⟨t, .of_alarmed hsame hset ?_⟩
        rwa [if_pos ho]
      · refine .of_alarmed hsame hset ?_
        rw [if_neg ho]
        exact ⟨⟨rfl, rfl⟩, rfl, rfl, rfl, rfl⟩
    · exact (not_answered hans (.tail _ (.head _))).elim
  · obtain ⟨⟨_, ⟨⟩⟩, -⟩ := now_of_rel hnow

/-! ## An attempt -/

section InTick

variable (l : List (Event tradeSig))

theorem reconciliation_inTick : reconciliation (l.map inTick) = l := by
  rw [reconciliation, List.filterMap_map]
  exact List.filterMap_some

theorem clock_inTick : (l.map inTick).filterMap clock = [] := by
  rw [List.filterMap_map]
  exact List.filterMap_eq_nil_iff.2 fun _ _ => rfl

theorem isHalt_inTick : (l.map inTick).countP isHalt = 0 := by
  rw [List.countP_map]
  exact List.countP_eq_zero.2 fun _ _ => Bool.false_ne_true

theorem isAlert_inTick : (l.map inTick).countP isAlert = 0 := by
  rw [List.countP_map]
  exact List.countP_eq_zero.2 fun _ _ => Bool.false_ne_true

end InTick

/-- **What an attempt leaves behind**, success or failure. -/
inductive Attempted (cb : ReconciliationCircuitBreakerState) (w' : TickWorld)
    (part : List (Event tickSig)) : Mark ℤ → Prop
  | success {now : ℤ}
      (ran : reconcileAllOpenOrders.Exec (histSem tradeSig) [] (.ok ()) (reconciliation part))
      (saved : w'.breaker = some (some ⟨.closed, 0, cb.lastFailureAt, some now, none⟩))
      (quiet : part.countP isHalt = 0 ∧ part.countP isAlert = 0) : Attempted cb w' part .reset
  | failure {e : Err} {t : ℤ} {reason : Option Text}
      (ran : reconcileAllOpenOrders.Exec (histSem tradeSig) [] (.error e) (reconciliation part))
      (time : (part.filterMap clock).getLast? = some t)
      (saved : w'.breaker = some (some ⟨if opens cb then .opened else .closed,
        cb.consecutiveFailures + 1, some t, cb.lastSuccessAt, reason⟩))
      (loud : part.countP isHalt = (if opens cb then 1 else 0) ∧
        part.countP isAlert = if opens cb then 1 else 0) : Attempted cb w' part (.hit t)

/-- The reconciliation, and the write of its success. -/
inductive Reconciled (cb : ReconciliationCircuitBreakerState) (w' : TickWorld)
    (part : List (Event tickSig)) : Except Err Unit → Prop
  | success (attempted : Attempted cb w' part .reset) : Reconciled cb w' part (.ok ())
  | failure {e : Err}
      (ran : reconcileAllOpenOrders.Exec (histSem tradeSig) [] (.error e) (reconciliation part))
      (time : part.filterMap clock = [])
      (quiet : part.countP isHalt = 0 ∧ part.countP isAlert = 0) :
      Reconciled cb w' part (.error e)

variable {cb : ReconciliationCircuitBreakerState}

theorem reconciled_yields (cb : ReconciliationCircuitBreakerState) (w : TickWorld) :
    Yields tickSem (do
      reconcileAllOpenOrders.embed reconcileEmb
      let now : ℤ ← tickAwait (.own .now)
      saveCb
        { state := .closed, consecutiveFailures := 0, lastFailureAt := cb.lastFailureAt
          lastSuccessAt := some now, reason := none }) w fun x part w' =>
      Answered part → Reconciled cb w' part x := by
  refine yields_bind (reconcile_yields reconcileAllOpenOrders w []) ?_ ?_
  · rintro ⟨⟩ part w₁ ⟨-, l, rfl, hran⟩
    refine yields_perform_bind (fun now w₂ hnow => ?_) fun e w₂ hnow => ?_
    · refine yields_perform fun r w₃ hset hans => ?_
      cases r with
      | error e =>
        exact (not_answered hans (List.mem_append_right _ (.tail _ (.head _)))).elim
      | ok u =>
        refine .success (.success ?_ (saved_of_rel hset).1 ⟨?_, ?_⟩)
        · rw [reconciliation_append, reconciliation_inTick]
          show reconcileAllOpenOrders.Exec _ _ _ (l ++ [])
          rw [List.append_nil]
          exact hran
        · rw [List.countP_append, isHalt_inTick]
          rfl
        · rw [List.countP_append, isAlert_inTick]
          rfl
    · obtain ⟨⟨_, ⟨⟩⟩, -⟩ := now_of_rel hnow
  · rintro e part w₁ ⟨-, l, rfl, hran⟩ -
    refine .failure ?_ (clock_inTick l) ⟨isHalt_inTick l, isAlert_inTick l⟩
    rwa [reconciliation_inTick]

theorem Failed.attempted {e : Err} {t : ℤ} {w₁ w' : TickWorld} {part part' : List (Event tickSig)}
    (hrec : Reconciled cb w₁ part (.error e)) (hfail : Failed cb t w₁ w' part') :
    Attempted cb w' (part ++ part') (.hit t) := by
  cases hrec with
  | failure hran htime hquiet =>
    obtain ⟨reason, hsaved⟩ := hfail.saved
    refine .failure (e := e) ?_ ?_ hsaved ⟨?_, ?_⟩
    · rwa [reconciliation_append, hfail.idle, List.append_nil]
    · rw [List.filterMap_append, htime, hfail.time]
      rfl
    · rw [List.countP_append, hquiet.1, hfail.halted, Nat.zero_add]
    · rw [List.countP_append, hquiet.2, hfail.alerted, Nat.zero_add]

theorem Attempted.congr {m : Mark ℤ} {w w' : TickWorld} {part part' : List (Event tickSig)}
    (h : Attempted cb w part m) (hb : w'.breaker = w.breaker)
    (hrec : reconciliation part' = reconciliation part)
    (htime : part'.filterMap clock = part.filterMap clock)
    (hhalt : part'.countP isHalt = part.countP isHalt)
    (halert : part'.countP isAlert = part.countP isAlert) : Attempted cb w' part' m := by
  cases h with
  | success ran saved quiet =>
    rw [← hrec] at ran
    rw [← hb] at saved
    rw [← hhalt, ← halert] at quiet
    exact .success ran saved quiet
  | failure ran time saved loud =>
    rw [← hrec] at ran
    rw [← htime] at time
    rw [← hb] at saved
    rw [← hhalt, ← halert] at loud
    exact .failure ran time saved loud

/-- **An attempt of a tick**, between the two writes of the overlap flag. -/
theorem guardedReconciliation_yields (hcb : cb.state ≠ .opened) (w : TickWorld) :
    Yields tickSem (guardedReconciliation cb) w fun _ part w' => Answered part →
      w'.tickRunning = false ∧ ∃ m, Attempted cb w' part m := by
  refine yields_perform_bind (fun u w₁ hset => ?_) fun e w₁ hset => ?_
  · refine yields_attempt_bind (Φ := fun _ part w' => Answered part →
      ∃ m, Attempted cb w' part m) ?_ fun r part w₂ hattempted => ?_
    · refine yields_attempt_bind (reconciled_yields cb w₁) fun r part w₂ hrec => ?_
      cases r with
      | ok u =>
        refine yields_ret fun hans => ?_
        rw [List.append_nil] at hans ⊢
        cases hrec hans with
        | success hsuccess => exact ⟨_, hsuccess⟩
      | error e =>
        refine (handleTickFailure_yields hcb e w₂).mono fun x part' w' hfail hans => ?_
        obtain ⟨hans₁, hans₂⟩ := List.forall_mem_append.1 hans
        obtain ⟨t, hfail⟩ := hfail hans₂
        exact ⟨_, hfail.attempted (hrec hans₁)⟩
    refine yields_perform_bind (fun u' w₃ hreset => yields_ofOutcome fun hans => ?_)
      fun e w₃ hreset => ?_
    · obtain ⟨i, -, hi⟩ := hreset
      cases hi
      obtain ⟨m, hm⟩ := hattempted (List.forall_mem_append.1 (List.forall_mem_cons.1 hans).2).1
      refine ⟨rfl, m, hm.congr rfl ?_ ?_ ?_ ?_⟩
      · exact (reconciliation_append _ _).trans (List.append_nil _)
      · exact List.filterMap_append.trans (List.append_nil _)
      · rw [List.countP_cons_of_neg Bool.false_ne_true, List.countP_append]
        rfl
      · rw [List.countP_cons_of_neg Bool.false_ne_true, List.countP_append]
        rfl
    · obtain ⟨i, -, hi⟩ := hreset
      cases hi
  · obtain ⟨i, -, hi⟩ := hset
    cases hi

/-! ## A tick -/

/-- The rest of a tick, from its test of the flag on. -/
def fromTest : Tick Unit := do
  let running : Bool ← tickAwait .tickRunningGet
  if running then return ()
  else
    let cb ← getCircuitBreaker
    if cb.state = .opened then
      let now : ℤ ← tickAwait (.own .now)
      if coolingDown cb now then return ()
      else
        saveCb { cb with state := .halfOpen }
        guardedReconciliation { cb with state := .halfOpen }
    else guardedReconciliation cb

theorem tick_eq : tick = maybeSyncPortfolioOnTick >>= fun _ => fromTest := rfl

/-- **What a tick has done** since its test of the flag. -/
structure Done (w w' : TickWorld) (part : List (Event tickSig)) (m : Option (Mark ℤ)) : Prop where
  flag : w'.tickRunning = false
  step : BreakerStep (readCb w.breaker) w w' part m
  idle : m = none → reconciliation part = []
  success : m = some .reset →
    reconcileAllOpenOrders.Exec (histSem tradeSig) [] (.ok ()) (reconciliation part)
  failure : ∀ t, m = some (.hit t) → (part.filterMap clock).getLast? = some t ∧
    ∃ e, reconcileAllOpenOrders.Exec (histSem tradeSig) [] (.error e) (reconciliation part)

theorem getCircuitBreaker_yields (w : TickWorld) :
    Yields tickSem getCircuitBreaker w fun x part w' => w' = w ∧ ∃ r, part = [⟨.breakerGet, r⟩] ∧
      ∃ cb, x = .ok cb ∧ (Answered part → cb = readCb w.breaker) := by
  refine yields_attempt_perform_bind fun r w' hrel => ?_
  obtain ⟨i, -, hi⟩ := hrel
  simp only [tickHandle] at hi
  split at hi
  · cases hi
    refine yields_ret ⟨rfl, _, rfl, _, rfl, fun hans => ?_⟩
    exact absurd (hans _ (.head _)) Bool.false_ne_true
  · cases hi
    rcases hb : w.breaker with _ | _ | cb
    · exact yields_ret ⟨rfl, _, rfl, _, rfl, fun _ => rfl⟩
    · exact yields_ret ⟨rfl, _, rfl, _, rfl, fun _ => rfl⟩
    · exact yields_ret ⟨rfl, _, rfl, _, rfl, fun _ => rfl⟩

structure SameCount (cb cb' : ReconciliationCircuitBreakerState) : Prop where
  opens : opens cb' = opens cb
  failures : cb'.consecutiveFailures = cb.consecutiveFailures
  lastFailureAt : cb'.lastFailureAt = cb.lastFailureAt
  lastSuccessAt : cb'.lastSuccessAt = cb.lastSuccessAt

/-- The events before an attempt. -/
structure Neutral (before : List (Event tickSig)) : Prop where
  idle : reconciliation before = []
  halted : before.countP isHalt = 0
  alerted : before.countP isAlert = 0

theorem Attempted.done {cb' : ReconciliationCircuitBreakerState} {w w' : TickWorld}
    {before part : List (Event tickSig)} {m : Mark ℤ} (h : Attempted cb' w' part m)
    (hflag : w'.tickRunning = false) (hsame : SameCount (readCb w.breaker) cb')
    (hbefore : Neutral before)
    (hdue : (readCb w.breaker).state = .opened → ∃ now,
      ((before ++ part).filterMap clock).head? = some now ∧
        coolingDown (readCb w.breaker) now = false) : Done w w' (before ++ part) (some m) := by
  have hrec : reconciliation (before ++ part) = reconciliation part := by
    rw [reconciliation_append, hbefore.idle, List.nil_append]
  have hhalt : (before ++ part).countP isHalt = part.countP isHalt := by
    rw [List.countP_append, hbefore.halted, Nat.zero_add]
  have halert : (before ++ part).countP isAlert = part.countP isAlert := by
    rw [List.countP_append, hbefore.alerted, Nat.zero_add]
  cases h with
  | success ran saved quiet =>
    rw [hsame.lastFailureAt] at saved
    rw [← hhalt, ← halert] at quiet
    exact ⟨hflag, .success hdue saved quiet, nofun, fun _ => hrec ▸ ran, nofun⟩
  | failure ran time saved loud =>
    rw [hsame.opens, hsame.failures, hsame.lastSuccessAt] at saved
    rw [hsame.opens, ← hhalt, ← halert] at loud
    refine ⟨hflag, .failure hdue saved loud, nofun, nofun, fun t ht => ?_⟩
    cases ht
    refine ⟨?_, _, hrec ▸ ran⟩
    rw [List.filterMap_append, List.getLast?_append, time]
    rfl

/-- **A tick from its test of the flag on**, where no other tick is running. -/
theorem fromTest_yields {w : TickWorld} (hflag : w.tickRunning = false) :
    Yields tickSem fromTest w fun _ part w' => Answered part → ∃ m, Done w w' part m := by
  refine yields_perform_bind (fun running w₁ htest => ?_) fun e w₁ htest => ?_
  · obtain ⟨i, -, hi⟩ := htest
    cases hi
    rw [hflag, if_neg Bool.false_ne_true]
    refine yields_bind (getCircuitBreaker_yields w) ?_ ?_
    · rintro cb part w₁ ⟨rfl, r, rfl, _, ⟨⟩, hread⟩
      refine yields_ite (fun hopened => ?_) fun hclosed => ?_
      · refine yields_perform_bind (fun now w₂ hnow => ?_) fun e w₂ hnow => ?_
        · obtain ⟨-, hsame⟩ := now_of_rel hnow
          refine yields_ite (fun hcool => yields_ret fun hans => ?_) fun hwarm => ?_
          · obtain rfl := hread fun e he => hans e (.tail _ (List.mem_append_left _ he))
            exact ⟨none, hsame.flag.trans hflag, .waits hopened rfl hcool hsame.breaker ⟨rfl, rfl⟩,
              fun _ => rfl, nofun, nofun⟩
          · refine yields_perform_bind (fun u w₃ hset => ?_) fun e w₃ hset hans => ?_
            · have hprobe : ({ cb with state := .halfOpen } :
                  ReconciliationCircuitBreakerState).state ≠ .opened := nofun
              refine (guardedReconciliation_yields hprobe w₃).mono fun x part w' hdone hans => ?_
              obtain rfl := hread fun e he => hans e (.tail _ (List.mem_append_left _ he))
              obtain ⟨hflag', m, hm⟩ := hdone fun e he =>
                hans e (.tail _ (.tail _ (.tail _ (.tail _ he))))
              have hneutral : Neutral [⟨.tickRunningGet, .ok false⟩, ⟨.breakerGet, r⟩,
                  ⟨.own .now, .ok now⟩, ⟨.breakerSet _, .ok u⟩] := ⟨rfl, rfl, rfl⟩
              have hcount : SameCount (readCb w₁.breaker)
                  { readCb w₁.breaker with state := .halfOpen } :=
                ⟨by simp [opens, hopened], rfl, rfl, rfl⟩
              rw [Bool.not_eq_true] at hwarm
              exact ⟨_, hm.done hflag' hcount hneutral fun _ => ⟨now, rfl, hwarm⟩⟩
            · exact (not_answered hans (.tail _ (.tail _ (.tail _ (.head _))))).elim
        · obtain ⟨⟨_, ⟨⟩⟩, -⟩ := now_of_rel hnow
      · refine (guardedReconciliation_yields hclosed w₁).mono fun x part w' hdone hans => ?_
        obtain rfl := hread fun e he => hans e (.tail _ (List.mem_append_left _ he))
        obtain ⟨hflag', m, hm⟩ := hdone fun e he => hans e (.tail _ (.tail _ he))
        have hneutral : Neutral [⟨.tickRunningGet, .ok false⟩, ⟨.breakerGet, r⟩] := ⟨rfl, rfl, rfl⟩
        exact ⟨_, hm.done hflag' ⟨rfl, rfl, rfl, rfl⟩ hneutral fun h => absurd h hclosed⟩
    · rintro e part w₁ ⟨-, r, -, cb, hcb, -⟩
      cases hcb
  · obtain ⟨i, -, hi⟩ := htest
    cases hi

theorem watched_append {before part : List (Event tickSig)}
    (hbefore : ∀ e ∈ before, TickOp.isAside e.1) {r : Except Err Bool} {rest : List (Event tickSig)}
    (hpart : part = ⟨.tickRunningGet, r⟩ :: rest) : watched (before ++ part) = part := by
  have hnone : ∀ e ∈ before, (!isTest e) = true := by
    intro e he
    obtain ⟨op, r⟩ := e
    cases op with
    | tickRunningGet => exact (hbefore _ he).elim
    | _ => rfl
  rw [watched, List.dropWhile_append_of_pos hnone, hpart]
  rfl

theorem reconciliation_aside {before : List (Event tickSig)}
    (hbefore : ∀ e ∈ before, TickOp.isAside e.1) : reconciliation before = [] := by
  refine List.filterMap_eq_nil_iff.2 fun e he => ?_
  obtain ⟨op, r⟩ := e
  cases op with
  | reconcile => exact (hbefore _ he).elim
  | _ => rfl

/-- **A tick**, where no other tick is running. -/
theorem tick_yields {w : TickWorld} (hflag : w.tickRunning = false) :
    Yields tickSem tick w fun _ h w' => Answered h →
      ∃ m, Tried h m ∧ Done w w' (watched h) m := by
  rw [tick_eq]
  refine yields_bind (maybeSyncPortfolioOnTick_yields w) ?_ ?_
  · rintro ⟨⟩ before w₁ ⟨-, hbefore, hsame⟩
    have hrest := (fromTest_yields (hsame.flag.trans hflag)).and (yields_head _ _)
    refine hrest.mono ?_
    rintro x part w' ⟨hdone, r, rest, hpart⟩ hans
    obtain ⟨m, hm⟩ := hdone fun e he => hans e (List.mem_append_right _ he)
    have hwatched : watched (before ++ part) = part := watched_append hbefore hpart
    have hrec : reconciliation (before ++ part) = reconciliation part := by
      rw [reconciliation_append, reconciliation_aside hbefore, List.nil_append]
    have hread : readCb w₁.breaker = readCb w.breaker := by rw [hsame.breaker]
    refine ⟨m, ?_, ?_⟩
    · rcases m with _ | _ | t
      · exact .nothing (hrec.trans (hm.idle rfl))
      · exact .success (hrec ▸ hm.success rfl)
      · obtain ⟨htime, e, hran⟩ := hm.failure t rfl
        exact .failure (hrec ▸ hran) (by rw [clocks, hwatched, htime])
    · rw [hwatched]
      refine ⟨hm.flag, ?_, hm.idle, hm.success, hm.failure⟩
      rw [← hread]
      exact hm.step.congr hsame.breaker
  · rintro e part w₁ ⟨hx, -⟩
    cases hx

end NeoTrader.Breaker
