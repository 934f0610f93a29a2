import NeoTrader.Await.Pool
import NeoTrader.Trade.Policy
import NeoTrader.Trade.Reconciliation

/-!
# Ticks of the reconciliation loop

A timer starts a tick at each interval, whether the previous one has ended or not. A tick syncs the
portfolio, tests the overlap flag, reads the circuit breaker, and reconciles the open orders.

* **`one_reconciliation`**: then at most one call is in progress; **`overlapping_ticks`**: two ticks
  that read the circuit breaker side by side both reconcile.
-/

namespace NeoTrader

open Js Await Prog

/-! ## Operations -/

inductive BreakerState
  | closed
  | opened
  | halfOpen
  deriving DecidableEq

structure ReconciliationCircuitBreakerState where
  state : BreakerState
  consecutiveFailures : ℕ
  lastFailureAt : Option ℤ
  lastSuccessAt : Option ℤ
  reason : Option Text
  deriving DecidableEq

def closedCb : ReconciliationCircuitBreakerState := ⟨.closed, 0, none, none, none⟩

/-- **The operations of a tick**: those of the order service, inside and outside of
`reconcileAllOpenOrders`, the service's own memory, and the persisted circuit breaker. -/
inductive TickOp
  | own (op : TradeOp)
  | reconcile (op : TradeOp)
  | lastPortfolioSyncAtGet
  | lastPortfolioSyncAtSet (now : ℤ)
  | tickRunningGet
  | tickRunningSet (running : Bool)
  | breakerGet
  | breakerSet (cb : ReconciliationCircuitBreakerState)

/-- The answers. A stored breaker that does not parse is `some none`. -/
def TickOp.Ans : TickOp → Type
  | own op => op.Ans
  | reconcile op => op.Ans
  | lastPortfolioSyncAtGet => Option ℤ
  | tickRunningGet => Bool
  | breakerGet => Option (Option ReconciliationCircuitBreakerState)
  | lastPortfolioSyncAtSet _ | tickRunningSet _ | breakerSet _ => Unit

def tickSig : Sig := ⟨TickOp, TickOp.Ans, Err⟩

abbrev Tick (α : Type) : Type := Prog tickSig α

abbrev tickAwait (op : TickOp) : Tick op.Ans := Prog.perform (S := tickSig) op

/-- The order service outside of `reconcileAllOpenOrders`. -/
def ownEmb : Emb tradeSig tickSig := ⟨.own, fun _ r => r, id⟩

/-- The order service inside of `reconcileAllOpenOrders`. -/
def reconcileEmb : Emb tradeSig tickSig := ⟨.reconcile, fun _ r => r, id⟩

/-- What the tick itself awaits of the order service. -/
abbrev own {α : Type} (p : Trade α) : Tick α := p.embed ownEmb

structure TickWorld where
  db : World
  breaker : Option (Option ReconciliationCircuitBreakerState) := none
  lastPortfolioSyncAt : Option ℤ := none
  tickRunning : Bool := false

/-- What one operation meets outside, and what other calls have done to the database before it. -/
structure TickInput where
  oracle : Oracle := {}
  others : World → World := id

def tickHandle (i : TickInput) : (op : TickOp) → TickWorld → Except Err op.Ans × TickWorld
  | .own op, w =>
    let x := handle i.oracle op (i.others w.db)
    (x.1, { w with db := x.2 })
  | .reconcile op, w =>
    let x := handle i.oracle op (i.others w.db)
    (x.1, { w with db := x.2 })
  | .lastPortfolioSyncAtGet, w => (.ok w.lastPortfolioSyncAt, w)
  | .lastPortfolioSyncAtSet now, w => (.ok (), { w with lastPortfolioSyncAt := some now })
  | .tickRunningGet, w => (.ok w.tickRunning, w)
  | .tickRunningSet running, w => (.ok (), { w with tickRunning := running })
  | .breakerGet, w =>
    match i.oracle.dbError with
    | some e => (.error e, w)
    | none => (.ok w.breaker, w)
  | .breakerSet cb, w =>
    match i.oracle.dbError with
    | some e => (.error e, w)
    | none => (.ok (), { w with breaker := some (some cb) })

/-- **The semantics of the ticks.** -/
def tickSem : Sem tickSig TickWorld := Sem.ofHandler (S := tickSig) tickHandle fun _ _ _ => True

/-! ## The tick -/

def cbMaxFailures : ℕ := 3
def cbHalfOpenMs : ℤ := 5 * 60000
def portfolioSyncThrottleMs : ℤ := 60000

/-- The broker of the settings; an unreadable setting is none. -/
def resolveBrokerPluginId : Trade String := do
  let raw ← (await (.kvGet (policyKey "broker_plugin_id"))).attempt
  return trimmed ((kvStr raw.toOption.join).getD "")

def maybeSyncPortfolioOnTick : Tick Unit := do
  let brokerPluginId ← own resolveBrokerPluginId
  if brokerPluginId = "" then return ()
  else
    let now : ℤ ← tickAwait (.own .now)
    let last : Option ℤ ← tickAwait .lastPortfolioSyncAtGet
    if last.any fun t => now - t < portfolioSyncThrottleMs then return ()
    else
      let _ ← tickAwait (.lastPortfolioSyncAtSet now)
      let _ ← (own (syncPortfolio brokerPluginId "poll")).attempt
      return ()

/-- The persisted circuit breaker; one that cannot be read is closed. -/
def getCircuitBreaker : Tick ReconciliationCircuitBreakerState := do
  match ← (tickAwait .breakerGet).attempt with
  | .ok (some (some cb)) => return cb
  | _ => return closedCb

def saveCb (state : ReconciliationCircuitBreakerState) : Tick Unit :=
  tickAwait (.breakerSet state)

/-- `msg.slice(0, n)`; a number put into the text is not cut. -/
def sliceText (n : ℕ) : Text → Text
  | [] => []
  | .num x :: t => .num x :: sliceText n t
  | .lit s :: t => .lit (slice s n) :: sliceText (n - s.length) t

/-- A failed tick: the breaker counts it, and opens at the third failure or after a failed probe. -/
def handleTickFailure (e : Err) (cb : ReconciliationCircuitBreakerState) : Tick Unit := do
  let failures := cb.consecutiveFailures + 1
  let tripped : Bool := cbMaxFailures ≤ failures ∨ cb.state = .halfOpen
  let now : ℤ ← tickAwait (.own .now)
  saveCb
    { state := if tripped then .opened else .closed
      consecutiveFailures := failures
      lastFailureAt := some now
      lastSuccessAt := cb.lastSuccessAt
      reason := some (sliceText 200 e.message) }
  if tripped ∧ cb.state ≠ .opened then
    let _ ← (own (await (.alertsCreate
      { type := "RECONCILIATION_HALTED", severity := "CRITICAL", symbol := none
        message := .lit (s!"Real-money order reconciliation halted after {failures} consecutive " ++
          "tick failures: ") :: sliceText 200 e.message }))).attempt
    let _ ← (own (haltRealExecution "reconciliation circuit breaker open")).attempt
    return ()
  else return ()

/-- The reconciliation of a tick, between the two writes of the overlap flag. -/
def guardedReconciliation (cb : ReconciliationCircuitBreakerState) : Tick Unit := do
  let _ ← tickAwait (.tickRunningSet true)
  let outcome ← (do
    let done ← (do
      reconcileAllOpenOrders.embed reconcileEmb
      let now : ℤ ← tickAwait (.own .now)
      saveCb
        { state := .closed, consecutiveFailures := 0, lastFailureAt := cb.lastFailureAt
          lastSuccessAt := some now, reason := none }).attempt
    match done with
    | .ok _ => return ()
    | .error e => handleTickFailure e cb).attempt
  let _ ← tickAwait (.tickRunningSet false)
  Prog.ofOutcome outcome

def coolingDown (cb : ReconciliationCircuitBreakerState) (now : ℤ) : Bool :=
  now < cb.lastFailureAt.getD 0 + cbHalfOpenMs

/-- **One scheduled tick.** -/
def tick : Tick Unit := do
  maybeSyncPortfolioOnTick
  let running : Bool ← tickAwait .tickRunningGet
  if running then return ()
  else
    let cb ← getCircuitBreaker
    if cb.state = .opened then
      let now : ℤ ← tickAwait (.own .now)
      if coolingDown cb now then return ()
      else
        saveCb { cb with state := .halfOpen }
        guardedReconciliation { cb with state := .halfOpen }
    else guardedReconciliation cb

/-! ## Where a tick stands -/

/-- A call of `reconcileAllOpenOrders` is in progress. -/
def reconciling (t : Thread tickSig Unit) : Bool :=
  match t.rest with
  | .await (.reconcile _) _ => true
  | _ => false

inductive TickPhase
  | idle
  | tested
  | running
  | done
  deriving DecidableEq

/-- How an event moves a tick on: the flag was found clear, was set, or was reset. -/
def TickPhase.next (p : TickPhase) : Event tickSig → TickPhase
  | ⟨.tickRunningGet, .ok false⟩ => .tested
  | ⟨.tickRunningSet true, _⟩ => .running
  | ⟨.tickRunningSet false, _⟩ => .done
  | _ => p

def phaseOf (h : List (Event tickSig)) : TickPhase := h.foldl TickPhase.next .idle

@[simp] theorem phaseOf_nil : phaseOf [] = .idle := rfl

@[simp] theorem phaseOf_snoc (h : List (Event tickSig)) (e : Event tickSig) :
    phaseOf (h ++ [e]) = (phaseOf h).next e := by
  simp [phaseOf, List.foldl_append]

/-- The tick has found the flag clear and has not set it. -/
def tested (t : Thread tickSig Unit) : Bool :=
  phaseOf t.hist = .tested ∧ ¬ t.rest.finished

/-- The tick has set the flag and has not reset it. -/
def runningTick (t : Thread tickSig Unit) : Bool :=
  phaseOf t.hist = .running ∧ ¬ t.rest.finished

/-- **The flag is tested only while no other tick is between its test and its set.** -/
def unraced : Check tickSig Unit TickWorld := fun _ ts _ e =>
  match e.1 with
  | .tickRunningGet => ts.all fun t => !tested t
  | _ => true

/-! ## What a tick awaits -/

/-- The operations that leave the phase as it is. -/
def TickOp.steady : TickOp → Prop
  | tickRunningGet | tickRunningSet _ | reconcile _ => False
  | _ => True

/-- In which phase an operation is awaited. -/
def TickDemand (h : List (Event tickSig)) : TickOp → Prop
  | .tickRunningGet => phaseOf h = .idle
  | .tickRunningSet true => phaseOf h = .tested
  | .tickRunningSet false | .reconcile _ => phaseOf h = .running
  | _ => True

theorem TickOp.steady.demand {op : TickOp} (hop : op.steady) (h : List (Event tickSig)) :
    TickDemand h op := by
  cases op with
  | tickRunningGet => exact hop.elim
  | tickRunningSet b => exact hop.elim
  | reconcile op => exact hop.elim
  | _ => trivial

theorem TickOp.steady.phase {op : TickOp} (hop : op.steady) (r : Except Err op.Ans)
    (p : TickPhase) : p.next ⟨op, r⟩ = p := by
  cases op with
  | tickRunningGet => exact hop.elim
  | tickRunningSet b => exact hop.elim
  | _ => rfl

/-- The program leaves the phase as it is. -/
abbrev KeepsPhase {α : Type} (p : Tick α) : Prop := Always (S := tickSig) (fun _ op => op.steady) p

theorem keepsPhase_own {α : Type} (p : Trade α) : KeepsPhase (own p) :=
  always_embed ownEmb (fun _ => trivial) p

theorem keepsPhase_tickAwait {op : TickOp} (hop : op.steady) : KeepsPhase (tickAwait op) :=
  always_perform fun _ => hop

theorem keepsPhase_now : KeepsPhase (tickAwait (.own .now)) := always_perform fun _ => trivial

theorem keepsPhase_maybeSyncPortfolioOnTick : KeepsPhase maybeSyncPortfolioOnTick := by
  refine always_bind (keepsPhase_own _) fun broker => ?_
  refine always_ite (fun _ => always_ret _) fun _ => ?_
  refine always_bind (keepsPhase_tickAwait trivial) fun now => ?_
  refine always_bind (keepsPhase_tickAwait trivial) fun last => ?_
  refine always_ite (fun _ => always_ret _) fun _ => ?_
  refine always_bind (keepsPhase_tickAwait trivial) fun _ => ?_
  exact always_bind (always_attempt (keepsPhase_own _)) fun _ => always_ret _

theorem keepsPhase_getCircuitBreaker : KeepsPhase getCircuitBreaker := by
  refine always_bind (always_attempt (keepsPhase_tickAwait trivial)) fun r => ?_
  split
  · exact always_ret _
  · exact always_ret _

theorem keepsPhase_saveCb (cb : ReconciliationCircuitBreakerState) : KeepsPhase (saveCb cb) :=
  keepsPhase_tickAwait trivial

theorem keepsPhase_handleTickFailure (e : Err) (cb : ReconciliationCircuitBreakerState) :
    KeepsPhase (handleTickFailure e cb) := by
  refine always_bind (keepsPhase_tickAwait trivial) fun now => ?_
  refine always_bind (keepsPhase_saveCb _) fun _ => ?_
  refine always_ite (fun _ => ?_) fun _ => always_ret _
  refine always_bind (always_attempt (keepsPhase_own _)) fun _ => ?_
  exact always_bind (always_attempt (keepsPhase_own _)) fun _ => always_ret _

section Demand

variable {α β : Type} {h : List (Event tickSig)} {φ : TickPhase}

/-- The runs of a program that respect the demand and end in a phase. -/
abbrev InPhase (φ : TickPhase) (p : Tick α) (h : List (Event tickSig)) : Prop :=
  p.Wp (histSem tickSig) TickDemand (fun _ h => phaseOf h = φ) h

theorem KeepsPhase.inPhase {p : Tick α} (hp : KeepsPhase p) (hh : phaseOf h = φ) : InPhase φ p h := by
  refine wp_mono (fun h op hop => hop.1.demand h) (fun _ _ hφ => hφ)
    (Always.carries (S := tickSig) hp (fun h e hφ he => ?_) hh)
  rw [phaseOf_snoc, hφ]
  exact he.phase e.2 φ

theorem inPhase_reconcile (p : Trade α) (hh : phaseOf h = .running) :
    InPhase .running (p.embed reconcileEmb) h := by
  have hops : Always (S := tickSig) (fun _ op => ∃ o, op = .reconcile o) (p.embed reconcileEmb) :=
    always_embed reconcileEmb (fun o => ⟨o, rfl⟩) p
  refine wp_mono ?_ (fun _ _ hφ => hφ)
    (Always.carries (S := tickSig) (I := fun h => phaseOf h = .running) hops ?_ hh)
  · rintro h op ⟨⟨o, rfl⟩, hφ⟩
    exact hφ
  · rintro h ⟨op, r⟩ hφ ⟨o, rfl⟩
    rw [phaseOf_snoc, hφ]
    rfl

theorem inPhase_bind {p : Tick α} {f : α → Tick β} (hp : InPhase φ p h)
    (hf : ∀ a h, phaseOf h = φ → InPhase φ (f a) h) : InPhase φ (p >>= f) h :=
  wp_bind_of hp hf fun _ _ hφ => hφ

theorem inPhase_attempt {p : Tick α} (hp : InPhase φ p h) : InPhase φ p.attempt h :=
  (wp_attempt p h).2 hp

theorem demand_guardedReconciliation (cb : ReconciliationCircuitBreakerState)
    (hh : phaseOf h = .tested) : (guardedReconciliation cb).Wp (histSem tickSig) TickDemand
      (fun _ _ => True) h := by
  refine wp_perform_bind.2 ⟨hh, ?_⟩
  rintro r h' rfl
  cases r with
  | error e => trivial
  | ok _ =>
    have hrun : phaseOf (h ++ [⟨.tickRunningSet true, .ok ()⟩]) = .running := by
      rw [phaseOf_snoc]
      rfl
    refine wp_bind_of (P := fun _ h => phaseOf h = .running) (inPhase_attempt ?_) ?_
      fun _ _ _ => trivial
    · refine inPhase_bind (inPhase_attempt ?_) fun done h hφ => ?_
      · refine inPhase_bind (inPhase_reconcile _ hrun) fun _ h hφ => ?_
        refine inPhase_bind (keepsPhase_now.inPhase hφ) fun now h hφ => ?_
        exact (keepsPhase_saveCb _).inPhase hφ
      · cases done with
        | ok _ => exact hφ
        | error e => exact (keepsPhase_handleTickFailure e cb).inPhase hφ
    · intro outcome h hφ
      refine wp_perform_bind.2 ⟨hφ, ?_⟩
      rintro r h' -
      cases r with
      | error e => trivial
      | ok _ => exact wp_ofOutcome.2 trivial

/-- **In which phases a tick awaits its operations.** -/
theorem demand_tick : tick.Wp (histSem tickSig) TickDemand (fun _ _ => True) [] := by
  refine wp_bind_of (keepsPhase_maybeSyncPortfolioOnTick.inPhase phaseOf_nil) ?_ fun _ _ _ => trivial
  intro _ h hφ
  refine wp_perform_bind.2 ⟨hφ, ?_⟩
  rintro r h' rfl
  rcases r with e | _ | _
  · trivial
  · have hund : phaseOf (h ++ [⟨.tickRunningGet, .ok false⟩]) = .tested := by
      rw [phaseOf_snoc]
      rfl
    refine wp_bind_of (keepsPhase_getCircuitBreaker.inPhase hund) ?_ fun _ _ _ => trivial
    intro cb h hφ
    refine wp_ite (fun _ => ?_) fun _ => demand_guardedReconciliation cb hφ
    refine wp_bind_of (keepsPhase_now.inPhase hφ) ?_ fun _ _ _ => trivial
    intro now h hφ
    refine wp_ite (fun _ => trivial) fun _ => ?_
    refine wp_bind_of ((keepsPhase_saveCb _).inPhase hφ) ?_ fun _ _ _ => trivial
    exact fun _ h hφ => demand_guardedReconciliation _ hφ
  · trivial

end Demand

/-! ## One step -/

section Step

variable {w w' : TickWorld} {xs ys : List (Thread tickSig Unit)} {c : Unit}
  {h : List (Event tickSig)} {op : TickOp} {k : Except Err op.Ans → Tick Unit}
  {r : Except Err op.Ans}

/-- The tick stands between its test of the flag and the reset. -/
def engaged (t : Thread tickSig Unit) : Bool := tested t || runningTick t

theorem runningTick_await :
    runningTick ⟨c, h, .await op k⟩ = true ↔ phaseOf h = .running := by
  simp [runningTick, Prog.finished]

theorem engaged_iff {t : Thread tickSig Unit} :
    engaged t = true ↔ (phaseOf t.hist = .tested ∨ phaseOf t.hist = .running) ∧
      t.rest.finished = false := by
  simp [engaged, tested, runningTick, or_and_right]

theorem engaged_of_next {p : Tick Unit}
    (hnext : (phaseOf h).next ⟨op, r⟩ = phaseOf h ∨ phaseOf h = .tested ∨
      (phaseOf h).next ⟨op, r⟩ = .done)
    (ht : engaged ⟨c, h ++ [⟨op, r⟩], p⟩ = true) : engaged ⟨c, h, .await op k⟩ = true := by
  rw [engaged_iff] at ht ⊢
  simp only [phaseOf_snoc] at ht
  refine ⟨?_, rfl⟩
  rcases hnext with heq | hund | hdone
  · rw [← heq]
    exact ht.1
  · exact .inl hund
  · rw [hdone] at ht
    rcases ht.1 with hcontra | hcontra
    · cases hcontra
    · cases hcontra

/-- At most one tick stands between its test of the flag and the reset, and the flag is set while a
tick runs. -/
structure OneEngaged (w : TickWorld) (ts : List (Thread tickSig Unit)) : Prop where
  one : ts.countP engaged ≤ 1
  flag : ∀ t ∈ ts, runningTick t → w.tickRunning

theorem tickRunning_of_rel (hm : tickSem.rel op w r w') (hop : ∀ b, op ≠ .tickRunningSet b) :
    w'.tickRunning = w.tickRunning := by
  obtain ⟨i, -, hh⟩ := hm
  have hw : (tickHandle i op w).2 = w' := congrArg Prod.snd hh
  rw [← hw]
  cases op with
  | tickRunningSet b => exact absurd rfl (hop b)
  | breakerGet => simp only [tickHandle]; split <;> rfl
  | breakerSet cb => simp only [tickHandle]; split <;> rfl
  | _ => rfl

theorem count_engaged_le {t t' : Thread tickSig Unit} (hle : engaged t' = true → engaged t = true) :
    (xs ++ t' :: ys).countP engaged ≤ (xs ++ t :: ys).countP engaged := by
  simp only [List.countP_append, List.countP_cons]
  by_cases ht' : engaged t' = true
  · simp [ht', hle ht']
  · simp [ht']

theorem oneEngaged_other (hJ : OneEngaged w (xs ++ ⟨c, h, .await op k⟩ :: ys))
    (hnext : (phaseOf h).next ⟨op, r⟩ = phaseOf h) (hflag : w'.tickRunning = w.tickRunning) :
    OneEngaged w' (xs ++ ⟨c, h ++ [⟨op, r⟩], k r⟩ :: ys) := by
  refine ⟨(count_engaged_le fun ht => engaged_of_next (.inl hnext) ht).trans hJ.one, ?_⟩
  rw [hflag]
  refine forall_threads hJ.flag fun ht => ?_
  refine hJ.flag ⟨c, h, .await op k⟩ (by simp) (runningTick_await.2 ?_)
  simp only [runningTick, phaseOf_snoc, hnext, decide_eq_true_eq] at ht
  exact ht.1

theorem count_engaged_eq_zero {ts : List (Thread tickSig Unit)}
    (hund : ∀ t ∈ ts, tested t = false) (hflag : ∀ t ∈ ts, runningTick t → w.tickRunning)
    (hw : w.tickRunning = false) : ts.countP engaged = 0 := by
  refine List.countP_eq_zero.2 fun t ht hhold => ?_
  rw [engaged, hund t ht, Bool.false_or] at hhold
  rw [hflag t ht hhold] at hw
  cases hw

end Step

/-- **One step keeps at most one engaged tick.** -/
theorem oneEngaged_step {w w' : TickWorld} {xs ys : List (Thread tickSig Unit)} {c : Unit}
    {h : List (Event tickSig)} {op : TickOp} {k : Except Err op.Ans → Tick Unit}
    {r : Except Err op.Ans} (hJ : OneEngaged w (xs ++ ⟨c, h, .await op k⟩ :: ys))
    (hop : TickDemand h op) (hg : unraced w (xs ++ ys) ⟨c, h, .await op k⟩ ⟨op, r⟩)
    (hm : tickSem.rel op w r w') : OneEngaged w' (xs ++ ⟨c, h ++ [⟨op, r⟩], k r⟩ :: ys) := by
  cases op with
  | tickRunningGet =>
    obtain ⟨i, -, hh⟩ := hm
    cases hh
    have hidle : phaseOf h = .idle := hop
    cases hw : w.tickRunning with
    | true => exact oneEngaged_other hJ rfl rfl
    | false =>
      have hfree : ∀ t ∈ xs ++ ys, tested t = false := by
        intro t ht
        have hall : (xs ++ ys).all (fun t => !tested t) = true := hg
        simpa using List.all_eq_true.1 hall t ht
      have hrest : (xs ++ ys).countP engaged = 0 :=
        count_engaged_eq_zero hfree (fun t ht => hJ.flag t (by simp at ht ⊢; tauto)) hw
      refine ⟨?_, forall_threads hJ.flag fun ht => ?_⟩
      · simp only [List.countP_append, List.countP_cons] at hrest ⊢
        split <;> omega
      · simp [runningTick, TickPhase.next] at ht
  | tickRunningSet b =>
    obtain ⟨i, -, hh⟩ := hm
    cases hh
    cases b with
    | true =>
      have hund : phaseOf h = .tested := hop
      refine ⟨(count_engaged_le fun ht => engaged_of_next (.inr (.inl hund)) ht).trans hJ.one, ?_⟩
      exact fun _ _ _ => rfl
    | false =>
      have hrun : phaseOf h = .running := hop
      have hone := hJ.one
      have hhold : engaged (⟨c, h, .await (.tickRunningSet false) k⟩ : Thread tickSig Unit) = true :=
        engaged_iff.2 ⟨.inr hrun, rfl⟩
      have hrest : (xs ++ ys).countP engaged = 0 := by
        simp only [List.countP_append, List.countP_cons, hhold, if_true] at hone ⊢
        omega
      refine ⟨(count_engaged_le fun ht => engaged_of_next (.inr (.inr rfl)) ht).trans hone, ?_⟩
      intro t ht hrt
      have hnot : ∀ u ∈ xs ++ ys, runningTick u = false := by
        intro u hu
        have := List.countP_eq_zero.1 hrest u hu
        simp only [engaged, Bool.or_eq_true, not_or, Bool.not_eq_true] at this
        exact this.2
      simp only [List.mem_append, List.mem_cons] at ht hnot
      rcases ht with ht | rfl | ht
      · rw [hnot t (.inl ht)] at hrt
        cases hrt
      · simp [runningTick, TickPhase.next] at hrt
      · rw [hnot t (.inr ht)] at hrt
        cases hrt
  | _ => exact oneEngaged_other hJ rfl (tickRunning_of_rel hm nofun)

/-! ## Runs -/

/-- **At most one call of `reconcileAllOpenOrders` is in progress**, in every interleaving of ticks
in which the flag is tested only while no other tick is between its test and its set. -/
theorem one_reconciliation {w : TickWorld} {P : Pool tickSig Unit TickWorld}
    (hr : Pool.Reaches tickSem (fun _ => tick) (fun w ts t e => unraced w ts t e) ⟨w, []⟩ P) :
    P.threads.countP reconciling ≤ 1 := by
  have hone : OneEngaged P.world P.threads := by
    refine Pool.reaches_threads (J := OneEngaged) (Q := fun _ _ _ => True)
      (fun _ => demand_tick) ?_ ?_ ?_ hr
    · intro w ts c hJ
      refine ⟨?_, fun t ht => ?_⟩
      · have hnew : engaged ⟨c, [], tick⟩ = false := by simp [engaged, tested, runningTick]
        rw [List.countP_append, List.countP_singleton, hnew]
        exact hJ.one
      · rcases List.mem_append.1 ht with ht | ht
        · exact hJ.flag t ht
        · rw [List.mem_singleton.1 ht]
          simp [runningTick]
    · intro w w' xs ys c h op k r hJ hop hg hm
      exact oneEngaged_step hJ hop hg hm
    · exact ⟨Nat.zero_le _, fun t ht => by cases ht⟩
  have hsound := Pool.reaches_sound (Q := fun _ _ _ => True) (fun _ => demand_tick) hr
  refine (List.countP_mono_left fun t ht hrec => ?_).trans hone.one
  obtain ⟨c, h, rest⟩ := t
  rw [reconciling] at hrec
  split at hrec
  · next op k heq =>
    subst heq
    exact engaged_iff.2 ⟨.inr (hsound _ ht).2.1, rfl⟩
  · cases hrec

def idleService : TickWorld := { db := { kv := fun _ => none } }

/-- The moves of the `i`-th tick, each with the default input. -/
def ticking (l : List ℕ) : List (Move Unit TickInput) := l.map fun i => .await i {}

/-- A second tick tests the flag while the first one reconciles, and is skipped. -/
def skippedTick : Option (Pool tickSig Unit TickWorld) :=
  Pool.replay tickHandle (fun _ => tick) unraced
    (.start () :: .start () :: ticking [0, 0, 0, 0, 1, 1, 0]) ⟨idleService, []⟩

theorem skippedTick_isSome : skippedTick.isSome := by decide

/-- At most one call is in progress after the skipped tick. -/
theorem one_reconciliation_skippedTick :
    (skippedTick.get skippedTick_isSome).threads.countP reconciling ≤ 1 :=
  one_reconciliation (w := idleService)
    (Pool.reaches_of_replay (fun _ _ _ _ h => h) (Option.some_get skippedTick_isSome).symm)

/-- Both ticks test the flag before either of them has read the circuit breaker. -/
def racedTicks : Option (Pool tickSig Unit TickWorld) :=
  Pool.replay tickHandle (fun _ => tick) Pool.unchecked
    (.start () :: .start () :: ticking [0, 0, 1, 1, 0, 0, 1, 1]) ⟨idleService, []⟩

theorem racedTicks_reconcile : (racedTicks.map fun P => P.threads.countP reconciling) = some 2 := by
  decide

/-- **Two ticks that read the circuit breaker side by side both reconcile.** -/
theorem overlapping_ticks : ¬ ∀ (w : TickWorld) (P : Pool tickSig Unit TickWorld),
    w.tickRunning = false → Pool.Reaches tickSem (fun _ => tick) Pool.free ⟨w, []⟩ P →
    P.threads.countP reconciling ≤ 1 := by
  intro hall
  obtain ⟨P, hP, hcount⟩ := Option.map_eq_some_iff.1 racedTicks_reconcile
  have hle := hall idleService P rfl (Pool.reaches_of_replay (fun _ _ _ _ _ => trivial) hP)
  omega

end NeoTrader
