import NeoTrader.Await.Invariant
import NeoTrader.Trade.OrderOps

/-!
# The calls of the services, part by part

* `TradeOp.intentWrite`: what the execution of an intent writes itself;
* `Parts`: a modular property that holds of the quiet programs, of the order services, of these
  writes and of the submission of a real order;
* **`Parts.body`**: such a property holds of every call of the services.
-/

namespace NeoTrader

open Js Await Prog

/-- What the execution of an intent writes itself, other than `real_pending`. -/
def TradeOp.intentWrite : TradeOp → Prop
  | intentCreate d => d.status ≠ .realPending
  | intentUpdate _ d => d.status ≠ .realPending
  | portfolioUpsert _ _ => True
  | _ => False

/-- **A property that holds of the parts of the services.** -/
structure Parts (Φ : (α : Type) → Trade α → Prop) : Prop where
  modular : Modular (S := tradeSig) Φ
  order : ∀ {α : Type} {p : Trade α}, Always (S := tradeSig) OrderOp p → Φ α p
  write : ∀ op : TradeOp, op.intentWrite → Φ op.Ans (await op)
  submitReal : ∀ (id symbol : String) (policy : ExecutionPolicy) (side : Side) (qty : Number)
    (decidedBy : String), Φ _ (submitReal id symbol policy side qty decidedBy)

namespace Parts

variable {Φ : (α : Type) → Trade α → Prop} (hΦ : Parts Φ)

include hΦ

theorem quiet {α : Type} {p : Trade α} (hp : Quiet p) : Φ α p := hΦ.order (orderOp_of_quiet hp)

theorem intentUpdate {id : String} {d : IntentPatch} (hd : d.status ≠ .realPending) :
    Φ Unit (do let _ ← await (.intentUpdate id d); return ()) :=
  hΦ.modular.bind (hΦ.write (.intentUpdate id d) hd) fun _ => hΦ.modular.ret _

theorem intentCreate {d : IntentCreate} (hd : d.status ≠ .realPending) :
    Φ TradeIntent (await (.intentCreate d)) := hΦ.write (.intentCreate d) hd

theorem portfolioUpsert (write : PaperWrite) (data : PaperState) :
    Φ Unit (await (.portfolioUpsert write data)) := hΦ.write (.portfolioUpsert write data) trivial

theorem failIntent (id decidedBy : String) (result : ResultJson) :
    Φ _ (failIntent id decidedBy result) := hΦ.intentUpdate nofun

theorem rejectIntent (id decidedBy : String) (reason : Text) :
    Φ _ (rejectIntent id decidedBy reason) := hΦ.intentUpdate nofun

theorem holdIntent (id decidedBy : String) : Φ _ (holdIntent id decidedBy) :=
  hΦ.intentUpdate nofun

/-! ## Real execution -/

theorem placeReal (id symbol : String) (action : TradeAction) (policy : ExecutionPolicy)
    (price : Number) (side : Side) (qty : Number) (decidedBy : String) :
    Φ _ (placeReal id symbol action policy price side qty decidedBy) :=
  Modular.ite (fun _ => hΦ.failIntent _ _ _) fun _ =>
    Modular.ite (fun _ => hΦ.failIntent _ _ _) fun _ => hΦ.submitReal _ _ _ _ _ _

theorem executeReal (id symbol : String) (action : TradeAction) (policy : ExecutionPolicy)
    (realState : Option RealAccountState) (decidedBy : String) (sizingPct : ℚ) :
    Φ _ (executeReal id symbol action policy realState decidedBy sizingPct) := by
  refine hΦ.modular.bind (hΦ.quiet (quiet_checkExecuteRealPreconditions _ _ _)) fun r => ?_
  cases r with
  | some result => exact hΦ.failIntent _ _ _
  | none =>
    refine hΦ.modular.bind (hΦ.quiet (quiet_attempt_await rfl)) fun quote => ?_
    refine Modular.ite (fun _ => hΦ.failIntent _ _ _) fun _ =>
      Modular.ite (fun _ => hΦ.holdIntent _ _) fun _ => ?_
    refine hΦ.modular.bind (hΦ.quiet (quiet_resolveRealSideAndQty _ _ _ _ _ _)) fun r => ?_
    rcases r with result | ⟨side, qty⟩
    · exact hΦ.failIntent _ _ _
    · exact hΦ.placeReal _ _ _ _ _ _ _ _

/-! ## Paper execution -/

theorem evaluatePaperGate (id : String) (s : PaperState) (policy : RiskPolicy) :
    Φ _ (evaluatePaperGate id s policy) := by
  refine hΦ.modular.bind (hΦ.quiet (quiet_evaluateEntryGate s policy)) fun g => ?_
  dsimp only
  split
  · split
    · exact hΦ.modular.bind (hΦ.portfolioUpsert _ _) fun _ => hΦ.modular.ret _
    · exact hΦ.modular.ret _
  · exact hΦ.modular.ret _

theorem evaluateEntryRiskGate (id : String) (mode : Mode) (realState : Option RealAccountState)
    (s : PaperState) (policy : ExecutionPolicy) :
    Φ _ (evaluateEntryRiskGate id mode realState s policy) := by
  unfold NeoTrader.evaluateEntryRiskGate
  split
  · exact hΦ.modular.ret _
  · exact hΦ.modular.throw _
  · exact hΦ.evaluatePaperGate _ _ _

theorem runPaperExecution (id symbol : String) (action : TradeAction) (entry : Entry)
    (decidedBy : String) (sizingPct maxPositionPct maxShortNotionalPct : ℚ) :
    Φ _ (runPaperExecution id symbol action entry decidedBy sizingPct maxPositionPct
      maxShortNotionalPct) := by
  refine hΦ.modular.bind (hΦ.quiet (quiet_attempt_await rfl)) fun quote => ?_
  rcases quote with e | price | _ | _
  · exact hΦ.failIntent _ _ _
  · refine Modular.ite (fun _ => hΦ.failIntent _ _ _) fun _ => ?_
    refine hΦ.modular.bind (hΦ.portfolioUpsert _ _) fun _ => ?_
    refine Modular.ite (fun _ => ?_) fun _ => ?_
    · exact hΦ.intentUpdate nofun
    · exact hΦ.intentUpdate nofun
  · exact hΦ.failIntent _ _ _
  · exact hΦ.failIntent _ _ _

/-! ## Decisions -/

theorem executeDecided (id : String) (intent : TradeIntent) (policy : ExecutionPolicy)
    (mode : Mode) (realState : Option RealAccountState) (entry : Entry) (decidedBy : String)
    (sizingPct : ℚ) :
    Φ _ (executeDecided id intent policy mode realState entry decidedBy sizingPct) := by
  cases mode
  · exact hΦ.runPaperExecution _ _ _ _ _ _ _ _
  · exact hΦ.executeReal _ _ _ _ _ _ _

theorem gateAndExecute (id : String) (intent : TradeIntent) (policy : ExecutionPolicy)
    (mode : Mode) (realState : Option RealAccountState) (s : PaperState) (decidedBy : String)
    (sizingPct : ℚ) :
    Φ _ (gateAndExecute id intent policy mode realState s decidedBy sizingPct) := by
  refine Modular.ite (fun _ => ?_) fun _ => hΦ.executeDecided _ _ _ _ _ _ _ _
  refine hΦ.modular.bind (hΦ.evaluateEntryRiskGate _ _ _ _ _) fun entry => ?_
  split
  · exact hΦ.rejectIntent _ _ _
  · exact hΦ.executeDecided _ _ _ _ _ _ _ _

theorem processInMode (id : String) (intent : TradeIntent) (policy : ExecutionPolicy) (mode : Mode)
    (decidedBy : String) (sizingPct : ℚ) :
    Φ _ (processInMode id intent policy mode decidedBy sizingPct) := by
  refine hΦ.modular.bind (hΦ.quiet (quiet_await rfl)) fun row => ?_
  refine Modular.ite (fun _ => hΦ.holdIntent _ _) fun _ => ?_
  refine hΦ.modular.bind (hΦ.quiet (quiet_realStateIn _ _)) fun realState => ?_
  exact Modular.ite (fun _ => hΦ.failIntent _ _ _) fun _ => hΦ.gateAndExecute _ _ _ _ _ _ _ _

theorem processIntent (id verb decidedBy : String) (sizing : ExecutionPolicy → ℚ) :
    Φ _ (processIntent id verb decidedBy sizing) := by
  refine hΦ.modular.bind (hΦ.quiet (quiet_pendingIntent _ _)) fun intent => ?_
  refine hΦ.modular.bind (hΦ.quiet quiet_readExecutionPolicy) fun policy => ?_
  refine hΦ.modular.bind (hΦ.quiet (quiet_resolveMode _ _ _ _)) fun r => ?_
  cases r with
  | failed result => exact hΦ.failIntent _ _ _
  | mode mode => exact hΦ.processInMode _ _ _ _ _ _

theorem reject (id decidedBy reason : String) : Φ _ (reject id decidedBy reason) :=
  hΦ.modular.bind (hΦ.quiet (quiet_pendingIntent _ _)) fun _ => hΦ.rejectIntent _ _ _

theorem recordIntent (dto : IntentDto) : Φ _ (recordIntent dto) := by
  refine hΦ.modular.bind (hΦ.modular.ofOutcome _) fun ⟨action, confidence⟩ => ?_
  refine hΦ.modular.bind (hΦ.quiet (quiet_priorInCycle _ _)) fun prior => ?_
  cases prior with
  | some prior =>
    exact hΦ.modular.bind (hΦ.intentCreate nofun) fun _ => hΦ.modular.ret _
  | none =>
    refine hΦ.modular.bind (hΦ.intentCreate nofun) fun created => ?_
    refine hΦ.modular.bind (hΦ.quiet quiet_readExecutionPolicy) fun policy => ?_
    exact Modular.ite (fun _ => hΦ.processIntent _ _ _ _) fun _ => hΦ.modular.ret _

/-- **What holds of the parts holds of every call of the services.** -/
theorem body (c : ServiceCall) : Φ _ c.body := by
  cases c with
  | recordIntent dto => exact hΦ.recordIntent dto
  | autoProcess id => exact hΦ.processIntent _ _ _ _
  | approve id decidedBy => exact hΦ.processIntent _ _ _ _
  | reject id decidedBy reason => exact hΦ.reject _ _ _
  | executeReal => exact hΦ.executeReal _ _ _ _ _ _ _
  | submit args => exact hΦ.order (always_bind (orderOp_submit args) fun _ => always_ret _)
  | recoverInflight => exact hΦ.order orderOp_recoverInflight
  | reconcileOrder id => exact hΦ.order (orderOp_reconcileOrder id)
  | fastPollOrder id => exact hΦ.order (orderOp_fastPollOrder id)
  | reconcileAllOpenOrders => exact hΦ.order orderOp_reconcileAllOpenOrders
  | syncPortfolio broker source =>
    exact hΦ.order (always_bind (orderOp_syncPortfolio broker source) fun _ => always_ret _)

end Parts

end NeoTrader
