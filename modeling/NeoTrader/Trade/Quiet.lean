import NeoTrader.Trade.Steps
import NeoTrader.Trade.TradeIntent

/-!
# What the services only look at

Most of what the services await changes no intent, no order row, no paper account and sends no
order. The functions that await nothing else are collected here, so that a proof about the tables
only has to follow the writes.

* `TradeOp.quiet`, `handle_quiet`, `Quiet`;
* `TradeOp.consults`, `Consulting`: what comes before the paper account is read;
* one lemma for each quiet function of the services.
-/

namespace NeoTrader

open Js Await Prog

/-- The operation changes no intent, no order row, not the paper account, not the cached broker
account, and sends no order. -/
def TradeOp.quiet : TradeOp → Bool
  | intentCreate _ | intentUpdate _ _ | portfolioUpsert _ _ | syncTransaction _ _ _
  | orderCreate _ | orderUpdate _ _ | orderUpdateMany _ _ _ | orderTransaction _ _ _ _ _
  | placeOrder _ _ _ => false
  | _ => true

/-- The parts of the world that a quiet operation leaves alone. -/
structure SameLedger (w w' : World) : Prop where
  intents : w'.intents = w.intents
  orders : w'.orders = w.orders
  portfolio : w'.portfolio = w.portfolio
  paperLog : w'.paperLog = w.paperLog
  placed : w'.placed = w.placed
  positions : w'.positions = w.positions
  navs : w'.navs = w.navs

theorem SameLedger.refl (w : World) : SameLedger w w := ⟨rfl, rfl, rfl, rfl, rfl, rfl, rfl⟩

theorem SameLedger.trans {w w' w'' : World} (h : SameLedger w w') (h' : SameLedger w' w'') :
    SameLedger w w'' :=
  ⟨h'.1.trans h.1, h'.2.trans h.2, h'.3.trans h.3, h'.4.trans h.4, h'.5.trans h.5, h'.6.trans h.6,
    h'.7.trans h.7⟩

theorem handle_quiet {o : Oracle} {op : TradeOp} {w w' : World} {r : Except Err op.Ans}
    (hq : op.quiet) (h : handle o op w = (r, w')) : SameLedger w w' := by
  cases op with
  | intentCreate | intentUpdate | portfolioUpsert | syncTransaction | orderCreate | orderUpdate
  | orderUpdateMany | orderTransaction | placeOrder => exact absurd hq Bool.false_ne_true
  | _ =>
    first
      | (obtain ⟨rfl, -⟩ := query_cases h; exact .refl _)
      | (rcases db_cases h with ⟨rfl, -⟩ | ⟨a, hx, -⟩
         · exact .refl _
         · cases hx
           exact ⟨rfl, rfl, rfl, rfl, rfl, rfl, rfl⟩)
      | (cases h; exact ⟨rfl, rfl, rfl, rfl, rfl, rfl, rfl⟩)

/-- The program awaits quiet operations only, whatever it is answered. -/
abbrev Quiet {α : Type} (p : Trade α) : Prop := Always (S := tradeSig) (fun _ op => op.quiet) p

theorem quiet_await {op : TradeOp} (h : op.quiet) : Quiet (await op) := always_perform fun _ => h

theorem quiet_attempt_await {op : TradeOp} (h : op.quiet) : Quiet (await op).attempt :=
  always_attempt (quiet_await h)

theorem quiet_await_bind {α : Type} {op : TradeOp} (h : op.quiet) {f : op.Ans → Trade α}
    (hf : ∀ a, Quiet (f a)) : Quiet (await op >>= f) := always_bind (quiet_await h) hf

theorem quiet_attempt_await_bind {α : Type} {op : TradeOp} (h : op.quiet)
    {f : Except Err op.Ans → Trade α} (hf : ∀ a, Quiet (f a)) : Quiet ((await op).attempt >>= f) :=
  always_bind (quiet_attempt_await h) hf

/-! ## The gateway -/

/-- The operation asks the provider gateway. -/
def TradeOp.gateway : TradeOp → Bool
  | providerGet _ | providerDefault | request _ _ => true
  | _ => false

/-- The program asks the provider gateway only. -/
abbrev AsksGateway {α : Type} (p : Trade α) : Prop :=
  Always (S := tradeSig) (fun _ op => op.gateway) p

theorem quiet_of_gateway {α : Type} {p : Trade α} (hp : AsksGateway p) : Quiet p := by
  refine hp.mono fun _ op hop => ?_
  cases op with
  | providerGet | providerDefault | request => rfl
  | _ => exact absurd hop Bool.false_ne_true

theorem asksGateway_resolveManifest (pluginId : String) : AsksGateway (resolveManifest pluginId) := by
  unfold resolveManifest
  split
  · refine always_bind (always_perform fun _ => rfl) fun m => ?_
    cases m
    · exact always_throw _
    · exact always_ret _
  · refine always_bind (always_perform fun _ => rfl) fun m => ?_
    cases m
    · exact always_throw _
    · exact always_ret _

theorem asksGateway_requestOr (m : ProviderManifest) (endpoint : String) (default : Json) :
    AsksGateway (requestOr m endpoint default) := by
  unfold requestOr
  split
  · refine always_bind (always_attempt (always_perform fun _ => rfl)) fun r => ?_
    cases r <;> exact always_ret _
  · exact always_ret _

theorem asksGateway_getPortfolio (pluginId : String) : AsksGateway (getPortfolio pluginId) := by
  refine always_bind (asksGateway_resolveManifest pluginId) fun m => ?_
  split
  · exact always_ret _
  · exact always_bind (asksGateway_requestOr _ _ _) fun _ =>
      always_bind (asksGateway_requestOr _ _ _) fun _ => always_ofOutcome _

theorem quiet_getPortfolio (pluginId : String) : Quiet (getPortfolio pluginId) :=
  quiet_of_gateway (asksGateway_getPortfolio pluginId)

/-! ## Orders -/

theorem quiet_isRealExecutionHalted : Quiet isRealExecutionHalted :=
  quiet_await_bind rfl fun _ => always_ret _

theorem quiet_haltRealExecution (reason : String) : Quiet (haltRealExecution reason) :=
  quiet_await_bind rfl fun _ => quiet_await rfl

theorem quiet_generateClientOrderId (tradeIntentId : String) :
    Quiet (generateClientOrderId tradeIntentId) :=
  quiet_await_bind rfl fun _ => always_ret _

theorem quiet_recordSubmitFailureAndMaybeHalt : Quiet recordSubmitFailureAndMaybeHalt := by
  refine quiet_await_bind rfl fun n => ?_
  split
  · exact always_ret _
  · exact always_bind (always_attempt (quiet_haltRealExecution _)) fun _ => always_ret _

theorem quiet_lookupBrokerOrder (row : RealOrder) : Quiet (lookupBrokerOrder row) := by
  unfold lookupBrokerOrder
  split
  · exact quiet_await_bind rfl fun _ => always_ret _
  · exact quiet_await rfl

theorem quiet_cancelStaleOrder (timeoutMs : ℚ) (row : RealOrder) :
    Quiet (cancelStaleOrder timeoutMs row) := by
  unfold cancelStaleOrder
  split
  · exact always_ret _
  · refine always_bind (always_attempt ?_) fun _ => always_ret _
    exact quiet_await_bind rfl fun _ => quiet_attempt_await_bind rfl fun _ => always_ret _

theorem quiet_cancelStaleOpenOrders : Quiet cancelStaleOpenOrders := by
  refine always_bind ?_ fun timeoutMs => quiet_await_bind rfl fun _ => quiet_await_bind rfl fun _ =>
    always_forEach (quiet_cancelStaleOrder timeoutMs)
  refine quiet_attempt_await_bind rfl fun r => ?_
  cases r <;> exact always_ret _

theorem quiet_detectDrift (positions : List Position) (brokerPluginId : String) :
    Quiet (detectDrift positions brokerPluginId) := by
  unfold detectDrift
  split
  · exact always_ret _
  refine quiet_await_bind rfl fun alerts => always_bind (always_collect fun pos => ?_) fun _ => ?_
  · refine quiet_await_bind rfl fun row => ?_
    cases row
    · dsimp only
      split
      · exact always_ret _
      · exact quiet_attempt_await_bind rfl fun _ => always_ret _
    · exact always_ret _
  · split
    · exact always_ret _
    · exact always_bind (always_attempt (quiet_haltRealExecution _)) fun _ => always_ret _

/-! ## Policy and gates -/

/-- The operations that look up an intent, the settings, the applied strategy and the broker's
account. -/
def TradeOp.consults : TradeOp → Bool
  | now | kvGet _ | intentFindUnique _ | strategyFind _ | auditLog _ _ _ | providerGet _
  | providerDefault | request _ _ => true
  | _ => false

/-- The program looks up only what settles whether and where an intent is executed. -/
abbrev Consulting {α : Type} (p : Trade α) : Prop :=
  Always (S := tradeSig) (fun _ op => op.consults) p

theorem quiet_of_consulting {α : Type} {p : Trade α} (hp : Consulting p) : Quiet p := by
  refine hp.mono fun _ op hop => ?_
  cases op with
  | now | kvGet | intentFindUnique | strategyFind | auditLog | providerGet | providerDefault
  | request => rfl
  | _ => exact absurd hop Bool.false_ne_true

theorem consulting_getPortfolio (pluginId : String) : Consulting (getPortfolio pluginId) := by
  refine (asksGateway_getPortfolio pluginId).mono fun _ op hop => ?_
  cases op with
  | providerGet | providerDefault | request => rfl
  | _ => exact absurd hop Bool.false_ne_true

theorem consulting_await_bind {α : Type} {op : TradeOp} (h : op.consults) {f : op.Ans → Trade α}
    (hf : ∀ a, Consulting (f a)) : Consulting (await op >>= f) :=
  always_bind (always_perform fun _ => h) hf

theorem consulting_attempt_await_bind {α : Type} {op : TradeOp} (h : op.consults)
    {f : Except Err op.Ans → Trade α} (hf : ∀ a, Consulting (f a)) :
    Consulting ((await op).attempt >>= f) :=
  always_bind (always_attempt (always_perform fun _ => h)) hf

theorem consulting_readExecutionPolicy : Consulting readExecutionPolicy := by
  unfold readExecutionPolicy
  iterate 12 refine consulting_await_bind rfl fun _ => ?_
  exact always_ret _

theorem quiet_readExecutionPolicy : Quiet readExecutionPolicy :=
  quiet_of_consulting consulting_readExecutionPolicy

theorem consulting_readClamped (key : String) (default lo hi : ℚ) :
    Consulting (readClamped key default lo hi) :=
  consulting_attempt_await_bind rfl fun _ => always_ret _

theorem quiet_readClamped (key : String) (default lo hi : ℚ) :
    Quiet (readClamped key default lo hi) :=
  quiet_of_consulting (consulting_readClamped key default lo hi)

theorem consulting_checkWalkForwardGate : Consulting checkWalkForwardGate := by
  refine consulting_attempt_await_bind rfl fun raw => ?_
  split
  · exact always_ret _
  refine consulting_attempt_await_bind rfl fun row => ?_
  rcases row with e | _ | row
  · exact always_ret _
  · exact always_ret _
  dsimp only
  split
  · exact always_ret _
  split
  · exact always_ret _
  refine always_bind (consulting_readClamped _ _ _ _) fun _ =>
    consulting_await_bind rfl fun _ => ?_
  split <;> exact always_ret _

theorem quiet_checkWalkForwardGate : Quiet checkWalkForwardGate :=
  quiet_of_consulting consulting_checkWalkForwardGate

theorem consulting_auditDemotion (intentId : String) (reason : Text) :
    Consulting (auditDemotion intentId reason) :=
  consulting_attempt_await_bind rfl fun _ => always_ret _

theorem consulting_effectiveMode (policy : ExecutionPolicy) (contextId : String)
    (action : TradeAction) : Consulting (effectiveMode policy contextId action) := by
  unfold effectiveMode
  split
  · exact always_ret _
  split
  · exact always_ret _
  refine always_bind consulting_checkWalkForwardGate fun gate => ?_
  cases gate
  · dsimp only
    split
    · exact always_bind (consulting_auditDemotion _ _) fun _ => always_ret _
    · exact always_ret _
  · exact always_bind (consulting_auditDemotion _ _) fun _ => always_ret _

theorem quiet_getRealAccountState (brokerPluginId : String) :
    Quiet (getRealAccountState brokerPluginId) := by
  refine quiet_await_bind rfl fun snapshot => ?_
  cases snapshot
  · exact always_ret _
  refine quiet_await_bind rfl fun _ => always_bind (quiet_readClamped _ _ _ _) fun _ => ?_
  split
  · exact always_ret _
  · exact quiet_await_bind rfl fun _ => always_ret _

theorem quiet_realStateIn (mode : Mode) (brokerPluginId : String) :
    Quiet (realStateIn mode brokerPluginId) := by
  cases mode
  · exact always_ret _
  · exact quiet_getRealAccountState _

/-! ## Intents -/

theorem consulting_resolveMode (policy : ExecutionPolicy) (id symbol : String)
    (action : TradeAction) : Consulting (resolveMode policy id symbol action) := by
  unfold resolveMode
  split
  · refine always_bind (always_attempt (consulting_getPortfolio _)) fun r => ?_
    cases r
    · exact always_ret _
    · dsimp only
      split <;> exact always_ret _
  · exact always_bind (consulting_effectiveMode _ _ _) fun _ => always_ret _

theorem quiet_resolveMode (policy : ExecutionPolicy) (id symbol : String) (action : TradeAction) :
    Quiet (resolveMode policy id symbol action) :=
  quiet_of_consulting (consulting_resolveMode policy id symbol action)

theorem quiet_checkExecuteRealPreconditions (policy : ExecutionPolicy) (action : TradeAction)
    (realState : Option RealAccountState) :
    Quiet (checkExecuteRealPreconditions policy action realState) := by
  refine always_bind ?_ fun halted => ?_
  · unfold entryHalted
    split
    · exact quiet_isRealExecutionHalted
    · exact always_ret _
  iterate 4
    split
    · exact always_ret _
  refine always_bind ?_ fun _ => always_ret _
  unfold entryWalkForwardGate
  split
  · exact quiet_checkWalkForwardGate
  · exact always_ret _

theorem quiet_resolveRealSideAndQty (symbol : String) (action : TradeAction)
    (policy : ExecutionPolicy) (realState : Option RealAccountState) (price : Number)
    (sizingPct : ℚ) :
    Quiet (resolveRealSideAndQty symbol action policy realState price sizingPct) := by
  unfold resolveRealSideAndQty
  split
  · refine always_bind (always_bind (always_attempt (quiet_getPortfolio _)) fun r => ?_) fun r => ?_
    · cases r
      · exact always_ret _
      · dsimp only
        split
        · split <;> exact always_ret _
        · exact always_ret _
    · cases r <;> exact always_ret _
  · split
    · exact always_ret _
    · split <;> exact always_ret _

theorem quiet_openPrices (s : PaperState) : Quiet (openPrices s) := by
  exact always_bind (always_collect fun _ => quiet_attempt_await_bind rfl fun _ => always_ret _)
    fun _ => always_ret _

theorem quiet_auditLossBreakerTrip (trip : Option (Period × Text)) :
    Quiet (auditLossBreakerTrip trip) := by
  unfold auditLossBreakerTrip
  split
  · exact always_ret _
  · exact quiet_attempt_await_bind rfl fun _ => always_ret _

theorem quiet_evaluateEntryGate (s : PaperState) (policy : RiskPolicy) :
    Quiet (evaluateEntryGate s policy) := by
  refine always_bind (quiet_openPrices s) fun prices => ?_
  cases prices
  · exact always_ret _
  · exact quiet_await_bind rfl fun _ => always_bind (quiet_auditLossBreakerTrip _) fun _ =>
      always_ret _

theorem consulting_pendingIntent (id verb : String) : Consulting (pendingIntent id verb) := by
  refine consulting_await_bind rfl fun intent => ?_
  cases intent
  · exact always_throw _
  · dsimp only
    split
    · exact always_ret _
    · exact always_throw _

theorem quiet_pendingIntent (id verb : String) : Quiet (pendingIntent id verb) :=
  quiet_of_consulting (consulting_pendingIntent id verb)

theorem quiet_priorInCycle (dto : IntentDto) (action : TradeAction) :
    Quiet (priorInCycle dto action) := by
  unfold priorInCycle
  split
  · exact quiet_await rfl
  · exact always_ret _

end NeoTrader
