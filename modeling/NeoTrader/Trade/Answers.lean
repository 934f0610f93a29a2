import NeoTrader.Await.Invariant
import NeoTrader.Trade.Quiet

/-!
# Runs in which the database answers

The runs of a call in which no database statement fails and the outside world answers as a condition
on the oracles says.

* `portfolioOf`, **`ends_getPortfolio`**: the broker's portfolio is a function of the outcomes of the
  two requests behind it.
-/

namespace NeoTrader

open Js Await Prog

/-- The database does not fail, and `A` says what else an operation may meet. -/
def answering (A : Oracle → TradeOp → World → Prop) : Sem tradeSig World :=
  Sem.ofHandler handle fun o op w => o.dbError = none ∧ A o op w

/-- **Every complete run of the program ends in `Q`.** -/
abbrev Ends {α : Type} (A : Oracle → TradeOp → World → Prop) (Q : Except Err α → World → Prop) (p : Trade α)
    (w : World) : Prop := p.Wp (answering A) (fun _ _ => True) Q w

section Rules

variable {α β : Type} {A : Oracle → TradeOp → World → Prop} {w : World}

/-! ## Queries -/

theorem db_answers {o : Oracle} {x : Except Err (α × World)} {y : α × World} {r : Except Err α}
    {w' : World} (ho : o.dbError = none) (hx : x = .ok y) (h : db o w x = (r, w')) :
    r = .ok y.1 ∧ w' = y.2 := by
  simp only [db, ho, hx, Prod.mk.injEq] at h
  exact ⟨h.1.symm, h.2.symm⟩

theorem query_answers {o : Oracle} {a : α} {r : Except Err α} {w' : World} (ho : o.dbError = none)
    (h : query o w a = (r, w')) : r = .ok a ∧ w' = w := db_answers ho rfl h

theorem ends_query {op : TradeOp} {a : op.Ans} {Q : Except Err β → World → Prop}
    {f : op.Ans → Trade β} (hop : ∀ o, handle o op w = query o w a) (hf : Ends A Q (f a) w) :
    Ends A Q (await op >>= f) w := by
  refine wp_perform_bind.2 ⟨trivial, ?_⟩
  rintro r w' ⟨o, ⟨ho, -⟩, hh⟩
  obtain ⟨rfl, rfl⟩ := query_answers ho ((hop o).symm.trans hh)
  exact hf

/-- The operation leaves the whole world as it is. -/
def TradeOp.reads : TradeOp → Bool
  | now | randomUUID | delay _ | kvGet _ | intentFindUnique _ | intentFindInCycle _ _ _
  | portfolioFind | navFindLatest _ | positionCount _ | strategyFind _ | auditLog _ _ _
  | alertsGetActive | orderFindUnique _ | orderFindActiveForIntent _
  | orderFindActiveForSymbol _ _ _ _ | orderFindFilled _ _ | orderFindMany _ | orderFindStale _
  | absentCountGet _ | providerGet _ | providerDefault | request _ _ | getQuote _
  | getOrderStatus _ _ | getOrderByClientId _ _ | cancelOrder _ _ | startFastPoll _ => true
  | _ => false

theorem handle_reads {o : Oracle} {op : TradeOp} {w w' : World} {r : Except Err op.Ans}
    (hop : op.reads) (h : handle o op w = (r, w')) : w' = w := by
  cases op with
  | kvSet | intentCreate | intentUpdate | portfolioUpsert | syncTransaction | alertsCreate
  | orderCreate | orderUpdate | orderUpdateMany | orderTransaction | submitFailuresReset
  | submitFailuresRecord | absentCountSet | placeOrder => exact absurd hop Bool.false_ne_true
  | _ =>
    first
      | exact (query_cases h).1
      | (cases h; rfl)

theorem ends_always {p : Trade α} {pre : TradeOp → Prop} {I : World → Prop}
    (hp : Always (S := tradeSig) (fun _ op => pre op) p)
    (hI : ∀ o op w w' r, pre op → handle o op w = (r, w') → I w → I w') (hw : I w) :
    Ends A (fun _ => I) p w := by
  have hkeeps : p.Keeps (answering A) I := by
    refine Always.keeps (K := fun _ _ => True) hp ?_
    rintro w₁ w₂ h op r hw₁ - hop ⟨o, -, hh⟩
    exact ⟨hI o op w₁ w₂ r hop hh hw₁, trivial, fun _ _ => trivial⟩
  exact wp_mono (fun _ _ _ => trivial) (fun _ _ h => h) (hkeeps w hw)

theorem ends_read_attempt {op : TradeOp} {f : Except Err op.Ans → Trade β}
    {Q : Except Err β → World → Prop} (hop : op.reads) (hf : ∀ r, Ends A Q (f r) w) :
    Ends A Q ((await op).attempt >>= f) w := by
  refine wp_attempt_perform_bind.2 ⟨trivial, ?_⟩
  rintro r w' ⟨o, -, hh⟩
  rw [handle_reads hop hh]
  exact hf r

theorem ends_clock {f : ℤ → Trade β} {Q : Except Err β → World → Prop}
    (hf : ∀ now, Ends A Q (f now) w) : Ends A Q (await .now >>= f) w := by
  refine wp_perform_bind.2 ⟨trivial, ?_⟩
  rintro r w' ⟨o, -, hh⟩
  cases hh
  exact hf o.time

/-! ## The intent, the policy and the account -/

theorem ends_pendingIntent {id verb : String} {t : TradeIntent} {Q : Except Err TradeIntent →
    World → Prop} (ht : w.intent? id = some t) (hp : t.status = .pending) (hQ : Q (.ok t) w) :
    Ends A Q (pendingIntent id verb) w := by
  refine ends_query (fun _ => rfl) ?_
  rw [ht]
  dsimp only
  rw [if_pos hp]
  exact hQ

/-- The stored settings of the policy. -/
def World.settings (w : World) : PolicySettings :=
  { autonomous := w.kv (policyKey "autonomous")
    maxPositionPct := w.kv (policyKey "max_position_pct")
    maxOpenPositions := w.kv (policyKey "max_open_positions")
    maxDrawdownHaltPct := w.kv (policyKey "max_drawdown_halt_pct")
    real := w.kv (policyKey "real")
    brokerPluginId := w.kv (policyKey "broker_plugin_id")
    maxOrderNotional := w.kv (policyKey "max_order_notional")
    maxShortNotionalPct := w.kv (policyKey "max_short_notional_pct")
    allowRealShort := w.kv (policyKey "allow_real_short")
    lossCircuitBreakerEnabled := w.kv (policyKey "loss_circuit_breaker_enabled")
    maxDailyLossPct := w.kv (policyKey "max_daily_loss_pct")
    maxWeeklyLossPct := w.kv (policyKey "max_weekly_loss_pct") }

@[irreducible] def World.policy (w : World) : ExecutionPolicy := policyOf w.settings

theorem ends_readExecutionPolicy {Q : Except Err ExecutionPolicy → World → Prop}
    (hQ : Q (.ok w.policy) w) : Ends A Q readExecutionPolicy w := by
  rw [World.policy] at hQ
  unfold readExecutionPolicy
  iterate 12 refine ends_query (fun _ => rfl) ?_
  exact hQ

/-- **A pending intent is executed in the mode that it is resolved to**, or its failure is written. -/
theorem ends_processIntent {id verb decidedBy : String} {sizing : ExecutionPolicy → ℚ}
    {t : TradeIntent} {Q : Except Err Unit → World → Prop} (ht : w.intent? id = some t)
    (hp : t.status = .pending) (mode : ModeResult)
    (hmode : Ends A (fun r w' => r = .ok mode ∧ w' = w)
      (resolveMode w.policy id t.symbol t.action) w)
    (hrest : match mode with
      | .mode mode => Ends A Q (processInMode id t w.policy mode decidedBy (sizing w.policy)) w
      | .failed result => Ends A Q (failIntent id decidedBy result) w) :
    Ends A Q (processIntent id verb decidedBy sizing) w := by
  refine (wp_bind _ _).2 (ends_pendingIntent ht hp ?_)
  refine (wp_bind _ _).2 (ends_readExecutionPolicy ?_)
  refine wp_bind_of hmode ?_ ?_
  · rintro r w' ⟨hr, rfl⟩
    cases hr
    cases mode
    · exact hrest
    · exact hrest
  · rintro e w' ⟨hr, -⟩
    cases hr

theorem ends_readClamped {key : String} {default lo hi : ℚ} {Q : Except Err ℚ → World → Prop}
    (hQ : ∀ x, Q (.ok x) w) : Ends A Q (readClamped key default lo hi) w :=
  ends_read_attempt rfl fun _ => hQ _

theorem ends_getRealAccountState {brokerPluginId : String}
    {Q : Except Err (Option RealAccountState) → World → Prop} (hQ : ∀ s, Q (.ok s) w) :
    Ends A Q (getRealAccountState brokerPluginId) w := by
  have hnav? (o : Oracle) : handle o (.navFindLatest brokerPluginId) w =
      query o w (w.latestNav? brokerPluginId) := rfl
  refine ends_query hnav? ?_
  cases w.latestNav? brokerPluginId with
  | none => exact hQ _
  | some snapshot =>
    refine ends_clock fun now => ?_
    refine (wp_bind _ _).2 (ends_readClamped fun maxAgeMs => ?_)
    refine wp_ite (fun _ => hQ _) fun _ => ?_
    exact ends_query (fun _ => rfl) (hQ _)

/-! ## The broker's portfolio -/

/-- The body that a declared request leaves: a failure counts as the default. -/
def bodyOr (m : ProviderManifest) (endpoint : String) (default : Json) (r : Except Err Json) : Json :=
  if m.declares endpoint then r.toOption.getD default else default

/-- **The portfolio of the outcomes of the two requests.** -/
def portfolioOf (m : ProviderManifest) (account positions : Except Err Json) :
    Except Err Portfolio :=
  if ¬ m.declares "portfolio" ∧ ¬ m.declares "positions" then .ok (emptyPortfolio m.id)
  else normalizePortfolio (bodyOr m "portfolio" .null account)
    (bodyOr m "positions" (.arr []) positions) m.format m.id

theorem bodyOr_declared {m : ProviderManifest} {endpoint : String} {default : Json}
    {r : Except Err Json} (h : m.declares endpoint) :
    bodyOr m endpoint default r = r.toOption.getD default := if_pos h

theorem bodyOr_undeclared {m : ProviderManifest} {endpoint : String} {default : Json}
    {r : Except Err Json} (h : ¬ m.declares endpoint) : bodyOr m endpoint default r = default :=
  if_neg h

/-- A declared request may have the outcome. -/
def Answered (A : Oracle → TradeOp → World → Prop) (w : World) (m : ProviderManifest) (endpoint : String)
    (r : Except Err Json) : Prop :=
  m.declares endpoint → ∃ o, A o (.request m.id endpoint) w ∧ o.ext (.request m.id endpoint) = r

theorem ends_requestOr {m : ProviderManifest} {endpoint : String} {default : Json}
    {Q : Except Err Json → World → Prop}
    (hQ : ∀ r, Answered A w m endpoint r → Q (.ok (bodyOr m endpoint default r)) w) :
    Ends A Q (requestOr m endpoint default) w := by
  unfold requestOr
  refine wp_ite (fun hd => ?_) fun hd => ?_
  · refine wp_attempt_perform_bind.2 ⟨trivial, ?_⟩
    rintro r w' ⟨o, ⟨-, ho⟩, hh⟩
    have hw : w' = w := handle_reads rfl hh
    have hr : o.ext (.request m.id endpoint) = r := congrArg Prod.fst hh
    rw [hw]
    cases r with
    | ok body =>
      have hbody := hQ (.ok body) fun _ => ⟨o, ho, hr⟩
      rw [bodyOr_declared hd] at hbody
      exact hbody
    | error e =>
      have hbody := hQ (.error e) fun _ => ⟨o, ho, hr⟩
      rw [bodyOr_declared hd] at hbody
      exact hbody
  · have hbody := hQ (.error (err [])) fun h => absurd h hd
    rw [bodyOr_undeclared hd] at hbody
    exact hbody

theorem ends_resolveManifest {m : ProviderManifest} {pluginId : String} (hid : pluginId ≠ "")
    (hm : w.providers pluginId = some m) {Q : Except Err ProviderManifest → World → Prop}
    (hQ : Q (.ok m) w) : Ends A Q (resolveManifest pluginId) w := by
  unfold resolveManifest
  rw [if_neg hid]
  refine wp_perform_bind.2 ⟨trivial, ?_⟩
  rintro r w' ⟨o, -, hh⟩
  cases hh
  rw [hm]
  exact hQ

/-- **The broker's portfolio is a function of the two outcomes.** -/
theorem ends_getPortfolio {m : ProviderManifest} {pluginId : String} (hid : pluginId ≠ "")
    (hm : w.providers pluginId = some m) {Q : Except Err Portfolio → World → Prop}
    (hQ : ∀ account positions, Answered A w m "portfolio" account →
      Answered A w m "positions" positions → Q (portfolioOf m account positions) w) :
    Ends A Q (getPortfolio pluginId) w := by
  refine (wp_bind _ _).2 (ends_resolveManifest hid hm ?_)
  refine wp_ite (fun hd => ?_) fun hd => ?_
  · have hempty := hQ (.error (err [])) (.error (err [])) (fun h => absurd h hd.1)
      fun h => absurd h hd.2
    rw [portfolioOf, if_pos hd] at hempty
    exact hempty
  · refine (wp_bind _ _).2 (ends_requestOr fun account haccount => ?_)
    refine (wp_bind _ _).2 (ends_requestOr fun positions hpositions => ?_)
    have hnormal := hQ account positions haccount hpositions
    rw [portfolioOf, if_neg hd] at hnormal
    exact wp_ofOutcome.2 hnormal

/-! ## Programs that hand no order to the broker -/

/-- The program hands no order to the broker. -/
abbrev NoOrder (p : Trade α) : Prop := Always (S := tradeSig) (fun _ op => op.placed = []) p

theorem noOrder_of_quiet {p : Trade α} (hp : Quiet p) : NoOrder p := by
  refine hp.mono fun _ op hop => ?_
  cases op with
  | placeOrder => exact absurd hop Bool.false_ne_true
  | _ => rfl

theorem ends_noOrder {p : Trade α} {placed : List PlacedOrder} (hp : NoOrder p)
    (hw : w.placed = placed) : Ends A (fun _ w' => w'.placed = placed) p w := by
  refine ends_always hp (fun o op w w' r hop hh hw => ?_) hw
  have hop : op.placed = [] := hop
  rw [(handle_logs hh).placed, hop, List.append_nil, hw]

theorem noOrder_note (rowId : String) (d : OrderPatch) {f : Except Err RealOrder → Trade RealOrder}
    (hf : ∀ r, NoOrder (f r)) : NoOrder ((await (.orderUpdate rowId d)).attempt >>= f) :=
  always_bind (always_attempt (always_perform fun _ => rfl)) hf

theorem noOrder_decide' (id decidedBy : String) (status : IntentStatus) (result : ResultJson) :
    NoOrder (decide' id decidedBy status result) :=
  always_bind (always_perform fun _ => rfl) fun _ => always_ret ()

theorem noOrder_runPaperExecution (id symbol : String) (action : TradeAction) (entry : Entry)
    (decidedBy : String) (sizingPct maxPositionPct maxShortNotionalPct : ℚ) :
    NoOrder (runPaperExecution id symbol action entry decidedBy sizingPct maxPositionPct
      maxShortNotionalPct) := by
  refine always_bind (always_attempt (always_perform fun _ => rfl)) fun quote => ?_
  rcases quote with e | price | _ | _
  · exact noOrder_decide' _ _ _ _
  · refine always_ite (fun _ => noOrder_decide' _ _ _ _) fun _ => ?_
    refine always_bind (always_perform fun _ => rfl) fun _ => ?_
    refine always_ite (fun _ => noOrder_decide' _ _ _ _) fun _ => ?_
    exact always_bind (always_perform fun _ => rfl) fun _ => always_ret ()
  · exact noOrder_decide' _ _ _ _
  · exact noOrder_decide' _ _ _ _

theorem noOrder_update (id : String) (d : IntentPatch) :
    NoOrder (do let _ ← await (.intentUpdate id d); return () : Trade Unit) :=
  always_bind (always_perform fun _ => rfl) fun _ => always_ret ()

theorem noOrder_evaluatePaperGate (id : String) (s : PaperState) (policy : RiskPolicy) :
    NoOrder (evaluatePaperGate id s policy) := by
  refine always_bind (noOrder_of_quiet (quiet_evaluateEntryGate s policy)) fun g => ?_
  dsimp only
  split
  · refine always_ite (fun _ => ?_) fun _ => always_ret _
    exact always_bind (always_perform fun _ => rfl) fun _ => always_ret _
  · exact always_ret _

/-- **An execution on paper hands no order to the broker.** -/
theorem noOrder_processInMode_paper (id : String) (intent : TradeIntent) (policy : ExecutionPolicy)
    (decidedBy : String) (sizingPct : ℚ) :
    NoOrder (processInMode id intent policy .paper decidedBy sizingPct) := by
  refine always_bind (always_perform fun _ => rfl) fun row => ?_
  refine always_ite (fun _ => noOrder_update _ _) fun _ => ?_
  refine always_ite (fun _ => ?_) fun _ => noOrder_runPaperExecution _ _ _ _ _ _ _ _
  refine always_bind (noOrder_evaluatePaperGate _ _ _) fun entry => ?_
  split
  · exact noOrder_update _ _
  · exact noOrder_runPaperExecution _ _ _ _ _ _ _ _

end Rules

end NeoTrader
