import NeoTrader.Await.Pool
import NeoTrader.Trade.Quiet

/-!
# What a decision awaits

The calls that decide on an intent, and what each of them awaits, whatever it is answered.

* **`decisionOp_body`**: every operation of a decision is one of these.
-/

namespace NeoTrader

open Js Await Prog

inductive DecisionCall
  | autoProcess (id : String)
  | approve (id decidedBy : String)
  | reject (id decidedBy reason : String)

def DecisionCall.intentId : DecisionCall → String
  | autoProcess id | approve id _ | reject id _ _ => id

def DecisionCall.body : DecisionCall → Trade Unit
  | autoProcess id => NeoTrader.autoProcess id
  | approve id decidedBy => NeoTrader.approve id decidedBy
  | reject id decidedBy reason => NeoTrader.reject id decidedBy reason

/-! ## Events -/

/-- A decision makes itself felt: a fill of the paper account, an order, or a status. -/
def TradeOp.touches : TradeOp → Bool
  | portfolioUpsert (.fill _) _ | placeOrder _ _ _ | intentUpdate _ _ => true
  | _ => false

/-- The call has not made itself felt. -/
def Untouched (h : List (Event tradeSig)) : Prop := ∀ e ∈ h, ¬ e.1.touches

/-- The call has read the row of the paper account. -/
def ReadPortfolio (h : List (Event tradeSig)) (row : Option PaperState) : Prop :=
  ⟨.portfolioFind, .ok row⟩ ∈ h

/-- The call has made the fill, after it had read the row. -/
def FilledFrom (h : List (Event tradeSig)) (f : PaperFill) (row : Option PaperState) : Prop :=
  ∃ h₀ data, h₀ ++ [⟨.portfolioUpsert (.fill f) data, .ok ()⟩] <+: h ∧ ReadPortfolio h₀ row

/-- A write on an intent records no fill, or the price and the quantity of one that was made. -/
def Records (h : List (Event tradeSig)) (id : String) (d : IntentPatch) : Prop :=
  (d.fillPrice = none ∧ (d.quantity = none ∨ Untouched h)) ∨
    ∃ f row, FilledFrom h f row ∧ f.intentId = id ∧ d.fillPrice = some f.price ∧
      d.quantity = some (f.fill (row.getD PaperState.initial)).quantity

/-- **What a decision on an intent awaits.** It makes itself felt once, and on its own intent; what
it writes on the paper account is the change of the row that it has read; what it records of a fill
is what the fill did. -/
def DecisionOp (id : String) (h : List (Event tradeSig)) : TradeOp → Prop
  | .intentCreate _ | .orderTransaction _ _ _ _ _ => False
  | .portfolioUpsert write data =>
    (∃ row, ReadPortfolio h row ∧ data = write.apply (row.getD PaperState.initial)) ∧
      ∀ f, write = .fill f → Untouched h ∧ f.intentId = id
  | .placeOrder intentId _ _ => Untouched h ∧ intentId = id
  | .intentUpdate intentId d => intentId = id ∧ d.status ≠ .pending ∧
      (d.status = .rejected → Untouched h) ∧ Records h id d
  | _ => True

section Body

variable {id : String} {h : List (Event tradeSig)}

theorem DecisionOp.of_quiet {op : TradeOp} (hq : op.quiet) : DecisionOp id h op := by
  cases op with
  | intentCreate | orderTransaction | portfolioUpsert | placeOrder | intentUpdate =>
    exact absurd hq Bool.false_ne_true
  | _ => trivial

theorem not_touches_of_quiet {op : TradeOp} (hq : op.quiet) : ¬ op.touches := by
  cases op with
  | portfolioUpsert | placeOrder | intentUpdate => exact absurd hq Bool.false_ne_true
  | _ => exact Bool.false_ne_true

/-- A property of histories that lasts until the call makes itself felt. -/
def Lasts (I : List (Event tradeSig) → Prop) : Prop := ∀ h e, I h → ¬ e.1.touches → I (h ++ [e])

theorem lasts_untouched : Lasts Untouched := by
  intro h e hh he e' he'
  rcases List.mem_append.1 he' with he' | he'
  · exact hh e' he'
  · rw [List.mem_singleton.1 he']
    exact he

/-- The row has been read, and the call has not made itself felt. -/
def Ready (row : Option PaperState) (h : List (Event tradeSig)) : Prop :=
  Untouched h ∧ ReadPortfolio h row

theorem lasts_ready (row : Option PaperState) : Lasts (Ready row) := fun h e hh he =>
  ⟨lasts_untouched h e hh.1 he, List.mem_append_left _ hh.2⟩

theorem decisionOp_of_quiet {α : Type} {p : Trade α} (hp : Quiet p) :
    Always (S := tradeSig) (DecisionOp id) p := hp.mono fun _ _ => DecisionOp.of_quiet

theorem decision_quiet {I : List (Event tradeSig) → Prop} (hI : Lasts I) {α : Type} {p : Trade α}
    (hp : Quiet p) (hh : I h) : p.Wp (histSem tradeSig) (DecisionOp id) (fun _ => I) h := by
  refine wp_mono (fun _ _ hop => .of_quiet hop.1) (fun _ _ hr => hr)
    (Always.carries (S := tradeSig) (q := fun op => op.quiet) hp (fun h e hh he => ?_) hh)
  exact hI h e hh (not_touches_of_quiet he)

theorem decision_quiet_bind {I : List (Event tradeSig) → Prop} (hI : Lasts I) {α β : Type}
    {p : Trade α} (hp : Quiet p) {f : α → Trade β} (hh : I h)
    (hf : ∀ a h, I h → (f a).Wp (histSem tradeSig) (DecisionOp id) (fun _ _ => True) h) :
    (p >>= f).Wp (histSem tradeSig) (DecisionOp id) (fun _ _ => True) h :=
  wp_bind_of (decision_quiet hI hp hh) hf fun _ _ _ => trivial

/-! ## Statuses -/

theorem decision_update {d : IntentPatch} (hs : d.status ≠ .pending)
    (hr : d.status = .rejected → Untouched h) (hp : Records h id d) :
    (do let _ ← await (.intentUpdate id d); return () : Trade Unit).Wp (histSem tradeSig)
      (DecisionOp id) (fun _ _ => True) h :=
  wp_perform_bind.2 ⟨⟨rfl, hs, hr, hp⟩, fun r _ _ => by cases r <;> trivial⟩

theorem decisionOp_decide' (decidedBy : String) {status : IntentStatus} (result : ResultJson)
    (hs : status ≠ .pending) (hr : status ≠ .rejected) :
    Always (S := tradeSig) (DecisionOp id) (decide' id decidedBy status result) :=
  fun _ => decision_update hs (fun h => absurd h hr) (.inl ⟨rfl, .inl rfl⟩)

theorem decisionOp_failIntent (decidedBy : String) (result : ResultJson) :
    Always (S := tradeSig) (DecisionOp id) (failIntent id decidedBy result) :=
  decisionOp_decide' _ _ nofun nofun

theorem decision_holdIntent (decidedBy : String) (hh : Untouched h) :
    (holdIntent id decidedBy).Wp (histSem tradeSig) (DecisionOp id) (fun _ _ => True) h :=
  decision_update nofun nofun (.inl ⟨rfl, .inr hh⟩)

theorem decision_rejectIntent (decidedBy : String) (reason : Text) (hh : Untouched h) :
    (rejectIntent id decidedBy reason).Wp (histSem tradeSig) (DecisionOp id) (fun _ _ => True) h :=
  decision_update nofun (fun _ => hh) (.inl ⟨rfl, .inl rfl⟩)

/-! ## Real execution -/

theorem decision_submitAtBroker {args : SubmitArgs} (clientOrderId : String) (row : RealOrder)
    (hid : args.tradeIntentId = id) (hh : Untouched h) :
    (submitAtBroker args clientOrderId row).Wp (histSem tradeSig) (DecisionOp id)
      (fun _ _ => True) h := by
  have note (d : OrderPatch) {f : Except Err RealOrder → Trade RealOrder}
      (hf : ∀ r, Always (S := tradeSig) (DecisionOp id) (f r)) :
      Always (S := tradeSig) (DecisionOp id) ((await (.orderUpdate row.id d)).attempt >>= f) :=
    always_bind (always_attempt (always_perform fun _ => trivial)) hf
  refine wp_bind_always (Q := fun _ _ => True) ((wp_attempt _ h).2 ?_) fun response => ?_
  · refine wp_perform_bind.2 ⟨⟨hh, hid⟩, fun r h' _ => ?_⟩
    cases r with
    | error e => trivial
    | ok r =>
      exact always_bind (decisionOp_of_quiet (quiet_await rfl)) (fun _ => always_ofOutcome _) h'
  · cases response with
    | ok brokerOrderId =>
      refine note _ fun r => ?_
      cases r <;> exact always_ret _
    | error e =>
      refine always_bind (decisionOp_of_quiet quiet_recordSubmitFailureAndMaybeHalt) fun _ => ?_
      refine note _ fun r => ?_
      cases r <;> exact always_ret _

theorem decision_submitNew {args : SubmitArgs} (hid : args.tradeIntentId = id)
    (hh : Untouched h) :
    (submitNew args).Wp (histSem tradeSig) (DecisionOp id) (fun _ _ => True) h := by
  refine decision_quiet_bind lasts_untouched (quiet_generateClientOrderId _) hh
    fun clientOrderId h hh => ?_
  refine wp_attempt_perform_bind.2 ⟨trivial, fun r h' hr => ?_⟩
  have hh' : Untouched h' := by
    rw [hr]
    exact lasts_untouched _ _ hh Bool.false_ne_true
  cases r with
  | ok row => exact decision_submitAtBroker clientOrderId row hid hh'
  | error e =>
    refine always_ite (fun _ => ?_) (fun _ => always_throw _) h'
    refine always_bind (decisionOp_of_quiet (quiet_await rfl)) fun winner => ?_
    cases winner
    · exact always_throw _
    · exact always_ret _

theorem decision_submit {args : SubmitArgs} (hid : args.tradeIntentId = id) (hh : Untouched h) :
    (submit args).Wp (histSem tradeSig) (DecisionOp id) (fun _ _ => True) h := by
  refine decision_quiet_bind lasts_untouched (quiet_await rfl) hh fun existing h hh => ?_
  cases existing with
  | some row => trivial
  | none =>
    refine decision_quiet_bind lasts_untouched (quiet_await rfl) hh fun existing h hh => ?_
    cases existing with
    | some row => trivial
    | none => exact decision_submitNew hid hh

theorem decision_submitReal (symbol : String) (policy : ExecutionPolicy) (side : Side)
    (qty : Number) (decidedBy : String) (hh : Untouched h) :
    (submitReal id symbol policy side qty decidedBy).Wp (histSem tradeSig) (DecisionOp id)
      (fun _ _ => True) h := by
  refine wp_bind_always (Q := fun _ _ => True) ((wp_attempt _ h).2 (decision_submit rfl hh))
    fun r => ?_
  cases r with
  | error e => exact decisionOp_failIntent _ _
  | ok realOrder =>
    refine always_ite (fun _ => decisionOp_failIntent _ _) fun _ => ?_
    exact always_bind (decisionOp_of_quiet (quiet_await rfl)) fun _ =>
      decisionOp_decide' _ _ nofun nofun

theorem decision_placeReal (symbol : String) (action : TradeAction) (policy : ExecutionPolicy)
    (price : Number) (side : Side) (qty : Number) (decidedBy : String) (hh : Untouched h) :
    (placeReal id symbol action policy price side qty decidedBy).Wp (histSem tradeSig)
      (DecisionOp id) (fun _ _ => True) h := by
  refine wp_ite (fun _ => decisionOp_failIntent _ _ h) fun _ => ?_
  exact wp_ite (fun _ => decisionOp_failIntent _ _ h) fun _ => decision_submitReal _ _ _ _ _ hh

theorem decision_executeReal (symbol : String) (action : TradeAction) (policy : ExecutionPolicy)
    (realState : Option RealAccountState) (decidedBy : String) (sizingPct : ℚ)
    (hh : Untouched h) :
    (executeReal id symbol action policy realState decidedBy sizingPct).Wp (histSem tradeSig)
      (DecisionOp id) (fun _ _ => True) h := by
  refine decision_quiet_bind lasts_untouched (quiet_checkExecuteRealPreconditions _ _ _) hh
    fun r h hh => ?_
  cases r with
  | some result => exact decisionOp_failIntent _ _ h
  | none =>
    refine decision_quiet_bind lasts_untouched (quiet_attempt_await rfl) hh fun quote h hh => ?_
    refine wp_ite (fun _ => decisionOp_failIntent _ _ h) fun _ => ?_
    refine wp_ite (fun _ => decision_holdIntent _ hh) fun _ => ?_
    refine decision_quiet_bind lasts_untouched (quiet_resolveRealSideAndQty _ _ _ _ _ _) hh
      fun r h hh => ?_
    rcases r with result | ⟨side, qty⟩
    · exact decisionOp_failIntent _ _ h
    · exact decision_placeReal _ _ _ _ _ _ _ hh

/-! ## Paper execution -/

/-- The gate's answer is the gate of the account that it was asked about, or a refusal. -/
def GateOutcome.Sound (g : GateOutcome) (s : PaperState) (policy : RiskPolicy) : Prop :=
  match g.view with
  | none => g.result.refusal ≠ none
  | some v => g.result = gateOf s policy v

theorem decision_quiet_onOk {I : List (Event tradeSig) → Prop} (hI : Lasts I) {α β : Type}
    {p : Trade α} (hp : Quiet p) {f : α → Trade β} {Q : β → List (Event tradeSig) → Prop}
    (hh : I h) (hf : ∀ a h, I h → (f a).Wp (histSem tradeSig) (DecisionOp id) (onOk Q) h) :
    (p >>= f).Wp (histSem tradeSig) (DecisionOp id) (onOk Q) h :=
  wp_bind_of (decision_quiet hI hp hh) hf fun _ _ _ => trivial

theorem decision_evaluateEntryGate {I : List (Event tradeSig) → Prop} (hI : Lasts I)
    (s : PaperState) (policy : RiskPolicy) (hh : I h) :
    (evaluateEntryGate s policy).Wp (histSem tradeSig) (DecisionOp id)
      (onOk fun g h => I h ∧ g.Sound s policy) h := by
  refine decision_quiet_onOk hI (quiet_openPrices s) hh fun prices h hh => ?_
  cases prices with
  | none =>
    have hsound : GateOutcome.Sound ⟨{ refusal := some [.lit ("mark-to-market unavailable for one " ++
        "or more open positions — refusing new entry")], state := s, baselineChanged := false },
        none⟩ s policy := Option.some_ne_none _
    exact ⟨hh, hsound⟩
  | some prices =>
    refine decision_quiet_onOk hI (quiet_await rfl) hh fun now h hh => ?_
    refine decision_quiet_onOk hI (quiet_auditLossBreakerTrip _) hh fun _ h hh => ?_
    exact ⟨hh, rfl⟩

theorem filledFrom_of {f : PaperFill} {data : PaperState} {u : Unit} {row : Option PaperState}
    {h' : List (Event tradeSig)}
    (hr : (histSem tradeSig).rel (.portfolioUpsert (.fill f) data) h (.ok u) h')
    (hh : ReadPortfolio h row) : FilledFrom h' f row := by
  have hlog : h' = h ++ [⟨.portfolioUpsert (.fill f) data, .ok u⟩] := hr
  rw [hlog]
  exact ⟨h, data, List.prefix_rfl, hh⟩

/-- The account after the entry gate is a function of the account before it. -/
def Entry.Gated (entry : Entry) (s : PaperState) : Prop :=
  entry.state = match entry.gate with
    | none => s
    | some (policy, v) => (gateOf s policy v).state

theorem decision_evaluatePaperGate (intentId : String) (policy : RiskPolicy)
    {row : Option PaperState} (hh : Ready row h) :
    (evaluatePaperGate intentId (row.getD .initial) policy).Wp (histSem tradeSig) (DecisionOp id)
      (onOk fun entry h => Ready row h ∧
        (entry.refusal = none → entry.Gated (row.getD .initial))) h := by
  refine wp_bind_onOk (decision_evaluateEntryGate (lasts_ready row) _ policy hh)
    fun g h ⟨hh, hsound⟩ => ?_
  unfold GateOutcome.Sound at hsound
  dsimp only
  split
  · next v hv =>
    rw [hv] at hsound
    have hgated : Entry.Gated ⟨g.result.refusal, g.result.state, g.view.map fun v => (policy, v)⟩
        (row.getD .initial) := by
      rw [hsound, hv]
      rfl
    refine wp_ite (fun _ => ?_) fun _ => ⟨hh, fun _ => hgated⟩
    have hwrite : DecisionOp id h (.portfolioUpsert (.baseline intentId policy v) g.result.state) := by
      refine ⟨⟨row, hh.2, ?_⟩, fun f hf => by cases hf⟩
      rw [hsound]
      rfl
    refine wp_perform_bind.2 ⟨hwrite, fun r h' hr => ?_⟩
    cases r with
    | error e => trivial
    | ok u =>
      have hh' : Ready row h' := by
        rw [hr]
        exact lasts_ready row _ _ hh Bool.false_ne_true
      exact ⟨hh', fun _ => hgated⟩
  · next hv =>
    rw [hv] at hsound
    exact ⟨hh, fun hnone => absurd hnone hsound⟩

theorem decision_evaluateEntryRiskGate (mode : Mode) (realState : Option RealAccountState)
    (policy : ExecutionPolicy) {row : Option PaperState} (hh : Ready row h) :
    (evaluateEntryRiskGate id mode realState (row.getD .initial) policy).Wp (histSem tradeSig)
      (DecisionOp id) (onOk fun entry h => Ready row h ∧
        (entry.refusal = none → entry.Gated (row.getD .initial))) h := by
  unfold evaluateEntryRiskGate
  split
  · exact ⟨hh, fun _ => rfl⟩
  · trivial
  · exact decision_evaluatePaperGate _ _ hh

theorem decision_runPaperExecution (symbol : String) (action : TradeAction) {entry : Entry}
    (decidedBy : String) (sizingPct maxPositionPct maxShortNotionalPct : ℚ)
    {row : Option PaperState} (hh : Ready row h) (hentry : entry.Gated (row.getD .initial)) :
    (runPaperExecution id symbol action entry decidedBy sizingPct maxPositionPct
      maxShortNotionalPct).Wp (histSem tradeSig) (DecisionOp id) (fun _ _ => True) h := by
  refine decision_quiet_bind (lasts_ready row) (quiet_attempt_await rfl) hh fun quote h hh => ?_
  rcases quote with e | price | _ | _
  · exact decisionOp_failIntent _ _ h
  · refine wp_ite (fun _ => decisionOp_failIntent _ _ h) fun _ => ?_
    refine wp_perform_bind.2 ⟨⟨⟨row, hh.2, ?_⟩, fun f hf => ?_⟩, fun r h' hr => ?_⟩
    · rw [hentry]
      rfl
    · cases hf
      exact ⟨hh.1, rfl⟩
    cases r with
    | error e => trivial
    | ok u =>
      refine wp_ite (fun _ => ?_) fun _ => ?_
      · exact decisionOp_decide' _ _ (by decide) (by decide) h'
      have hfilled := filledFrom_of hr hh.2
      refine decision_update (fun h => by cases h) (fun h => by cases h)
        (.inr ⟨_, row, hfilled, rfl, rfl, ?_⟩)
      rw [hentry]
      rfl
  · exact decisionOp_failIntent _ _ h
  · exact decisionOp_failIntent _ _ h

/-! ## Decisions -/

theorem decision_executeDecided (intent : TradeIntent) (policy : ExecutionPolicy) (mode : Mode)
    (realState : Option RealAccountState) {entry : Entry} (decidedBy : String) (sizingPct : ℚ)
    {row : Option PaperState} (hh : Ready row h) (hentry : entry.Gated (row.getD .initial)) :
    (executeDecided id intent policy mode realState entry decidedBy sizingPct).Wp
      (histSem tradeSig) (DecisionOp id) (fun _ _ => True) h := by
  cases mode
  · exact decision_runPaperExecution _ _ _ _ _ _ hh hentry
  · exact decision_executeReal _ _ _ _ _ _ hh.1

theorem decision_gateAndExecute (intent : TradeIntent) (policy : ExecutionPolicy) (mode : Mode)
    (realState : Option RealAccountState) (decidedBy : String) (sizingPct : ℚ)
    {row : Option PaperState} (hh : Ready row h) :
    (gateAndExecute id intent policy mode realState (row.getD .initial) decidedBy sizingPct).Wp
      (histSem tradeSig) (DecisionOp id) (fun _ _ => True) h := by
  refine wp_ite (fun _ => ?_) fun _ => decision_executeDecided _ _ _ _ _ _ hh rfl
  refine wp_bind_of (decision_evaluateEntryRiskGate mode realState policy hh)
    (fun entry h hentry => ?_) fun _ _ _ => trivial
  obtain ⟨hh, hgated⟩ := hentry
  split
  · exact decision_rejectIntent _ _ hh.1
  · next hpass => exact decision_executeDecided _ _ _ _ _ _ hh (hgated hpass)

theorem decision_processInMode (intent : TradeIntent) (policy : ExecutionPolicy) (mode : Mode)
    (decidedBy : String) (sizingPct : ℚ) (hh : Untouched h) :
    (processInMode id intent policy mode decidedBy sizingPct).Wp (histSem tradeSig)
      (DecisionOp id) (fun _ _ => True) h := by
  refine wp_perform_bind.2 ⟨trivial, fun r h' hr => ?_⟩
  cases r with
  | error e => trivial
  | ok row =>
    have hready : Ready row h' := by
      rw [hr]
      exact ⟨lasts_untouched _ _ hh Bool.false_ne_true,
        List.mem_append_right _ (List.mem_singleton.2 rfl)⟩
    refine wp_ite (fun _ => decision_holdIntent _ hready.1) fun _ => ?_
    refine decision_quiet_bind (lasts_ready row) (quiet_realStateIn _ _) hready
      fun realState h hh => ?_
    exact wp_ite (fun _ => decisionOp_failIntent _ _ h) fun _ =>
      decision_gateAndExecute _ _ _ _ _ _ hh

theorem decision_processIntent (verb decidedBy : String) (sizing : ExecutionPolicy → ℚ)
    (hh : Untouched h) :
    (processIntent id verb decidedBy sizing).Wp (histSem tradeSig) (DecisionOp id)
      (fun _ _ => True) h := by
  refine decision_quiet_bind lasts_untouched (quiet_pendingIntent _ _) hh fun intent h hh => ?_
  refine decision_quiet_bind lasts_untouched quiet_readExecutionPolicy hh fun policy h hh => ?_
  refine decision_quiet_bind lasts_untouched (quiet_resolveMode _ _ _ _) hh fun r h hh => ?_
  cases r with
  | failed result => exact decisionOp_failIntent _ _ h
  | mode mode => exact decision_processInMode _ _ _ _ _ hh

theorem decision_reject (decidedBy reason : String) (hh : Untouched h) :
    (reject id decidedBy reason).Wp (histSem tradeSig) (DecisionOp id) (fun _ _ => True) h :=
  decision_quiet_bind lasts_untouched (quiet_pendingIntent _ _) hh fun _ _ hh =>
    decision_rejectIntent _ _ hh

end Body

/-- **What a call on an intent awaits**, whatever it is answered. -/
theorem decisionOp_body (c : DecisionCall) :
    c.body.Wp (histSem tradeSig) (DecisionOp c.intentId) (fun _ _ => True) [] := by
  have hh : Untouched [] := by
    intro e he
    cases he
  cases c with
  | autoProcess id => exact decision_processIntent _ _ _ hh
  | approve id decidedBy => exact decision_processIntent _ _ _ hh
  | reject id decidedBy reason => exact decision_reject _ _ hh

end NeoTrader
