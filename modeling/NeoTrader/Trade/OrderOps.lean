import NeoTrader.Trade.Quiet

/-!
# What the order services write

* `OrderOp`: the writes of the order service, of the recovery sweep and of the reconciliation,
  whatever they are answered;
* one lemma for each of their functions, up to `orderOp_reconcileAllOpenOrders`;
* `OrderKnown`: what the read of an order row still says about later states.
-/

namespace NeoTrader

open Js Await Prog

/-! ## What the services write -/

def ReadOrder (h : List (Event tradeSig)) (row : RealOrder) : Prop :=
  ∃ id, ⟨.orderFindUnique id, .ok (some row)⟩ ∈ h

theorem ReadOrder.mono {h h' : List (Event tradeSig)} {row : RealOrder} (hr : ReadOrder h row)
    (hh : h <+: h') : ReadOrder h' row := hr.imp fun _ he => hh.subset he

/-- The statuses and the broker's answers with which the reconciliation closes an order. -/
def Closes (status : OrderStatus) (b : OrderStatusResult) : Prop :=
  status.terminal ∧ (status = .filled → fillEvidence b ≠ none)

/-- **What the order services and the reconciliation write.** A terminal status only comes with the
intent's status, from one answer of the broker, on a row that was read and was not terminal. -/
def OrderOp (h : List (Event tradeSig)) : TradeOp → Prop
  | .intentCreate _ | .intentUpdate _ _ | .portfolioUpsert _ _ => False
  | .orderUpdate _ d => d.filledQty = none ∧ d.filledAvgPrice = none ∧
      ∀ s, d.status = some s → s.pollable ∨ s = .confirmedAbsent
  | .orderUpdateMany _ _ d => d.status = some .partiallyFilled
  | .orderTransaction id expected d tradeIntentId ip => ∃ row status b, ReadOrder h row ∧
      ¬ row.status.terminal ∧ Closes status b ∧ id = row.id ∧ expected = row.status ∧
      d = terminalPatch status b ∧ tradeIntentId = row.tradeIntentId ∧ ip = terminalIntentPatch b
  | _ => True

theorem OrderOp.of_quiet {h : List (Event tradeSig)} {op : TradeOp} (hq : op.quiet) :
    OrderOp h op := by
  cases op with
  | intentCreate | intentUpdate | portfolioUpsert | orderUpdate | orderUpdateMany
  | orderTransaction => exact absurd hq Bool.false_ne_true
  | _ => trivial

theorem orderOp_of_quiet {α : Type} {p : Trade α} (hp : Quiet p) :
    Always (S := tradeSig) OrderOp p := hp.mono fun _ _ => OrderOp.of_quiet

theorem orderOp_await {op : TradeOp} (hop : ∀ h, OrderOp h op) :
    Always (S := tradeSig) OrderOp (await op) := always_perform hop

theorem orderOp_updateOpen (id : String) {d : OrderPatch} (hq : d.filledQty = none)
    (hp : d.filledAvgPrice = none) (hs : ∀ s, d.status = some s → s.pollable ∨ s = .confirmedAbsent) :
    Always (S := tradeSig) OrderOp (await (.orderUpdate id d)) :=
  orderOp_await fun _ => ⟨hq, hp, hs⟩

/-! ### Orders -/

/-- What a submission awaits once its row exists: the broker is called, the row stays pollable. -/
def TradeOp.afterCreate (op : TradeOp) : Prop :=
  op.quiet ∨ (∃ intentId broker order, op = .placeOrder intentId broker order) ∨
    ∃ id d s, op = .orderUpdate id d ∧ d.filledQty = none ∧ d.filledAvgPrice = none ∧
      d.status = some s ∧ s.pollable

theorem afterCreate_submitAtBroker (args : SubmitArgs) (clientOrderId : String) (row : RealOrder) :
    Always (S := tradeSig) (fun _ op => op.afterCreate) (submitAtBroker args clientOrderId row) := by
  have quiet {α : Type} {p : Trade α} (hp : Quiet p) :
      Always (S := tradeSig) (fun _ op => op.afterCreate) p := hp.mono fun _ _ => .inl
  have note {d : OrderPatch} {s : OrderStatus} (hq : d.filledQty = none)
      (hp : d.filledAvgPrice = none) (hd : d.status = some s) (hs : s.pollable)
      {f : Except Err RealOrder → Trade RealOrder}
      (hf : ∀ r, Always (S := tradeSig) (fun _ op => op.afterCreate) (f r)) :
      Always (S := tradeSig) (fun _ op => op.afterCreate)
        ((await (.orderUpdate row.id d)).attempt >>= f) :=
    always_bind (always_attempt (always_perform fun _ =>
      .inr (.inr ⟨_, d, s, rfl, hq, hp, hd, hs⟩))) hf
  refine always_bind (always_attempt ?_) fun response => ?_
  · exact always_bind (always_perform fun _ => .inr (.inl ⟨_, _, _, rfl⟩)) fun _ =>
      always_bind (quiet (quiet_await rfl)) fun _ => always_ofOutcome _
  cases response with
  | ok brokerOrderId =>
    refine note rfl rfl rfl rfl fun r => ?_
    cases r <;> exact always_ret _
  | error e =>
    refine always_bind (quiet quiet_recordSubmitFailureAndMaybeHalt) fun _ => ?_
    refine note rfl rfl rfl rfl fun r => ?_
    cases r <;> exact always_ret _

theorem OrderOp.of_afterCreate {h : List (Event tradeSig)} {op : TradeOp} (hop : op.afterCreate) :
    OrderOp h op := by
  rcases hop with hq | ⟨_, _, _, rfl⟩ | ⟨_, d, s, rfl, hq, hp, hd, hs⟩
  · exact .of_quiet hq
  · trivial
  · exact ⟨hq, hp, fun s' hs' => .inl (by rw [hd] at hs'; cases hs'; exact hs)⟩

theorem orderOp_submitAtBroker (args : SubmitArgs) (clientOrderId : String) (row : RealOrder) :
    Always (S := tradeSig) OrderOp (submitAtBroker args clientOrderId row) :=
  (afterCreate_submitAtBroker args clientOrderId row).mono fun _ _ => OrderOp.of_afterCreate

theorem orderOp_raceWinner (tradeIntentId : String) (e : Err) :
    Always (S := tradeSig) OrderOp (raceWinner tradeIntentId e) := by
  refine always_bind (orderOp_await fun _ => trivial) fun winner => ?_
  cases winner
  · exact always_throw _
  · exact always_ret _

theorem orderOp_submitNew (args : SubmitArgs) :
    Always (S := tradeSig) OrderOp (submitNew args) := by
  refine always_bind (orderOp_of_quiet (quiet_generateClientOrderId _)) fun clientOrderId => ?_
  refine always_bind (always_attempt (orderOp_await fun _ => trivial)) fun r => ?_
  cases r with
  | ok row => exact orderOp_submitAtBroker _ _ _
  | error e => exact always_ite (fun _ => orderOp_raceWinner _ _) fun _ => always_throw _

theorem orderOp_submit (args : SubmitArgs) : Always (S := tradeSig) OrderOp (submit args) := by
  refine always_bind (orderOp_await fun _ => trivial) fun existing => ?_
  cases existing with
  | some row => exact always_ret _
  | none =>
    refine always_bind (orderOp_await fun _ => trivial) fun existing => ?_
    cases existing with
    | some row => exact always_ret _
    | none => exact orderOp_submitNew args

theorem orderOp_handleConfirmedAbsent (row : RealOrder) :
    Always (S := tradeSig) OrderOp (handleConfirmedAbsent row) := by
  refine always_bind (orderOp_await fun _ => trivial) fun n => always_ite (fun _ => ?_) fun _ => ?_
  · exact orderOp_await fun _ => trivial
  · refine always_bind (orderOp_await fun _ => trivial) fun _ => ?_
    refine always_bind (always_attempt (orderOp_updateOpen _ rfl rfl ?_)) fun _ => always_ret _
    simp [OrderStatus.pollable, OrderStatus.isOpen, OrderStatus.recoverable]

theorem pollable_pollableStatus (raw : String) : (pollableStatus raw).pollable := by
  have hraw := normalizeBrokerStatus_mem raw
  unfold pollableStatus
  split
  · decide
  · revert hraw
    generalize normalizeBrokerStatus raw = s at *
    cases s <;> simp_all [OrderStatus.terminal, OrderStatus.pollable, OrderStatus.isOpen]

theorem orderOp_recoverRow (row : RealOrder) :
    Always (S := tradeSig) OrderOp (recoverRow row) := by
  refine always_bind (always_attempt (orderOp_await fun _ => trivial)) fun r => ?_
  rcases r with e | _ | brokerOrder
  · exact orderOp_await fun _ => trivial
  · exact orderOp_handleConfirmedAbsent row
  · refine always_bind (orderOp_await fun _ => trivial) fun _ => ?_
    refine always_bind (orderOp_updateOpen _ rfl rfl fun s hs => ?_) fun _ => always_ret _
    cases hs
    exact .inl (pollable_pollableStatus _)

theorem orderOp_recoverInflight : Always (S := tradeSig) OrderOp recoverInflight :=
  always_bind (orderOp_await fun _ => trivial) fun _ => always_forEach orderOp_recoverRow

/-! ### Reconciliation -/

theorem orderOp_touchLastReconciledAt (id : String) (backfill : Option String) :
    Always (S := tradeSig) OrderOp (touchLastReconciledAt id backfill) :=
  always_bind (always_attempt (orderOp_updateOpen id rfl rfl nofun)) fun _ => always_ret _

theorem orderOp_terminalTransaction {row : RealOrder} {status : OrderStatus} {b : OrderStatusResult}
    {h : List (Event tradeSig)} (hrow : ReadOrder h row) (hopen : ¬ row.status.terminal)
    (hc : Closes status b) :
    (terminalTransaction row status b).Wp (histSem tradeSig) OrderOp (fun _ _ => True) h :=
  wp_perform_bind.2 ⟨⟨row, status, b, hrow, hopen, hc, rfl, rfl, rfl, rfl, rfl⟩, fun r _ _ => by
    cases r <;> trivial⟩

theorem orderOp_applyBrokerOrder {row : RealOrder} (b : OrderStatusResult)
    {h : List (Event tradeSig)} (hrow : ReadOrder h row) (hopen : ¬ row.status.terminal) :
    (applyBrokerOrder row b).Wp (histSem tradeSig) OrderOp (fun _ _ => True) h := by
  unfold applyBrokerOrder
  by_cases h1 : normalizeBrokerStatus b.status = .filled ∧ fillEvidence b = none
  · rw [if_pos h1]
    exact orderOp_touchLastReconciledAt _ _ h
  rw [if_neg h1]
  by_cases h2 : normalizeBrokerStatus b.status = .filled
  · rw [if_pos h2]
    exact orderOp_terminalTransaction hrow hopen ⟨rfl, fun _ he => h1 ⟨h2, he⟩⟩
  rw [if_neg h2]
  by_cases h3 : normalizeBrokerStatus b.status = .partiallyFilled
  · rw [if_pos h3]
    refine always_bind (orderOp_await fun _ => ?_) (fun _ => always_ret _) h
    exact (rfl : some OrderStatus.partiallyFilled = some .partiallyFilled)
  rw [if_neg h3]
  split
  · next h4 =>
    refine orderOp_terminalTransaction hrow hopen ⟨?_, fun hf => absurd hf h2⟩
    rcases h4 with h4 | h4 | h4 <;> rw [h4] <;> rfl
  · exact orderOp_touchLastReconciledAt _ _ h

theorem orderOp_reconcileOrder (id : String) :
    Always (S := tradeSig) OrderOp (reconcileOrder id) := by
  intro h
  refine wp_perform_bind.2 ⟨trivial, fun found h' hh => ?_⟩
  rcases found with e | _ | row
  · trivial
  · trivial
  have hrow : ReadOrder h' row := ⟨id, by rw [hh]; simp⟩
  dsimp only [bindPost]
  split
  · trivial
  · next hopen =>
    have look := (always_attempt (orderOp_of_quiet (quiet_lookupBrokerOrder row))).grows h'
    refine wp_bind_of look (fun r h'' hh' => ?_) fun _ _ _ => trivial
    rcases r with e | _ | b
    · exact orderOp_touchLastReconciledAt _ _ h''
    · exact orderOp_touchLastReconciledAt _ _ h''
    · exact orderOp_applyBrokerOrder b (hrow.mono hh') hopen

theorem orderOp_fastPollRounds (id : String) (delays : List ℕ) :
    Always (S := tradeSig) OrderOp (fastPollRounds id delays) := by
  induction delays with
  | nil => exact always_ret _
  | cons delayMs delays ih =>
    refine always_bind (orderOp_await fun _ => trivial) fun _ => ?_
    refine always_bind (always_attempt (orderOp_reconcileOrder id)) fun r => ?_
    rcases r with e | _
    · exact ih
    · refine always_bind (orderOp_await fun _ => trivial) fun found => ?_
      cases found with
      | none => exact ih
      | some row =>
        dsimp only
        split
        · exact always_ret _
        · exact ih

theorem orderOp_fastPollOrder (id : String) :
    Always (S := tradeSig) OrderOp (fastPollOrder id) :=
  always_bind (always_attempt (orderOp_fastPollRounds id _)) fun _ => always_ret _

theorem orderOp_reconcileAllOpenOrders :
    Always (S := tradeSig) OrderOp reconcileAllOpenOrders :=
  always_bind (always_attempt orderOp_recoverInflight) fun _ =>
    always_bind (always_attempt (orderOp_of_quiet quiet_cancelStaleOpenOrders)) fun _ =>
      always_bind (orderOp_await fun _ => trivial) fun _ => always_forEach fun row =>
        always_bind (always_attempt (orderOp_reconcileOrder row.id)) fun _ => always_ret _

theorem orderOp_syncPortfolio (brokerPluginId source : String) :
    Always (S := tradeSig) OrderOp (syncPortfolio brokerPluginId source) := by
  refine always_bind (always_attempt (orderOp_of_quiet (quiet_getPortfolio _))) fun r => ?_
  cases r with
  | error e => exact always_ret _
  | ok portfolio =>
    exact always_bind (orderOp_await fun _ => trivial) fun _ =>
      orderOp_of_quiet (quiet_detectDrift _ _)

/-! ## What a read of an order row still says -/

/-- What an answer of the past still says about the world: a row that has been read is there, with
the intent that it had. -/
def OrderKnown : Event tradeSig → World → Prop
  | ⟨.orderFindUnique _, .ok (some row)⟩, w => (∃ r ∈ w.orders, r.id = row.id) ∧
      ∀ r ∈ w.orders, r.id = row.id → r.tradeIntentId = row.tradeIntentId
  | _, _ => True

theorem OrderKnown.step {now : ℤ} {w w' : World} {op : TradeOp} {a : Except Err op.Ans}
    (hs : TableStep now w w' op a) {e : Event tradeSig} (he : OrderKnown e w) : OrderKnown e w' := by
  unfold OrderKnown at he ⊢
  split
  · next id row =>
    obtain ⟨⟨r, hr, hid⟩, hall⟩ := he
    refine ⟨?_, fun r' hr' hid' => ?_⟩
    · obtain ⟨r', hr', hid', -⟩ := hs.mem_orders hr
      exact ⟨r', hr', hid'.trans hid⟩
    · rcases hs.orders_of_mem hr' with ⟨r₀, hr₀, hid₀, htid⟩ | hnew
      · exact htid ▸ hall r₀ hr₀ (hid₀.trans hid')
      · exact absurd (hid.trans hid'.symm) (hnew r hr)
  · trivial

theorem OrderKnown.of_handle {o : Oracle} {w w' : World} {op : TradeOp} {a : Except Err op.Ans}
    (hkey : Store.Keyed RealOrder.id w.orders) (h : handle o op w = (a, w')) :
    OrderKnown ⟨op, a⟩ w' := by
  cases op with
  | orderFindUnique id =>
    obtain ⟨rfl, hans⟩ := query_cases h
    rcases a with e | _ | row
    · trivial
    · trivial
    · have hrow : row ∈ w'.orders := List.mem_of_find?_eq_some (hans _ rfl).symm
      exact ⟨⟨row, hrow, rfl⟩, fun r hr hid => by rw [hkey r hr row hrow hid]⟩
  | _ => trivial

end NeoTrader
