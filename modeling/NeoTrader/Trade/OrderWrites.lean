import NeoTrader.Await.Pool
import NeoTrader.Trade.OrderOps

/-!
# The calls of the order services, write by write

What a submission, a recovery sweep and a poll write on the order rows, each write with what its
own call has been told before it.

* **`OrderWrite`**: the writes, one constructor for each write of the source;
* **`orderWrite_body`**: every call writes only so, whatever it is answered.
-/

namespace NeoTrader

open Js Await Prog

/-! ## Calls -/

/-- **A call that works on order rows.** -/
inductive OrderCall
  | submit (args : SubmitArgs)
  | recoverInflight
  | reconcileOrder (id : String)
  | fastPollOrder (id : String)
  | reconcileAllOpenOrders

def OrderCall.body : OrderCall → Trade Unit
  | submit args => (NeoTrader.submit args).discard
  | recoverInflight => NeoTrader.recoverInflight
  | reconcileOrder id => NeoTrader.reconcileOrder id
  | fastPollOrder id => NeoTrader.fastPollOrder id
  | reconcileAllOpenOrders => NeoTrader.reconcileAllOpenOrders

/-! ## What a call has been told -/

/-- The call has created the row from the data. -/
def Created (h : List (Event tradeSig)) (d : OrderCreate) (row : RealOrder) : Prop :=
  ⟨.orderCreate d, .ok row⟩ ∈ h

/-- The broker has answered the call about a row. -/
def Told (h : List (Event tradeSig)) (row : RealOrder) (b : OrderStatusResult) : Prop :=
  ⟨.getOrderByClientId row.brokerPluginId row.clientOrderId, .ok (some b)⟩ ∈ h ∨
    ∃ id, row.brokerOrderId = some id ∧ id ≠ "" ∧ ⟨.getOrderStatus row.brokerPluginId id, .ok b⟩ ∈ h

/-- The call has only looked so far. -/
def QuietPast (h : List (Event tradeSig)) : Prop := ∀ e ∈ h, e.1.quiet

theorem quietPast_nil : QuietPast [] := by simp [QuietPast]

theorem QuietPast.snoc {h : List (Event tradeSig)} (hq : QuietPast h) {e : Event tradeSig}
    (he : e.1.quiet) : QuietPast (h ++ [e]) := by
  intro e' he'
  rcases List.mem_append.1 he' with he' | he'
  · exact hq e' he'
  · rw [List.mem_singleton.1 he']
    exact he

theorem QuietPast.not_created {h : List (Event tradeSig)} (hq : QuietPast h) (d : OrderCreate)
    (row : RealOrder) : ¬ Created h d row :=
  fun hc => absurd (hq _ hc) Bool.false_ne_true

/-! ## The writes -/

/-- The update leaves the fills alone. -/
structure OrderPatch.NoFill (p : OrderPatch) : Prop where
  qty : p.filledQty = none
  price : p.filledAvgPrice = none

/-- **What a poll writes**, each time on a row that it has read. -/
inductive PollWrite (h : List (Event tradeSig)) : TradeOp → Prop
  /-- Reads, the broker's lookups, the services' memory. -/
  | look {op : TradeOp} (quiet : op.quiet) : PollWrite h op
  /-- No news; at most the broker's order id is filled in. -/
  | touch {id : String} {p : OrderPatch} (status : p.status = none) (noFill : p.NoFill)
      (backfill : p.brokerOrderId = none ∨ ∃ row b, ReadOrder h row ∧ id = row.id ∧ Told h row b ∧
        p.brokerOrderId = some (some b.brokerOrderId)) : PollWrite h (.orderUpdate id p)
  /-- A partial fill. -/
  | part {row : RealOrder} {p : OrderPatch} (read : ReadOrder h row)
      (unfinished : ¬ row.status.terminal) (status : p.status = some .partiallyFilled)
      (sameId : p.brokerOrderId = none) : PollWrite h (.orderUpdateMany row.id row.status p)
  /-- The order is closed, on the broker's answer about it. -/
  | close {row : RealOrder} {b : OrderStatusResult} (read : ReadOrder h row)
      (unfinished : ¬ row.status.terminal) (told : Told h row b)
      (closes : Closes (normalizeBrokerStatus b.status) b) :
      PollWrite h (.orderTransaction row.id row.status
        (terminalPatch (normalizeBrokerStatus b.status) b) row.tradeIntentId
        (terminalIntentPatch b))

/-- **What the calls write on the order rows.** -/
inductive OrderWrite : List (Event tradeSig) → TradeOp → Prop
  | poll {h : List (Event tradeSig)} {op : TradeOp} (write : PollWrite h op) : OrderWrite h op
  /-- A submission creates its row. -/
  | create {h : List (Event tradeSig)} {d : OrderCreate} (first : QuietPast h) :
      OrderWrite h (.orderCreate d)
  /-- The order of the row that was just created is sent. -/
  | place {h : List (Event tradeSig)} {d : OrderCreate} {row : RealOrder} {order : OrderRequest}
      (first : QuietPast h) (client : order.clientOrderId = d.clientOrderId) :
      OrderWrite (h ++ [⟨.orderCreate d, .ok row⟩])
        (.placeOrder d.tradeIntentId d.brokerPluginId order)
  /-- A submission notes the outcome on its row. -/
  | note {h : List (Event tradeSig)} {d : OrderCreate} {row : RealOrder} {p : OrderPatch}
      {s : OrderStatus} (created : Created h d row) (status : p.status = some s)
      (pollable : s.pollable) (noFill : p.NoFill) : OrderWrite h (.orderUpdate row.id p)
  /-- A recovery sweep notes what the broker has said about a row. -/
  | recover {h : List (Event tradeSig)} {id : String} {p : OrderPatch} {s : OrderStatus}
      (status : p.status = some s) (unfinished : s.pollable ∨ s = .confirmedAbsent)
      (noFill : p.NoFill) : OrderWrite h (.orderUpdate id p)

theorem OrderWrite.look {h : List (Event tradeSig)} {op : TradeOp} (hq : op.quiet) :
    OrderWrite h op := .poll (.look hq)

/-- The write is not the creation of a row. -/
def OrderPoll (h : List (Event tradeSig)) (op : TradeOp) : Prop :=
  OrderWrite h op ∧ ∀ d, op ≠ .orderCreate d

theorem OrderPoll.look {h : List (Event tradeSig)} {op : TradeOp} (hq : op.quiet) :
    OrderPoll h op :=
  ⟨.look hq, fun _ he => by rw [he] at hq; exact absurd hq Bool.false_ne_true⟩

theorem PollWrite.orderPoll {h : List (Event tradeSig)} {op : TradeOp} (hp : PollWrite h op) :
    OrderPoll h op := by
  refine ⟨.poll hp, ?_⟩
  rintro d rfl
  cases hp with
  | look hq => exact absurd hq Bool.false_ne_true

theorem orderPoll_of_quiet {α : Type} {p : Trade α} (hp : Quiet p) :
    Always (S := tradeSig) OrderPoll p := hp.mono fun _ _ => OrderPoll.look

theorem orderPoll_await {op : TradeOp} (hq : op.quiet) :
    Always (S := tradeSig) OrderPoll (await op) := always_perform fun _ => .look hq

/-! ## Recovery -/

theorem orderPoll_recover (id : String) {p : OrderPatch} {s : OrderStatus}
    (hs : p.status = some s) (ho : s.pollable ∨ s = .confirmedAbsent) (hf : p.NoFill) :
    Always (S := tradeSig) OrderPoll (await (.orderUpdate id p)) :=
  always_perform fun _ => ⟨.recover hs ho hf, nofun⟩

theorem orderPoll_handleConfirmedAbsent (row : RealOrder) :
    Always (S := tradeSig) OrderPoll (handleConfirmedAbsent row) := by
  refine always_bind (orderPoll_await rfl) fun n => always_ite (fun _ => ?_) fun _ => ?_
  · exact orderPoll_await rfl
  · refine always_bind (orderPoll_await rfl) fun _ => ?_
    exact always_bind (always_attempt (orderPoll_recover _ rfl (.inr rfl) ⟨rfl, rfl⟩)) fun _ =>
      always_ret _

theorem orderPoll_recoverRow (row : RealOrder) :
    Always (S := tradeSig) OrderPoll (recoverRow row) := by
  refine always_bind (always_attempt (orderPoll_await rfl)) fun r => ?_
  rcases r with e | _ | brokerOrder
  · exact orderPoll_await rfl
  · exact orderPoll_handleConfirmedAbsent row
  · refine always_bind (orderPoll_await rfl) fun _ => ?_
    exact always_bind (orderPoll_recover _ rfl (.inl (pollable_pollableStatus _)) ⟨rfl, rfl⟩)
      fun _ => always_ret _

theorem orderPoll_recoverInflight : Always (S := tradeSig) OrderPoll recoverInflight :=
  always_bind (orderPoll_await rfl) fun _ => always_forEach orderPoll_recoverRow

/-! ## Reconciliation -/

section Reconcile

variable {row : RealOrder} {b : OrderStatusResult} {h : List (Event tradeSig)}

theorem pollWrite_touch (id : String) :
    Always (S := tradeSig) PollWrite (touchLastReconciledAt id) :=
  always_bind (always_attempt (always_perform fun _ => PollWrite.touch rfl ⟨rfl, rfl⟩ (.inl rfl)))
    fun _ => always_ret _

theorem pollWrite_backfill (hr : ReadOrder h row) (ht : Told h row b) (backfill : Option String)
    (hb : backfill = none ∨ backfill = some b.brokerOrderId) :
    (touchLastReconciledAt row.id backfill).Wp (histSem tradeSig) PollWrite (fun _ _ => True) h := by
  refine wp_attempt_perform_bind.2 ⟨.touch rfl ⟨rfl, rfl⟩ ?_, fun _ _ _ => trivial⟩
  rcases hb with rfl | rfl
  · exact .inl rfl
  · by_cases he : b.brokerOrderId = ""
    · exact .inl (by simp [he])
    · exact .inr ⟨row, b, hr, rfl, ht, by simp [Option.filter, he]⟩

theorem pollWrite_terminalTransaction {status : OrderStatus} (hr : ReadOrder h row)
    (hopen : ¬ row.status.terminal) (ht : Told h row b) (hs : status = normalizeBrokerStatus b.status)
    (hc : Closes status b) :
    (terminalTransaction row status b).Wp (histSem tradeSig) PollWrite (fun _ _ => True) h := by
  subst hs
  refine wp_perform_bind.2 ⟨.close hr hopen ht hc, fun r _ _ => ?_⟩
  cases r <;> trivial

theorem pollWrite_applyBrokerOrder (hr : ReadOrder h row) (hopen : ¬ row.status.terminal)
    (ht : Told h row b) :
    (applyBrokerOrder row b).Wp (histSem tradeSig) PollWrite (fun _ _ => True) h := by
  unfold applyBrokerOrder
  by_cases h1 : normalizeBrokerStatus b.status = .filled ∧ fillEvidence b = none
  · rw [if_pos h1]
    exact pollWrite_touch _ h
  rw [if_neg h1]
  by_cases h2 : normalizeBrokerStatus b.status = .filled
  · rw [if_pos h2]
    exact pollWrite_terminalTransaction hr hopen ht h2.symm ⟨rfl, fun _ he => h1 ⟨h2, he⟩⟩
  rw [if_neg h2]
  by_cases h3 : normalizeBrokerStatus b.status = .partiallyFilled
  · rw [if_pos h3]
    refine wp_perform_bind.2 ⟨.part hr hopen rfl rfl, fun r _ _ => ?_⟩
    cases r <;> trivial
  rw [if_neg h3]
  split
  · next h4 =>
    refine pollWrite_terminalTransaction hr hopen ht rfl ⟨?_, fun hf => absurd hf h2⟩
    rcases h4 with h4 | h4 | h4 <;> rw [h4] <;> rfl
  · refine pollWrite_backfill hr ht _ ?_
    split
    · exact .inl rfl
    · exact .inr rfl

/-- **A lookup tells about the row**: by the broker's id, if that is known. -/
theorem wp_lookupBrokerOrder (h : List (Event tradeSig)) :
    (lookupBrokerOrder row).Wp (histSem tradeSig) PollWrite
      (onOk fun a h' => h <+: h' ∧ ∀ b, a = some b → Told h' row b) h := by
  unfold lookupBrokerOrder
  split
  · next id hid =>
    have hid := Option.filter_eq_some_iff.1 hid
    apply wp_perform_bind.2
    refine ⟨PollWrite.look rfl, ?_⟩
    rintro (e | b) h' rfl
    · trivial
    · refine ⟨List.prefix_append _ _, fun b' hb => ?_⟩
      cases hb
      exact .inr ⟨id, hid.1, by simpa using hid.2, by simp⟩
  · refine wp_await.2 ⟨PollWrite.look rfl, ?_⟩
    rintro (e | a) h' rfl
    · trivial
    · refine ⟨List.prefix_append _ _, fun b hb => .inl ?_⟩
      rw [hb]
      simp

end Reconcile

theorem pollWrite_reconcileOrder (id : String) :
    Always (S := tradeSig) PollWrite (reconcileOrder id) := by
  intro h
  refine wp_perform_bind.2 ⟨.look rfl, fun found h' hh => ?_⟩
  rcases found with e | _ | row
  · trivial
  · trivial
  have hr : ReadOrder h' row := ⟨id, by rw [hh]; simp⟩
  dsimp only [bindPost]
  split
  · trivial
  next hopen =>
  refine wp_attempt_bind.2 (wp_post (fun r h'' hp => ?_) (wp_lookupBrokerOrder h'))
  rcases r with e | _ | b
  · exact pollWrite_touch _ h''
  · exact pollWrite_touch _ h''
  · exact pollWrite_applyBrokerOrder (hr.mono hp.1) hopen (hp.2 b rfl)

theorem orderPoll_reconcileOrder (id : String) :
    Always (S := tradeSig) OrderPoll (reconcileOrder id) :=
  (pollWrite_reconcileOrder id).mono fun _ _ => PollWrite.orderPoll

/-! ## Polling -/

theorem orderPoll_fastPollRounds (id : String) (delays : List ℕ) :
    Always (S := tradeSig) OrderPoll (fastPollRounds id delays) := by
  induction delays with
  | nil => exact always_ret _
  | cons delayMs delays ih =>
    refine always_bind (orderPoll_await rfl) fun _ => ?_
    refine always_bind (always_attempt (orderPoll_reconcileOrder id)) fun r => ?_
    rcases r with e | _
    · exact ih
    · refine always_bind (orderPoll_await rfl) fun found => ?_
      cases found with
      | none => exact ih
      | some row => exact always_ite (fun _ => always_ret _) fun _ => ih

theorem orderPoll_fastPollOrder (id : String) :
    Always (S := tradeSig) OrderPoll (fastPollOrder id) :=
  always_bind (always_attempt (orderPoll_fastPollRounds id _)) fun _ => always_ret _

theorem orderPoll_reconcileAllOpenOrders :
    Always (S := tradeSig) OrderPoll reconcileAllOpenOrders :=
  always_bind (always_attempt orderPoll_recoverInflight) fun _ =>
    always_bind (always_attempt (orderPoll_of_quiet quiet_cancelStaleOpenOrders)) fun _ =>
      always_bind (orderPoll_await rfl) fun _ => always_forEach fun row =>
        always_bind (always_attempt (orderPoll_reconcileOrder row.id)) fun _ => always_ret _

/-! ## Submission -/

/-- **A submission that has created a row ends with the write of its status.** -/
def Concluded (h : List (Event tradeSig)) : Prop :=
  ∀ d row, Created h d row → ∃ h₀ p r s, h = h₀ ++ [⟨.orderUpdate row.id p, r⟩] ∧
    p.status = some s ∧ s.pollable

theorem Concluded.of_not_created {h : List (Event tradeSig)} (hn : ∀ d row, ¬ Created h d row) :
    Concluded h := fun d row hc => absurd hc (hn d row)

/-- The kill-switch's counter failed, which is a variable of the service. -/
def CounterFailed (h : List (Event tradeSig)) : Prop :=
  ∃ ms e, ⟨.submitFailuresRecord ms, .error e⟩ ∈ h

/-- A call ends concluded. -/
def Ended (h : List (Event tradeSig)) : Prop := Concluded h ∨ CounterFailed h

theorem Ended.of_quietPast {h : List (Event tradeSig)} (hq : QuietPast h) : Ended h :=
  .inl (.of_not_created hq.not_created)

/-- The call has created this row and no other. -/
structure Owns (h : List (Event tradeSig)) (d : OrderCreate) (row : RealOrder) : Prop where
  created : Created h d row
  only : ∀ d' row', Created h d' row' → row' = row

section Submit

variable {h : List (Event tradeSig)} {d : OrderCreate} {row : RealOrder}

theorem QuietPast.owns (hq : QuietPast h) : Owns (h ++ [⟨.orderCreate d, .ok row⟩]) d row := by
  refine ⟨by simp [Created], fun d' row' hc => ?_⟩
  rcases List.mem_append.1 hc with hc | hc
  · exact absurd hc (hq.not_created d' row')
  · cases List.mem_singleton.1 hc
    rfl

theorem Owns.snoc (ho : Owns h d row) {e : Event tradeSig} (he : ∀ d', e.1 ≠ .orderCreate d') :
    Owns (h ++ [e]) d row := by
  refine ⟨List.mem_append_left _ ho.created, fun d' row' hc => ?_⟩
  rcases List.mem_append.1 hc with hc | hc
  · exact ho.only d' row' hc
  · exact absurd (congrArg Sigma.fst (List.mem_singleton.1 hc).symm) (he d')

theorem Owns.concluded (ho : Owns h d row) {p : OrderPatch} {r : Except Err RealOrder}
    {s : OrderStatus} (hs : p.status = some s) (hp : s.pollable) :
    Concluded (h ++ [⟨.orderUpdate row.id p, r⟩]) := by
  intro d' row' hc
  obtain rfl := (ho.snoc (e := ⟨.orderUpdate row.id p, r⟩) nofun).only d' row' hc
  exact ⟨h, p, r, s, rfl, hs, hp⟩

theorem Owns.quiet (ho : Owns h d row) {α : Type} {p : Trade α} (hp : Quiet p) :
    p.Wp (histSem tradeSig) OrderWrite (fun _ h' => Owns h' d row) h := by
  refine wp_mono (fun _ _ hq => .look hq.1) (fun _ _ h => h)
    (Always.carries (q := fun op : TradeOp => op.quiet) (I := fun h => Owns h d row) hp ?_ ho)
  refine fun h' e ho' hq => ho'.snoc fun d' he => ?_
  rw [he] at hq
  exact absurd hq Bool.false_ne_true

theorem Owns.note (ho : Owns h d row) {p : OrderPatch} {s : OrderStatus} (hs : p.status = some s)
    (hp : s.pollable) (hf : p.NoFill) {f : Except Err RealOrder → Trade RealOrder}
    (hret : ∀ r, ∃ a, f r = .ret a) :
    ((await (.orderUpdate row.id p)).attempt >>= f).Wp (histSem tradeSig) OrderWrite
      (fun _ => Ended) h := by
  refine wp_attempt_perform_bind.2 ⟨.note ho.created hs hp hf, ?_⟩
  rintro r h' rfl
  obtain ⟨a, ha⟩ := hret r
  rw [ha]
  exact .inl (ho.concluded hs hp)

/-- After the count of a failure; only the counter itself could end the submission there. -/
def Counted (d : OrderCreate) (row : RealOrder) : Except Err Unit → List (Event tradeSig) → Prop
  | .ok _, h => Owns h d row
  | .error _, h => CounterFailed h

theorem Owns.count (ho : Owns h d row) :
    recordSubmitFailureAndMaybeHalt.Wp (histSem tradeSig) OrderWrite (Counted d row) h := by
  refine wp_perform_bind.2 (And.intro (.look rfl) ?_)
  rintro (e | n) h' rfl
  · exact ⟨_, e, List.mem_append_right _ (List.mem_singleton.2 rfl)⟩
  replace ho := ho.snoc (e := ⟨.submitFailuresRecord submitFailureWindowMs, .ok n⟩) nofun
  dsimp only [bindPost]
  split
  · exact ho
  · exact wp_attempt_bind.2 (wp_post (fun _ _ ho => ho) (ho.quiet (quiet_haltRealExecution _)))

theorem orderWrite_submitAtBroker (args : SubmitArgs) (clientOrderId : String) (hq : QuietPast h)
    (hi : d.tradeIntentId = args.tradeIntentId) (hb : d.brokerPluginId = args.brokerPluginId)
    (hc : d.clientOrderId = clientOrderId) :
    (submitAtBroker args clientOrderId row).Wp (histSem tradeSig) OrderWrite (fun _ => Ended)
      (h ++ [⟨.orderCreate d, .ok row⟩]) := by
  have ho : Owns (h ++ [⟨.orderCreate d, .ok row⟩]) d row := hq.owns
  refine wp_attempt_bind.2 (wp_post (Q := fun _ h' => Owns h' d row) (fun response h' ho => ?_) ?_)
  · cases response with
    | ok brokerOrderId =>
      refine ho.note rfl rfl ⟨rfl, rfl⟩ fun r => ?_
      cases r <;> exact ⟨_, rfl⟩
    | error e =>
      refine wp_bind_of ho.count (fun _ h'' ho => ?_) fun e h'' hc => .inr hc
      refine Owns.note ho rfl rfl ⟨rfl, rfl⟩ fun r => ?_
      cases r <;> exact ⟨_, rfl⟩
  · rw [← hi, ← hb]
    refine wp_perform_bind.2 (And.intro (.place hq hc.symm) ?_)
    rintro (e | r) h' rfl
    · exact ho.snoc (by rintro d' ⟨⟩)
    · refine Owns.quiet (ho.snoc (by rintro d' ⟨⟩)) ?_
      exact always_bind (quiet_await rfl) fun _ => always_ofOutcome _

theorem ne_created_of_quiet {e : Event tradeSig} (hq : e.1.quiet) (d : OrderCreate)
    (row : RealOrder) : e ≠ ⟨.orderCreate d, .ok row⟩ := by
  rintro rfl
  exact absurd hq Bool.false_ne_true

theorem not_created_snoc (hn : ∀ d row, ¬ Created h d row) {e : Event tradeSig}
    (he : ∀ d row, e ≠ ⟨.orderCreate d, .ok row⟩) (d : OrderCreate) (row : RealOrder) :
    ¬ Created (h ++ [e]) d row := by
  intro hc
  rcases List.mem_append.1 hc with hc | hc
  · exact hn d row hc
  · exact he d row (List.mem_singleton.1 hc).symm

theorem ended_snoc (hn : ∀ d row, ¬ Created h d row) {e : Event tradeSig}
    (he : ∀ d row, e ≠ ⟨.orderCreate d, .ok row⟩) : Ended (h ++ [e]) :=
  .inl (.of_not_created (not_created_snoc hn he))

theorem orderWrite_raceWinner (tradeIntentId : String) (e : Err)
    (hn : ∀ d row, ¬ Created h d row) :
    (raceWinner tradeIntentId e).Wp (histSem tradeSig) OrderWrite (fun _ => Ended) h := by
  apply wp_perform_bind.2
  refine ⟨OrderWrite.look rfl, ?_⟩
  rintro r h' rfl
  have he : Ended (h ++ [⟨.orderFindActiveForIntent tradeIntentId, r⟩]) :=
    ended_snoc hn (ne_created_of_quiet rfl)
  rcases r with e' | _ | winner
  · exact he
  · exact he
  · exact he

theorem QuietPast.quiet (hq : QuietPast h) {α : Type} {p : Trade α} (hp : Quiet p) :
    p.Wp (histSem tradeSig) OrderWrite (fun _ => QuietPast) h :=
  wp_mono (fun _ _ hq => .look hq.1) (fun _ _ h => h)
    (Always.carries (q := fun op : TradeOp => op.quiet) hp (fun _ _ hq he => hq.snoc he) hq)

theorem orderWrite_submitNew (args : SubmitArgs) (hq : QuietPast h) :
    (submitNew args).Wp (histSem tradeSig) OrderWrite (fun _ => Ended) h := by
  refine wp_bind_of (hq.quiet (quiet_generateClientOrderId _)) (fun clientOrderId h' hq => ?_)
    fun _ _ hq => .of_quietPast hq
  refine wp_attempt_perform_bind.2 (And.intro (.create hq) ?_)
  rintro (e | row) h'' rfl
  · have hn (d : OrderCreate) : ∀ d' row, ¬ Created (h' ++ [⟨.orderCreate d, .error e⟩]) d' row :=
      not_created_snoc hq.not_created (by rintro d' row ⟨⟩)
    dsimp only
    split
    · exact orderWrite_raceWinner _ _ (hn _)
    · exact .inl (.of_not_created (hn _))
  · exact orderWrite_submitAtBroker args _ hq rfl rfl rfl

theorem orderWrite_submit (args : SubmitArgs) (hq : QuietPast h) :
    (submit args).Wp (histSem tradeSig) OrderWrite (fun _ => Ended) h := by
  refine wp_bind_of (hq.quiet (quiet_await rfl)) (fun existing h' hq => ?_)
    fun _ _ hq => .of_quietPast hq
  cases existing with
  | some row => exact .of_quietPast hq
  | none =>
    refine wp_bind_of (hq.quiet (quiet_await rfl)) (fun existing h' hq => ?_)
      fun _ _ hq => .of_quietPast hq
    cases existing with
    | some row => exact .of_quietPast hq
    | none => exact orderWrite_submitNew args hq

end Submit

/-! ## Every call -/

theorem ended_of_poll {p : Trade Unit} (hp : Always (S := tradeSig) OrderPoll p) :
    p.Wp (histSem tradeSig) OrderWrite (fun _ => Ended) [] := by
  have hn : p.Wp (histSem tradeSig) (fun h op => (∀ d, op ≠ .orderCreate d) ∧
      ∀ d row, ¬ Created h d row) (fun _ h => ∀ d row, ¬ Created h d row) [] := by
    refine Always.carries (q := fun op : TradeOp => ∀ d, op ≠ .orderCreate d)
      (I := fun h => ∀ d row, ¬ Created h d row) (hp.mono fun _ _ h => h.2)
      (h := []) (fun h e hn he => not_created_snoc hn ?_) (by simp [Created])
    rintro d row rfl
    exact he d rfl
  exact wp_mono (fun _ _ h => h.1.1) (fun _ _ h => .inl (.of_not_created h.2)) (wp_and (hp []) hn)

/-- **Every call writes only so, and a submission ends with its row's status**, whatever the call
is answered. -/
theorem orderWrite_body (c : OrderCall) :
    c.body.Wp (histSem tradeSig) OrderWrite (fun _ => Ended) [] := by
  cases c with
  | submit args =>
    exact wp_bind_of (orderWrite_submit args quietPast_nil) (fun _ _ he => he) fun _ _ he => he
  | recoverInflight => exact ended_of_poll orderPoll_recoverInflight
  | reconcileOrder id => exact ended_of_poll (orderPoll_reconcileOrder id)
  | fastPollOrder id => exact ended_of_poll (orderPoll_fastPollOrder id)
  | reconcileAllOpenOrders => exact ended_of_poll orderPoll_reconcileAllOpenOrders

end NeoTrader
