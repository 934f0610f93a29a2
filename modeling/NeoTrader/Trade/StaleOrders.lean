import Mathlib.Data.List.Nodup
import NeoTrader.Trade.OrderWrites

/-!
# Stale open orders

Each tick asks the broker to cancel the orders that have been open for too long. Since when a row is
open is read from `submitted_at`, which only the submission's own write sets.

* **`submitted_run`**: a row has `submitted_at` exactly where a submission has confirmed it, however
  the calls interleave;
* `Due`, `Stale`, `Asked`: a row was created too long ago, was submitted too long ago, is asked to
  be canceled;
* **`asked_iff`**: every due row is asked exactly where each of them is stale as well.
-/

namespace NeoTrader.Stale

open Js Await Prog

/-! ## The log of a tick -/

/-- What a tick has awaited: each event, with the tables that it has met. -/
abbrev TickLog : Type := List (World × Event tradeSig)

/-- **A tick among other calls**: between its awaits the tables may change in any way. -/
def tableSem : Sem tradeSig TickLog :=
  ⟨fun op l r l' => ∃ w w', tradeSem.rel op w r w' ∧ l' = l ++ [(w, ⟨op, r⟩)]⟩

/-- The write sets `submitted_at`. -/
def submits : TradeOp → Bool
  | .orderUpdate _ d | .orderUpdateMany _ _ d | .orderTransaction _ _ d _ _ => d.submitted
  | _ => false

/-- No operation of the stale sweep, and no write of a submission. -/
def beside : TradeOp → Bool
  | .orderFindStale _ | .cancelOrder _ _ => false
  | op => !submits op

/-- A request to cancel an order of a broker. -/
def cancelOf : World × Event tradeSig → Option (String × String)
  | (_, ⟨.cancelOrder brokerPluginId brokerOrderId, _⟩) => some (brokerPluginId, brokerOrderId)
  | _ => none

/-- The requests to cancel, in their order. -/
abbrev cancels (l : TickLog) : List (String × String) := l.filterMap cancelOf

/-- The request for a row: one where the broker's order id is known. -/
def cancelCalls (row : RealOrder) : List (String × String) :=
  (row.brokerOrderId.filter (· ≠ "")).toList.map fun brokerOrderId =>
    (row.brokerPluginId, brokerOrderId)

/-- The timeout that the sweep takes from the setting. -/
def timeoutOf : Except Err (Option String) → ℚ
  | .ok raw => kvNum raw defaultStaleOrderTimeoutMs
  | .error _ => defaultStaleOrderTimeoutMs

/-! ## The property -/

/-- **A row is due**: it is open at the broker, and was created longer ago than the timeout. -/
structure Due (created : String → ℤ) (now : ℤ) (timeout : ℚ) (row : RealOrder) : Prop where
  isOpen : row.status.isOpen
  placed : cancelCalls row ≠ []
  old : (created row.id : ℚ) < now - timeout

/-- **A row is stale**: it was submitted longer ago than the timeout. -/
def Stale (now : ℤ) (timeout : ℚ) (row : RealOrder) : Prop :=
  ∃ t : ℤ, row.submittedAt = some t ∧ (t : ℚ) < now - timeout

/-- **The broker is asked once to cancel the row**: the requests of the tick are those of the rows
that were found, and the row is one of them. -/
def Asked (found : Except Err (List RealOrder)) (l : TickLog) (row : RealOrder) : Prop :=
  ∃ rows, found = .ok rows ∧ rows.count row = 1 ∧ cancels l = rows.flatMap cancelCalls ∧
    ∃ request, cancelCalls row = [request]

/-- **The sweep of a tick**: the setting and the clock are read, then the tables. -/
def SweptAt (l : TickLog) (setting : Except Err (Option String)) (now : ℤ) (w : World)
    (found : Except Err (List RealOrder)) : Prop :=
  ∃ before w₁ w₂ after, l = before ++ (w₁, ⟨.kvGet staleOrderTimeoutKey, setting⟩) ::
    (w₂, ⟨.now, .ok now⟩) :: (w, ⟨.orderFindStale (now - timeoutOf setting), found⟩) :: after

/-! ## What is no sweep -/

/-- The program is none of the sweep, nor of a submission. -/
abbrev Aside {α : Type} (p : Trade α) : Prop := Always (S := tradeSig) (fun _ op => beside op) p

theorem aside_await {op : TradeOp} (hop : beside op) : Aside (await op) :=
  always_perform fun _ => hop

theorem aside_handleConfirmedAbsent (row : RealOrder) : Aside (handleConfirmedAbsent row) := by
  refine always_bind (aside_await rfl) fun n => ?_
  refine always_ite (fun _ => aside_await rfl) fun _ => ?_
  refine always_bind (aside_await rfl) fun _ => ?_
  exact always_bind (always_attempt (aside_await rfl)) fun _ => always_ret _

theorem aside_recoverRow (row : RealOrder) : Aside (recoverRow row) := by
  refine always_bind (always_attempt (aside_await rfl)) fun r => ?_
  rcases r with e | _ | b
  · exact aside_await rfl
  · exact aside_handleConfirmedAbsent row
  · refine always_bind (aside_await rfl) fun _ => ?_
    exact always_bind (aside_await rfl) fun _ => always_ret _

theorem aside_recoverInflight : Aside recoverInflight :=
  always_bind (aside_await rfl) fun _ => always_forEach aside_recoverRow

theorem aside_touch (i : String) (backfill : Option String) :
    Aside (touchLastReconciledAt i backfill) :=
  always_bind (always_attempt (aside_await rfl)) fun _ => always_ret _

theorem aside_terminalTransaction (row : RealOrder) (s : OrderStatus) (b : OrderStatusResult) :
    Aside (terminalTransaction row s b) := always_bind (aside_await rfl) fun _ => always_ret _

theorem aside_applyBrokerOrder (row : RealOrder) (b : OrderStatusResult) :
    Aside (applyBrokerOrder row b) := by
  refine always_ite (fun _ => aside_touch _ _) fun _ => ?_
  refine always_ite (fun _ => aside_terminalTransaction _ _ _) fun _ => ?_
  refine always_ite (fun _ => ?_) fun _ => ?_
  · exact always_bind (aside_await rfl) fun _ => always_ret _
  · exact always_ite (fun _ => aside_terminalTransaction _ _ _) fun _ => aside_touch _ _

theorem aside_lookupBrokerOrder (row : RealOrder) : Aside (lookupBrokerOrder row) := by
  unfold lookupBrokerOrder
  split
  · exact always_bind (aside_await rfl) fun _ => always_ret _
  · exact aside_await rfl

theorem aside_reconcileOrder (id : String) : Aside (reconcileOrder id) := by
  refine always_bind (aside_await rfl) fun found => ?_
  cases found with
  | none => exact always_ret _
  | some row =>
    refine always_ite (fun _ => always_ret _) fun _ => ?_
    refine always_bind (always_attempt (aside_lookupBrokerOrder row)) fun r => ?_
    rcases r with e | _ | b
    · exact aside_touch _ _
    · exact aside_touch _ _
    · exact aside_applyBrokerOrder row b

theorem cancels_append (l l' : TickLog) : cancels (l ++ l') = cancels l ++ cancels l' :=
  List.filterMap_append

theorem cancelOf_aside {w : World} {e : Event tradeSig} (he : beside e.1) :
    cancelOf (w, e) = none := by
  obtain ⟨op, r⟩ := e
  cases op with
  | cancelOrder => cases he
  | _ => rfl

/-- **What is no sweep asks for no cancel.** -/
theorem aside_run {α : Type} {p : Trade α} (hp : Aside p) (l : TickLog) :
    p.Wp tableSem (fun _ _ => True) (fun _ l' => ∃ part, l' = l ++ part ∧ cancels part = []) l := by
  replace hp := hp []
  generalize ([] : List (Event tradeSig)) = h at hp
  induction p generalizing h l with
  | ret a => exact ⟨[], (List.append_nil l).symm, rfl⟩
  | throw e => exact ⟨[], (List.append_nil l).symm, rfl⟩
  | await op k ih =>
    refine ⟨trivial, ?_⟩
    rintro r l' ⟨w, w', -, rfl⟩
    refine wp_post ?_ (ih r _ _ (hp.2 r _ rfl))
    rintro x l' ⟨part, rfl, hpart⟩
    refine ⟨(w, ⟨op, r⟩) :: part, by rw [List.append_assoc, List.singleton_append], ?_⟩
    rw [cancels, List.filterMap_cons, cancelOf_aside hp.1]
    exact hpart

/-! ## The sweep -/

/-- **One row**: it is asked once where its broker id is known, and nothing gets out of it. -/
theorem cancelStaleOrder_run (timeoutMs : ℚ) (row : RealOrder) (l : TickLog) :
    (cancelStaleOrder timeoutMs row).Wp tableSem (fun _ _ => True)
      (fun x l' => x = .ok () ∧ ∃ part, l' = l ++ part ∧ cancels part = cancelCalls row) l := by
  unfold cancelStaleOrder cancelCalls
  split
  · next hnone =>
    rw [hnone]
    exact ⟨rfl, [], (List.append_nil l).symm, rfl⟩
  · next brokerOrderId hsome =>
    rw [hsome]
    refine wp_attempt_bind.2 (wp_perform_bind.2 ⟨trivial, ?_⟩)
    rintro r l' ⟨w, w', -, rfl⟩
    cases r with
    | error e => exact ⟨rfl, _, rfl, rfl⟩
    | ok u =>
      refine bindPost_ok.2 (wp_attempt_perform_bind.2 ⟨trivial, ?_⟩)
      rintro r l' ⟨w₂, w₂', -, rfl⟩
      exact ⟨rfl, _, List.append_assoc _ _ _, rfl⟩

theorem forEach_run (timeoutMs : ℚ) (rows : List RealOrder) (l : TickLog) :
    (forEach rows (cancelStaleOrder timeoutMs)).Wp tableSem (fun _ _ => True)
      (fun x l' => x = .ok () ∧ ∃ part, l' = l ++ part ∧
        cancels part = rows.flatMap cancelCalls) l := by
  induction rows generalizing l with
  | nil => exact ⟨rfl, [], (List.append_nil l).symm, rfl⟩
  | cons row rows ih =>
    refine wp_bind_of (cancelStaleOrder_run timeoutMs row l) ?_ ?_
    · rintro ⟨⟩ l₁ ⟨-, part, rfl, hpart⟩
      refine wp_post ?_ (ih (l ++ part))
      rintro x l₂ ⟨hx, part', rfl, hpart'⟩
      refine ⟨hx, part ++ part', List.append_assoc _ _ _, ?_⟩
      rw [cancels_append, hpart, hpart', List.flatMap_cons]
    · rintro e l₁ ⟨he, -⟩
      cases he

/-- The rows that the sweep finds. -/
def found (w : World) (cutoff : ℚ) : List RealOrder :=
  w.orders.filter fun r => r.status.isOpen ∧ r.submittedAt.any fun t => (t : ℚ) < cutoff

/-- The answers of the sweep's query, and what follows. -/
structure Swept (w : World) (cutoff : ℚ) (answer : Except Err (List RealOrder)) (after : TickLog) :
    Prop where
  answered : ∀ rows, answer = .ok rows → rows = found w cutoff
  requests : ∀ rows, answer = .ok rows → cancels after = rows.flatMap cancelCalls
  failed : ∀ e, answer = .error e → cancels after = []

/-- **The log of a sweep**: the reads, and the requests for what was found. -/
def SweepLog (part : TickLog) : Prop :=
  ∃ setting, ∃ now : ℤ, ∃ w answer w₁ w₂ after, part =
    (w₁, ⟨.kvGet staleOrderTimeoutKey, setting⟩) :: (w₂, ⟨.now, .ok now⟩) ::
      (w, ⟨.orderFindStale (now - timeoutOf setting), answer⟩) :: after ∧
    Swept w (now - timeoutOf setting) answer after

theorem readStaleTimeoutMs_run {α : Type} (f : ℚ → Trade α) (Q : Except Err α → TickLog → Prop)
    (l : TickLog) (hf : ∀ w setting, (f (timeoutOf setting)).Wp tableSem (fun _ _ => True) Q
      (l ++ [(w, ⟨.kvGet staleOrderTimeoutKey, setting⟩)])) :
    (readStaleTimeoutMs >>= f).Wp tableSem (fun _ _ => True) Q l := by
  refine wp_bind_of (P := fun x l' => ∃ w setting, x = .ok (timeoutOf setting) ∧
    l' = l ++ [(w, ⟨.kvGet staleOrderTimeoutKey, setting⟩)]) ?_ ?_ ?_
  · refine wp_attempt_perform_bind.2 ⟨trivial, ?_⟩
    rintro setting l' ⟨w, w', -, rfl⟩
    cases setting with
    | error e => exact ⟨w, .error e, rfl, rfl⟩
    | ok raw => exact ⟨w, .ok raw, rfl, rfl⟩
  · rintro timeoutMs l' ⟨w, setting, hx, rfl⟩
    cases hx
    exact hf w setting
  · rintro e l' ⟨w, setting, hx, -⟩
    cases hx

theorem now_answers {w w' : World} {r : Except Err ℤ} (hrel : tradeSem.rel .now w r w') :
    ∃ now : ℤ, r = .ok now := by
  obtain ⟨o, -, ho⟩ := hrel
  exact ⟨o.time, (congrArg Prod.fst ho).symm⟩

theorem found_answers {w w' : World} {cutoff : ℚ} {r : Except Err (List RealOrder)}
    (hrel : tradeSem.rel (.orderFindStale cutoff) w r w') (rows : List RealOrder)
    (hr : r = .ok rows) : rows = found w cutoff := by
  obtain ⟨o, -, ho⟩ := hrel
  exact (query_cases ho).2 rows hr

/-- **The sweep of a tick.** -/
theorem cancelStaleOpenOrders_run (l : TickLog) :
    cancelStaleOpenOrders.Wp tableSem (fun _ _ => True)
      (fun _ l' => ∃ part, l' = l ++ part ∧ SweepLog part) l := by
  refine readStaleTimeoutMs_run _ _ l fun w₁ setting => ?_
  refine wp_perform_bind.2 ⟨trivial, ?_⟩
  rintro r l' ⟨w₂, w₂', hnow, rfl⟩
  obtain ⟨now, rfl⟩ := now_answers hnow
  refine bindPost_ok.2 (wp_perform_bind.2 ⟨trivial, ?_⟩)
  rintro answer l' ⟨w, w', hfind, rfl⟩
  cases answer with
  | error e =>
    refine ⟨_, ?_, setting, now, w, .error e, w₁, w₂, [], rfl, ?_, ?_, fun _ _ => rfl⟩
    · rw [List.append_assoc, List.append_assoc]
      rfl
    · intro rows hrows
      cases hrows
    · intro rows hrows
      cases hrows
  | ok rows =>
    refine bindPost_ok.2 (wp_post ?_ (forEach_run (timeoutOf setting) rows _))
    rintro x l' ⟨-, after, rfl, hafter⟩
    refine ⟨_, ?_, setting, now, w, .ok rows, w₁, w₂, after, rfl, found_answers hfind, ?_, ?_⟩
    · rw [List.append_assoc, List.append_assoc, List.append_assoc]
      rfl
    · intro rows' hrows
      cases hrows
      exact hafter
    · intro e he
      cases he

/-- **A tick**: nothing but its sweep asks for cancels. -/
theorem tick_run (l : TickLog) : reconcileAllOpenOrders.Wp tableSem (fun _ _ => True)
    (fun _ l' => ∃ before part after, l' = l ++ (before ++ part ++ after) ∧ SweepLog part ∧
      cancels before = [] ∧ cancels after = []) l := by
  refine wp_attempt_bind.2 (wp_post ?_ (aside_run aside_recoverInflight l))
  rintro - l₁ ⟨before, rfl, hbefore⟩
  refine wp_attempt_bind.2 (wp_post ?_ (cancelStaleOpenOrders_run _))
  rintro - l₂ ⟨part, rfl, hpart⟩
  have hrest : Aside (do
      let rows ← await (.orderFindMany [.submitted, .accepted, .partiallyFilled])
      forEach rows fun row => do
        let _ ← (reconcileOrder row.id).attempt
        return ()) :=
    always_bind (aside_await rfl) fun rows => always_forEach fun row =>
      always_bind (always_attempt (aside_reconcileOrder row.id)) fun _ => always_ret _
  refine wp_post ?_ (aside_run hrest _)
  rintro x l₃ ⟨after, rfl, hafter⟩
  refine ⟨before, part, after, ?_, hpart, hbefore, hafter⟩
  simp only [List.append_assoc]

/-! ## Who sets `submitted_at` -/

/-- A submission has confirmed its row. -/
def Submitted (id : String) (e : Event tradeSig) : Prop :=
  ∃ d r, d.submitted = true ∧ e = ⟨.orderUpdate id d, .ok r⟩

/-- Only an update by id sets `submitted_at`. -/
def ById (op : TradeOp) : Prop := submits op → ∃ id d, op = .orderUpdate id d

section Writers

variable {now : ℤ} {w w' : World} {d : OrderPatch} {p : RealOrder → Bool} {r' : RealOrder}

theorem write_submittedAt {r : RealOrder} (h : (d.apply now r).isSome) :
    (d.write now r).submittedAt = if d.submitted then some now else r.submittedAt := by
  obtain ⟨r', hr'⟩ := Option.isSome_iff_exists.1 h
  rw [OrderPatch.write, hr', Option.getD_some]
  obtain ⟨qty, -, hr'⟩ := Option.bind_eq_some_iff.1 hr'
  obtain ⟨price, -, rfl⟩ := Option.map_eq_some_iff.1 hr'
  rfl

/-- The row of an id had `submitted_at` before. -/
def Had (w : World) (id : String) : Prop := ∃ r ∈ w.orders, r.id = id ∧ r.submittedAt.isSome

theorem had_iff (hk : Store.Keyed RealOrder.id w.orders) (hr : r' ∈ w.orders) :
    Had w r'.id ↔ r'.submittedAt.isSome := by
  constructor
  · rintro ⟨r, hr₀, hid, hsome⟩
    exact hk r hr₀ r' hr hid ▸ hsome
  · exact fun hsome => ⟨r', hr, rfl, hsome⟩

theorem updated_submittedAt (hk : Store.Keyed RealOrder.id w.orders)
    (hu : OrdersUpdated now w w' p d) (hr : r' ∈ w'.orders) : r'.submittedAt.isSome ↔
      Had w r'.id ∨ d.submitted = true ∧ ∃ r ∈ w.orders, p r = true ∧ r.id = r'.id := by
  rw [hu.orders] at hr
  obtain ⟨r, hr₀, ⟨hp, rfl⟩ | ⟨hp, rfl⟩⟩ := Store.mem_modify.1 hr
  · rw [write_submittedAt (hu.stored r hr₀ hp), OrderPatch.write_id, had_iff hk hr₀]
    by_cases hd : d.submitted = true
    · simp only [hd, if_true, Option.isSome_some, true_and, true_iff]
      exact .inr ⟨r, hr₀, hp, rfl⟩
    · simp [hd]
  · rw [had_iff hk hr₀]
    constructor
    · exact .inl
    · rintro (hsome | ⟨-, r₁, hr₁, hp₁, hid⟩)
      · exact hsome
      · rw [hk r₁ hr₁ r' hr₀ hid] at hp₁
        exact absurd hp₁ hp

/-- **One operation sets `submitted_at` only where it confirms a submission.** -/
theorem submittedAt_step {o : Oracle} {op : TradeOp} {a : Except Err op.Ans}
    (hk : Store.Keyed RealOrder.id w.orders) (ho : handle o op w = (a, w')) (hop : ById op)
    (hr : r' ∈ w'.orders) :
    r'.submittedAt.isSome ↔ Had w r'.id ∨ Submitted r'.id ⟨op, a⟩ := by
  have same {e : Event tradeSig} (hw : w'.orders = w.orders) (he : ¬ Submitted r'.id e) :
      r'.submittedAt.isSome ↔ Had w r'.id ∨ Submitted r'.id e := by
    rw [hw] at hr
    rw [had_iff hk hr]
    exact ⟨.inl, fun h => h.resolve_right he⟩
  have silent {q : RealOrder → Bool} {d : OrderPatch} {e : Event tradeSig}
      (hu : OrdersUpdated o.time w w' q d) (hd : ¬ d.submitted = true) (he : ¬ Submitted r'.id e) :
      r'.submittedAt.isSome ↔ Had w r'.id ∨ Submitted r'.id e := by
    rw [updated_submittedAt hk hu hr]
    exact ⟨fun h => .inl (h.resolve_right fun h => hd h.1), fun h => .inl (h.resolve_right he)⟩
  cases op with
  | orderCreate d =>
    have hnone : ¬ Submitted r'.id (⟨.orderCreate d, a⟩ : Event tradeSig) := by
      rintro ⟨d', r, -, he⟩
      cases he
    rcases db_cases ho with ⟨rfl, -⟩ | ⟨row, hx, rfl⟩
    · exact same rfl hnone
    · obtain ⟨qty, limit, rfl, hfresh, -, -, rfl⟩ := createOrder_cases hx
      rcases List.mem_append.1 hr with hr | hr
      · rw [had_iff hk hr]
        exact ⟨.inl, fun h => h.resolve_right hnone⟩
      · rw [List.mem_singleton.1 hr]
        constructor
        · intro hsome
          cases hsome
        · rintro (⟨r, hr₀, hid, -⟩ | ⟨d', r, -, he⟩)
          · exact absurd hid (hfresh r hr₀)
          · cases he
  | orderUpdate id d =>
    rcases db_cases ho with ⟨rfl, e, rfl⟩ | ⟨row, hx, rfl⟩
    · refine same rfl ?_
      rintro ⟨d', r, -, he⟩
      cases he
    · obtain ⟨row, hrow, rfl, hu, -⟩ := updateOrder_cases hx
      rw [updated_submittedAt hk hu hr]
      refine or_congr_right ?_
      constructor
      · rintro ⟨hd, r, -, hp, hid⟩
        rw [← hid, of_decide_eq_true hp]
        exact ⟨d, _, hd, rfl⟩
      · rintro ⟨d', r, hd, he⟩
        cases he
        exact ⟨hd, row, mem_of_order? hrow, decide_eq_true (order?_id hrow), order?_id hrow⟩
  | orderUpdateMany id expected d =>
    have hd : ¬ d.submitted = true := by
      intro hd
      obtain ⟨_, _, he⟩ := hop hd
      cases he
    have hnone : ¬ Submitted r'.id (⟨.orderUpdateMany id expected d, a⟩ : Event tradeSig) := by
      rintro ⟨d', r, -, he⟩
      cases he
    rcases db_cases ho with ⟨rfl, -⟩ | ⟨n, hx, rfl⟩
    · exact same rfl hnone
    · exact silent (updateOrders_cases hx).1 hd hnone
  | orderTransaction id expected d tradeIntentId ip =>
    have hd : ¬ d.submitted = true := by
      intro hd
      obtain ⟨_, _, he⟩ := hop hd
      cases he
    have hnone : ¬ Submitted r'.id
        (⟨.orderTransaction id expected d tradeIntentId ip, a⟩ : Event tradeSig) := by
      rintro ⟨d', r, -, he⟩
      cases he
    rcases db_cases ho with ⟨rfl, -⟩ | ⟨n, hx, rfl⟩
    · exact same rfl hnone
    · rcases updateOrderAndIntent_cases hx with ⟨-, rfl⟩ | ⟨-, -, hu, -, -⟩
      · exact same rfl hnone
      · exact silent hu hd hnone
  | _ =>
    refine same ?_ ?_
    · cases handle_tables ho <;> assumption
    · rintro ⟨d', r, -, he⟩
      cases he

end Writers

theorem not_submits_of_quiet {op : TradeOp} (hq : op.quiet) : ¬ submits op := by
  cases op with
  | orderUpdate | orderUpdateMany | orderTransaction => cases hq
  | _ => nofun

theorem not_submits_of_beside {op : TradeOp} (hb : beside op) : ¬ submits op := by
  cases op with
  | orderUpdate | orderUpdateMany | orderTransaction => simpa [beside] using hb
  | _ => nofun

/-- No write of a submission. -/
abbrev Unsubmitting {α : Type} (p : Trade α) : Prop :=
  Always (S := tradeSig) (fun _ op => ¬ submits op) p

theorem unsubmitting_of_quiet {α : Type} {p : Trade α} (hp : Quiet p) : Unsubmitting p :=
  hp.mono fun _ _ => not_submits_of_quiet

theorem unsubmitting_of_aside {α : Type} {p : Trade α} (hp : Aside p) : Unsubmitting p :=
  hp.mono fun _ _ => not_submits_of_beside

theorem unsubmitting_fastPollRounds (id : String) (delays : List ℕ) :
    Unsubmitting (fastPollRounds id delays) := by
  induction delays with
  | nil => exact always_ret _
  | cons delayMs delays ih =>
    refine always_bind (unsubmitting_of_quiet (quiet_await rfl)) fun _ => ?_
    have hpoll := unsubmitting_of_aside (aside_reconcileOrder id)
    refine always_bind (always_attempt hpoll) fun r => ?_
    cases r with
    | error e => exact ih
    | ok u =>
      refine always_bind (unsubmitting_of_quiet (quiet_await rfl)) fun found => ?_
      cases found with
      | none => exact ih
      | some row => exact always_ite (fun _ => always_ret _) fun _ => ih

theorem unsubmitting_reconcileAllOpenOrders : Unsubmitting reconcileAllOpenOrders := by
  refine always_bind (always_attempt (unsubmitting_of_aside aside_recoverInflight)) fun _ => ?_
  have hsweep := unsubmitting_of_quiet quiet_cancelStaleOpenOrders
  refine always_bind (always_attempt hsweep) fun _ => ?_
  refine always_bind (unsubmitting_of_quiet (quiet_await rfl)) fun rows => ?_
  refine always_forEach fun row => ?_
  have hpoll := unsubmitting_of_aside (aside_reconcileOrder row.id)
  exact always_bind (always_attempt hpoll) fun _ => always_ret _

theorem byId_submit (args : SubmitArgs) :
    Always (S := tradeSig) (fun _ op => ById op) (submit args).discard := by
  have quiet {α : Type} {p : Trade α} (hp : Quiet p) : Always (S := tradeSig) (fun _ => ById) p :=
    hp.mono fun _ _ hq hs => absurd hs (not_submits_of_quiet hq)
  have after (clientOrderId : String) (row : RealOrder) :
      Always (S := tradeSig) (fun _ => ById) (submitAtBroker args clientOrderId row) :=
    (afterCreate_submitAtBroker args clientOrderId row).mono fun _ op hop hs => by
      rcases hop with hq | ⟨_, _, _, rfl⟩ | ⟨id, d, _, rfl, -⟩
      · exact absurd hs (not_submits_of_quiet hq)
      · cases hs
      · exact ⟨id, d, rfl⟩
  refine always_bind ?_ fun _ => always_ret _
  refine always_bind (quiet (quiet_await rfl)) fun existing => ?_
  cases existing with
  | some row => exact always_ret _
  | none =>
    refine always_bind (quiet (quiet_await rfl)) fun existing => ?_
    cases existing with
    | some row => exact always_ret _
    | none =>
      refine always_bind (quiet (quiet_generateClientOrderId _)) fun clientOrderId => ?_
      refine always_bind (always_attempt (always_perform fun _ => nofun)) fun r => ?_
      cases r with
      | ok row => exact after clientOrderId row
      | error e =>
        refine always_ite (fun _ => ?_) fun _ => always_throw _
        refine always_bind (quiet (quiet_await rfl)) fun winner => ?_
        cases winner
        · exact always_throw _
        · exact always_ret _

theorem submits_body (c : OrderCall) : c.body.Wp (histSem tradeSig)
    (fun _ op => ById op ∧ (submits op → ∃ args, c = .submit args)) (fun _ _ => True) [] := by
  have other {p : Trade Unit} (hp : Unsubmitting p) : p.Wp (histSem tradeSig)
      (fun _ op => ById op ∧ (submits op → ∃ args, c = .submit args)) (fun _ _ => True) [] :=
    hp.mono (fun _ _ hno => ⟨fun hs => absurd hs hno, fun hs => absurd hs hno⟩) []
  cases c with
  | submit args => exact (byId_submit args).mono (fun _ _ hop => ⟨hop, fun _ => ⟨args, rfl⟩⟩) []
  | recoverInflight => exact other (unsubmitting_of_aside aside_recoverInflight)
  | reconcileOrder id => exact other (unsubmitting_of_aside (aside_reconcileOrder id))
  | fastPollOrder id =>
    exact other (always_bind (always_attempt (unsubmitting_fastPollRounds id _)) fun _ =>
      always_ret _)
  | reconcileAllOpenOrders => exact other unsubmitting_reconcileAllOpenOrders

/-- A submission among the calls has confirmed the row of an id. -/
def Confirmed (ts : List (Thread tradeSig OrderCall)) (id : String) : Prop :=
  ∃ t ∈ ts, (∃ args, t.call = .submit args) ∧ ∃ e ∈ t.hist, Submitted id e

section Run

variable {ts xs ys : List (Thread tradeSig OrderCall)} {c : OrderCall} {h : List (Event tradeSig)}
  {e : Event tradeSig} {p q : Trade Unit} {id : String}

theorem confirmed_start : Confirmed (ts ++ [⟨c, [], p⟩]) id ↔ Confirmed ts id := by
  simp [Confirmed]

theorem confirmed_step : Confirmed (xs ++ ⟨c, h ++ [e], q⟩ :: ys) id ↔
    Confirmed (xs ++ ⟨c, h, p⟩ :: ys) id ∨ (∃ args, c = .submit args) ∧ Submitted id e := by
  simp only [Confirmed, List.mem_append, List.mem_cons, or_and_right, exists_or, exists_eq_left,
    and_or_left, List.not_mem_nil, or_false, or_assoc]
  exact or_congr_right (or_congr_right or_comm)

end Run

theorem had_step {o : Oracle} {w w' : World} {op : TradeOp} {a : Except Err op.Ans} {id : String}
    (hk : Store.Keyed RealOrder.id w.orders) (ho : handle o op w = (a, w')) (hop : ById op) :
    Had w' id ↔ Had w id ∨ Submitted id ⟨op, a⟩ := by
  have hs := handle_tables ho
  constructor
  · rintro ⟨r', hr', rfl, hsome⟩
    exact (submittedAt_step hk ho hop hr').1 hsome
  · intro hor
    have hrow : ∃ r ∈ w.orders, r.id = id := by
      rcases hor with ⟨r, hr, hid, -⟩ | ⟨d, r, -, he⟩
      · exact ⟨r, hr, hid⟩
      · cases he
        rcases db_cases ho with ⟨-, e, he⟩ | ⟨row, hx, -⟩
        · cases he
        · obtain ⟨row, hrow, -⟩ := updateOrder_cases hx
          exact ⟨row, mem_of_order? hrow, order?_id hrow⟩
    obtain ⟨r, hr, rfl⟩ := hrow
    obtain ⟨r', hr', hid, -⟩ := hs.mem_orders hr
    exact ⟨r', hr', hid, (submittedAt_step hk ho hop hr').2 (hid ▸ hor)⟩

/-- **Only submissions set `submitted_at`**: in every interleaving of any number of calls, a row has
it if and only if a submission has confirmed the row. -/
theorem submitted_run {w : World} {P : Pool tradeSig OrderCall World}
    (hkey : Store.Keyed RealOrder.id w.orders) (hnone : ∀ r ∈ w.orders, r.submittedAt = none)
    (hr : Pool.Reaches tradeSem OrderCall.body Pool.free ⟨w, []⟩ P) :
    ∀ r ∈ P.world.orders, r.submittedAt.isSome ↔ Confirmed P.threads r.id := by
  have hrun : Store.Keyed RealOrder.id P.world.orders ∧
      ∀ id, Had P.world id ↔ Confirmed P.threads id := by
    refine Pool.reaches_threads (J := fun w ts => Store.Keyed RealOrder.id w.orders ∧
      ∀ id, Had w id ↔ Confirmed ts id) submits_body ?_ ?_ ⟨hkey, fun id => ?_⟩ hr
    · rintro v ts c ⟨hk, hP⟩
      exact ⟨hk, fun id => (hP id).trans confirmed_start.symm⟩
    · rintro v v' xs ys c h op k a ⟨hk, hP⟩ ⟨hop, hcall⟩ - ⟨o, -, ho⟩
      refine ⟨(handle_tables ho).keyed hk, fun id => ?_⟩
      rw [had_step hk ho hop, confirmed_step (p := .await op k), hP id]
      refine or_congr_right ⟨fun hsub => ⟨hcall ?_, hsub⟩, fun hsub => hsub.2⟩
      obtain ⟨d, r, hd, he⟩ := hsub
      cases he
      exact hd
    · constructor
      · rintro ⟨r, hr, -, hsome⟩
        rw [hnone r hr] at hsome
        cases hsome
      · rintro ⟨t, ht, -⟩
        cases ht
  exact fun r hr => (had_iff hrun.1 hr).symm.trans (hrun.2 r.id)

/-! ## The property, exactly -/

section Property

variable {l : TickLog} {w : World} {row : RealOrder} {created : String → ℤ} {now : ℤ} {timeout : ℚ}

theorem mem_found_iff {cutoff : ℚ} : row ∈ found w cutoff ↔
    row ∈ w.orders ∧ row.status.isOpen ∧ ∃ t : ℤ, row.submittedAt = some t ∧ (t : ℚ) < cutoff := by
  cases hat : row.submittedAt <;> simp [found, hat]

theorem Due.request (hdue : Due created now timeout row) :
    ∃ request, cancelCalls row = [request] := by
  have hplaced := hdue.placed
  unfold cancelCalls at hplaced ⊢
  generalize row.brokerOrderId.filter (· ≠ "") = brokerOrderId at hplaced ⊢
  cases brokerOrderId with
  | none => exact absurd rfl hplaced
  | some brokerOrderId => exact ⟨_, rfl⟩

end Property

/-- **Every due row is asked exactly where each of them is stale**, and the query answers: for every
tick, whatever it meets, and every table that its sweep reads. -/
theorem asked_iff {x : Except Err Unit} {l : TickLog}
    (hrun : reconcileAllOpenOrders.Exec tableSem [] x l) :
    ∃ setting now w answer, SweptAt l setting now w answer ∧
      ((w.orders.map RealOrder.id).Nodup → ∀ created,
        ((∀ row ∈ w.orders, Due created now (timeoutOf setting) row → Asked answer l row) ↔
          ∀ row ∈ w.orders, Due created now (timeoutOf setting) row →
            Stale now (timeoutOf setting) row ∧ ∃ rows, answer = .ok rows)) := by
  obtain ⟨before, part, after, rfl, hpart, hbefore, hafter⟩ := (tick_run []).exec hrun
  obtain ⟨setting, now, w, answer, w₁, w₂, rest, rfl, hswept⟩ := hpart
  refine ⟨setting, now, w, answer, ⟨before, w₁, w₂, rest ++ after, by simp⟩, fun hids created => ?_⟩
  refine forall₂_congr fun row hrow => forall_congr' fun hdue => ?_
  have hcancels : cancels ([] ++ (before ++ (w₁, ⟨.kvGet staleOrderTimeoutKey, setting⟩) ::
      (w₂, ⟨.now, .ok now⟩) :: (w, ⟨.orderFindStale (now - timeoutOf setting), answer⟩) :: rest ++
      after)) = cancels rest := by
    rw [List.nil_append, cancels_append, cancels_append, hbefore, hafter, List.append_nil,
      List.nil_append]
    rfl
  constructor
  · rintro ⟨rows, rfl, hcount, -, -⟩
    have hmem : row ∈ found w (now - timeoutOf setting) := by
      rw [← hswept.answered rows rfl]
      exact List.count_pos_iff.1 (by omega)
    exact ⟨(mem_found_iff.1 hmem).2.2, rows, rfl⟩
  · rintro ⟨hstale, rows, rfl⟩
    have hmem : row ∈ rows := by
      rw [hswept.answered rows rfl]
      exact mem_found_iff.2 ⟨hrow, hdue.isOpen, hstale⟩
    have hnodup : rows.Nodup := by
      rw [hswept.answered rows rfl]
      exact (List.Nodup.of_map RealOrder.id hids).filter _
    exact ⟨rows, rfl, List.count_eq_one_of_mem hnodup hmem,
      hcancels.trans (hswept.requests rows rfl), hdue.request⟩

/-! ## A submitted order, and one that recovery has found -/

def oneOrder : SubmitArgs :=
  { tradeIntentId := "intent-1", brokerPluginId := "alpaca", symbol := "SPY", side := .buy
    requestedQty := .fin 5 }

/-- A broker that has the order, at a time; `lost` loses its response to a new order. -/
def brokerAt (time : ℤ) (lost : Bool) : Oracle where
  time
  newId := "order-1"
  ext
    | .placeOrder _ _ _ => if lost then .error (err []) else .ok (.obj [("id", .str "b1")])
    | .getOrderStatus _ _ => .ok working
    | .getOrderByClientId _ _ => .ok (some working)
    | .cancelOrder _ _ => .ok ()
    | _ => .error (err [])
where
  working : OrderStatusResult :=
    { brokerOrderId := "b1", clientOrderId := none, status := "new", filledQty := .fin 0
      filledAvgPrice := none, raw := .null }

/-- An order is submitted at time zero, and the broker answers, or its response is lost and a
recovery sweep finds the order. -/
def placed (lost : Bool) : Option (Pool tradeSig OrderCall World) :=
  Pool.replay handle OrderCall.body Pool.unchecked
    (.start (.submit oneOrder) :: List.replicate 7 (.await 0 (brokerAt 0 lost)) ++
      .start .recoverInflight ::
        List.replicate (if lost then 4 else 1) (.await 1 (brokerAt 0 lost)))
    ⟨sampleWorld [sampleIntent "intent-1" "SPY" .long], []⟩

theorem placed_isSome (lost : Bool) : (placed lost).isSome := by
  cases lost <;> decide

/-- The tables then. -/
def placedWorld (lost : Bool) : World := ((placed lost).get (placed_isSome lost)).world

/-- The submission has confirmed its row. -/
theorem confirmed_placed : ∃ row ∈ (placedWorld false).orders, row.submittedAt.isSome ∧
    Confirmed ((placed false).get (placed_isSome false)).threads row.id := by
  have hrow : ((placedWorld false).order? "order-1").any (fun row => row.submittedAt.isSome) =
      true := by
    decide
  obtain ⟨row, hfound, hsome⟩ := (Option.any_eq_true _ _).1 hrow
  have hmem := mem_of_order? hfound
  have hempty : (sampleWorld [sampleIntent "intent-1" "SPY" .long]).orders = [] := rfl
  refine ⟨row, hmem, hsome, (submitted_run (w := sampleWorld [sampleIntent "intent-1" "SPY" .long])
    ?_ ?_ ?_ row hmem).1 hsome⟩
  · rw [hempty]
    exact fun r hr => by cases hr
  · rw [hempty]
    exact fun r hr => by cases hr
  · exact Pool.reaches_of_replay (fun _ _ _ _ _ => trivial)
      (Option.some_get (placed_isSome false)).symm

/-- One operation over tables that do not change. -/
def frozen (o : Oracle) (w : World) (op : TradeOp) (l : TickLog) : Except Err op.Ans × TickLog :=
  ((handle o op w).1, l ++ [(w, ⟨op, (handle o op w).1⟩)])

/-- A tick half an hour and a minute later. -/
def lateTick (lost : Bool) : Option (Except Err Unit × TickLog) :=
  reconcileAllOpenOrders.execute (S := tradeSig)
    (frozen (brokerAt (31 * 60000) lost) (placedWorld lost)) (fun _ _ => true) []

theorem lateTick_isSome (lost : Bool) : (lateTick lost).isSome := by
  cases lost <;> decide +kernel

def lateLog (lost : Bool) : TickLog := ((lateTick lost).get (lateTick_isSome lost)).2

theorem lateTick_run (lost : Bool) : reconcileAllOpenOrders.Exec tableSem []
    ((lateTick lost).get (lateTick_isSome lost)).1 (lateLog lost) := by
  refine exec_of_execute (fun op l _ => ?_) (Option.some_get (lateTick_isSome lost)).symm
  exact ⟨placedWorld lost, _, ⟨brokerAt (31 * 60000) lost, trivial, rfl⟩, rfl⟩

/-- The submitted order is asked. -/
theorem submitted_asked : cancels (lateLog false) = [("alpaca", "b1")] ∧
    ∃ setting now w answer, SweptAt (lateLog false) setting now w answer ∧
      ((w.orders.map RealOrder.id).Nodup → ∀ created,
        ((∀ row ∈ w.orders, Due created now (timeoutOf setting) row →
            Asked answer (lateLog false) row) ↔
          ∀ row ∈ w.orders, Due created now (timeoutOf setting) row →
            Stale now (timeoutOf setting) row ∧ ∃ rows, answer = .ok rows)) :=
  ⟨by decide +kernel, asked_iff (lateTick_run false)⟩

/-- **An order that recovery has found is never asked**: it was created half an hour and a minute
ago, is open, has a broker id, and the tick asks for no cancel. -/
theorem recovered_never_asked :
    Pool.Reaches tradeSem OrderCall.body Pool.free
      ⟨sampleWorld [sampleIntent "intent-1" "SPY" .long], []⟩
      ((placed true).get (placed_isSome true)) ∧
    (∃ row ∈ (placedWorld true).orders,
      Due (fun _ => 0) (31 * 60000) defaultStaleOrderTimeoutMs row ∧ row.submittedAt = none) ∧
    reconcileAllOpenOrders.Exec tableSem []
      ((lateTick true).get (lateTick_isSome true)).1 (lateLog true) ∧
    cancels (lateLog true) = [] := by
  have hrow : ((placedWorld true).order? "order-1").any (fun row => row.status.isOpen &&
      decide (cancelCalls row ≠ []) && decide (row.submittedAt = none)) = true := by
    decide
  obtain ⟨row, hfound, hrow⟩ := (Option.any_eq_true _ _).1 hrow
  simp only [Bool.and_eq_true, decide_eq_true_eq] at hrow
  refine ⟨?_, ⟨row, mem_of_order? hfound, ⟨hrow.1.1, hrow.1.2, ?_⟩, hrow.2⟩, lateTick_run true, ?_⟩
  · exact Pool.reaches_of_replay (fun _ _ _ _ _ => trivial)
      (Option.some_get (placed_isSome true)).symm
  · norm_num [defaultStaleOrderTimeoutMs]
  · decide

end NeoTrader.Stale
