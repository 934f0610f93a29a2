import NeoTrader.Trade.LedgerAgreement
import NeoTrader.Trade.TerminalOrders

/-!
# One closing per order

Any number of polls of one order row run side by side. Each closes the row by a compare-and-set on
the status that it has read, in one transaction with the status of the intent.

* **`single_closing`**: at most one poll closes the row, and row and intent come from its answer.
-/

namespace NeoTrader

open Js Await Prog

/-! ## Polls of one row -/

/-- The polls of an order row. -/
def polls (id : String) : Unit → Trade Unit := fun _ => reconcileOrder id

/-- Some rows were updated. -/
def affected (n : ℕ) : Bool := n ≠ 0

/-- A write of a terminal status that took effect. -/
def writesTerminal : Event tradeSig → Bool
  | ⟨.orderUpdate _ d, .ok _⟩ => d.status.any OrderStatus.terminal
  | ⟨.orderUpdateMany _ _ d, .ok n⟩ => affected n && d.status.any OrderStatus.terminal
  | ⟨.orderTransaction _ _ d _ _, .ok n⟩ => affected n && d.status.any OrderStatus.terminal
  | _ => false

/-- The writes of a terminal status, of all calls. -/
def closings {C : Type} (ts : List (Thread tradeSig C)) : List (Event tradeSig) :=
  (ts.flatMap Thread.hist).filter writesTerminal

/-- **The broker's numbers are evidence of a fill.** -/
def Evidence (b : OrderStatusResult) : Prop :=
  ∃ qty price : ℚ, b.filledQty = .fin qty ∧ 0 < qty ∧ b.filledAvgPrice = some (.fin price) ∧ 0 < price

theorem evidence_iff {b : OrderStatusResult} : Evidence b ↔ fillEvidence b ≠ none := by
  unfold fillEvidence
  constructor
  · rintro ⟨qty, price, hq, hqty, hp, hprice⟩
    simp [hq, hp, hqty, hprice]
  · intro h
    split at h
    · next qty price hq hp =>
      split_ifs at h with hpos
      · exact ⟨qty, price, hq, hpos.1, hp, hpos.2⟩
      · exact absurd rfl h
    · exact absurd rfl h

section Closings

variable {C : Type} {xs ys : List (Thread tradeSig C)} {c : C} {h : List (Event tradeSig)}
  {e : Event tradeSig} {p q : Trade Unit}

theorem closings_start {ts : List (Thread tradeSig C)} : closings (ts ++ [⟨c, [], p⟩]) = closings ts := by
  simp [closings]

theorem closings_idle (he : writesTerminal e = false) :
    closings (xs ++ ⟨c, h ++ [e], q⟩ :: ys) = closings (xs ++ ⟨c, h, p⟩ :: ys) := by
  simp [closings, he]

theorem closings_closing (he : writesTerminal e) (hn : closings (xs ++ ⟨c, h, p⟩ :: ys) = []) :
    closings (xs ++ ⟨c, h ++ [e], q⟩ :: ys) = [e] := by
  simp only [closings, List.flatMap_append, List.flatMap_cons, List.filter_append,
    List.append_eq_nil_iff] at hn ⊢
  simp [hn.1, hn.2.1, hn.2.2, he]

end Closings

/-! ## One operation of a poll -/

/-- A poll reads no row but its own. -/
def ReadsOnly (id : String) (op : TradeOp) : Prop := ∀ i, op = .orderFindUnique i → i = id

section Reads

variable {id : String}

theorem readsOnly_touch (i : String) (backfill : Option String) :
    Always (S := tradeSig) (fun _ op => ReadsOnly id op) (touchLastReconciledAt i backfill) :=
  always_bind (always_attempt (always_perform fun _ => nofun)) fun _ => always_ret _

theorem readsOnly_terminalTransaction (row : RealOrder) (s : OrderStatus) (b : OrderStatusResult) :
    Always (S := tradeSig) (fun _ op => ReadsOnly id op) (terminalTransaction row s b) :=
  always_bind (always_perform fun _ => nofun) fun _ => always_ret _

theorem readsOnly_applyBrokerOrder (row : RealOrder) (b : OrderStatusResult) :
    Always (S := tradeSig) (fun _ op => ReadsOnly id op) (applyBrokerOrder row b) := by
  refine always_ite (fun _ => readsOnly_touch _ _) fun _ => ?_
  refine always_ite (fun _ => readsOnly_terminalTransaction _ _ _) fun _ => ?_
  refine always_ite (fun _ => ?_) fun _ => ?_
  · exact always_bind (always_perform fun _ => nofun) fun _ => always_ret _
  · exact always_ite (fun _ => readsOnly_terminalTransaction _ _ _) fun _ => readsOnly_touch _ _

theorem readsOnly_lookupBrokerOrder (row : RealOrder) :
    Always (S := tradeSig) (fun _ op => ReadsOnly id op) (lookupBrokerOrder row) := by
  unfold lookupBrokerOrder
  split
  · exact always_bind (always_perform fun _ => nofun) fun _ => always_ret _
  · exact always_perform fun _ => nofun

theorem readsOnly_reconcileOrder :
    Always (S := tradeSig) (fun _ op => ReadsOnly id op) (reconcileOrder id) := by
  refine always_bind (always_perform fun _ i hi => by cases hi; rfl) fun found => ?_
  cases found with
  | none => exact always_ret _
  | some row =>
    refine always_ite (fun _ => always_ret _) fun _ => ?_
    refine always_bind (always_attempt (readsOnly_lookupBrokerOrder row)) fun r => ?_
    rcases r with e | _ | b
    · exact readsOnly_touch _ _
    · exact readsOnly_touch _ _
    · exact readsOnly_applyBrokerOrder row b

end Reads

theorem polls_spec (id : String) (c : Unit) : (polls id c).Wp (histSem tradeSig)
    (fun h op => PollWrite h op ∧ ReadsOnly id op) (fun _ _ => True) [] :=
  wp_post (fun _ _ _ => trivial) (wp_and (pollWrite_reconcileOrder id []) (readsOnly_reconcileOrder []))

/-- The transaction with which a poll closes the row it has read, on the broker's answer. -/
def closingEvent (seen : RealOrder) (b : OrderStatusResult) (n : ℕ) : Event tradeSig :=
  ⟨.orderTransaction seen.id seen.status (terminalPatch (normalizeBrokerStatus b.status) b)
    seen.tradeIntentId (terminalIntentPatch b), .ok n⟩

/-- The tables after the closing of an order. -/
structure Closing (h : List (Event tradeSig)) (w w' : World) (now : ℤ) (seen : RealOrder)
    (b : OrderStatusResult) : Prop where
  read : ReadOrder h seen
  unfinished : ¬ seen.status.terminal
  told : Told h seen b
  closes : Closes (normalizeBrokerStatus b.status) b
  exist : ∃ r ∈ w.orders, r.id = seen.id ∧ r.status = seen.status
  updated : OrdersUpdated now w w' (fun r => r.id = seen.id ∧ r.status = seen.status)
    (terminalPatch (normalizeBrokerStatus b.status) b)
  intent : (w.intent? seen.tradeIntentId).isSome
  intents : w'.intents =
    Store.modify (fun t => t.id = seen.tradeIntentId) ((terminalIntentPatch b).apply now) w.intents

/-- The rows after an operation that closes nothing. -/
structure Idle (w w' : World) : Prop where
  intents : w'.intents = w.intents
  unfinished : ∀ id r, w.order? id = some r → ¬ r.status.terminal →
    ∃ r', w'.order? id = some r' ∧ r'.tradeIntentId = r.tradeIntentId ∧ ¬ r'.status.terminal
  absorbed : Absorbed w w'

theorem Idle.of_same {w w' : World} (hi : w'.intents = w.intents) (ho : w'.orders = w.orders) :
    Idle w w' :=
  ⟨hi, fun id r hr hn => ⟨r, by rw [World.order?, ho]; exact hr, rfl, hn⟩, .of_orders ho⟩

theorem Idle.of_updated {now : ℤ} {w w' : World} {p : RealOrder → Bool} {d : OrderPatch}
    (hu : OrdersUpdated now w w' p d) (hi : w'.intents = w.intents)
    (hs : ∀ s, d.status = some s → ¬ s.terminal) (habs : Absorbed w w') : Idle w w' := by
  refine ⟨hi, fun id r hr hn => ⟨_, by rw [order?_modify hu.orders, hr, Option.map_some], ?_⟩, habs⟩
  by_cases hp : p r = true
  · rw [if_pos hp, d.write_status now r (hu.stored r (mem_of_order? hr) hp)]
    refine ⟨by simp, ?_⟩
    cases hd : d.status with
    | none => exact hn
    | some s => exact hs s hd
  · rw [if_neg hp]
    exact ⟨rfl, hn⟩

/-- **One operation of a poll closes the row or closes nothing.** -/
theorem poll_step {o : Oracle} {w w' : World} {h : List (Event tradeSig)} {op : TradeOp}
    {a : Except Err op.Ans} (ho : handle o op w = (a, w')) (hop : PollWrite h op) :
    (Idle w w' ∧ writesTerminal ⟨op, a⟩ = false) ∨
      ∃ seen b n, (⟨op, a⟩ : Event tradeSig) = closingEvent seen b n ∧ writesTerminal ⟨op, a⟩ ∧
        Closing h w w' o.time seen b := by
  cases hop with
  | look hq =>
    have hsame := handle_quiet hq ho
    refine .inl ⟨.of_same hsame.intents hsame.orders, ?_⟩
    cases op with
    | orderUpdate | orderUpdateMany | orderTransaction => exact absurd hq Bool.false_ne_true
    | _ => rfl
  | @touch id p hs hf hb =>
    left
    rcases db_cases ho with ⟨rfl, e, rfl⟩ | ⟨row, hx, rfl⟩
    · exact ⟨.of_same rfl rfl, rfl⟩
    · obtain ⟨-, -, -, hu, hi⟩ := updateOrder_cases hx
      refine ⟨.of_updated hu hi (fun s hs' => ?_) (.of_updated hu fun _ _ _ _ _ => ⟨hs, hf⟩), ?_⟩
      · rw [hs] at hs'
        cases hs'
      · simp [writesTerminal, hs]
  | @part row p hr hopen hs hid =>
    left
    rcases db_cases ho with ⟨rfl, e, rfl⟩ | ⟨n, hx, rfl⟩
    · exact ⟨.of_same rfl rfl, rfl⟩
    · obtain ⟨hu, hi, -⟩ := updateOrders_cases hx
      refine ⟨.of_updated hu hi (fun s hs' => ?_) (.of_compareAndSet hu hopen), ?_⟩
      · rw [hs] at hs'
        cases hs'
        decide
      · simp [writesTerminal, hs, OrderStatus.terminal]
  | @close row b hr hopen ht hc =>
    rcases db_cases ho with ⟨rfl, e, rfl⟩ | ⟨n, hx, rfl⟩
    · exact .inl ⟨.of_same rfl rfl, rfl⟩
    · rcases updateOrderAndIntent_cases hx with ⟨rfl, rfl⟩ | ⟨hn, hex, hu, hi, hw⟩
      · exact .inl ⟨.of_same rfl rfl, rfl⟩
      · refine .inr ⟨row, b, n, rfl, ?_, hr, hopen, ht, hc, hex, hu, hi, hw⟩
        simp [writesTerminal, affected, hn, terminalPatch, hc.1]

/-! ## The row and its intent -/

theorem column_eq_some {n : Number} {q : ℚ} : column n = some q ↔ n = .fin q := by
  cases n <;> simp [column]

theorem terminalPatch_fill {status : OrderStatus} {b : OrderStatusResult} {now : ℤ} {r : RealOrder}
    (h : ((terminalPatch status b).apply now r).isSome) :
    b.filledQty = .fin ((terminalPatch status b).write now r).filledQty ∧
      b.filledAvgPrice = ((terminalPatch status b).write now r).filledAvgPrice.map Number.fin := by
  constructor
  · exact column_eq_some.1 (OrderPatch.write_filledQty _ now r h)
  · have hp := OrderPatch.write_filledAvgPrice _ now r h
    generalize ((terminalPatch status b).write now r).filledAvgPrice = price at hp ⊢
    cases hb : b.filledAvgPrice with
    | none =>
      simp only [OrderPatch.storedPrice, terminalPatch, hb, Option.some.injEq] at hp
      rw [← hp]
      rfl
    | some n =>
      simp only [OrderPatch.storedPrice, terminalPatch, hb] at hp
      obtain ⟨q, hq, hp⟩ := Option.map_eq_some_iff.1 hp
      rw [← hp, column_eq_some.1 hq]
      rfl

/-- **The row and its intent as one answer of the broker has left them.** -/
structure Closed (w w' : World) (row : RealOrder) (b : OrderStatusResult) : Prop where
  order : ∃ r, w'.order? row.id = some r ∧ r.status = normalizeBrokerStatus b.status ∧
    r.status.terminal ∧ b.filledQty = .fin r.filledQty ∧
    b.filledAvgPrice = r.filledAvgPrice.map Number.fin
  intent : ∃ now t, w.intent? row.tradeIntentId = some t ∧
    w'.intent? row.tradeIntentId = some ((terminalIntentPatch b).apply now t)

theorem Closed.idle {w v v' : World} {row : RealOrder} {b : OrderStatusResult}
    (h : Closed w v row b) (hi : Idle v v') : Closed w v' row b := by
  obtain ⟨r, hr, hs, ht, hq, hp⟩ := h.order
  obtain ⟨r', hr', hsame⟩ := hi.absorbed _ r hr ht
  refine ⟨⟨r', hr', hsame.status.trans hs, hsame.status ▸ ht, ?_, ?_⟩, ?_⟩
  · rw [hsame.qty]
    exact hq
  · rw [hsame.price]
    exact hp
  · simpa only [World.intent?, hi.intents] using h.intent

theorem Closing.closed {h : List (Event tradeSig)} {w v v' : World} {now : ℤ} {row r seen : RealOrder}
    {b : OrderStatusResult} (hc : Closing h v v' now seen b)
    (hkey : Store.Keyed RealOrder.id v.orders) (hr : v.order? row.id = some r)
    (hid : seen.id = row.id) (htid : seen.tradeIntentId = row.tradeIntentId)
    (hi : v.intents = w.intents) : Closed w v' row b := by
  obtain ⟨r₀, hr₀, hid₀, hst₀⟩ := hc.exist
  -- the row that is closed is the one that was read
  have he : r₀ = r := hkey r₀ hr₀ r (mem_of_order? hr) (by rw [hid₀, hid, order?_id hr])
  subst he
  have hp : decide (r₀.id = seen.id ∧ r₀.status = seen.status) = true := decide_eq_true ⟨hid₀, hst₀⟩
  have hstored := hc.updated.stored r₀ hr₀ hp
  have hstatus := OrderPatch.write_status _ now r₀ hstored
  refine ⟨⟨_, by rw [order?_modify hc.updated.orders, hr, Option.map_some, if_pos hp], hstatus, ?_,
    terminalPatch_fill hstored⟩, ?_⟩
  · rw [hstatus]
    exact hc.closes.1
  · obtain ⟨t, ht⟩ := Option.isSome_iff_exists.1 hc.intent
    refine ⟨now, t, ?_, ?_⟩
    · rw [World.intent?, ← hi, ← htid]
      exact ht
    · rw [intent?_modify hc.intents, ← htid, ht]
      simp

/-! ## Every interleaving -/

/-- **The polls of a row in a run**: none has closed it, or one has. -/
structure Polled (w : World) (row : RealOrder) (w' : World) (ts : List (Thread tradeSig Unit)) :
    Prop where
  keyed : Store.Keyed RealOrder.id w'.orders
  intent : ∀ r, w'.order? row.id = some r → r.tradeIntentId = row.tradeIntentId
  seen : ∀ t ∈ ts, ∀ seen, ReadOrder t.hist seen →
    seen.id = row.id ∧ seen.tradeIntentId = row.tradeIntentId
  outcome : (closings ts = [] ∧ w'.intents = w.intents ∧
      ∃ r, w'.order? row.id = some r ∧ ¬ r.status.terminal) ∨
    ∃ t ∈ ts, ∃ seen b n, closings ts = [closingEvent seen b n] ∧ closingEvent seen b n ∈ t.hist ∧
      ReadOrder t.hist seen ∧ Told t.hist seen b ∧ Closed w w' row b

theorem Told.mono {h h' : List (Event tradeSig)} {row : RealOrder} {b : OrderStatusResult}
    (ht : Told h row b) (hh : h <+: h') : Told h' row b := by
  rcases ht with ht | ⟨id, hid, hne, ht⟩
  · exact .inl (hh.subset ht)
  · exact .inr ⟨id, hid, hne, hh.subset ht⟩

theorem Polled.start {w w' : World} {row : RealOrder} {ts : List (Thread tradeSig Unit)} {c : Unit}
    {p : Trade Unit} (hP : Polled w row w' ts) : Polled w row w' (ts ++ [⟨c, [], p⟩]) := by
  refine ⟨hP.keyed, hP.intent, fun t ht seen hs => ?_, ?_⟩
  · rcases List.mem_append.1 ht with ht | ht
    · exact hP.seen t ht seen hs
    · rw [List.mem_singleton.1 ht] at hs
      obtain ⟨_, hs⟩ := hs
      cases hs
  · rw [closings_start]
    refine hP.outcome.imp id ?_
    rintro ⟨t, ht, hrest⟩
    exact ⟨t, List.mem_append_left _ ht, hrest⟩

section Step

variable {o : Oracle} {w v v' : World} {row : RealOrder} {xs ys : List (Thread tradeSig Unit)}
  {c : Unit} {h : List (Event tradeSig)} {op : TradeOp} {a : Except Err op.Ans} {p q : Trade Unit}

theorem Polled.found {ts : List (Thread tradeSig Unit)} (hP : Polled w row v ts) :
    ∃ r, v.order? row.id = some r := by
  rcases hP.outcome with ⟨-, -, r, hr, -⟩ | ⟨_, -, _, _, _, -, -, -, -, hc⟩
  · exact ⟨r, hr⟩
  · obtain ⟨r, hr, -⟩ := hc.order
    exact ⟨r, hr⟩

theorem Polled.intent_step {ts : List (Thread tradeSig Unit)} (hP : Polled w row v ts)
    (hs : TableStep o.time v v' op a) {r' : RealOrder} (hr' : v'.order? row.id = some r') :
    r'.tradeIntentId = row.tradeIntentId := by
  rcases hs.orders_of_mem (mem_of_order? hr') with ⟨r, hr, hid, htid⟩ | hnew
  · have hfound := order?_of_mem hP.keyed hr
    rw [hid, order?_id hr'] at hfound
    rw [← htid, hP.intent r hfound]
  · obtain ⟨r, hr⟩ := hP.found
    exact absurd ((order?_id hr).trans (order?_id hr').symm) (hnew r (mem_of_order? hr))

theorem Polled.seen_step {ts : List (Thread tradeSig Unit)} (hP : Polled w row v ts)
    (ho : handle o op v = (a, v')) (hread : ReadsOnly row.id op) {i : String} {seen : RealOrder}
    (he : (⟨op, a⟩ : Event tradeSig) = ⟨.orderFindUnique i, .ok (some seen)⟩) :
    seen.id = row.id ∧ seen.tradeIntentId = row.tradeIntentId := by
  cases he
  obtain rfl := hread i rfl
  obtain ⟨rfl, hans⟩ := query_cases ho
  have hfound := (hans _ rfl).symm
  exact ⟨order?_id hfound, hP.intent seen hfound⟩

/-- **A step of a poll.** -/
theorem Polled.step (ho : handle o op v = (a, v')) (hop : PollWrite h op)
    (hread : ReadsOnly row.id op) (hP : Polled w row v (xs ++ ⟨c, h, p⟩ :: ys)) :
    Polled w row v' (xs ++ ⟨c, h ++ [⟨op, a⟩], q⟩ :: ys) := by
  have hs := handle_tables ho
  have hthis : (⟨c, h, p⟩ : Thread tradeSig Unit) ∈ xs ++ ⟨c, h, p⟩ :: ys := by simp
  have hnew : (⟨c, h ++ [⟨op, a⟩], q⟩ : Thread tradeSig Unit) ∈
      xs ++ ⟨c, h ++ [⟨op, a⟩], q⟩ :: ys := by simp
  refine ⟨hs.keyed hP.keyed, fun r' hr' => hP.intent_step hs hr',
    forall_threads hP.seen fun seen hseen => ?_, ?_⟩
  · obtain ⟨i, hi⟩ := hseen
    rcases List.mem_append.1 hi with hi | hi
    · exact hP.seen _ hthis seen ⟨i, hi⟩
    · exact hP.seen_step ho hread (List.mem_singleton.1 hi).symm
  · rcases poll_step ho hop with ⟨hidle, he⟩ | ⟨seen, b, n, heq, he, hc⟩
    · rw [closings_idle he]
      rcases hP.outcome with
        ⟨hnone, hi, r, hr, hopen⟩ | ⟨t, ht, seen, b, n, hone, hmem, hread', htold, hc⟩
      · obtain ⟨r', hr', -, hopen'⟩ := hidle.unfinished _ r hr hopen
        exact .inl ⟨hnone, hidle.intents.trans hi, r', hr', hopen'⟩
      · refine .inr ?_
        rcases List.mem_append.1 ht with ht | ht
        · exact ⟨t, List.mem_append_left _ ht, seen, b, n, hone, hmem, hread', htold, hc.idle hidle⟩
        rcases List.mem_cons.1 ht with rfl | ht
        · exact ⟨_, hnew, seen, b, n, hone, List.mem_append_left _ hmem,
            hread'.mono (List.prefix_append _ _), htold.mono (List.prefix_append _ _), hc.idle hidle⟩
        · exact ⟨t, by simp [ht], seen, b, n, hone, hmem, hread', htold, hc.idle hidle⟩
    · obtain ⟨hid, htid⟩ := hP.seen _ hthis seen hc.read
      rcases hP.outcome with ⟨hnone, hi, r, hr, -⟩ | ⟨_, -, _, _, _, -, -, -, -, hclosed⟩
      · refine .inr ⟨_, hnew, seen, b, n, ?_, ?_, hc.read.mono (List.prefix_append _ _),
          hc.told.mono (List.prefix_append _ _), hc.closed hP.keyed hr hid htid hi⟩
        · rw [closings_closing he hnone, heq]
        · rw [heq]
          simp
      · -- the row that is closed a second time would have to be open
        obtain ⟨r, hr, -, ht, -⟩ := hclosed.order
        obtain ⟨r₀, hr₀, hid₀, hst₀⟩ := hc.exist
        obtain rfl := hP.keyed r₀ hr₀ r (mem_of_order? hr) (by rw [hid₀, hid, order?_id hr])
        exact absurd (hst₀ ▸ ht) hc.unfinished

end Step

theorem Closed.decided {w w' : World} {row : RealOrder} {b : OrderStatusResult}
    (hc : Closed w w' row b) : ∃ r t t', w'.order? row.id = some r ∧
      w.intent? row.tradeIntentId = some t ∧ w'.intent? row.tradeIntentId = some t' ∧
      (Evidence b → t'.status = .executed ∧ t'.quantity = some r.filledQty ∧
        t'.fillPrice = r.filledAvgPrice) ∧
      (¬ Evidence b → t'.status = .failed ∧ t'.quantity = t.quantity ∧
        t'.fillPrice = t.fillPrice) := by
  obtain ⟨r, hr, -, -, hq, hp⟩ := hc.order
  obtain ⟨now, t, ht, ht'⟩ := hc.intent
  refine ⟨r, t, _, hr, ht, ht', fun he => ?_, fun he => ?_⟩
  · obtain ⟨⟨qty, price⟩, hev⟩ := Option.ne_none_iff_exists'.1 (evidence_iff.1 he)
    obtain ⟨hbq, hbp, -⟩ := fillEvidence_some hev
    have hqty : r.filledQty = qty := Number.fin.inj (hq.symm.trans hbq)
    have hprice : r.filledAvgPrice = some price := by
      obtain ⟨price', hsome, heq⟩ := Option.map_eq_some_iff.1 (hp.symm.trans hbp)
      rw [hsome, Number.fin.inj heq]
    simp [terminalIntentPatch, hev, IntentPatch.apply, hqty, hprice]
  · rw [evidence_iff, not_not] at he
    simp [terminalIntentPatch, he, IntentPatch.apply]

theorem polled_run {w : World} {row : RealOrder} {P : Pool tradeSig Unit World}
    (hkey : Store.Keyed RealOrder.id w.orders) (hrow : row ∈ w.orders)
    (hopen : ¬ row.status.terminal)
    (hr : Pool.Reaches tradeSem (polls row.id) Pool.free ⟨w, []⟩ P) :
    Polled w row P.world P.threads := by
  have hfound : w.order? row.id = some row := order?_of_mem hkey hrow
  refine Pool.reaches_threads (J := Polled w row) (polls_spec row.id) (fun v ts c hP => hP.start)
    ?_ ⟨hkey, fun r hr => ?_, by simp, .inl ⟨rfl, rfl, row, hfound, hopen⟩⟩ hr
  · rintro v v' xs ys c h op k a hP ⟨hop, hread⟩ - ⟨o, -, ho⟩
    exact hP.step ho hop hread
  · rw [hfound] at hr
    cases hr
    rfl

/-- **A single closing.** Any number of polls of an order row that is not terminal, with any
answers, write a terminal status at most once. Until then the row is open and the intents are
untouched; from then on row and intent are what one answer of the broker made them: the intent is
executed, with the row's fill, where that answer has evidence of a fill, and failed otherwise. -/
theorem single_closing {w : World} {row : RealOrder} {P : Pool tradeSig Unit World}
    (hkey : Store.Keyed RealOrder.id w.orders) (hrow : row ∈ w.orders)
    (hopen : ¬ row.status.terminal)
    (hr : Pool.Reaches tradeSem (polls row.id) Pool.free ⟨w, []⟩ P) :
    (closings P.threads = [] ∧ P.world.intents = w.intents ∧
      ∃ r, P.world.order? row.id = some r ∧ ¬ r.status.terminal) ∨
    ∃ t ∈ P.threads, ∃ seen b n, closings P.threads = [closingEvent seen b n] ∧
      closingEvent seen b n ∈ t.hist ∧ Told t.hist seen b ∧ Closed w P.world row b ∧
      ∃ r t t', P.world.order? row.id = some r ∧
        w.intent? row.tradeIntentId = some t ∧ P.world.intent? row.tradeIntentId = some t' ∧
        (Evidence b → t'.status = .executed ∧ t'.quantity = some r.filledQty ∧
          t'.fillPrice = r.filledAvgPrice) ∧
        (¬ Evidence b → t'.status = .failed ∧ t'.quantity = t.quantity ∧
          t'.fillPrice = t.fillPrice) := by
  refine (polled_run hkey hrow hopen hr).outcome.imp id ?_
  rintro ⟨t, ht, seen, b, n, hone, hmem, -, htold, hc⟩
  exact ⟨t, ht, seen, b, n, hone, hmem, htold, hc, hc.decided⟩

def sampleOrder : RealOrder :=
  { id := "order-1", tradeIntentId := "intent-1", brokerPluginId := "alpaca"
    clientOrderId := "nt-intent-1-1", brokerOrderId := some "b1", symbol := "SPY", side := .buy
    orderType := "market", requestedQty := 5, limitPrice := none, status := .submitted
    filledQty := 0, filledAvgPrice := none, submittedAt := none, filledAt := none
    lastReconciledAt := none, error := none }

def pollWorld : World :=
  { sampleWorld [sampleIntent "intent-1" "SPY" .long] with orders := [sampleOrder] }

/-- Two polls read the row; one is told that it was canceled, the other that it was filled. -/
def twoPolls : Option (Pool tradeSig Unit World) :=
  Pool.replay handle (polls "order-1") Pool.unchecked
    [.start (), .start (), .await 0 (brokerSays "filled" 5), .await 1 (brokerSays "canceled" 0),
      .await 0 (brokerSays "filled" 5), .await 1 (brokerSays "canceled" 0),
      .await 0 (brokerSays "filled" 5), .await 1 (brokerSays "canceled" 0)] ⟨pollWorld, []⟩

theorem twoPolls_isSome : twoPolls.isSome := by decide

/-- The two polls close the row once. -/
theorem single_closing_twoPolls : (closings (twoPolls.get twoPolls_isSome).threads).length ≤ 1 := by
  have hrow : sampleOrder ∈ pollWorld.orders := by simp [pollWorld]
  rcases single_closing (Store.keyed_nil.concat (by simp)) hrow (by decide)
    (Pool.reaches_of_replay (fun _ _ _ _ _ => trivial) (Option.some_get twoPolls_isSome).symm) with
    ⟨hnone, -⟩ | ⟨_, -, seen, b, n, hone, -⟩
  · rw [hnone]
    decide
  · rw [hone, List.length_singleton]

end NeoTrader
