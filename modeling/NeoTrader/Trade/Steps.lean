import NeoTrader.Trade.Db

/-!
# What one operation can do to the tables

The inversion of `handle`, said once: every invariant of the trading tables is derived from it.

* `OrderPatch.write` and its fields;
* **`TableStep`**, `handle_tables`: the effect of an operation on the intent and order tables;
* `LogStep`, `handle_logs`: its effect on the two logs and on the paper account's row.
-/

namespace NeoTrader

open Js Await

/-! ## Updated order rows -/

/-- The updated row; a row that cannot take the update stays. -/
def OrderPatch.write (d : OrderPatch) (now : ℤ) (r : RealOrder) : RealOrder := (d.apply now r).getD r

section Write

variable (d : OrderPatch) (now : ℤ) (r : RealOrder)

theorem OrderPatch.apply_eq {r' : RealOrder} (h : d.apply now r = some r') :
    r'.id = r.id ∧ r'.tradeIntentId = r.tradeIntentId ∧ r'.symbol = r.symbol ∧
      r'.brokerPluginId = r.brokerPluginId ∧ r'.side = r.side ∧
      r'.status = d.status.getD r.status ∧
      d.storedQty r = some r'.filledQty ∧ d.storedPrice r = some r'.filledAvgPrice := by
  obtain ⟨qty, hq, h⟩ := Option.bind_eq_some_iff.1 h
  obtain ⟨price, hp, rfl⟩ := Option.map_eq_some_iff.1 h
  exact ⟨rfl, rfl, rfl, rfl, rfl, rfl, hq, hp⟩

theorem OrderPatch.write_cases :
    d.write now r = r ∨ d.apply now r = some (d.write now r) := by
  unfold write
  cases d.apply now r with
  | none => exact .inl rfl
  | some r' => exact .inr rfl

@[simp] theorem OrderPatch.write_id : (d.write now r).id = r.id := by
  rcases d.write_cases now r with h | h
  · rw [h]
  · exact (d.apply_eq now r h).1

@[simp] theorem OrderPatch.write_tradeIntentId :
    (d.write now r).tradeIntentId = r.tradeIntentId := by
  rcases d.write_cases now r with h | h
  · rw [h]
  · exact (d.apply_eq now r h).2.1

@[simp] theorem OrderPatch.write_symbol : (d.write now r).symbol = r.symbol := by
  rcases d.write_cases now r with h | h
  · rw [h]
  · exact (d.apply_eq now r h).2.2.1

@[simp] theorem OrderPatch.write_brokerPluginId :
    (d.write now r).brokerPluginId = r.brokerPluginId := by
  rcases d.write_cases now r with h | h
  · rw [h]
  · exact (d.apply_eq now r h).2.2.2.1

@[simp] theorem OrderPatch.write_clientOrderId :
    (d.write now r).clientOrderId = r.clientOrderId := by
  rcases d.write_cases now r with h | h
  · rw [h]
  · obtain ⟨qty, -, h⟩ := Option.bind_eq_some_iff.1 h
    obtain ⟨price, -, h⟩ := Option.map_eq_some_iff.1 h
    rw [← h]

theorem OrderPatch.write_brokerOrderId (h : (d.apply now r).isSome) :
    (d.write now r).brokerOrderId = d.brokerOrderId.getD r.brokerOrderId := by
  obtain ⟨r', hr'⟩ := Option.isSome_iff_exists.1 h
  rw [write, hr', Option.getD_some]
  obtain ⟨qty, -, hr'⟩ := Option.bind_eq_some_iff.1 hr'
  obtain ⟨price, -, rfl⟩ := Option.map_eq_some_iff.1 hr'
  rfl

theorem OrderPatch.apply_write (h : (d.apply now r).isSome) :
    d.apply now r = some (d.write now r) := by
  obtain ⟨r', hr'⟩ := Option.isSome_iff_exists.1 h
  rw [write, hr', Option.getD_some]

theorem OrderPatch.write_status (h : (d.apply now r).isSome) :
    (d.write now r).status = d.status.getD r.status :=
  (d.apply_eq now r (d.apply_write now r h)).2.2.2.2.2.1

theorem OrderPatch.write_filledQty (h : (d.apply now r).isSome) :
    d.storedQty r = some (d.write now r).filledQty :=
  (d.apply_eq now r (d.apply_write now r h)).2.2.2.2.2.2.1

theorem OrderPatch.write_filledAvgPrice (h : (d.apply now r).isSome) :
    d.storedPrice r = some (d.write now r).filledAvgPrice :=
  (d.apply_eq now r (d.apply_write now r h)).2.2.2.2.2.2.2

end Write

/-! ## The tables after an operation -/

theorem db_cases {α : Type} {o : Oracle} {w w' : World} {x : Except Err (α × World)}
    {r : Except Err α} (h : db o w x = (r, w')) :
    (w' = w ∧ ∃ e, r = .error e) ∨ ∃ a, x = .ok (a, w') ∧ r = .ok a := by
  unfold db at h
  split at h
  · cases h
    exact .inl ⟨rfl, _, rfl⟩
  · cases h
    exact .inl ⟨rfl, _, rfl⟩
  · cases h
    exact .inr ⟨_, rfl, rfl⟩

theorem query_cases {α : Type} {o : Oracle} {w w' : World} {a : α} {r : Except Err α}
    (h : query o w a = (r, w')) : w' = w ∧ ∀ b, r = .ok b → b = a := by
  rcases db_cases h with ⟨rfl, e, rfl⟩ | ⟨b, hb, rfl⟩
  · exact ⟨rfl, nofun⟩
  · cases hb
    exact ⟨rfl, fun _ h => by cases h; rfl⟩

/-- The table of orders after the update `d` of the rows that satisfy `p`. -/
structure OrdersUpdated (now : ℤ) (w w' : World) (p : RealOrder → Bool) (d : OrderPatch) : Prop where
  orders : w'.orders = Store.modify p (d.write now) w.orders
  stored : ∀ r ∈ w.orders, p r → (d.apply now r).isSome
  unique : ∀ r ∈ w.orders, p r → ∀ s, d.status = some s →
    ¬ w.activeConflict r.id r.tradeIntentId s

/-- **What one operation can do to the intents and the order rows**, and what it then answers. -/
inductive TableStep (now : ℤ) (w w' : World) : (op : TradeOp) → Except Err op.Ans → Prop
  | frame {op : TradeOp} {r : Except Err op.Ans} (intents : w'.intents = w.intents)
      (orders : w'.orders = w.orders) : TableStep now w w' op r
  | intentCreate {d : IntentCreate} (row : TradeIntent) (fresh : w.intent? row.id = none)
      (status : row.status = d.status) (intents : w'.intents = w.intents ++ [row])
      (orders : w'.orders = w.orders) : TableStep now w w' (.intentCreate d) (.ok row)
  | intentUpdate {id : String} {d : IntentPatch} (t : TradeIntent) (exist : (w.intent? id).isSome)
      (intents : w'.intents = Store.modify (fun t => t.id = id) (d.apply now) w.intents)
      (orders : w'.orders = w.orders) : TableStep now w w' (.intentUpdate id d) (.ok t)
  | orderCreate {d : OrderCreate} (row : RealOrder) (fresh : ∀ r ∈ w.orders, r.id ≠ row.id)
      (status : row.status = .pendingSubmit) (intent : row.tradeIntentId = d.tradeIntentId)
      (inactive : ¬ w.activeConflict row.id d.tradeIntentId .pendingSubmit)
      (intents : w'.intents = w.intents) (orders : w'.orders = w.orders ++ [row]) :
      TableStep now w w' (.orderCreate d) (.ok row)
  | orderUpdate {id : String} {d : OrderPatch} (row : RealOrder) (old : w.order? id = some row)
      (updated : OrdersUpdated now w w' (fun r => r.id = id) d) (intents : w'.intents = w.intents) :
      TableStep now w w' (.orderUpdate id d) (.ok (d.write now row))
  | orderUpdateMany {id : String} {expected : OrderStatus} {d : OrderPatch} (n : ℕ)
      (updated : OrdersUpdated now w w' (fun r => r.id = id ∧ r.status = expected) d)
      (intents : w'.intents = w.intents) : TableStep now w w' (.orderUpdateMany id expected d) (.ok n)
  | orderTransaction {id : String} {expected : OrderStatus} {d : OrderPatch}
      {tradeIntentId : String} {ip : IntentPatch} (n : ℕ) (effective : n ≠ 0)
      (exist : ∃ r ∈ w.orders, r.id = id ∧ r.status = expected)
      (updated : OrdersUpdated now w w' (fun r => r.id = id ∧ r.status = expected) d)
      (intent : (w.intent? tradeIntentId).isSome)
      (intents : w'.intents =
        Store.modify (fun t => t.id = tradeIntentId) (ip.apply now) w.intents) :
      TableStep now w w' (.orderTransaction id expected d tradeIntentId ip) (.ok n)

theorem updateIntent_cases {w w' : World} {now : ℤ} {id : String} {d : IntentPatch}
    {t : TradeIntent} (h : w.updateIntent now id d = .ok (t, w')) :
    (w.intent? id).isSome ∧
      w' = { w with intents := Store.modify (fun t => t.id = id) (d.apply now) w.intents } := by
  unfold World.updateIntent at h
  split at h
  · cases h
  · next t ht =>
    cases h
    exact ⟨by simp [ht], rfl⟩

theorem updateOrders_cases {w w' : World} {now : ℤ} {p : RealOrder → Bool} {d : OrderPatch}
    {n : ℕ} (h : w.updateOrders now p d = .ok (n, w')) :
    OrdersUpdated now w w' p d ∧ w'.intents = w.intents ∧ n = w.orders.countP p := by
  unfold World.updateOrders at h
  split_ifs at h with h1 h2
  cases h
  simp only [List.any_eq_true, decide_eq_true_eq, not_exists, not_and] at h1 h2
  refine ⟨⟨rfl, fun r hr hp => ?_, fun r hr hp s hs hc => ?_⟩, rfl, rfl⟩
  · have := h1 r hr hp
    simpa [Option.isSome_iff_ne_none] using this
  · refine h2 r hr hp ?_
    simp [hs, hc]

theorem createOrder_cases {w w' : World} {id : String} {d : OrderCreate} {row : RealOrder}
    (h : w.createOrder id d = .ok (row, w')) :
    ∃ qty limit, row = d.row id qty limit ∧ (∀ r ∈ w.orders, r.id ≠ id) ∧
      ¬ w.activeConflict id d.tradeIntentId .pendingSubmit ∧ (w.intent? d.tradeIntentId).isSome ∧
      w' = { w with orders := w.orders ++ [row] } := by
  unfold World.createOrder at h
  split at h
  · cases h
  · next qty hq =>
    split_ifs at h with h1 h2 h3 h4
    cases h
    refine ⟨qty, _, rfl, fun r hr hid => ?_, h3, ?_, rfl⟩
    · simp only [List.any_eq_true, decide_eq_true_eq, not_exists, not_and] at h2
      exact h2 r hr (.inl hid)
    · simpa [Option.isSome_iff_ne_none] using h4

theorem createIntent_cases {w w' : World} {now : ℤ} {id : String} {d : IntentCreate}
    {row : TradeIntent} (h : w.createIntent now id d = .ok (row, w')) :
    row.id = id ∧ w.intent? id = none ∧ row.status = d.status ∧
      w' = { w with intents := w.intents ++ [row] } := by
  unfold World.createIntent at h
  split_ifs at h with h1
  cases h
  exact ⟨rfl, by simpa using h1, rfl, rfl⟩

theorem updateOrderAndIntent_cases {w w' : World} {now : ℤ} {id : String} {expected : OrderStatus}
    {d : OrderPatch} {tradeIntentId : String} {ip : IntentPatch} {n : ℕ}
    (h : w.updateOrderAndIntent now id expected d tradeIntentId ip = .ok (n, w')) :
    n = 0 ∧ w' = w ∨ n ≠ 0 ∧ (∃ r ∈ w.orders, r.id = id ∧ r.status = expected) ∧
      OrdersUpdated now w w' (fun r => r.id = id ∧ r.status = expected) d ∧
      (w.intent? tradeIntentId).isSome ∧
      w'.intents = Store.modify (fun t => t.id = tradeIntentId) (ip.apply now) w.intents := by
  unfold World.updateOrderAndIntent at h
  cases hu : w.updateOrders now (fun r => r.id = id ∧ r.status = expected) d with
  | error e =>
    rw [hu] at h
    cases h
  | ok x =>
    rw [hu] at h
    simp only [Except.bind] at h
    split_ifs at h with hn
    · cases h
      exact .inl ⟨rfl, rfl⟩
    · obtain ⟨hup, hi, hcount⟩ := updateOrders_cases hu
      cases ht : x.2.updateIntent now tradeIntentId ip with
      | error e =>
        rw [ht] at h
        cases h
      | ok y =>
        rw [ht] at h
        cases h
        obtain ⟨he, hw⟩ := updateIntent_cases ht
        have hex : 0 < w.orders.countP fun r => r.id = id ∧ r.status = expected := by
          rw [← hcount]
          exact Nat.pos_of_ne_zero hn
        rw [hw]
        refine .inr ⟨hn, ?_, ⟨hup.orders, hup.stored, hup.unique⟩, ?_, by simp only [hi]⟩
        · simpa [List.countP_pos_iff] using hex
        · simpa [World.intent?, hi] using he

theorem sync_cases {w w' : World} {now : ℤ} {broker source : String} {portfolio : Portfolio}
    {u : Unit} (h : w.sync now broker portfolio source = .ok (u, w')) :
    ∃ positions navs, w' = { w with positions, navs } := by
  simp only [World.sync] at h
  split at h
  · cases h
    exact ⟨_, _, rfl⟩
  · cases h

theorem updateOrder_cases {w w' : World} {now : ℤ} {id : String} {d : OrderPatch}
    {row' : RealOrder} (h : w.updateOrder now id d = .ok (row', w')) :
    ∃ row, w.order? id = some row ∧ row' = d.write now row ∧
      OrdersUpdated now w w' (fun r => r.id = id) d ∧ w'.intents = w.intents := by
  unfold World.updateOrder at h
  split at h
  · cases h
  · next row hrow =>
    cases hu : w.updateOrders now (fun r => r.id = id) d with
    | error e =>
      rw [hu] at h
      cases h
    | ok x =>
      rw [hu] at h
      cases h
      obtain ⟨hup, hi, -⟩ := updateOrders_cases hu
      exact ⟨row, hrow, rfl, hup, hi⟩

/-- **The inversion of one operation.** -/
theorem handle_tables {o : Oracle} {op : TradeOp} {w w' : World} {r : Except Err op.Ans}
    (h : handle o op w = (r, w')) : TableStep o.time w w' op r := by
  cases op with
  | intentCreate d =>
    rcases db_cases h with ⟨rfl, -⟩ | ⟨row, hx, rfl⟩
    · exact .frame rfl rfl
    · obtain ⟨hid, hf, hs, rfl⟩ := createIntent_cases hx
      exact .intentCreate row (hid ▸ hf) hs rfl rfl
  | intentUpdate id d =>
    rcases db_cases h with ⟨rfl, -⟩ | ⟨t, hx, rfl⟩
    · exact .frame rfl rfl
    · obtain ⟨he, rfl⟩ := updateIntent_cases hx
      exact .intentUpdate t he rfl rfl
  | orderCreate d =>
    rcases db_cases h with ⟨rfl, -⟩ | ⟨row, hx, rfl⟩
    · exact .frame rfl rfl
    · obtain ⟨qty, limit, rfl, hf, hc, -, rfl⟩ := createOrder_cases hx
      exact .orderCreate _ hf rfl rfl hc rfl rfl
  | orderUpdate id d =>
    rcases db_cases h with ⟨rfl, -⟩ | ⟨row', hx, rfl⟩
    · exact .frame rfl rfl
    · obtain ⟨row, hrow, rfl, hup, hi⟩ := updateOrder_cases hx
      exact .orderUpdate row hrow hup hi
  | orderUpdateMany id expected d =>
    rcases db_cases h with ⟨rfl, -⟩ | ⟨n, hx, rfl⟩
    · exact .frame rfl rfl
    · obtain ⟨hup, hi, -⟩ := updateOrders_cases hx
      exact .orderUpdateMany n hup hi
  | orderTransaction id expected d tradeIntentId ip =>
    rcases db_cases h with ⟨rfl, -⟩ | ⟨n, hx, rfl⟩
    · exact .frame rfl rfl
    · rcases updateOrderAndIntent_cases hx with ⟨-, rfl⟩ | ⟨hn, hex, hup, ht, hi⟩
      · exact .frame rfl rfl
      · exact .orderTransaction n hn hex hup ht hi
  | syncTransaction broker portfolio source =>
    rcases db_cases h with ⟨rfl, -⟩ | ⟨n, hx, -⟩
    · exact .frame rfl rfl
    · obtain ⟨positions, navs, rfl⟩ := sync_cases hx
      exact .frame rfl rfl
  | _ =>
    first
      | (obtain ⟨rfl, -⟩ := query_cases h; exact .frame rfl rfl)
      | (rcases db_cases h with ⟨rfl, -⟩ | ⟨a, hx, -⟩
         · exact .frame rfl rfl
         · cases hx
           exact .frame rfl rfl)
      | (cases h; exact .frame rfl rfl)

/-! ## The logs and the paper account -/

/-- The orders that an operation hands to the broker. -/
def TradeOp.placed : TradeOp → List PlacedOrder
  | placeOrder intentId broker order => [⟨intentId, broker, order⟩]
  | _ => []

/-- The change of the paper account's row that an event made. -/
def written : Event tradeSig → Option (PaperWrite × PaperState)
  | ⟨.portfolioUpsert write data, .ok _⟩ => some (write, data)
  | _ => none

/-- **What one operation does to the logs and to the paper account's row.** -/
structure LogStep (w w' : World) (e : Event tradeSig) : Prop where
  placed : w'.placed = w.placed ++ e.1.placed
  paperLog : w'.paperLog = w.paperLog ++ ((written e).map Prod.fst).toList
  portfolio : w'.portfolio = ((written e).map Prod.snd).or w.portfolio

/-- The logs and the paper account's row are the same in both worlds. -/
structure SameLogs (w w' : World) : Prop where
  placed : w'.placed = w.placed
  portfolio : w'.portfolio = w.portfolio
  paperLog : w'.paperLog = w.paperLog

theorem SameLogs.refl (w : World) : SameLogs w w := ⟨rfl, rfl, rfl⟩

theorem updateOrders_only {w w' : World} {now : ℤ} {p : RealOrder → Bool} {d : OrderPatch} {n : ℕ}
    (h : w.updateOrders now p d = .ok (n, w')) : ∃ orders, w' = { w with orders } := by
  unfold World.updateOrders at h
  split_ifs at h
  cases h
  exact ⟨_, rfl⟩

theorem updateOrder_only {w w' : World} {now : ℤ} {id : String} {d : OrderPatch}
    {row : RealOrder} (h : w.updateOrder now id d = .ok (row, w')) :
    ∃ orders, w' = { w with orders } := by
  unfold World.updateOrder at h
  split at h
  · cases h
  · cases hu : w.updateOrders now (fun r => r.id = id) d with
    | error e =>
      rw [hu] at h
      cases h
    | ok x =>
      rw [hu] at h
      cases h
      exact updateOrders_only hu

theorem updateOrderAndIntent_only {w w' : World} {now : ℤ} {id : String} {expected : OrderStatus}
    {d : OrderPatch} {tradeIntentId : String} {ip : IntentPatch} {n : ℕ}
    (h : w.updateOrderAndIntent now id expected d tradeIntentId ip = .ok (n, w')) :
    ∃ orders intents, w' = { w with orders, intents } := by
  unfold World.updateOrderAndIntent at h
  cases hu : w.updateOrders now (fun r => r.id = id ∧ r.status = expected) d with
  | error e =>
    rw [hu] at h
    cases h
  | ok x =>
    rw [hu] at h
    simp only [Except.bind] at h
    split_ifs at h
    · cases h
      exact ⟨_, _, rfl⟩
    · cases ht : x.2.updateIntent now tradeIntentId ip with
      | error e =>
        rw [ht] at h
        cases h
      | ok y =>
        rw [ht] at h
        cases h
        obtain ⟨-, hw⟩ := updateIntent_cases ht
        obtain ⟨orders, hx⟩ := updateOrders_only hu
        rw [hw, hx]
        exact ⟨_, _, rfl⟩

theorem handle_logs {o : Oracle} {op : TradeOp} {w w' : World} {r : Except Err op.Ans}
    (h : handle o op w = (r, w')) :
    LogStep w w' ⟨op, r⟩ := by
  have same {e : Event tradeSig} (hs : SameLogs w w') (he : e.1.placed = []) (hw : written e = none) :
      LogStep w w' e :=
    ⟨by rw [he, List.append_nil, hs.placed], by rw [hw, hs.paperLog]; simp, by
      rw [hw, hs.portfolio]; rfl⟩
  cases op with
  | placeOrder intentId broker order =>
    cases h
    exact ⟨rfl, (List.append_nil _).symm, rfl⟩
  | portfolioUpsert write data =>
    rcases db_cases h with ⟨rfl, e, rfl⟩ | ⟨a, hx, rfl⟩
    · exact same (.refl _) rfl rfl
    · cases hx
      exact ⟨(List.append_nil _).symm, rfl, rfl⟩
  | intentCreate d =>
    rcases db_cases h with ⟨rfl, -⟩ | ⟨row, hx, -⟩
    · exact same (.refl _) rfl rfl
    · obtain ⟨-, -, -, rfl⟩ := createIntent_cases hx
      exact same ⟨rfl, rfl, rfl⟩ rfl rfl
  | intentUpdate id d =>
    rcases db_cases h with ⟨rfl, -⟩ | ⟨t, hx, -⟩
    · exact same (.refl _) rfl rfl
    · obtain ⟨-, rfl⟩ := updateIntent_cases hx
      exact same ⟨rfl, rfl, rfl⟩ rfl rfl
  | orderCreate d =>
    rcases db_cases h with ⟨rfl, -⟩ | ⟨row, hx, -⟩
    · exact same (.refl _) rfl rfl
    · obtain ⟨_, _, -, -, -, -, rfl⟩ := createOrder_cases hx
      exact same ⟨rfl, rfl, rfl⟩ rfl rfl
  | orderUpdate id d =>
    rcases db_cases h with ⟨rfl, -⟩ | ⟨row, hx, -⟩
    · exact same (.refl _) rfl rfl
    · obtain ⟨orders, rfl⟩ := updateOrder_only hx
      exact same ⟨rfl, rfl, rfl⟩ rfl rfl
  | orderUpdateMany id expected d =>
    rcases db_cases h with ⟨rfl, -⟩ | ⟨n, hx, -⟩
    · exact same (.refl _) rfl rfl
    · obtain ⟨orders, rfl⟩ := updateOrders_only hx
      exact same ⟨rfl, rfl, rfl⟩ rfl rfl
  | orderTransaction id expected d tradeIntentId ip =>
    rcases db_cases h with ⟨rfl, -⟩ | ⟨n, hx, -⟩
    · exact same (.refl _) rfl rfl
    · obtain ⟨orders, intents, rfl⟩ := updateOrderAndIntent_only hx
      exact same ⟨rfl, rfl, rfl⟩ rfl rfl
  | syncTransaction broker portfolio source =>
    rcases db_cases h with ⟨rfl, -⟩ | ⟨n, hx, -⟩
    · exact same (.refl _) rfl rfl
    · obtain ⟨positions, navs, rfl⟩ := sync_cases hx
      exact same ⟨rfl, rfl, rfl⟩ rfl rfl
  | _ =>
    first
      | (obtain ⟨rfl, -⟩ := query_cases h; exact same (.refl _) rfl rfl)
      | (rcases db_cases h with ⟨rfl, -⟩ | ⟨a, hx, -⟩
         · exact same (.refl _) rfl rfl
         · cases hx
           exact same ⟨rfl, rfl, rfl⟩ rfl rfl)
      | (cases h; exact same ⟨rfl, rfl, rfl⟩ rfl rfl)

/-- The operations that change the snapshots or the times of the submit failures. -/
def TradeOp.records : TradeOp → Bool
  | syncTransaction _ _ _ | submitFailuresReset | submitFailuresRecord _ => true
  | _ => false

theorem handle_records {o : Oracle} {op : TradeOp} {w w' : World} {r : Except Err op.Ans}
    (h : handle o op w = (r, w')) (hop : ¬ op.records) :
    w'.navs = w.navs ∧ w'.submitFailureTimestamps = w.submitFailureTimestamps := by
  cases op with
  | syncTransaction | submitFailuresReset | submitFailuresRecord => exact absurd rfl hop
  | intentCreate d =>
    rcases db_cases h with ⟨rfl, -⟩ | ⟨row, hx, -⟩
    · exact ⟨rfl, rfl⟩
    · obtain ⟨-, -, -, rfl⟩ := createIntent_cases hx
      exact ⟨rfl, rfl⟩
  | intentUpdate id d =>
    rcases db_cases h with ⟨rfl, -⟩ | ⟨t, hx, -⟩
    · exact ⟨rfl, rfl⟩
    · obtain ⟨-, rfl⟩ := updateIntent_cases hx
      exact ⟨rfl, rfl⟩
  | orderCreate d =>
    rcases db_cases h with ⟨rfl, -⟩ | ⟨row, hx, -⟩
    · exact ⟨rfl, rfl⟩
    · obtain ⟨_, _, -, -, -, -, rfl⟩ := createOrder_cases hx
      exact ⟨rfl, rfl⟩
  | orderUpdate id d =>
    rcases db_cases h with ⟨rfl, -⟩ | ⟨row, hx, -⟩
    · exact ⟨rfl, rfl⟩
    · obtain ⟨orders, rfl⟩ := updateOrder_only hx
      exact ⟨rfl, rfl⟩
  | orderUpdateMany id expected d =>
    rcases db_cases h with ⟨rfl, -⟩ | ⟨n, hx, -⟩
    · exact ⟨rfl, rfl⟩
    · obtain ⟨orders, rfl⟩ := updateOrders_only hx
      exact ⟨rfl, rfl⟩
  | orderTransaction id expected d tradeIntentId ip =>
    rcases db_cases h with ⟨rfl, -⟩ | ⟨n, hx, -⟩
    · exact ⟨rfl, rfl⟩
    · obtain ⟨orders, intents, rfl⟩ := updateOrderAndIntent_only hx
      exact ⟨rfl, rfl⟩
  | _ =>
    first
      | (obtain ⟨rfl, -⟩ := query_cases h; exact ⟨rfl, rfl⟩)
      | (rcases db_cases h with ⟨rfl, -⟩ | ⟨a, hx, -⟩
         · exact ⟨rfl, rfl⟩
         · cases hx
           exact ⟨rfl, rfl⟩)
      | (cases h; exact ⟨rfl, rfl⟩)

/-! ## Consequences -/

theorem intent?_modify {w w' : World} {id i : String} {d : IntentPatch} {now : ℤ}
    (h : w'.intents = Store.modify (fun t => t.id = id) (d.apply now) w.intents) :
    w'.intent? i = (w.intent? i).map fun t => if i = id then d.apply now t else t := by
  unfold World.intent?
  have hq (t : TradeIntent) (_ : decide (t.id = id)) :
      decide ((d.apply now t).id = i) = decide (t.id = i) := rfl
  rw [h, Store.find?_modify hq]
  cases ht : w.intents.find? fun t => decide (t.id = i) with
  | none => rfl
  | some t =>
    have hid : t.id = i := by simpa using List.find?_some ht
    simp [hid]

theorem intent?_append {w w' : World} {row : TradeIntent} (h : w'.intents = w.intents ++ [row])
    {i : String} {t : TradeIntent} (ht : w.intent? i = some t) : w'.intent? i = some t := by
  unfold World.intent? at ht ⊢
  rw [h, List.find?_append, ht]
  rfl

theorem intent?_id {w : World} {i : String} {t : TradeIntent} (ht : w.intent? i = some t) :
    t.id = i := by
  simpa using List.find?_some ht

theorem order?_modify {w w' : World} {p : RealOrder → Bool} {d : OrderPatch} {now : ℤ}
    (h : w'.orders = Store.modify p (d.write now) w.orders) (i : String) :
    w'.order? i = (w.order? i).map fun r => if p r then d.write now r else r := by
  unfold World.order?
  rw [h, Store.find?_modify fun r _ => by simp]

theorem order?_append {w w' : World} {row : RealOrder} (h : w'.orders = w.orders ++ [row])
    {i : String} {r : RealOrder} (hr : w.order? i = some r) : w'.order? i = some r := by
  unfold World.order? at hr ⊢
  rw [h, List.find?_append, hr]
  rfl

theorem order?_id {w : World} {i : String} {r : RealOrder} (hr : w.order? i = some r) :
    r.id = i := by
  simpa using List.find?_some hr

theorem mem_of_order? {w : World} {i : String} {r : RealOrder} (hr : w.order? i = some r) :
    r ∈ w.orders := List.mem_of_find?_eq_some hr

theorem order?_of_mem {w : World} (hk : Store.Keyed RealOrder.id w.orders) {r : RealOrder}
    (hr : r ∈ w.orders) : w.order? r.id = some r := by
  cases h : w.order? r.id with
  | none =>
    have hne := List.find?_eq_none.1 h r hr
    simp at hne
  | some r' => rw [hk r' (mem_of_order? h) r hr (order?_id h)]

theorem TableStep.orders_of_mem {now : ℤ} {w w' : World} {op : TradeOp}
    {a : Except Err op.Ans} (h : TableStep now w w' op a) {r' : RealOrder} (hr' : r' ∈ w'.orders) :
    (∃ r ∈ w.orders, r.id = r'.id ∧ r.tradeIntentId = r'.tradeIntentId) ∨
      ∀ r ∈ w.orders, r.id ≠ r'.id := by
  have hupd {p : RealOrder → Bool} {d : OrderPatch} (hu : OrdersUpdated now w w' p d) :
      ∃ r ∈ w.orders, r.id = r'.id ∧ r.tradeIntentId = r'.tradeIntentId := by
    rw [hu.orders] at hr'
    obtain ⟨r, hr, ⟨-, rfl⟩ | ⟨-, rfl⟩⟩ := Store.mem_modify.1 hr'
    · exact ⟨r, hr, by simp, by simp⟩
    · exact ⟨_, hr, rfl, rfl⟩
  cases h with
  | frame _ ho | intentCreate _ _ _ _ ho | intentUpdate _ _ _ ho =>
    rw [ho] at hr'
    exact .inl ⟨r', hr', rfl, rfl⟩
  | orderCreate row hf _ _ _ _ ho =>
    rw [ho] at hr'
    rcases List.mem_append.1 hr' with hr' | hr'
    · exact .inl ⟨r', hr', rfl, rfl⟩
    · rw [List.mem_singleton.1 hr']
      exact .inr hf
  | orderUpdate _ _ hu _ | orderUpdateMany _ hu _ | orderTransaction _ _ _ hu _ _ => exact .inl (hupd hu)

theorem TableStep.mem_orders {now : ℤ} {w w' : World} {op : TradeOp}
    {a : Except Err op.Ans} (h : TableStep now w w' op a) {r : RealOrder} (hr : r ∈ w.orders) :
    ∃ r' ∈ w'.orders, r'.id = r.id ∧ r'.tradeIntentId = r.tradeIntentId := by
  have hupd {p : RealOrder → Bool} {d : OrderPatch} (hu : OrdersUpdated now w w' p d) :
      ∃ r' ∈ w'.orders, r'.id = r.id ∧ r'.tradeIntentId = r.tradeIntentId := by
    rw [hu.orders]
    by_cases hp : p r = true
    · exact ⟨_, Store.mem_modify_of hr hp, by simp, by simp⟩
    · exact ⟨r, Store.mem_modify_of_not hr hp, rfl, rfl⟩
  cases h with
  | frame _ ho | intentCreate _ _ _ _ ho | intentUpdate _ _ _ ho => exact ⟨r, ho ▸ hr, rfl, rfl⟩
  | orderCreate row _ _ _ _ _ ho => exact ⟨r, ho ▸ List.mem_append_left _ hr, rfl, rfl⟩
  | orderUpdate _ _ hu _ | orderUpdateMany _ hu _ | orderTransaction _ _ _ hu _ _ => exact hupd hu

theorem TableStep.keyed {now : ℤ} {w w' : World} {op : TradeOp}
    {a : Except Err op.Ans} (h : TableStep now w w' op a)
    (hk : Store.Keyed RealOrder.id w.orders) : Store.Keyed RealOrder.id w'.orders := by
  cases h with
  | frame _ ho | intentCreate _ _ _ _ ho | intentUpdate _ _ _ ho => exact ho ▸ hk
  | orderCreate row hf _ _ _ _ ho => exact ho ▸ hk.concat hf
  | orderUpdate _ _ hu _ | orderUpdateMany _ hu _ | orderTransaction _ _ _ hu _ _ =>
    exact hu.orders ▸ hk.modify fun r => by simp

/-! ## What stays of an order row -/

/-- The two rows stand for the same order at the same broker. -/
structure SameOrder (r r' : RealOrder) : Prop where
  id : r'.id = r.id
  broker : r'.brokerPluginId = r.brokerPluginId
  client : r'.clientOrderId = r.clientOrderId

theorem SameOrder.refl (r : RealOrder) : SameOrder r r := ⟨rfl, rfl, rfl⟩

theorem sameOrder_write (d : OrderPatch) (now : ℤ) (r : RealOrder) : SameOrder r (d.write now r) :=
  ⟨by simp, by simp, by simp⟩

theorem handle_orderCreate {o : Oracle} {w w' : World} {d : OrderCreate} {row : RealOrder}
    (h : handle o (.orderCreate d) w = (.ok row, w')) :
    w'.orders = w.orders ++ [row] ∧ row.status = .pendingSubmit ∧
      row.brokerPluginId = d.brokerPluginId ∧ row.clientOrderId = d.clientOrderId ∧
      ∀ r ∈ w.orders, r.clientOrderId ≠ d.clientOrderId := by
  rcases db_cases h with ⟨-, e, he⟩ | ⟨row', hx, he⟩
  · cases he
  · cases he
    unfold World.createOrder at hx
    split at hx
    · cases hx
    · split_ifs at hx with h1 h2 h3 h4
      cases hx
      refine ⟨rfl, rfl, rfl, rfl, fun r hr hc => h2 ?_⟩
      exact List.any_eq_true.2 ⟨r, hr, decide_eq_true (.inr hc)⟩

theorem handle_error {o : Oracle} {op : TradeOp} {w w' : World} {e : Err}
    (h : handle o op w = (.error e, w')) : w'.intents = w.intents ∧ w'.orders = w.orders := by
  have hs := handle_tables h
  cases hs with
  | frame hi ho => exact ⟨hi, ho⟩

end NeoTrader
