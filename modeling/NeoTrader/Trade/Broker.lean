import NeoTrader.Trade.TerminalOrders

/-!
# The services and a broker

A broker that keeps its own orders. An order that was sent is under way until the broker registers
it, at any later moment and whatever the client was told, or never; a registered order moves on by
itself. The lookups are answered from the broker's current state, or fail.

* `HeldOrder`, `Broker`, `finalAtBroker`: the orders at the broker and those under way;
* `BrokerMove`, `Broker.move`: what the broker does between two operations of the services;
* `Live`, `Live.handle`, **`brokerSem`**: the services' world together with the broker.
-/

namespace NeoTrader

open Js Await

/-! ## The broker -/

/-- An order that the broker has registered. -/
structure HeldOrder where
  placed : PlacedOrder
  brokerOrderId : String
  status : String
  filledQty : ℚ
  filledAvgPrice : Option ℚ
  raw : Json

def finalAtBroker (raw : String) : Bool := raw ∈ ["filled", "canceled", "rejected", "expired"]

/-- The answer of a lookup that finds the order. -/
def HeldOrder.view (o : HeldOrder) : OrderStatusResult :=
  { brokerOrderId := o.brokerOrderId, clientOrderId := some o.placed.order.clientOrderId
    status := o.status, filledQty := .fin o.filledQty
    filledAvgPrice := o.filledAvgPrice.map Number.fin, raw := o.raw }

/-- The placement was made at this broker under this client order id. -/
def PlacedOrder.isFor (p : PlacedOrder) (broker clientOrderId : String) : Bool :=
  p.brokerPluginId = broker ∧ p.order.clientOrderId = clientOrderId

/-- The broker: the orders it has registered, and those that were sent and are on their way. -/
structure Broker where
  held : List HeldOrder := []
  underway : List PlacedOrder := []

/-- The order of a client order id. -/
def Broker.byClient? (b : Broker) (broker clientOrderId : String) : Option HeldOrder :=
  b.held.find? fun o => o.placed.isFor broker clientOrderId

def Broker.byId? (b : Broker) (broker brokerOrderId : String) : Option HeldOrder :=
  b.held.find? fun o => o.placed.brokerPluginId = broker ∧ o.brokerOrderId = brokerOrderId

inductive BrokerMove
  /-- It registers the `i`-th order under way. -/
  | register (i : ℕ) (brokerOrderId status : String) (filledQty : ℚ) (filledAvgPrice : Option ℚ)
      (raw : Json)
  /-- The `i`-th order under way never arrives. -/
  | lose (i : ℕ)
  /-- The `i`-th registered order moves on. -/
  | update (i : ℕ) (status : String) (filledQty : ℚ) (filledAvgPrice : Option ℚ) (raw : Json)

/-- An order that moves on: nothing follows a final status, and no fill is taken back. -/
def HeldOrder.update (o : HeldOrder) (status : String) (filledQty : ℚ) (filledAvgPrice : Option ℚ)
    (raw : Json) : HeldOrder :=
  if finalAtBroker o.status ∨ filledQty < o.filledQty then o
  else { o with status, filledQty, filledAvgPrice, raw }

/-- One move of the broker. A broker order id, and a client order id, is given out only once. -/
def Broker.move (b : Broker) : BrokerMove → Broker
  | .register i brokerOrderId status filledQty filledAvgPrice raw =>
    match b.underway[i]? with
    | none => b
    | some p =>
      if b.held.any fun o => o.placed.brokerPluginId = p.brokerPluginId ∧
          (o.brokerOrderId = brokerOrderId ∨ o.placed.order.clientOrderId = p.order.clientOrderId) then b
      else
        { held := b.held ++ [{ placed := p, brokerOrderId, status, filledQty, filledAvgPrice, raw }]
          underway := b.underway.eraseIdx i }
  | .lose i => { b with underway := b.underway.eraseIdx i }
  | .update i status filledQty filledAvgPrice raw =>
    { b with held := b.held.modify i fun o => o.update status filledQty filledAvgPrice raw }

/-- The orders that an operation sends are on their way. -/
def Broker.send (b : Broker) (op : TradeOp) : Broker := { b with underway := b.underway ++ op.placed }

/-- What a lookup of an operation is told: it fails, or the broker's current state. -/
def Broker.tell (b : Broker) (o : Oracle) : Oracle :=
  { o with ext := fun op => match op with
    | .getOrderByClientId broker clientOrderId =>
      (o.ext (.getOrderByClientId broker clientOrderId)).map fun _ =>
        (b.byClient? broker clientOrderId).map HeldOrder.view
    | .getOrderStatus broker brokerOrderId =>
      (o.ext (.getOrderStatus broker brokerOrderId)).bind fun _ =>
        match b.byId? broker brokerOrderId with
        | some held => .ok held.view
        | none => .error (err [.lit "order not found"])
    | op => o.ext op }

/-! ## The services with the broker -/

/-- The services' world and the broker. -/
structure Live where
  world : World
  broker : Broker

/-- One operation; then the broker makes its moves. -/
def Live.handle (x : Oracle × List BrokerMove) (op : TradeOp) (s : Live) :
    Except Err op.Ans × Live :=
  let r := NeoTrader.handle (s.broker.tell x.1) op s.world
  (r.1, ⟨r.2, x.2.foldl Broker.move (s.broker.send op)⟩)

/-- **The semantics of the services with the broker.** -/
def brokerSem : Sem tradeSig Live := Sem.ofHandler (S := tradeSig) Live.handle fun _ _ _ => True

/-- **One operation of the services, with the broker.** -/
theorem live_cases {s s' : Live} {op : TradeOp} {a : Except Err op.Ans}
    (h : brokerSem.rel op s a s') : ∃ (o : Oracle) (moves : List BrokerMove),
      NeoTrader.handle (s.broker.tell o) op s.world = (a, s'.world) ∧
      s'.broker = moves.foldl Broker.move (s.broker.send op) := by
  obtain ⟨⟨o, moves⟩, -, h⟩ := h
  simp only [Live.handle] at h
  obtain ⟨rfl, rfl⟩ := h
  exact ⟨o, moves, rfl, rfl⟩

theorem Broker.moves_keep {J : Broker → Prop} (hJ : ∀ b m, J b → J (b.move m)) {b : Broker}
    (hb : J b) (moves : List BrokerMove) : J (moves.foldl Broker.move b) := by
  induction moves generalizing b with
  | nil => exact hb
  | cons m moves ih => exact ih (hJ b m hb)

theorem mem_modify {l : List HeldOrder} {f : HeldOrder → HeldOrder} {i : ℕ} {o : HeldOrder}
    (ho : o ∈ l.modify i f) : ∃ o' ∈ l, o = o' ∨ o = f o' := by
  obtain ⟨j, hj⟩ := List.mem_iff_getElem?.1 ho
  rw [List.getElem?_modify] at hj
  obtain ⟨o', ho', heq⟩ := Option.map_eq_some_iff.1 hj
  refine ⟨o', List.mem_of_getElem? ho', ?_⟩
  split at heq
  · exact .inr heq.symm
  · exact .inl heq.symm

theorem HeldOrder.update_placed (o : HeldOrder) (status : String) (filledQty : ℚ)
    (filledAvgPrice : Option ℚ) (raw : Json) :
    (o.update status filledQty filledAvgPrice raw).placed = o.placed := by
  unfold HeldOrder.update
  split <;> rfl

theorem HeldOrder.update_brokerOrderId (o : HeldOrder) (status : String) (filledQty : ℚ)
    (filledAvgPrice : Option ℚ) (raw : Json) :
    (o.update status filledQty filledAvgPrice raw).brokerOrderId = o.brokerOrderId := by
  unfold HeldOrder.update
  split <;> rfl

end NeoTrader
