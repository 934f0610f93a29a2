import Mathlib.Logic.Function.Basic
import NeoTrader.Await.Logic
import NeoTrader.Store.Table
import NeoTrader.Trade.Paper

/-!
# The operations that the services await

Every `await` of the trade-execution services is one operation: a statement of the database, a
request to the broker, or a read of the clock or of a service's own memory. A database statement is
atomic, and so is a `$transaction`.

* `World`: the tables, the services' memory, and two logs of what has been done: the orders handed
  to the broker (`placed`) and the changes of the paper account's row (`paperLog`);
* `Oracle`: what one operation meets outside (time, fresh ids, a database failure, the answer of an
  external service);
* `handle`: one operation; **`tradeSem`**: any oracle may be met.
-/

namespace NeoTrader

open Js Await

/-! ## The provider gateway's data -/

/-- A provider's manifest: its response format and the endpoints that it declares. -/
structure ProviderManifest where
  id : String
  format : String
  endpoints : List String

/-- An open position as the broker reports it; the quantity is signed (positive is long, negative
is short). A symbol that is not a string is `none`. -/
structure Position where
  symbol : Option String
  qty : Number
  avgEntry : Number
  marketValue : Number
  unrealizedPnl : Number
  side : String

/-- The broker's account. -/
structure Portfolio where
  providerId : String
  equity : Number
  cash : Number
  buyingPower : Number
  positions : List Position
  totalMarketValue : Number
  totalPnl : Number

/-- A broker order, whatever the shape of the provider's response. -/
structure OrderStatusResult where
  brokerOrderId : String
  clientOrderId : Option String
  status : String
  filledQty : Number
  filledAvgPrice : Option Number
  raw : Json

/-- An order as it is sent to the broker. -/
structure OrderRequest where
  symbol : String
  qty : Number
  side : Side
  type : String
  clientOrderId : String
  limitPrice : Option Number
  deriving DecidableEq

/-- A call of `gateway.placeOrder`, with the intent that it is for. -/
structure PlacedOrder where
  intentId : String
  brokerPluginId : String
  order : OrderRequest
  deriving DecidableEq

/-! ## Operations -/

structure IntentCreate where
  cycleId : Option String
  symbol : String
  action : TradeAction
  confidence : ℚ
  rationale : String
  timeframe : String
  status : IntentStatus
  decidedBy : Option String := none
  resultJson : Option ResultJson := none

/-- **The awaited operations.** -/
inductive TradeOp
  -- clock, random ids, delays
  | now
  | randomUUID
  | delay (ms : ℕ)
  -- settings
  | kvGet (key : String)
  | kvSet (key value : String)
  -- intents
  | intentFindUnique (id : String)
  | intentFindInCycle (cycleId symbol : String) (action : TradeAction)
  | intentCreate (data : IntentCreate)
  | intentUpdate (id : String) (data : IntentPatch)
  -- the paper account; `write` says which change the new data is
  | portfolioFind
  | portfolioUpsert (write : PaperWrite) (data : PaperState)
  -- the real account
  | navFindLatest (brokerPluginId : String)
  | positionCount (brokerPluginId : String)
  | syncTransaction (brokerPluginId : String) (portfolio : Portfolio) (source : String)
  -- strategies, audit, alerts
  | strategyFind (id : String)
  | auditLog (event : String) (detail : String) (reason : Text)
  | alertsGetActive
  | alertsCreate (alert : AlertEntry)
  -- order rows; a lookup by symbol records the intent that it is made for
  | orderFindUnique (id : String)
  | orderFindActiveForIntent (tradeIntentId : String)
  | orderFindActiveForSymbol (intentId symbol brokerPluginId : String) (side : Side)
  | orderFindFilled (symbol brokerPluginId : String)
  | orderFindMany (statuses : List OrderStatus)
  | orderFindStale (cutoff : ℚ)
  | orderCreate (data : OrderCreate)
  | orderUpdate (id : String) (data : OrderPatch)
  | orderUpdateMany (id : String) (expected : OrderStatus) (data : OrderPatch)
  | orderTransaction (id : String) (expected : OrderStatus) (data : OrderPatch)
      (tradeIntentId : String) (intent : IntentPatch)
  -- memory of the services
  | submitFailuresReset
  | submitFailuresRecord (windowMs : ℤ)
  | absentCountGet (orderId : String)
  | absentCountSet (orderId : String) (count : ℕ)
  -- the gateway
  | providerGet (pluginId : String)
  | providerDefault
  | request (providerId endpoint : String)
  | getQuote (symbol : String)
  | placeOrder (intentId brokerPluginId : String) (order : OrderRequest)
  | getOrderStatus (brokerPluginId brokerOrderId : String)
  | getOrderByClientId (brokerPluginId clientOrderId : String)
  | cancelOrder (brokerPluginId brokerOrderId : String)
  -- fire-and-forget
  | startFastPoll (orderId : String)

/-- The answers. A quote is its last price. -/
def TradeOp.Ans : TradeOp → Type
  | now => ℤ
  | randomUUID => String
  | delay _ => Unit
  | kvGet _ => Option String
  | kvSet _ _ => Unit
  | intentFindUnique _ => Option TradeIntent
  | intentFindInCycle _ _ _ => Option TradeIntent
  | intentCreate _ => TradeIntent
  | intentUpdate _ _ => TradeIntent
  | portfolioFind => Option PaperState
  | portfolioUpsert _ _ => Unit
  | navFindLatest _ => Option RealNavSnapshot
  | positionCount _ => ℕ
  | syncTransaction _ _ _ => Unit
  | strategyFind _ => Option StrategyRow
  | auditLog _ _ _ => Unit
  | alertsGetActive => List AlertEntry
  | alertsCreate _ => Unit
  | orderFindUnique _ => Option RealOrder
  | orderFindActiveForIntent _ => Option RealOrder
  | orderFindActiveForSymbol _ _ _ _ => Option RealOrder
  | orderFindFilled _ _ => Option RealOrder
  | orderFindMany _ => List RealOrder
  | orderFindStale _ => List RealOrder
  | orderCreate _ => RealOrder
  | orderUpdate _ _ => RealOrder
  | orderUpdateMany _ _ _ => ℕ
  | orderTransaction _ _ _ _ _ => ℕ
  | submitFailuresReset => Unit
  | submitFailuresRecord _ => ℕ
  | absentCountGet _ => ℕ
  | absentCountSet _ _ => Unit
  | providerGet _ => Option ProviderManifest
  | providerDefault => Option ProviderManifest
  | request _ _ => Json
  | getQuote _ => Number
  | placeOrder _ _ _ => Json
  | getOrderStatus _ _ => OrderStatusResult
  | getOrderByClientId _ _ => Option OrderStatusResult
  | cancelOrder _ _ => Unit
  | startFastPoll _ => Unit

/-- The signature of the trade-execution services. -/
def tradeSig : Sig := ⟨TradeOp, TradeOp.Ans, Err⟩

/-- A program of the trade-execution services. -/
abbrev Trade (α : Type) : Type := Prog tradeSig α

abbrev await (op : TradeOp) : Trade op.Ans := Prog.perform (S := tradeSig) op

/-! ## The world -/

/-- The tables, the services' memory, and the logs. -/
structure World where
  kv : String → Option String
  intents : List TradeIntent := []
  portfolio : Option PaperState := none
  orders : List RealOrder := []
  positions : List RealPosition := []
  navs : List RealNavSnapshot := []
  strategies : List StrategyRow := []
  alerts : List AlertEntry := []
  submitFailureTimestamps : List ℤ := []
  confirmedAbsentCounts : String → ℕ := fun _ => 0
  providers : String → Option ProviderManifest := fun _ => none
  defaultProvider : Option ProviderManifest := none
  placed : List PlacedOrder := []
  paperLog : List PaperWrite := []

/-- What one operation meets outside. -/
structure Oracle where
  time : ℤ := 0
  newId : String := ""
  dbError : Option Err := none
  ext : (op : TradeOp) → Except Err op.Ans := fun _ => .error (err [])

def World.intent? (w : World) (id : String) : Option TradeIntent :=
  w.intents.find? fun t => t.id = id

/-- The order row of an id. -/
def World.order? (w : World) (id : String) : Option RealOrder :=
  w.orders.find? fun r => r.id = id

/-- The latest snapshot of a broker. -/
def World.latestNav? (w : World) (broker : String) : Option RealNavSnapshot :=
  (w.navs.filter fun s => s.brokerPluginId = broker).foldl
    (fun best s => match best with
      | some b => if b.ts ≤ s.ts then some s else some b
      | none => some s) none

/-- Another active row of the same intent, which the partial unique index forbids. -/
def World.activeConflict (w : World) (id tradeIntentId : String) (status : OrderStatus) : Bool :=
  status.active && w.orders.any fun r =>
    r.id ≠ id ∧ r.tradeIntentId = tradeIntentId ∧ r.status.active

/-! ## One operation -/

def uniqueViolation : Err :=
  { name := "PrismaClientKnownRequestError", code := some "P2002"
    message := [.lit "Unique constraint failed"] }

def foreignKeyViolation : Err :=
  { name := "PrismaClientKnownRequestError", code := some "P2003"
    message := [.lit "Foreign key constraint violated"] }

/-- The row to update does not exist. -/
def recordNotFound : Err :=
  { name := "PrismaClientKnownRequestError", code := some "P2025"
    message := [.lit "Record to update not found."] }

/-- A value does not fit its column. -/
def invalidValue : Err :=
  { name := "PrismaClientValidationError", message := [.lit "Invalid value provided."] }

/-- A database statement: it fails as a whole or takes effect as a whole. -/
def db (o : Oracle) (w : World) {α : Type} (x : Except Err (α × World)) : Except Err α × World :=
  match o.dbError, x with
  | some e, _ => (.error e, w)
  | none, .error e => (.error e, w)
  | none, .ok (a, w') => (.ok a, w')

def query (o : Oracle) (w : World) {α : Type} (a : α) : Except Err α × World :=
  db o w (.ok (a, w))

def World.updateIntent (w : World) (now : ℤ) (id : String) (d : IntentPatch) :
    Except Err (TradeIntent × World) :=
  match w.intent? id with
  | none => .error recordNotFound
  | some t => .ok (d.apply now t,
    { w with intents := Store.modify (fun t => t.id = id) (d.apply now) w.intents })

/-- `UPDATE real_orders … WHERE p`: the number of rows and the new table. -/
def World.updateOrders (w : World) (now : ℤ) (p : RealOrder → Bool) (d : OrderPatch) :
    Except Err (ℕ × World) :=
  if w.orders.any fun r => p r ∧ (d.apply now r).isNone then .error invalidValue
  else if w.orders.any fun r => p r ∧
      d.status.any fun s => w.activeConflict r.id r.tradeIntentId s then .error uniqueViolation
  else .ok (w.orders.countP p,
    { w with orders := Store.modify p (fun r => (d.apply now r).getD r) w.orders })

def World.updateOrder (w : World) (now : ℤ) (id : String) (d : OrderPatch) :
    Except Err (RealOrder × World) :=
  match w.order? id with
  | none => .error recordNotFound
  | some r => (w.updateOrders now (fun r => r.id = id) d).map fun x =>
    ((d.apply now r).getD r, x.2)

/-- The transaction of a terminal transition: the order row of an id, if its status is still the
expected one, and then the intent. -/
def World.updateOrderAndIntent (w : World) (now : ℤ) (id : String) (expected : OrderStatus)
    (d : OrderPatch) (tradeIntentId : String) (intent : IntentPatch) : Except Err (ℕ × World) :=
  (w.updateOrders now (fun r => r.id = id ∧ r.status = expected) d).bind fun x =>
    if x.1 = 0 then .ok (0, w)
    else (x.2.updateIntent now tradeIntentId intent).map fun y => (x.1, y.2)

def OrderCreate.row (d : OrderCreate) (id : String) (qty : ℚ) (limit : Option ℚ) : RealOrder :=
  { id, tradeIntentId := d.tradeIntentId, brokerPluginId := d.brokerPluginId
    clientOrderId := d.clientOrderId, brokerOrderId := none, symbol := d.symbol, side := d.side
    orderType := d.orderType, requestedQty := qty, limitPrice := limit, status := .pendingSubmit
    filledQty := 0, filledAvgPrice := none, submittedAt := none, filledAt := none
    lastReconciledAt := none, error := none }

/-- Create an order row, under the constraints of its table. -/
def World.createOrder (w : World) (id : String) (d : OrderCreate) : Except Err (RealOrder × World) :=
  match column d.requestedQty with
  | none => .error invalidValue
  | some qty =>
    if d.limitPrice.map column = some none then .error invalidValue
    else if w.orders.any fun r => r.id = id ∨ r.clientOrderId = d.clientOrderId then
      .error uniqueViolation
    else if w.activeConflict id d.tradeIntentId .pendingSubmit then .error uniqueViolation
    else if (w.intent? d.tradeIntentId).isNone then .error foreignKeyViolation
    else
      let row := d.row id qty (d.limitPrice.bind column)
      .ok (row, { w with orders := w.orders ++ [row] })

def World.createIntent (w : World) (now : ℤ) (id : String) (d : IntentCreate) :
    Except Err (TradeIntent × World) :=
  if (w.intent? id).isSome then .error uniqueViolation
  else
    let row : TradeIntent :=
      { id, cycleId := d.cycleId, symbol := d.symbol, action := d.action
        confidence := d.confidence, rationale := d.rationale, timeframe := d.timeframe
        status := d.status, decidedAt := d.decidedBy.map fun _ => now, decidedBy := d.decidedBy
        rejectReason := none, fillPrice := none, quantity := none, realizedPnl := none
        resultJson := d.resultJson }
    .ok (row, { w with intents := w.intents ++ [row] })

/-- The position row of a reported position; `none` where it cannot be stored. -/
def Position.row (p : Position) (broker : String) : Option RealPosition := do
  return { symbol := ← p.symbol, brokerPluginId := broker, qty := ← column p.qty
           avgEntry := ← column p.avgEntry, marketValue := ← column p.marketValue
           unrealizedPnl := ← column p.unrealizedPnl, side := p.side }

/-- Insert or replace the row of a symbol. -/
def upsertPosition (rows : List RealPosition) (p : RealPosition) : List RealPosition :=
  if rows.any fun r => r.symbol = p.symbol then
    Store.modify (fun r => r.symbol = p.symbol) (fun _ => p) rows
  else rows ++ [p]

/-- The transaction of a portfolio sync: replace the broker's positions, append a snapshot. -/
def World.sync (w : World) (now : ℤ) (broker : String) (portfolio : Portfolio) (source : String) :
    Except Err (Unit × World) :=
  let kept := w.positions.filter fun r =>
    r.brokerPluginId ≠ broker ∨ some r.symbol ∈ portfolio.positions.map Position.symbol
  match portfolio.positions.mapM fun p => p.row broker, column portfolio.equity,
      column portfolio.cash, column portfolio.buyingPower, column portfolio.totalPnl with
  | some rows, some equity, some cash, some buyingPower, some totalPnl =>
    let hwm := max (((w.latestNav? broker).map RealNavSnapshot.hwm).getD equity) equity
    .ok ((), { w with
      positions := rows.foldl upsertPosition kept
      navs := w.navs ++
        [{ ts := now, brokerPluginId := broker, equity, cash, buyingPower, totalPnl, hwm, source }] })
  | _, _, _, _, _ => .error invalidValue

/-- **One operation**: its outcome and the world after it. -/
def handle (o : Oracle) : (op : TradeOp) → World → Except Err op.Ans × World
  | .now, w => (.ok o.time, w)
  | .randomUUID, w => (.ok o.newId, w)
  | .delay _, w => (.ok (), w)
  | .kvGet key, w => query o w (w.kv key)
  | .kvSet key value, w => db o w (.ok ((), { w with kv := Function.update w.kv key (some value) }))
  | .intentFindUnique id, w => query o w (w.intent? id)
  | .intentFindInCycle cycleId symbol action, w =>
    query o w (w.intents.find? fun t =>
      t.cycleId = some cycleId ∧ t.symbol = symbol ∧ t.action = action)
  | .intentCreate data, w => db o w (w.createIntent o.time o.newId data)
  | .intentUpdate id data, w => db o w (w.updateIntent o.time id data)
  | .portfolioFind, w => query o w w.portfolio
  | .portfolioUpsert write data, w =>
    db o w (.ok ((), { w with portfolio := some data, paperLog := w.paperLog ++ [write] }))
  | .navFindLatest broker, w => query o w (w.latestNav? broker)
  | .positionCount broker, w => query o w (w.positions.countP fun p => p.brokerPluginId = broker)
  | .syncTransaction broker portfolio source, w => db o w (w.sync o.time broker portfolio source)
  | .strategyFind id, w => query o w (w.strategies.find? fun s => s.id = id)
  | .auditLog event detail reason, w => (o.ext (.auditLog event detail reason), w)
  | .alertsGetActive, w => query o w w.alerts
  | .alertsCreate alert, w => db o w (.ok ((), { w with alerts := w.alerts ++ [alert] }))
  | .orderFindUnique id, w => query o w (w.order? id)
  | .orderFindActiveForIntent tradeIntentId, w =>
    query o w (w.orders.find? fun r => r.tradeIntentId = tradeIntentId ∧ r.status.active)
  | .orderFindActiveForSymbol _ symbol broker side, w =>
    query o w (w.orders.filter fun r => r.symbol = symbol ∧ r.brokerPluginId = broker ∧
      r.side = side ∧ r.status.active).getLast?
  | .orderFindFilled symbol broker, w =>
    query o w (w.orders.find? fun r =>
      r.symbol = symbol ∧ r.brokerPluginId = broker ∧ 0 < r.filledQty)
  | .orderFindMany statuses, w => query o w (w.orders.filter fun r => r.status ∈ statuses)
  | .orderFindStale cutoff, w =>
    query o w (w.orders.filter fun r => r.status.isOpen ∧ r.submittedAt.any fun t => (t : ℚ) < cutoff)
  | .orderCreate data, w => db o w (w.createOrder o.newId data)
  | .orderUpdate id data, w => db o w (w.updateOrder o.time id data)
  | .orderUpdateMany id expected data, w =>
    db o w (w.updateOrders o.time (fun r => r.id = id ∧ r.status = expected) data)
  | .orderTransaction id expected data tradeIntentId intent, w =>
    db o w (w.updateOrderAndIntent o.time id expected data tradeIntentId intent)
  | .submitFailuresReset, w => (.ok (), { w with submitFailureTimestamps := [] })
  | .submitFailuresRecord windowMs, w =>
    let l := (w.submitFailureTimestamps.filter fun t => o.time - t ≤ windowMs) ++ [o.time]
    (.ok l.length, { w with submitFailureTimestamps := l })
  | .absentCountGet orderId, w => (.ok (w.confirmedAbsentCounts orderId), w)
  | .absentCountSet orderId count, w =>
    (.ok (), { w with
      confirmedAbsentCounts := Function.update w.confirmedAbsentCounts orderId count })
  | .providerGet pluginId, w => (.ok (w.providers pluginId), w)
  | .providerDefault, w => (.ok w.defaultProvider, w)
  | .request providerId endpoint, w => (o.ext (.request providerId endpoint), w)
  | .getQuote symbol, w => (o.ext (.getQuote symbol), w)
  | .placeOrder intentId broker order, w =>
    (o.ext (.placeOrder intentId broker order),
      { w with placed := w.placed ++ [⟨intentId, broker, order⟩] })
  | .getOrderStatus broker brokerOrderId, w => (o.ext (.getOrderStatus broker brokerOrderId), w)
  | .getOrderByClientId broker clientOrderId, w =>
    (o.ext (.getOrderByClientId broker clientOrderId), w)
  | .cancelOrder broker brokerOrderId, w => (o.ext (.cancelOrder broker brokerOrderId), w)
  | .startFastPoll _, w => (.ok (), w)

/-- **The semantics of the services**: an operation may meet any oracle. -/
def tradeSem : Sem tradeSig World := Sem.ofHandler (S := tradeSig) handle fun _ _ _ => True

end NeoTrader
