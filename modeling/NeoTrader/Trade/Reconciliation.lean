import NeoTrader.Trade.RealOrder

/-!
# Reconciliation with the broker

A terminal transition of an order row and the status of its intent are written in one transaction,
as a compare-and-set on the status that was read.

* `reconcileOrder`, `applyBrokerOrder`, `touchLastReconciledAt`;
* `fastPollOrder`, `reconcileAllOpenOrders`, `cancelStaleOpenOrders`;
* `syncPortfolio`, `detectDrift`: the broker's positions and equity.
-/

namespace NeoTrader

open Js Await

/-! ## One order -/

/-- Records a reconcile attempt; a broker order id is filled in only where it is given. -/
def touchLastReconciledAt (realOrderId : String) (backfillBrokerOrderId : Option String := none) :
    Trade Unit := do
  let _ ← (await (.orderUpdate realOrderId
    { reconciled := true
      brokerOrderId := (backfillBrokerOrderId.filter (· ≠ "")).map some })).attempt
  return ()

/-- The filled quantity and price, where the broker's numbers are evidence of a fill. -/
def fillEvidence (b : OrderStatusResult) : Option (ℚ × ℚ) :=
  match b.filledQty, b.filledAvgPrice with
  | .fin qty, some (.fin price) => if 0 < qty ∧ 0 < price then some (qty, price) else none
  | _, _ => none

/-- The broker's reason of a rejection, or a message made of the status. -/
def extractRejectReason (b : OrderStatusResult) : Text :=
  match Json.asString? (b.raw.field "reject_reason") with
  | some reason => if reason ≠ "" then [.lit reason] else [.lit s!"Broker order {b.status}"]
  | none => [.lit s!"Broker order {b.status}"]

/-- What a terminal transition writes on the order row. -/
def terminalPatch (status : OrderStatus) (b : OrderStatusResult) : OrderPatch :=
  { status := some status, brokerOrderId := some (some b.brokerOrderId)
    filledQty := some b.filledQty, filledAvgPrice := some b.filledAvgPrice
    filled := status = .filled, reconciled := true }

/-- What a terminal transition writes on the intent: any fill is kept, without one it failed. -/
def terminalIntentPatch (b : OrderStatusResult) : IntentPatch :=
  match fillEvidence b with
  | some (qty, price) => { status := .executed, fillPrice := some price, quantity := some qty }
  | none => { status := .failed, rejectReason := some (extractRejectReason b) }

def terminalTransaction (row : RealOrder) (status : OrderStatus) (b : OrderStatusResult) :
    Trade Unit := do
  let _ ← await (.orderTransaction row.id row.status (terminalPatch status b) row.tradeIntentId
    (terminalIntentPatch b))
  return ()

/-- **Applies broker truth to an order row.** A fill without evidence is not recorded. -/
def applyBrokerOrder (row : RealOrder) (b : OrderStatusResult) : Trade Unit :=
  let canonical := normalizeBrokerStatus b.status
  if canonical = .filled ∧ fillEvidence b = none then touchLastReconciledAt row.id
  else if canonical = .filled then terminalTransaction row .filled b
  else if canonical = .partiallyFilled then do
    let _ ← await (.orderUpdateMany row.id row.status
      { status := some .partiallyFilled, filledQty := some b.filledQty
        filledAvgPrice := some b.filledAvgPrice, reconciled := true })
    return ()
  else if canonical = .rejected ∨ canonical = .canceled ∨ canonical = .expired then
    terminalTransaction row canonical b
  else touchLastReconciledAt row.id
    (if row.brokerOrderId.any (· ≠ "") then none else some b.brokerOrderId)

/-- The broker's view of a row: by its own order id if that is known. -/
def lookupBrokerOrder (row : RealOrder) : Trade (Option OrderStatusResult) :=
  match row.brokerOrderId.filter (· ≠ "") with
  | some brokerOrderId => do
    let b ← await (.getOrderStatus row.brokerPluginId brokerOrderId)
    return some b
  | none => await (.getOrderByClientId row.brokerPluginId row.clientOrderId)

/-- **Reconciles one order against broker truth.** -/
def reconcileOrder (realOrderId : String) : Trade Unit := do
  match ← await (.orderFindUnique realOrderId) with
  | none => return ()
  | some row =>
    if row.status.terminal then return ()
    else
      match ← (lookupBrokerOrder row).attempt with
      | .error _ => touchLastReconciledAt row.id
      | .ok none => touchLastReconciledAt row.id
      | .ok (some brokerOrder) => applyBrokerOrder row brokerOrder

/-! ## Polling -/

def fastPollDelaysMs : List ℕ := [2000, 4000, 8000, 16000]

/-- The rest of a fast poll: it stops at a terminal status. -/
def fastPollRounds (realOrderId : String) : List ℕ → Trade Unit
  | [] => return ()
  | delayMs :: delays => do
    await (.delay delayMs)
    match ← (reconcileOrder realOrderId).attempt with
    | .error _ => fastPollRounds realOrderId delays
    | .ok () =>
      match ← await (.orderFindUnique realOrderId) with
      | some row => if row.status.terminal then return () else fastPollRounds realOrderId delays
      | none => fastPollRounds realOrderId delays

/-- The burst of polls after a submission; it never throws. -/
def fastPollOrder (realOrderId : String) : Trade Unit := do
  let _ ← (fastPollRounds realOrderId fastPollDelaysMs).attempt
  return ()

def staleOrderTimeoutKey : String := "execution.real_order_stale_timeout_ms"
def defaultStaleOrderTimeoutMs : ℚ := 30 * 60000

/-- The stale-order timeout; an unreadable setting is the default. -/
def readStaleTimeoutMs : Trade ℚ := do
  match ← (await (.kvGet staleOrderTimeoutKey)).attempt with
  | .ok raw => return kvNum raw defaultStaleOrderTimeoutMs
  | .error _ => return defaultStaleOrderTimeoutMs

def cancelStaleOrder (timeoutMs : ℚ) (row : RealOrder) : Trade Unit :=
  match row.brokerOrderId.filter (· ≠ "") with
  | none => return ()
  | some brokerOrderId => do
    let _ ← (do
      await (.cancelOrder row.brokerPluginId brokerOrderId)
      let _ ← (await (.alertsCreate
        { type := "CUSTOM", severity := "HIGH", symbol := some row.symbol
          message := [.lit (s!"Stale real order auto-canceled: RealOrder {row.id} " ++
              s!"({row.symbol}) was still open "), .num (.fin (timeoutMs / 60000)),
            .lit "min after submission — broker cancel requested"] })).attempt
      return ()).attempt
    return ()

/-- Asks the broker to cancel the orders that have been open for too long. -/
def cancelStaleOpenOrders : Trade Unit := do
  let timeoutMs ← readStaleTimeoutMs
  let now : ℤ ← await .now
  let staleRows ← await (.orderFindStale ((now : ℚ) - timeoutMs))
  Prog.forEach staleRows (cancelStaleOrder timeoutMs)

/-- **Reconciles every open order**, after a recovery sweep and a sweep of stale orders. -/
def reconcileAllOpenOrders : Trade Unit := do
  let _ ← recoverInflight.attempt
  let _ ← cancelStaleOpenOrders.attempt
  let rows ← await (.orderFindMany [.submitted, .accepted, .partiallyFilled])
  Prog.forEach rows fun row => do
    let _ ← (reconcileOrder row.id).attempt
    return ()

/-! ## The portfolio -/

/-- One position without a filled order that explains it. -/
def driftOf (activeAlerts : List AlertEntry) (brokerPluginId : String) (pos : Position) :
    Trade (List (Option String)) := do
  match ← await (.orderFindFilled (pos.symbol.getD "") brokerPluginId) with
  | some _ => return []
  | none =>
    if activeAlerts.any fun a => a.type = "BROKER_DRIFT" ∧ a.symbol = pos.symbol then
      return [pos.symbol]
    else
      let _ ← (await (.alertsCreate
        { type := "BROKER_DRIFT", severity := "CRITICAL", symbol := pos.symbol
          message := [.lit ("Unexplained broker position: symbol=" ++ pos.symbol.getD "" ++ " qty="),
            .num pos.qty,
            .lit " has no filled/partially_filled RealOrder history on this platform"] })).attempt
      return [pos.symbol]

/-- Flags the broker positions without fill history, and trips the kill-switch on one. -/
def detectDrift (brokerPositions : List Position) (brokerPluginId : String) :
    Trade (List (Option String)) := do
  if brokerPositions = [] then return []
  else
    let activeAlerts ← await .alertsGetActive
    let drifted ← Prog.collect brokerPositions (driftOf activeAlerts brokerPluginId)
    if drifted.flatten = [] then return []
    else
      let _ ← (haltRealExecution "broker position drift detected").attempt
      return drifted.flatten

/-- **Takes the broker's portfolio as truth**: positions are replaced, a snapshot is appended. A
portfolio that cannot be read changes nothing. -/
def syncPortfolio (brokerPluginId source : String) : Trade (List (Option String)) := do
  match ← (getPortfolio brokerPluginId).attempt with
  | .error _ => return []
  | .ok portfolio =>
    await (.syncTransaction brokerPluginId portfolio source)
    detectDrift portfolio.positions brokerPluginId

end NeoTrader
