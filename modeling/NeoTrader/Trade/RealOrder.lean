import NeoTrader.Trade.Gateway

/-!
# Real orders

Submission and recovery of real orders. A row is created before the broker is called, an intent has
at most one active row, and recovery never resubmits.

* `submit` with `submitNew` and `submitAtBroker`, and `recordSubmitFailureAndMaybeHalt`;
* `recoverInflight`, `recoverRow`, `handleConfirmedAbsent`;
* `haltRealExecution`, `isRealExecutionHalted`: the kill-switch.
-/

namespace NeoTrader

open Js Await

/-! ## The kill-switch -/

def realExecutionHaltedKey : String := "real_execution.halted"
def realExecutionHaltReasonKey : String := "real_execution.halt_reason"

/-- Whether the kill-switch is tripped. -/
def isRealExecutionHalted : Trade Bool := do
  let raw ← await (.kvGet realExecutionHaltedKey)
  return kvBool raw false

/-- Trips the kill-switch. -/
def haltRealExecution (reason : String) : Trade Unit := do
  await (.kvSet realExecutionHaltedKey "true")
  await (.kvSet realExecutionHaltReasonKey reason)

/-! ## Submission -/

/-- So many consecutive submit failures within the window trip the kill-switch. -/
def submitFailureThreshold : ℕ := 3
def submitFailureWindowMs : ℤ := 5 * 60000

/-- So many consecutive answers that the broker has no record of a row end its polling. -/
def confirmedAbsentEscalationThreshold : ℕ := 3

structure SubmitArgs where
  tradeIntentId : String
  brokerPluginId : String
  symbol : String
  side : Side
  requestedQty : Number
  orderType : Option String := none
  limitPrice : Option Number := none

/-- `s.slice(0, n)`. -/
def slice (s : String) (n : ℕ) : String := String.ofList (s.toList.take n)

def generateClientOrderId (tradeIntentId : String) : Trade String := do
  let uuid ← await .randomUUID
  return "nt-" ++ slice tradeIntentId 8 ++ "-" ++ slice uuid 8

/-- The `id` of the broker's response. -/
def extractBrokerOrderId : Json → Except Err (Option String)
  | .null => .error nullPropertyError
  | response => .ok (Json.asString? (response.field "id"))

/-- Whether an error is a unique violation (`isPrismaUniqueViolation`). -/
def isUniqueViolation (e : Err) : Bool := e.code = some "P2002"

/-- Counts a submit failure; a burst of them trips the kill-switch. -/
def recordSubmitFailureAndMaybeHalt : Trade Unit := do
  let n : ℕ ← await (.submitFailuresRecord submitFailureWindowMs)
  if n < submitFailureThreshold then return ()
  else
    let _ ← (haltRealExecution "repeated real order submit failures").attempt
    return ()

/-- The order handed to the broker. -/
def SubmitArgs.request (args : SubmitArgs) (clientOrderId : String) : OrderRequest :=
  { symbol := args.symbol, qty := args.requestedQty, side := args.side
    type := if args.orderType = some "limit" then "limit" else "market"
    clientOrderId, limitPrice := args.limitPrice }

/-- The broker is called for a created row, and the row takes note of the outcome. A failing status
write leaves the row as it is. -/
def submitAtBroker (args : SubmitArgs) (clientOrderId : String) (row : RealOrder) :
    Trade RealOrder := do
  let response ← (do
    let r ← await (.placeOrder args.tradeIntentId args.brokerPluginId (args.request clientOrderId))
    await .submitFailuresReset
    Prog.ofOutcome (extractBrokerOrderId r)).attempt
  match response with
  | .ok brokerOrderId =>
    match ← (await (.orderUpdate row.id { status := some .submitted
                                          brokerOrderId := some brokerOrderId
                                          submitted := true })).attempt with
    | .ok row' => return row'
    | .error _ => return row
  | .error e =>
    recordSubmitFailureAndMaybeHalt
    match ← (await (.orderUpdate row.id { status := some .submitFailed
                                          error := some e.toText })).attempt with
    | .ok row' => return row'
    | .error _ => return row

/-- A lost race returns the winner's row. -/
def raceWinner (tradeIntentId : String) (e : Err) : Trade RealOrder := do
  match ← await (.orderFindActiveForIntent tradeIntentId) with
  | some winner => return winner
  | none => .throw e

/-- A fresh submission: the row first, then the broker. -/
def submitNew (args : SubmitArgs) : Trade RealOrder := do
  let clientOrderId ← generateClientOrderId args.tradeIntentId
  match ← (await (.orderCreate
      { tradeIntentId := args.tradeIntentId, brokerPluginId := args.brokerPluginId
        clientOrderId, symbol := args.symbol, side := args.side
        orderType := args.orderType.getD "market", requestedQty := args.requestedQty
        limitPrice := args.limitPrice })).attempt with
  | .ok row => submitAtBroker args clientOrderId row
  | .error e =>
    if isUniqueViolation e then raceWinner args.tradeIntentId e else .throw e

/-- **Submits an order for an intent**, unless an active order of the intent, or one for the same
symbol, broker and side, exists already. -/
def submit (args : SubmitArgs) : Trade RealOrder := do
  match ← await (.orderFindActiveForIntent args.tradeIntentId) with
  | some existingActive => return existingActive
  | none =>
    match ← await (.orderFindActiveForSymbol args.tradeIntentId args.symbol args.brokerPluginId
        args.side) with
    | some existingActiveForSymbol => return existingActiveForSymbol
    | none => submitNew args

/-! ## Recovery -/

/-- The broker has no record of the row; the third such answer in a row ends its polling. -/
def handleConfirmedAbsent (row : RealOrder) : Trade Unit := do
  let n : ℕ ← await (.absentCountGet row.id)
  let count := n + 1
  if count < confirmedAbsentEscalationThreshold then await (.absentCountSet row.id count)
  else
    await (.absentCountSet row.id 0)
    let _ ← (await (.orderUpdate row.id
      { status := some .confirmedAbsent
        error := some [.lit "Broker confirmed no record of this order across ", .num (.fin count),
          .lit (" consecutive recovery checks — abandoning further automatic polling " ++
            s!"(client_order_id={row.clientOrderId}). Requires manual review.")] })).attempt
    return ()

/-- The status that recovery writes: a terminal status is left to the reconciliation. -/
def pollableStatus (raw : String) : OrderStatus :=
  if (normalizeBrokerStatus raw).terminal then .accepted else normalizeBrokerStatus raw

/-- Asks the broker about one in-flight row, and never resubmits. -/
def recoverRow (row : RealOrder) : Trade Unit := do
  match ← (await (.getOrderByClientId row.brokerPluginId row.clientOrderId)).attempt with
  | .error _ => await (.absentCountSet row.id 0)
  | .ok none => handleConfirmedAbsent row
  | .ok (some brokerOrder) =>
    await (.absentCountSet row.id 0)
    let _ ← await (.orderUpdate row.id
      { brokerOrderId := some (some brokerOrder.brokerOrderId)
        status := some (pollableStatus brokerOrder.status), reconciled := true })
    return ()

/-- **The recovery sweep** over the rows that are in flight. -/
def recoverInflight : Trade Unit := do
  let rows ← await (.orderFindMany [.pendingSubmit, .submitFailed])
  Prog.forEach rows recoverRow

end NeoTrader
