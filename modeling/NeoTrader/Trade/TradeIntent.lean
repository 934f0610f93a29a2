import NeoTrader.Trade.Policy
import NeoTrader.Trade.Reconciliation

/-!
# Trade intents

An intent is recorded, then executed on its own (`autoProcess`) or after a human decision (`approve`,
`reject`), on the paper account or at the real broker.

* **`autoProcess`**, **`approve`**, **`reject`**, **`recordIntent`**.
-/

namespace NeoTrader

open Js Await

/-! ## Status writes -/

def errorResult (e : Text) : ResultJson := [("error", .text e)]

/-- A decided intent: the write of its status, with the record of the result. -/
def decide' (id : String) (decidedBy : String) (status : IntentStatus) (result : ResultJson) :
    Trade Unit := do
  let _ ← await (.intentUpdate id { status, decidedBy := some decidedBy, resultJson := some result })
  return ()

/-- The write of a failed execution. -/
def failIntent (id decidedBy : String) (result : ResultJson) : Trade Unit :=
  decide' id decidedBy .failed result

/-- The write of a refused intent. -/
def rejectIntent (id decidedBy : String) (reason : Text) : Trade Unit := do
  let _ ← await (.intentUpdate id
    { status := .rejected, decidedBy := some decidedBy, rejectReason := some reason })
  return ()

/-- The write of a hold: executed, nothing traded. -/
def holdIntent (id decidedBy : String) : Trade Unit := do
  let _ ← await (.intentUpdate id
    { status := .executed, quantity := some 0, decidedBy := some decidedBy
      resultJson := some [("quantity", .num 0),
        ("reason", .text [.lit "hold — no position change"])] })
  return ()

def noRealStateText : Text :=
  [.lit "real account state unavailable — cannot size/risk-check safely"]

/-- The record of an exit whose position the broker did not report. -/
def positionUnavailable (what : String) (e : Err) : ResultJson :=
  [("error", .text [.lit ("broker position unavailable — refusing to guess " ++ what)]),
    ("detail", .text e.toText)]

/-! ## Where an intent is executed -/

/-- A mode, or the record of a failure. The update that writes it is only built here; the caller
awaits it. -/
inductive ModeResult
  | mode (m : Mode)
  | failed (result : ResultJson)

/-- **An exit goes to where its position lives.** Where that cannot be determined it fails. -/
def resolveExitRouting (symbol brokerPluginId : String) : Trade ModeResult := do
  match ← (getPortfolio brokerPluginId).attempt with
  | .error e => return .failed (positionUnavailable "exit routing" e)
  | .ok brokerPortfolio =>
    if brokerPortfolio.holds symbol then return .mode .real else return .mode .paper

/-- The execution mode of an intent. -/
def resolveMode (policy : ExecutionPolicy) (id symbol : String) (action : TradeAction) :
    Trade ModeResult := do
  if action = .exit ∧ policy.brokerPluginId ≠ "" then
    resolveExitRouting symbol policy.brokerPluginId
  else
    let m ← effectiveMode policy id action
    return .mode m

/-! ## Real execution -/

/-- The kill-switch, which only blocks entries. -/
def entryHalted (action : TradeAction) : Trade Bool :=
  if action.isEntry then isRealExecutionHalted else return false

def entryWalkForwardGate (action : TradeAction) : Trade (Option Text) :=
  if action.isEntry then checkWalkForwardGate else return none

/-- The guards of a real order, again: the record of a failure where one does not hold. -/
def checkExecuteRealPreconditions (policy : ExecutionPolicy) (action : TradeAction)
    (realState : Option RealAccountState) : Trade (Option ResultJson) := do
  let halted ← entryHalted action
  if halted then return some (errorResult [.lit "real execution halted (kill-switch active)"])
  else if policy.brokerPluginId = "" then
    return some (errorResult [.lit "broker_plugin_id not configured"])
  else if action.isEntry ∧ realState.isNone then return some (errorResult noRealStateText)
  else if action = .short ∧ ¬ policy.allowRealShort then return some (errorResult realShortReason)
  else
    let gate ← entryWalkForwardGate action
    return gate.map fun reason => errorResult (.lit "walk-forward gate: " :: reason)

/-- **The quantity of a real exit**: the size of the broker's position, whatever its sign. -/
def resolveRealExitQty (symbol brokerPluginId : String) : Trade (Except ResultJson Number) := do
  match ← (getPortfolio brokerPluginId).attempt with
  | .error e => return .error (positionUnavailable "exit qty" e)
  | .ok brokerPortfolio =>
    match brokerPortfolio.position? symbol with
    | some pos =>
      if pos.qty.abs.le 0 then
        return .error (errorResult [.lit s!"no open broker position for {symbol}"])
      else return .ok pos.qty.abs
    | none => return .error (errorResult [.lit s!"no open broker position for {symbol}"])

/-- The ceiling on a real entry: at most `pct` of the equity. -/
def clampReal (qty equity price : Number) (pct : ℚ) : Number :=
  if qty.le 0 then qty
  else
    let maxQty := ((equity.mul (.fin pct)).div price).floor
    if qty.gt maxQty then maxQty else qty

/-- **The quantity of a real entry**, sized on the equity and capped by the buying power. -/
def realEntryQty (action : TradeAction) (policy : ExecutionPolicy) (s : RealAccountState)
    (price : Number) (sizingPct : ℚ) : Number :=
  let sized := ((s.equity.mul (.fin sizingPct)).div price).floor
  let clamped := clampReal sized s.equity price policy.maxPositionPct
  let qty := if action = .short then clampReal clamped s.equity price policy.maxShortNotionalPct
    else clamped
  let buyingPowerMaxQty := (s.buyingPower.div price).floor
  if qty.gt buyingPowerMaxQty then buyingPowerMaxQty else qty

/-- **Side and quantity of a real order.** -/
def resolveRealSideAndQty (symbol : String) (action : TradeAction) (policy : ExecutionPolicy)
    (realState : Option RealAccountState) (price : Number) (sizingPct : ℚ) :
    Trade (Except ResultJson (Side × Number)) := do
  if action = .exit then
    match ← resolveRealExitQty symbol policy.brokerPluginId with
    | .error result => return .error result
    | .ok qty => return .ok (.sell, qty)
  else
    match realState with
    | none => return .error (errorResult noRealStateText)
    | some s =>
      if ¬ s.equity.isFinite ∨ ¬ s.buyingPower.isFinite then
        return .error (errorResult
          [.lit "real account state has non-finite equity/buying_power — refusing to size"])
      else
        return .ok (if action = .long then .buy else .sell,
          realEntryQty action policy s price sizingPct)

/-- The submission of a resolved order, and what its outcome makes of the intent. -/
def submitReal (id symbol : String) (policy : ExecutionPolicy) (side : Side) (qty : Number)
    (decidedBy : String) : Trade Unit := do
  match ← (submit { tradeIntentId := id, brokerPluginId := policy.brokerPluginId, symbol, side
                    requestedQty := qty }).attempt with
  | .error e =>
    failIntent id decidedBy
      [("error", .text e.toText), ("qty", .num qty), ("side", .text [.lit side.toString]),
        ("symbol", .text [.lit symbol])]
  | .ok realOrder =>
    if realOrder.status = .submitFailed then
      failIntent id decidedBy
        [("error", .text (realOrder.error.getD [.lit "real order submission failed"])),
          ("qty", .num qty), ("side", .text [.lit side.toString]),
          ("symbol", .text [.lit symbol])]
    else
      await (.startFastPoll realOrder.id)
      decide' id decidedBy .realPending
        [("requested_qty", .num qty), ("side", .text [.lit side.toString]),
          ("broker", .text [.lit policy.brokerPluginId]),
          ("real_order_id", .text [.lit realOrder.id]),
          ("real_order_status", .text [.lit realOrder.status.toString])]

/-- Quantity and notional checks of a resolved order, and its submission. -/
def placeReal (id symbol : String) (action : TradeAction) (policy : ExecutionPolicy)
    (price : Number) (side : Side) (qty : Number) (decidedBy : String) : Trade Unit :=
  let notional := qty.mul price
  if qty.le 0 then
    failIntent id decidedBy (errorResult
      [.lit "Computed qty=", .num qty, .lit " — not enough equity or no position to exit"])
  else if action ≠ .exit ∧ notional.gt (.fin policy.maxOrderNotional) then
    failIntent id decidedBy
      [("error", .text [.lit "Order notional ", .num notional,
          .lit " exceeds max_order_notional ", .num (.fin policy.maxOrderNotional)]),
        ("qty", .num qty), ("price", .num price), ("notional", .num notional),
        ("max_order_notional", .num (.fin policy.maxOrderNotional))]
  else submitReal id symbol policy side qty decidedBy

/-- The price is a finite positive number. -/
def validPrice (price : Number) : Bool := price.isFinite && price.gt 0

/-- A resolved order is placed; a failed resolution is written. -/
def executeRealOrder (id symbol : String) (action : TradeAction) (policy : ExecutionPolicy)
    (realState : Option RealAccountState) (decidedBy : String) (sizingPct : ℚ) (price : Number) :
    Trade Unit := do
  match ← resolveRealSideAndQty symbol action policy realState price sizingPct with
  | .error result => failIntent id decidedBy result
  | .ok (side, qty) => placeReal id symbol action policy price side qty decidedBy

/-- **Real-money execution.** An entry needs a quote; an exit does not depend on one. -/
def executeReal (id symbol : String) (action : TradeAction) (policy : ExecutionPolicy)
    (realState : Option RealAccountState) (decidedBy : String) (sizingPct : ℚ) : Trade Unit := do
  match ← checkExecuteRealPreconditions policy action realState with
  | some result => failIntent id decidedBy result
  | none =>
    let quote ← (await (.getQuote symbol)).attempt
    let price : Number := match quote with
      | .ok last => last
      | .error _ => .nan
    if action.isEntry ∧ ¬ validPrice price then
      failIntent id decidedBy (errorResult (match quote with
        | .error e => e.toText
        | .ok _ => [.lit "Invalid quote price: ", .num price]))
    else if action = .hold then holdIntent id decidedBy
    else executeRealOrder id symbol action policy realState decidedBy sizingPct price

/-! ## Paper execution -/

def quotedPrice : Except Err Number → Option ℚ
  | .ok (.fin last) => if 0 < last then some last else none
  | _ => none

/-- The prices of the open positions, if each of them has a valid quote. -/
def openPrices (s : PaperState) : Trade (Option (List ℚ)) := do
  let quotes ← Prog.collect s.positions fun pos => do
    let quote ← (await (.getQuote pos.symbol)).attempt
    return quotedPrice quote
  return quotes.mapM id

def auditLossBreakerTrip (trip : Option (Period × Text)) : Trade Unit :=
  match trip with
  | none => return ()
  | some (period, reason) => do
    let _ ← (await (.auditLog "loss_circuit_breaker_tripped" period.toString reason)).attempt
    return ()

/-- The gate's answer, with what it observed where the account could be priced. -/
structure GateOutcome where
  result : EntryGateResult
  view : Option GateView

/-- **The entry gate of the paper account.** An account that cannot be priced is refused. -/
def evaluateEntryGate (s : PaperState) (policy : RiskPolicy) : Trade GateOutcome := do
  match ← openPrices s with
  | none => return ⟨{ refusal := some [.lit ("mark-to-market unavailable for one or more open " ++
        "positions — refusing new entry")], state := s, baselineChanged := false }, none⟩
  | some prices =>
    let now : ℤ ← await .now
    let g := gateOf s policy ⟨prices, now⟩
    auditLossBreakerTrip g.tripped
    return ⟨g, some ⟨prices, now⟩⟩

/-- What the paper branch does after the entry gate. -/
structure Entry where
  refusal : Option Text
  state : PaperState
  gate : Option (RiskPolicy × GateView)

/-- The entry gate of the paper account; a refusal with a reset baseline is stored. -/
def evaluatePaperGate (id : String) (s : PaperState) (policy : RiskPolicy) : Trade Entry := do
  let g ← evaluateEntryGate s policy
  let entry : Entry := ⟨g.result.refusal, g.result.state, g.view.map fun v => (policy, v)⟩
  match g.view with
  | some v =>
    if ¬ g.result.pass ∧ g.result.baselineChanged then
      await (.portfolioUpsert (.baseline id policy v) g.result.state)
      return entry
    else return entry
  | none => return entry

/-- **The risk gate of an entry**, on the account that holds the money. -/
def evaluateEntryRiskGate (id : String) (mode : Mode) (realState : Option RealAccountState)
    (s : PaperState) (policy : ExecutionPolicy) : Trade Entry :=
  match mode, realState with
  | .real, some real => return ⟨passesAutoRisk real policy, s, none⟩
  | .real, none => .throw nullPropertyError
  | .paper, _ => evaluatePaperGate id s policy.risk

/-- **Paper execution**: quote, fill, the account's row, the intent. -/
def runPaperExecution (id symbol : String) (action : TradeAction) (entry : Entry)
    (decidedBy : String) (sizingPct maxPositionPct maxShortNotionalPct : ℚ) : Trade Unit := do
  match ← (await (.getQuote symbol)).attempt with
  | .error e => failIntent id decidedBy (errorResult e.toText)
  | .ok fillPrice =>
    match fillPrice with
    | .fin price =>
      if price ≤ 0 then
        failIntent id decidedBy (errorResult [.lit "Invalid fill price: ", .num fillPrice])
      else
        let f : PaperFill :=
          { intentId := id, action, symbol, price, gate := entry.gate, sizingPct, maxPositionPct
            maxShortNotionalPct }
        let fill := executeFill action symbol price entry.state sizingPct maxPositionPct
          maxShortNotionalPct
        await (.portfolioUpsert (.fill f) fill.newState)
        if action = .exit ∧ fill.noPosition then
          decide' id decidedBy .skipped
            [("reason", .text [.lit s!"exit skipped — no open position found for {symbol}"])]
        else
          let _ ← await (.intentUpdate id
            { status := .executed, fillPrice := some price, quantity := some fill.quantity
              realizedPnl := some fill.realizedPnl, decidedBy := some decidedBy
              resultJson := some
                [("fill_price", .num (.fin price)), ("quantity", .num (.fin fill.quantity)),
                  ("realized_pnl", match fill.realizedPnl with
                    | some q => .num (.fin q)
                    | none => .null),
                  ("portfolio_equity", .num (.fin fill.newState.equity)),
                  ("portfolio_cash", .num (.fin fill.newState.cash))] })
          return ()
    | _ => failIntent id decidedBy (errorResult [.lit "Invalid fill price: ", .num fillPrice])

/-! ## Decisions -/

/-- A message that an intent cannot be decided on any more. -/
def notPending (id : String) (status : IntentStatus) (verb : String) : Err :=
  err [.lit (s!"TradeIntent {id} is not pending (current status: {status.toString}). " ++
    s!"Only pending intents can be {verb}.")]

/-- The pending intent of an id; anything else throws. -/
def pendingIntent (id verb : String) : Trade TradeIntent := do
  match ← await (.intentFindUnique id) with
  | none => .throw (err [.lit s!"TradeIntent {id} not found"])
  | some intent =>
    if intent.status = .pending then return intent else .throw (notPending id intent.status verb)

/-- An intent whose mode and risk gates are settled is executed. -/
def executeDecided (id : String) (intent : TradeIntent) (policy : ExecutionPolicy) (mode : Mode)
    (realState : Option RealAccountState) (entry : Entry) (decidedBy : String) (sizingPct : ℚ) :
    Trade Unit :=
  match mode with
  | .real => executeReal id intent.symbol intent.action policy realState decidedBy sizingPct
  | .paper => runPaperExecution id intent.symbol intent.action entry decidedBy sizingPct
      policy.maxPositionPct policy.maxShortNotionalPct

def gateAndExecute (id : String) (intent : TradeIntent) (policy : ExecutionPolicy) (mode : Mode)
    (realState : Option RealAccountState) (s : PaperState) (decidedBy : String) (sizingPct : ℚ) :
    Trade Unit := do
  if intent.action.isEntry then
    let entry ← evaluateEntryRiskGate id mode realState s policy
    match entry.refusal with
    | some reason => rejectIntent id decidedBy reason
    | none => executeDecided id intent policy mode realState entry decidedBy sizingPct
  else executeDecided id intent policy mode realState ⟨none, s, none⟩ decidedBy sizingPct

/-- The real account's state, which only a real execution reads. -/
def realStateIn (mode : Mode) (brokerPluginId : String) : Trade (Option RealAccountState) :=
  match mode with
  | .real => getRealAccountState brokerPluginId
  | .paper => return none

/-- An intent whose mode is settled: a hold is written, a real entry needs the account's state. -/
def processInMode (id : String) (intent : TradeIntent) (policy : ExecutionPolicy) (mode : Mode)
    (decidedBy : String) (sizingPct : ℚ) : Trade Unit := do
  let row ← await .portfolioFind
  let s := row.getD PaperState.initial
  if intent.action = .hold then holdIntent id decidedBy
  else
    let realState ← realStateIn mode policy.brokerPluginId
    if mode = .real ∧ intent.action.isEntry ∧ realState.isNone then
      failIntent id decidedBy (errorResult noRealStateText)
    else gateAndExecute id intent policy mode realState s decidedBy sizingPct

/-- **What `autoProcess` and `approve` share**: they differ in who decides and in the sizing. -/
def processIntent (id verb decidedBy : String) (sizing : ExecutionPolicy → ℚ) : Trade Unit := do
  let intent ← pendingIntent id verb
  let policy ← readExecutionPolicy
  match ← resolveMode policy id intent.symbol intent.action with
  | .failed result => failIntent id decidedBy result
  | .mode mode => processInMode id intent policy mode decidedBy (sizing policy)

/-- The fraction of the cash that an approved entry uses. -/
def approvedSizingPct : ℚ := 5 / 100

/-- **Autonomous execution of a pending intent.** -/
def autoProcess (id : String) : Trade Unit :=
  processIntent id "processed" "autonomous" ExecutionPolicy.maxPositionPct

/-- **Execution of a pending intent after a human approval.** -/
def approve (id decidedBy : String) : Trade Unit :=
  processIntent id "approved" decidedBy fun _ => approvedSizingPct

/-- **A human rejection.** -/
def reject (id decidedBy reason : String) : Trade Unit := do
  let _ ← pendingIntent id "rejected"
  rejectIntent id decidedBy [.lit reason]

/-! ## Recording -/

structure IntentDto where
  cycleId : Option String
  symbol : String
  action : String
  confidence : Number
  rationale : String
  timeframe : Option String

/-- The row of a recorded decision. -/
def IntentDto.row (dto : IntentDto) (action : TradeAction) (confidence : ℚ) : IntentCreate :=
  { cycleId := dto.cycleId, symbol := dto.symbol, action, confidence
    rationale := dto.rationale, timeframe := dto.timeframe.getD "1d", status := .pending }

/-- The action and the confidence of a decision, if they are valid. -/
def validateIntent (dto : IntentDto) : Except Err (TradeAction × ℚ) :=
  match TradeAction.ofString? dto.action with
  | none => .error (err [.lit (s!"Invalid action \"{dto.action}\". " ++
      "Must be one of: long, short, exit, hold")])
  | some action =>
    match dto.confidence with
    | .fin q =>
      if q < 0 ∨ 1 < q then
        .error (err [.lit "Invalid confidence ", .num dto.confidence,
          .lit ". Must be a number in [0, 1]."])
      else .ok (action, q)
    | _ => .error (err [.lit "Invalid confidence ", .num dto.confidence,
        .lit ". Must be a number in [0, 1]."])

/-- The first intent of the same cycle, symbol and action. -/
def priorInCycle (dto : IntentDto) (action : TradeAction) : Trade (Option TradeIntent) :=
  match dto.cycleId.filter (· ≠ "") with
  | some cycleId => await (.intentFindInCycle cycleId dto.symbol action)
  | none => return none

/-- The row of a decision that the cycle has made before. -/
def duplicateRow (dto : IntentDto) (action : TradeAction) (confidence : ℚ)
    (prior : TradeIntent) : IntentCreate :=
  { dto.row action confidence with
    status := .duplicate, decidedBy := some "autonomous"
    resultJson := some [("reason", .text [.lit (s!"duplicate {dto.action} intent for " ++
      s!"{dto.symbol} within cycle " ++ dto.cycleId.getD "" ++ s!" — an earlier intent ({prior.id}) " ++
      "already handled it this cycle")])] }

/-- **Records a decision**, and processes it if the policy is autonomous. -/
def recordIntent (dto : IntentDto) : Trade Unit := do
  let (action, confidence) ← Prog.ofOutcome (S := tradeSig) (validateIntent dto)
  match ← priorInCycle dto action with
  | some prior => do
    let _ ← await (.intentCreate (duplicateRow dto action confidence prior))
    return ()
  | none =>
    let created : TradeIntent ← await (.intentCreate (dto.row action confidence))
    let policy ← readExecutionPolicy
    if policy.autonomous then autoProcess created.id else return ()

/-! ## The calls of the services -/

inductive ServiceCall
  | recordIntent (dto : IntentDto)
  | autoProcess (id : String)
  | approve (id decidedBy : String)
  | reject (id decidedBy reason : String)
  | executeReal (id symbol : String) (action : TradeAction) (policy : ExecutionPolicy)
      (realState : Option RealAccountState) (decidedBy : String) (sizingPct : ℚ)
  | submit (args : SubmitArgs)
  | recoverInflight
  | reconcileOrder (realOrderId : String)
  | fastPollOrder (realOrderId : String)
  | reconcileAllOpenOrders
  | syncPortfolio (brokerPluginId source : String)

def ServiceCall.body : ServiceCall → Trade Unit
  | .recordIntent dto => NeoTrader.recordIntent dto
  | .autoProcess id => NeoTrader.autoProcess id
  | .approve id decidedBy => NeoTrader.approve id decidedBy
  | .reject id decidedBy reason => NeoTrader.reject id decidedBy reason
  | .executeReal id symbol action policy realState decidedBy sizingPct =>
    NeoTrader.executeReal id symbol action policy realState decidedBy sizingPct
  | .submit args => (NeoTrader.submit args).discard
  | .recoverInflight => NeoTrader.recoverInflight
  | .reconcileOrder realOrderId => NeoTrader.reconcileOrder realOrderId
  | .fastPollOrder realOrderId => NeoTrader.fastPollOrder realOrderId
  | .reconcileAllOpenOrders => NeoTrader.reconcileAllOpenOrders
  | .syncPortfolio brokerPluginId source => (NeoTrader.syncPortfolio brokerPluginId source).discard

/-! ## A small deployment -/

/-- A recorded decision. -/
def sampleIntent (id symbol : String) (action : TradeAction) : TradeIntent :=
  { id, cycleId := none, symbol, action, confidence := 1 / 2, rationale := "", timeframe := "1d"
    status := .pending, decidedAt := none, decidedBy := none, rejectReason := none
    fillPrice := none, quantity := none, realizedPnl := none, resultJson := none }

def sampleBroker : ProviderManifest := ⟨"alpaca", "alpaca", ["portfolio", "positions", "orders"]⟩

/-- Real execution is switched on. -/
def sampleSettings : String → Option String
  | "execution.real" => some "true"
  | "execution.broker_plugin_id" => some "\"alpaca\""
  | _ => none

/-- The deployment with these intents. -/
def sampleWorld (intents : List TradeIntent) : World :=
  { kv := sampleSettings, intents, providers := fun _ => some sampleBroker }

def samplePosition (symbol qty : String) : Json :=
  .arr [.obj [("symbol", .str symbol), ("qty", .str qty)]]

/-- A broker with this body of positions, at which every order has been filled. -/
def sampleOracle (positions : Json) (newId : String := "order-1") : Oracle where
  newId
  ext
    | .request _ "positions" => .ok positions
    | .request _ _ => .ok (.obj [("equity", .str "1000")])
    | .getQuote _ => .ok (.fin 100)
    | .placeOrder _ _ _ => .ok (.obj [("id", .str "b1")])
    | .getOrderStatus _ _ => .ok
      { brokerOrderId := "b1", clientOrderId := none, status := "filled", filledQty := .fin 5
        filledAvgPrice := some (.fin 100), raw := .null }
    | _ => .error (err [])

end NeoTrader
