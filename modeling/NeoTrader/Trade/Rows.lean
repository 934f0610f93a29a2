import NeoTrader.Common.Kv

/-!
# Rows of the trading tables

The rows that the trade-execution services read and write, with their status vocabularies.

* `OrderStatus.active`, `OrderStatus.terminal`, `OrderStatus.pollable`: the three ways in which the
  services group order statuses.
-/

namespace NeoTrader

open Js

/-! ## Texts -/

/-- A piece of a message: literal text, or a number put into it. -/
inductive Seg
  | lit (s : String)
  | num (n : Number)
  deriving DecidableEq

/-- A message. -/
abbrev Text : Type := List Seg

/-- A thrown value: its class name, its message, and the code that database errors carry. -/
structure Err where
  name : String := "Error"
  code : Option String := none
  message : Text
  deriving DecidableEq

/-- `String(err)`. -/
def Err.toText (e : Err) : Text := .lit (e.name ++ ": ") :: e.message

/-- `new Error(message)`. -/
def err (message : Text) : Err := { message }

/-- A value of a result record. -/
inductive ResultVal
  | text (t : Text)
  | num (n : Number)
  | null
  deriving DecidableEq

/-- The record stored as `result_json`. -/
abbrev ResultJson : Type := List (String × ResultVal)

/-! ## Trade intents -/

inductive TradeAction
  | long | short | exit | hold
  deriving DecidableEq, Repr

def TradeAction.ofString? : String → Option TradeAction
  | "long" => some .long
  | "short" => some .short
  | "exit" => some .exit
  | "hold" => some .hold
  | _ => none

def TradeAction.toString : TradeAction → String
  | .long => "long"
  | .short => "short"
  | .exit => "exit"
  | .hold => "hold"

/-- An entry opens risk. -/
def TradeAction.isEntry (a : TradeAction) : Bool := a = .long ∨ a = .short

inductive IntentStatus
  | pending | duplicate | rejected | realPending | executed | failed | skipped
  deriving DecidableEq, Repr

def IntentStatus.toString : IntentStatus → String
  | .pending => "pending"
  | .duplicate => "duplicate"
  | .rejected => "rejected"
  | .realPending => "real_pending"
  | .executed => "executed"
  | .failed => "failed"
  | .skipped => "skipped"

/-- A decision of the model and what became of it. -/
structure TradeIntent where
  id : String
  cycleId : Option String
  symbol : String
  action : TradeAction
  confidence : ℚ
  rationale : String
  timeframe : String
  status : IntentStatus
  decidedAt : Option ℤ
  decidedBy : Option String
  rejectReason : Option Text
  fillPrice : Option ℚ
  quantity : Option ℚ
  realizedPnl : Option ℚ
  resultJson : Option ResultJson
  deriving DecidableEq

/-- What an update of an intent writes; absent fields stay. A decision stamps the time. -/
structure IntentPatch where
  status : IntentStatus
  decidedBy : Option String := none
  rejectReason : Option Text := none
  fillPrice : Option ℚ := none
  quantity : Option ℚ := none
  realizedPnl : Option (Option ℚ) := none
  resultJson : Option ResultJson := none
  deriving DecidableEq

/-- The updated row. -/
def IntentPatch.apply (d : IntentPatch) (now : ℤ) (t : TradeIntent) : TradeIntent :=
  { t with
    status := d.status
    decidedAt := if d.decidedBy.isSome then some now else t.decidedAt
    decidedBy := d.decidedBy <|> t.decidedBy
    rejectReason := d.rejectReason <|> t.rejectReason
    fillPrice := d.fillPrice <|> t.fillPrice
    quantity := d.quantity <|> t.quantity
    realizedPnl := d.realizedPnl.getD t.realizedPnl
    resultJson := d.resultJson <|> t.resultJson }

@[simp] theorem IntentPatch.apply_id (d : IntentPatch) (now : ℤ) (t : TradeIntent) :
    (d.apply now t).id = t.id := rfl

@[simp] theorem IntentPatch.apply_status (d : IntentPatch) (now : ℤ) (t : TradeIntent) :
    (d.apply now t).status = d.status := rfl

@[simp] theorem IntentPatch.apply_symbol (d : IntentPatch) (now : ℤ) (t : TradeIntent) :
    (d.apply now t).symbol = t.symbol := rfl

@[simp] theorem IntentPatch.apply_action (d : IntentPatch) (now : ℤ) (t : TradeIntent) :
    (d.apply now t).action = t.action := rfl

/-! ## Real orders -/

inductive Side
  | buy | sell
  deriving DecidableEq, Repr

def Side.toString : Side → String
  | .buy => "buy"
  | .sell => "sell"

/-- Every status that is ever written on an order row. -/
inductive OrderStatus
  | pendingSubmit | submitted | accepted | partiallyFilled
  | filled | canceled | rejected | expired | submitFailed | confirmedAbsent
  deriving DecidableEq, Repr

namespace OrderStatus

def toString : OrderStatus → String
  | pendingSubmit => "pending_submit"
  | submitted => "submitted"
  | accepted => "accepted"
  | partiallyFilled => "partially_filled"
  | filled => "filled"
  | canceled => "canceled"
  | rejected => "rejected"
  | expired => "expired"
  | submitFailed => "submit_failed"
  | confirmedAbsent => "confirmed_absent"

/-- The broker can do nothing more for the order (`TERMINAL_STATUSES` of the reconciliation). -/
def terminal (s : OrderStatus) : Bool := s ∈ [filled, canceled, rejected, expired]

/-- The order blocks another submission (`notIn: TERMINAL_STATUSES` of the order service, and the
partial unique index). -/
def active (s : OrderStatus) : Bool :=
  s ∉ [filled, canceled, rejected, expired, submitFailed, confirmedAbsent]

/-- The reconciliation polls the order (`OPEN_STATUSES`). -/
def isOpen (s : OrderStatus) : Bool := s ∈ [submitted, accepted, partiallyFilled]

/-- The recovery sweep asks for the order (`RECOVERABLE_STATUSES`). -/
def recoverable (s : OrderStatus) : Bool := s ∈ [pendingSubmit, submitFailed]

/-- Some later broker answer can still resolve the order. -/
def pollable (s : OrderStatus) : Bool := s.isOpen || s.recoverable

theorem pollable_of_active {s : OrderStatus} (h : s.active) : s.pollable := by
  revert h; cases s <;> decide

theorem not_pollable_of_terminal {s : OrderStatus} (h : s.terminal) : ¬ s.pollable := by
  revert h; cases s <;> decide

end OrderStatus

/-- Maps a raw broker status to an order status; what is not recognised stays pollable. -/
def normalizeBrokerStatus : String → OrderStatus
  | "new" | "pending_new" | "accepted" | "accepted_for_bidding" | "pending_replace" | "replaced"
  | "held" | "suspended" => .accepted
  | "partially_filled" => .partiallyFilled
  | "filled" => .filled
  | "canceled" | "pending_cancel" => .canceled
  | "rejected" => .rejected
  | "expired" | "done_for_day" => .expired
  | _ => .accepted

theorem normalizeBrokerStatus_mem (raw : String) : normalizeBrokerStatus raw ∈
    [OrderStatus.accepted, .partiallyFilled, .filled, .canceled, .rejected, .expired] := by
  unfold normalizeBrokerStatus
  split <;> decide

/-- An order sent to the broker for an intent. -/
structure RealOrder where
  id : String
  tradeIntentId : String
  brokerPluginId : String
  clientOrderId : String
  brokerOrderId : Option String
  symbol : String
  side : Side
  orderType : String
  requestedQty : ℚ
  limitPrice : Option ℚ
  status : OrderStatus
  filledQty : ℚ
  filledAvgPrice : Option ℚ
  submittedAt : Option ℤ
  filledAt : Option ℤ
  lastReconciledAt : Option ℤ
  error : Option Text
  deriving DecidableEq

structure OrderCreate where
  tradeIntentId : String
  brokerPluginId : String
  clientOrderId : String
  symbol : String
  side : Side
  orderType : String
  requestedQty : Number
  limitPrice : Option Number

/-- What an update of an order row writes; absent fields stay. -/
structure OrderPatch where
  status : Option OrderStatus := none
  brokerOrderId : Option (Option String) := none
  filledQty : Option Number := none
  filledAvgPrice : Option (Option Number) := none
  submitted : Bool := false
  filled : Bool := false
  reconciled : Bool := false
  error : Option Text := none

/-- The number stored in a float column; only finite numbers can be. -/
def column : Number → Option ℚ
  | .fin q => some q
  | _ => none

/-- The filled quantity after the update; `none` where it cannot be stored. -/
def OrderPatch.storedQty (d : OrderPatch) (r : RealOrder) : Option ℚ :=
  match d.filledQty with
  | none => some r.filledQty
  | some n => column n

/-- The average fill price after the update; `none` where it cannot be stored. -/
def OrderPatch.storedPrice (d : OrderPatch) (r : RealOrder) : Option (Option ℚ) :=
  match d.filledAvgPrice with
  | none => some r.filledAvgPrice
  | some none => some none
  | some (some n) => (column n).map some

/-- The updated row; `none` where a number cannot be stored. -/
def OrderPatch.apply (d : OrderPatch) (now : ℤ) (r : RealOrder) : Option RealOrder :=
  (d.storedQty r).bind fun filledQty => (d.storedPrice r).map fun filledAvgPrice => { r with
    status := d.status.getD r.status
    brokerOrderId := d.brokerOrderId.getD r.brokerOrderId
    filledQty
    filledAvgPrice
    submittedAt := if d.submitted then some now else r.submittedAt
    filledAt := if d.filled then some now else r.filledAt
    lastReconciledAt := if d.reconciled then some now else r.lastReconciledAt
    error := d.error <|> r.error }

/-! ## The real account, strategies, alerts -/

structure RealPosition where
  symbol : String
  brokerPluginId : String
  qty : ℚ
  avgEntry : ℚ
  marketValue : ℚ
  unrealizedPnl : ℚ
  side : String
  deriving DecidableEq

structure RealNavSnapshot where
  ts : ℤ
  brokerPluginId : String
  equity : ℚ
  cash : ℚ
  buyingPower : ℚ
  totalPnl : ℚ
  hwm : ℚ
  source : String
  deriving DecidableEq

structure StrategyRow where
  id : String
  walkForwardVerdict : Option String
  walkForwardCheckedAt : Option ℤ
  deriving DecidableEq

structure AlertEntry where
  type : String
  severity : String
  symbol : Option String
  message : Text
  deriving DecidableEq

end NeoTrader
