import NeoTrader.Trade.Reconciliation

/-!
# Adoption of broker positions

A position that no order of the platform explains is taken into the ledger: one transaction writes an
executed intent and a filled order of the size of the position.

* `Adoption`, `World.adopt`: the transaction;
* `ReconOp`, `reconSig`, `reconSem`: the operations of the trade services, and this transaction;
* **`adoptBrokerPosition`**; `ReconCall`: a sync of the portfolio or an adoption.
-/

namespace NeoTrader

open Js Await

/-! ## The transaction -/

/-- What an adoption writes on the two rows. -/
structure Adoption where
  symbol : String
  action : TradeAction
  rationale : String
  brokerPluginId : String
  clientOrderId : String
  side : Side
  qty : Number
  avgEntry : Number
  adoptedAt : ℤ

def Adoption.intent (d : Adoption) (id : String) (qty price : ℚ) : TradeIntent :=
  { id, cycleId := none, symbol := d.symbol, action := d.action, confidence := 1
    rationale := d.rationale, timeframe := "1d", status := .executed, decidedAt := none
    decidedBy := none, rejectReason := none, fillPrice := some price, quantity := some qty
    realizedPnl := none, resultJson := none }

/-- The order that explains the position. -/
def Adoption.order (d : Adoption) (id : String) (qty price : ℚ) : RealOrder :=
  { id, tradeIntentId := id, brokerPluginId := d.brokerPluginId, clientOrderId := d.clientOrderId
    brokerOrderId := none, symbol := d.symbol, side := d.side, orderType := "market"
    requestedQty := qty, limitPrice := none, status := .filled, filledQty := qty
    filledAvgPrice := some price, submittedAt := some d.adoptedAt, filledAt := some d.adoptedAt
    lastReconciledAt := some d.adoptedAt, error := none }

/-- The transaction of an adoption; it draws the ids of both rows. -/
def World.adopt (w : World) (id : String) (d : Adoption) : Except Err (RealOrder × World) :=
  match column d.qty, column d.avgEntry with
  | some qty, some price =>
    if (w.intent? id).isSome then .error uniqueViolation
    else if w.orders.any fun r => r.id = id ∨ r.clientOrderId = d.clientOrderId then
      .error uniqueViolation
    else .ok (d.order id qty price, { w with
      intents := w.intents ++ [d.intent id qty price]
      orders := w.orders ++ [d.order id qty price] })
  | _, _ => .error invalidValue

/-! ## The operations of the reconciliation -/

/-- The operations of the trade services, and the transaction of an adoption. -/
inductive ReconOp
  | trade (op : TradeOp)
  | adoptTransaction (d : Adoption)

def ReconOp.Ans : ReconOp → Type
  | trade op => op.Ans
  | adoptTransaction _ => RealOrder

def reconSig : Sig := ⟨ReconOp, ReconOp.Ans, Err⟩

abbrev Recon (α : Type) : Type := Prog reconSig α

/-- The trade services inside the reconciliation. -/
def reconEmb : Emb tradeSig reconSig where
  op := ReconOp.trade
  back := fun _ r => r
  err := fun e => e

def handleRecon (o : Oracle) : (op : ReconOp) → World → Except Err op.Ans × World
  | .trade op, w => handle o op w
  | .adoptTransaction d, w => db o w (w.adopt o.newId d)

/-- The semantics of the reconciliation, where the oracles satisfy `A`. -/
def reconSem (A : Oracle → Prop) : Sem reconSig World :=
  Sem.ofHandler (S := reconSig) handleRecon fun o _ _ => A o

/-! ## Adoption -/

/-- What the adoption of a reported position writes. A short position is a sale of its size. -/
def Position.adoption (pos : Position) (symbol brokerPluginId uuid : String) (note : Option String)
    (now : ℤ) : Adoption :=
  { symbol, brokerPluginId, adoptedAt := now
    action := if pos.side = "short" then .short else .long
    side := if pos.side = "short" then .sell else .buy
    rationale := "Adopted pre-existing broker position (" ++ symbol ++ ")" ++
      (match note.filter (· ≠ "") with | some note => ": " ++ note | none => "")
    clientOrderId := "adopted-" ++ uuid
    qty := pos.qty.abs, avgEntry := pos.avgEntry }

/-- **Adopts a reported position**, and syncs the portfolio again. A symbol that the broker does not
report is refused without a write. -/
def adoptBrokerPosition (symbol brokerPluginId : String) (note : Option String) :
    Recon (RealOrder × List (Option String)) := do
  let portfolio ← (getPortfolio brokerPluginId).embed reconEmb
  match portfolio.position? symbol with
  | none => .throw (err [.lit ("adoptBrokerPosition: broker=" ++ brokerPluginId ++
      " does not currently report a position for symbol=" ++ symbol ++
      " — refusing to fabricate a position (nothing written)")])
  | some pos =>
    let now ← (await .now).embed reconEmb
    let uuid ← (await .randomUUID).embed reconEmb
    let adopted ← Prog.perform (S := reconSig)
      (.adoptTransaction (pos.adoption symbol brokerPluginId uuid note now))
    let driftedSymbols ← (syncPortfolio brokerPluginId "poll").embed reconEmb
    return (adopted, driftedSymbols)

/-- A call that takes broker truth into the tables. -/
inductive ReconCall
  | sync (brokerPluginId source : String)
  | adopt (symbol brokerPluginId : String) (note : Option String)

def ReconCall.body : ReconCall → Recon Unit
  | sync brokerPluginId source => ((syncPortfolio brokerPluginId source).embed reconEmb).discard
  | adopt symbol brokerPluginId note => (adoptBrokerPosition symbol brokerPluginId note).discard

def ReconCall.adopts (brokerPluginId : String) : ReconCall → Option String
  | sync _ _ => none
  | adopt symbol broker _ => if broker = brokerPluginId then some symbol else none

end NeoTrader
