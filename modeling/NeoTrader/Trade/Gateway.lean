import NeoTrader.Trade.Db

/-!
# The broker portfolio, as the provider gateway reads it

* `resolveManifest`, `normalizePortfolio`, **`getPortfolio`**: two requests, account and positions,
  and the portfolio that their bodies are normalised to.
-/

namespace NeoTrader

open Js Await

/-- The manifest of a provider; no id asks for the default provider. -/
def resolveManifest (pluginId : String) : Trade ProviderManifest := do
  if pluginId = "" then
    match ← await .providerDefault with
    | some m => return m
    | none => .throw (err [.lit "Sin provider activo con credenciales configuradas"])
  else
    match ← await (.providerGet pluginId) with
    | some m => return m
    | none => .throw (err [.lit s!"Provider \"{pluginId}\" no encontrado o inactivo"])

def ProviderManifest.declares (m : ProviderManifest) (endpoint : String) : Bool :=
  endpoint ∈ m.endpoints

/-- `null.property`. -/
def nullPropertyError : Err :=
  { name := "TypeError", message := [.lit "Cannot read properties of null"] }

/-- One reported position; reading a property of `null` throws. -/
def normalizePosition (p : Json) : Except Err Position :=
  match p with
  | .null => .error nullPropertyError
  | p => .ok
    { symbol := Json.asString? (p.field "symbol")
      qty := Json.toNumber? (p.field "qty")
      avgEntry := Json.toNumber? (p.field "avg_entry_price")
      marketValue := Json.toNumber? (p.field "market_value")
      unrealizedPnl := Json.toNumber? (p.field "unrealized_pl")
      side := if Json.asString? (p.field "side") = some "short" then "short" else "long" }

/-- The array of positions of a body; anything else counts as no position. -/
def positionRows : Json → List Json
  | .arr rows => rows
  | _ => []

/-- **The portfolio of two bodies.** Only the `alpaca` format is read; every other one gives an
empty portfolio. -/
def normalizePortfolio (account positionsRaw : Json) (format providerId : String) :
    Except Err Portfolio :=
  let amount (key : String) : Number :=
    if format = "alpaca" then (Json.orZero (account.field key)).toNumber else 0
  (if format = "alpaca" then (positionRows positionsRaw).mapM normalizePosition else .ok []).map
    fun positions =>
      { providerId
        equity := amount "equity", cash := amount "cash", buyingPower := amount "buying_power"
        positions
        totalMarketValue := positions.foldl (fun s p => s.add p.marketValue) 0
        totalPnl := positions.foldl (fun s p => s.add p.unrealizedPnl) 0 }

/-- A declared request whose failure is swallowed: the body, or a default. -/
def requestOr (m : ProviderManifest) (endpoint : String) (default : Json) : Trade Json :=
  if m.declares endpoint then do
    match ← (await (.request m.id endpoint)).attempt with
    | .ok body => return body
    | .error _ => return default
  else return default

/-- The portfolio of a provider that declares no portfolio endpoint. -/
def emptyPortfolio (providerId : String) : Portfolio :=
  { providerId, equity := 0, cash := 0, buyingPower := 0, positions := []
    totalMarketValue := 0, totalPnl := 0 }

/-- **Equity, cash, buying power and open positions of the broker.** -/
def getPortfolio (pluginId : String) : Trade Portfolio := do
  let m ← resolveManifest pluginId
  if ¬ m.declares "portfolio" ∧ ¬ m.declares "positions" then return emptyPortfolio m.id
  else
    let account ← requestOr m "portfolio" .null
    let positionsRaw ← requestOr m "positions" (.arr [])
    Prog.ofOutcome (normalizePortfolio account positionsRaw m.format m.id)

/-- The reported position of a symbol. -/
def Portfolio.position? (p : Portfolio) (symbol : String) : Option Position :=
  p.positions.find? fun pos => pos.symbol = some symbol

/-- The broker holds something of the symbol. -/
def Portfolio.holds (p : Portfolio) (symbol : String) : Bool :=
  (p.position? symbol).any fun pos => pos.qty.abs.gt 0

end NeoTrader
