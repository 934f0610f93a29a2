import NeoTrader.Disciplines.RiskManager

/-!
# The circuit breaker over a run

Equity points are replayed through the layer of the drawdown, with the state of the circuit and the
worst drawdown carried along. The lock remembers the worst drawdown since the breaker tripped.

* **`graduated_run`**: the runs in which every step does.
-/

namespace NeoTrader

open Js Py

namespace Drawdown

/-! ## The layer -/

def stateName : CircuitLevel → String
  | .normal => "normal"
  | .warning => "warning"
  | .danger => "danger"
  | .breaker => "breaker"
  | .daily => "daily"

/-- The equity that the loss of the day is measured from. -/
def openOf (equityHistory : List ℚ) (equityOpenToday : ℚ) : ℚ :=
  if 0 < equityOpenToday then equityOpenToday else equityHistory.headD 0

/-- A point of the equity, with the equity at the open. -/
structure Point where
  equity : ℚ
  openToday : ℚ

/-- What is carried from point to point: the history, the state of the circuit with the worst
drawdown in it, and the worst drawdown since the trip, until it has recovered. -/
structure Replay where
  history : List ℚ
  circuit : CircuitLevel
  worst : ℚ
  lock : Option ℚ

section Run

variable (config : Obj) (cfg : DrawdownConfig)

namespace Replay

def historyAt (s : Replay) (p : Point) : List ℚ := s.history ++ [p.equity]

def drawdownAt (s : Replay) (p : Point) : ℚ := drawdownOf (s.historyAt p)

/-- What the circuit breaker says at a point. -/
def statusAt (s : Replay) (p : Point) : CircuitStatus :=
  if flagField config "enable_drawdown_breaker" true then
    evaluateCircuit (s.historyAt p) (openOf (s.historyAt p) p.openToday) cfg (stateName s.circuit)
      s.worst
  else ⟨.normal, 1, true, none⟩

def lockAfter (s : Replay) (p : Point) : Option ℚ :=
  match s.lock with
  | none => if (s.statusAt config cfg p).state = .breaker then some (s.drawdownAt p) else none
  | some w =>
    if (s.statusAt config cfg p).state ≠ .breaker ∧
        cfg.recovery ≤ max w (s.drawdownAt p) - s.drawdownAt p then none
    else some (max w (s.drawdownAt p))

/-- What is carried on from a point. -/
def advance (s : Replay) (p : Point) : Replay where
  history := s.historyAt p
  circuit := (s.statusAt config cfg p).state
  worst :=
    if (s.statusAt config cfg p).state = s.circuit then max s.worst (s.drawdownAt p)
    else s.drawdownAt p
  lock := s.lockAfter config cfg p

end Replay

/-- A point, and the signals that are pending at it. -/
abbrev Tick : Type := Point × List Obj

variable {config cfg} {s : Replay} {p : Point}

end Run

/-! ## At a trip -/

end Drawdown

end NeoTrader
