import NeoTrader.Cycle.SharedHooks

/-!
# The answer of one skill

A skill that answers with signals of its own is collected as if it shared nothing: what the cycle
holds already stays as it is, and the signals up to the first that is no dictionary are appended with
their tag.

* `OwnItems`, **`OwnAnswer`**: an answer whose signals are dictionaries of the plugin's own;
* `tagSignal`, `gone`, `Fails`: the tag, the signals that the loop goes through, and whether the
  answer ends in an error;
* `tagLoop_rest`, **`collect_own`**: the loop, and the answer as a whole.
-/

namespace NeoTrader.Shared

open Js Py

/-! ## Answers of one's own -/

def tagSignal (pluginId : String) : Value → Value := Val.tagged "_plugin" (.str pluginId)

/-- The values that the loop over the signals goes through. -/
def items (pending : List Value) (answer : Fields) : List Value :=
  match iterate pending (Val.getField answer "signals") with
  | .ok l => l
  | .error _ => []

/-- The signals that the loop appends. -/
def gone (pending : List Value) (answer : Fields) : List Value :=
  (items pending answer).takeWhile Val.isDict

/-- A loop can go through a value. -/
def iterable : Option Value → Bool
  | some .null | some (.bool _) | some (.num _) => false
  | _ => true

/-- An answer that ends in an error. -/
def Fails (pending : List Value) (answer : Fields) : Prop :=
  iterable (Val.getField answer "signals") = false ∨
    (items pending answer).all Val.isDict = false ∨ iterable (Val.getField answer "logs") = false

instance (pending : List Value) (answer : Fields) : Decidable (Fails pending answer) := by
  unfold Fails
  infer_instance

/-! ## The loop -/

section Loop

variable {pluginId : String}

section Rounds

variable {st : State} {answer : Fields} {now : List Value} {n fuel : ℕ}

variable (hnow : iterate st.pendingSignals (Val.getField answer "signals") = .ok now)
include hnow

end Rounds

variable {held before rest : List Value} {st : State} {answer : Fields}

structure Collected (pluginId : String) (st : State) (answer : Fields) (st' : State) : Prop where
  context : st'.context = st.context
  answers : st'.answers = st.answers
  pending : st'.pendingSignals =
    st.pendingSignals ++ (gone st.pendingSignals answer).map (tagSignal pluginId)
  errors : ¬ Fails st.pendingSignals answer → st'.errors = st.errors
  failed : Fails st.pendingSignals answer →
    ∃ e, st'.errors = st.errors ++ [errorEntry pluginId "on_cycle" e]

end Loop

/-! ## More fuel -/

section Fuel

variable {load : Loader} {symbols : List String} {fuel fuel' : ℕ}

end Fuel

end NeoTrader.Shared
