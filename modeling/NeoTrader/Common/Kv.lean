import NeoTrader.Js.Json

/-!
# Key-value settings

Settings are stored raw or as JSON string literals; both spellings read the same.

* `unwrapKv`, `kvStr`, `kvBool`, `kvNum`.
-/

namespace NeoTrader

open Js

/-- Unwraps a JSON-encoded string; anything else stays as it is. -/
def unwrapKv (v : String) : String := (Json.stringLiteral v).getD v

/-- A string setting. -/
def kvStr (v : Option String) : Option String := v.map unwrapKv

/-- A boolean setting: only `true` and `false` count. -/
def kvBool (v : Option String) (fallback : Bool) : Bool :=
  match v with
  | none => fallback
  | some v =>
    let s := unwrapKv v
    if s = "true" then true else if s = "false" then false else fallback

/-- A number setting; a missing or non-finite one is the fallback. -/
def kvNum (v : Option String) (fallback : ℚ) : ℚ :=
  match v with
  | none => fallback
  | some v =>
    match Number.ofString (unwrapKv v) with
    | .fin q => q
    | _ => fallback

@[simp] theorem kvBool_none (b : Bool) : kvBool none b = b := rfl
@[simp] theorem kvNum_none (q : ℚ) : kvNum none q = q := rfl

example : kvBool (some "\"true\"") false = true := by decide
example : kvNum (some "\"300\"") 1 = 300 := by decide +kernel

end NeoTrader
