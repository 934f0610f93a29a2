import NeoTrader.Js.Number

/-!
# Values that a response body can carry

* `Json`, its fields (`Json.field`, `Json.withField`) and its conversion to a number (`Json.toNumber`, `Number(v)`);
* `Json.stringLiteral`: `JSON.parse` of a text that is a string literal.
-/

namespace Js

/-- A parsed JSON text. -/
inductive Json
  | null
  | bool (b : Bool)
  | num (n : Number)
  | str (s : String)
  | arr (l : List Json)
  | obj (fields : List (String × Json))
  deriving Inhabited

namespace Json

/-- `v[key]` of a value that is not `null`; `none` is `undefined`. Of equal keys the last counts. -/
def field (v : Json) (key : String) : Option Json :=
  match v with
  | .obj fields => (fields.reverse.find? fun f => f.1 = key).map Prod.snd
  | _ => none

@[simp] theorem field_null (key : String) : Json.null.field key = none := rfl

/-- `{ ...fields, [key]: v }`: a field that exists keeps its place. -/
def withField (fields : List (String × Json)) (key : String) (v : Json) : List (String × Json) :=
  if fields.any fun f => f.1 = key then fields.map fun f => if f.1 = key then (key, v) else f
  else fields ++ [(key, v)]

/-- `v ?? 0`, as a number: an absent value or `null` counts as zero. -/
def orZero : Option Json → Json
  | none | some .null => .num 0
  | some v => v

/-- `Number(v)`. An array is read through its text, so that only an array of at most one element
can be a number. -/
def toNumber : Json → Number
  | .null => 0
  | .bool b => if b then 1 else 0
  | .num n => n
  | .str s => Number.ofString s
  | .arr [] => 0
  | .arr [.null] => 0
  | .arr [.num n] => n
  | .arr [.str s] => Number.ofString s
  | .arr [.arr l] => toNumber (.arr l)
  | .arr _ => .nan
  | .obj _ => .nan

/-- `Number(v)` of a value that may be `undefined`. -/
def toNumber? : Option Json → Number
  | none => .nan
  | some v => v.toNumber

/-- The text of a string value. -/
def asString? : Option Json → Option String
  | some (.str s) => some s
  | _ => none

/-- `!!v`: whether a value is truthy. -/
def truthy : Option Json → Bool
  | none | some .null => false
  | some (.bool b) => b
  | some (.num n) => n ≠ 0 && n ≠ .nan
  | some (.str s) => s ≠ ""
  | some (.arr _) | some (.obj _) => true

/-! ## String literals -/

/-- White space of the JSON grammar. -/
def isSpace (c : Char) : Bool := c = ' ' ∨ c = '\t' ∨ c = '\n' ∨ c = '\r'

/-- Four hexadecimal digits. -/
def hex4 (a b c d : Char) : Option ℕ :=
  match Number.digits 16 [a, b, c, d] 0 0 with
  | (v, 4, _) => some v
  | _ => none

/-- The character of a code unit; a lone surrogate becomes the replacement character. -/
def ofUnit (u : ℕ) : Char := if 0xd800 ≤ u ∧ u < 0xe000 then '\uFFFD' else Char.ofNat u

/-- The character of one escape letter. -/
def escape : Char → Option Char
  | '"' => some '"'
  | '\\' => some '\\'
  | '/' => some '/'
  | 'b' => some '\x08'
  | 'f' => some '\x0c'
  | 'n' => some '\n'
  | 'r' => some '\r'
  | 't' => some '\t'
  | _ => none

/-- The characters and `\\u` code units of a string literal after its opening quote, last first,
and what follows its closing quote. -/
def literalUnits : List Char → List (Char ⊕ ℕ) → Option (List (Char ⊕ ℕ) × List Char)
  | [], _ => none
  | '"' :: s, acc => some (acc, s)
  | '\\' :: 'u' :: a :: b :: c :: d :: s, acc =>
    match hex4 a b c d with
    | some u => literalUnits s (.inr u :: acc)
    | none => none
  | '\\' :: e :: s, acc =>
    match escape e with
    | some c => literalUnits s (.inl c :: acc)
    | none => none
  | c :: s, acc => if c = '\\' ∨ c.toNat < 32 then none else literalUnits s (.inl c :: acc)

/-- The code unit starts a surrogate pair. -/
def isHigh (u : ℕ) : Bool := 0xd800 ≤ u && u < 0xdc00

/-- The code unit ends a surrogate pair. -/
def isLow (u : ℕ) : Bool := 0xdc00 ≤ u && u < 0xe000

/-- Code units to characters; the first argument is a pending high surrogate. -/
def joinUnits : Option ℕ → List (Char ⊕ ℕ) → List Char
  | none, [] => []
  | some u, [] => [ofUnit u]
  | none, .inl c :: l => c :: joinUnits none l
  | some u, .inl c :: l => ofUnit u :: c :: joinUnits none l
  | none, .inr v :: l => if isHigh v then joinUnits (some v) l else ofUnit v :: joinUnits none l
  | some u, .inr v :: l =>
    if isLow v then
      Char.ofNat (0x10000 + (u - 0xd800) * 1024 + (v - 0xdc00)) :: joinUnits none l
    else if isHigh v then ofUnit u :: joinUnits (some v) l
    else ofUnit u :: ofUnit v :: joinUnits none l

/-- `JSON.parse(s)` where that is a string. -/
def stringLiteral (s : String) : Option String :=
  match s.toList.dropWhile isSpace with
  | '"' :: s =>
    match literalUnits s [] with
    | some (t, rest) =>
      if rest.all isSpace then some (String.ofList (joinUnits none t.reverse)) else none
    | none => none
  | _ => none

example : stringLiteral " \"true\" " = some "true" := by decide
example : stringLiteral "300" = none := by decide

end Json

end Js
