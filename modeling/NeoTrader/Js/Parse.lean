import NeoTrader.Js.Json

/-!
# `JSON.parse` and `JSON.stringify`

* `Json.parse`: the value of a JSON text;
* `Json.quote`, `Json.stringify`: the JSON texts of strings and values.
-/

namespace Js

namespace Json

/-! ## Numerals -/

/-- The digits at the front of a text. -/
def digitsPrefix (s : List Char) : List Char × List Char := s.span Char.isDigit

/-- The integral part of a numeral: no leading zero. -/
def integralPart : List Char → Option (List Char × List Char)
  | '0' :: s => some (['0'], s)
  | c :: s => if c.isDigit then some (digitsPrefix (c :: s)) else none
  | [] => none

def fractionalPart : List Char → Option (List Char × List Char)
  | '.' :: s =>
    match digitsPrefix s with
    | ([], _) => none
    | (ds, s) => some ('.' :: ds, s)
  | s => some ([], s)

/-- The exponent of a numeral, if there is one. -/
def exponentPart : List Char → Option (List Char × List Char)
  | c :: s =>
    if c = 'e' ∨ c = 'E' then
      let (sign, s) := match s with
        | '-' :: s => (['-'], s)
        | '+' :: s => (['+'], s)
        | s => ([], s)
      match digitsPrefix s with
      | ([], _) => none
      | (ds, s) => some (c :: (sign ++ ds), s)
    else some ([], c :: s)
  | [] => some ([], [])

/-- A numeral without a sign, and what follows it. -/
def unsignedNumeral (s : List Char) : Option (Number × List Char) := do
  let (whole, s) ← integralPart s
  let (fraction, s) ← fractionalPart s
  let (exponent, s) ← exponentPart s
  return (Number.ofUnsignedDecimal (whole ++ fraction ++ exponent), s)

def numeral : List Char → Option (Number × List Char)
  | '-' :: s => (unsignedNumeral s).map fun (n, s) => (n.neg, s)
  | s => unsignedNumeral s

/-! ## Values -/

/-- A string after its opening quote, and what follows it. -/
def string (s : List Char) : Option (String × List Char) :=
  (literalUnits s []).map fun (units, s) => (String.ofList (joinUnits none units.reverse), s)

mutual

/-- A value, and what follows it. The fuel bounds the number of calls: two for each character are
enough. -/
def value : ℕ → List Char → Option (Json × List Char)
  | 0, _ => none
  | n + 1, s =>
    match s.dropWhile isSpace with
    | 'n' :: 'u' :: 'l' :: 'l' :: s => some (.null, s)
    | 't' :: 'r' :: 'u' :: 'e' :: s => some (.bool true, s)
    | 'f' :: 'a' :: 'l' :: 's' :: 'e' :: s => some (.bool false, s)
    | '"' :: s => (string s).map fun (t, s) => (.str t, s)
    | '[' :: s =>
      match s.dropWhile isSpace with
      | ']' :: s => some (.arr [], s)
      | s => elements n s []
    | '{' :: s =>
      match s.dropWhile isSpace with
      | '}' :: s => some (.obj [], s)
      | s => members n s []
    | s => (numeral s).map fun (x, s) => (.num x, s)

/-- The elements of an array, after those before them. -/
def elements : ℕ → List Char → List Json → Option (Json × List Char)
  | 0, _, _ => none
  | n + 1, s, acc =>
    match value n s with
    | none => none
    | some (v, s) =>
      match s.dropWhile isSpace with
      | ',' :: s => elements n s (acc ++ [v])
      | ']' :: s => some (.arr (acc ++ [v]), s)
      | _ => none

/-- The fields of an object, after those before them; of equal keys the last counts. -/
def members : ℕ → List Char → List (String × Json) → Option (Json × List Char)
  | 0, _, _ => none
  | n + 1, s, acc =>
    match s.dropWhile isSpace with
    | '"' :: s =>
      match string s with
      | none => none
      | some (key, s) =>
        match s.dropWhile isSpace with
        | ':' :: s =>
          match value n s with
          | none => none
          | some (v, s) =>
            match s.dropWhile isSpace with
            | ',' :: s => members n s (withField acc key v)
            | '}' :: s => some (.obj (withField acc key v), s)
            | _ => none
        | _ => none
    | _ => none

end

/-- `JSON.parse(s)`. -/
def parse (s : String) : Option Json :=
  match value (2 * s.toList.length + 2) s.toList with
  | some (v, rest) => if rest.all isSpace then some v else none
  | none => none

example : (parse " \x7b\"a\": [1, -2e1, true]\x7d ").bind (fun v => v.field "a" >>= fun a => some a.toNumber)
    = some .nan := by decide +kernel
example : (parse "[01]").isNone := by decide +kernel
example : (parse "[1,]").isNone := by decide +kernel

/-! ## Texts of strings -/

/-- Four hexadecimal digits. -/
def hexText (n : ℕ) : List Char :=
  let ds := Nat.toDigits 16 n
  List.replicate (4 - ds.length) '0' ++ ds

/-- A character inside a string literal. -/
def quoteChar (c : Char) : List Char :=
  if c = '"' then ['\\', '"']
  else if c = '\\' then ['\\', '\\']
  else if c = '\x08' then ['\\', 'b']
  else if c = '\x0c' then ['\\', 'f']
  else if c = '\n' then ['\\', 'n']
  else if c = '\r' then ['\\', 'r']
  else if c = '\t' then ['\\', 't']
  else if c.toNat < 32 then '\\' :: 'u' :: hexText c.toNat
  else [c]

/-- `JSON.stringify(s)` of a string. -/
def quote (s : String) : String := String.ofList ('"' :: s.toList.flatMap quoteChar ++ ['"'])

/-! ## Texts of values -/

mutual

/-- `JSON.stringify(v)`. The argument is the text of a finite number. -/
def stringify (numeral : Number → String) : Json → String
  | null => "null"
  | bool b => if b then "true" else "false"
  | num (.fin q) => numeral (.fin q)
  | num _ => "null"
  | str s => quote s
  | arr l => "[" ++ ",".intercalate (elementTexts numeral l) ++ "]"
  | obj fields => "\x7b" ++ ",".intercalate (memberTexts numeral fields) ++ "\x7d"

def elementTexts (numeral : Number → String) : List Json → List String
  | [] => []
  | v :: l => stringify numeral v :: elementTexts numeral l

/-- The texts of the fields of an object. -/
def memberTexts (numeral : Number → String) : List (String × Json) → List String
  | [] => []
  | (key, v) :: l => (quote key ++ ":" ++ stringify numeral v) :: memberTexts numeral l

end

example : stringify (fun _ => "0") (.obj [("kind", .str "like"), ("l", .arr [.num 0, .null])]) =
    "\x7b\"kind\":\"like\",\"l\":[0,null]\x7d" := by decide +kernel

/-! ## Slices -/

/-- The code units of a text; those above the basic plane are surrogates. -/
def units (s : List Char) : List (Char ⊕ ℕ) :=
  s.flatMap fun c =>
    if c.toNat < 0x10000 then [.inl c]
    else [.inr (0xd800 + (c.toNat - 0x10000) / 1024), .inr (0xdc00 + (c.toNat - 0x10000) % 1024)]

/-- The last elements of a list. -/
def takeLast {α : Type} (n : ℕ) (l : List α) : List α := l.drop (l.length - n)

/-- `v.slice(-n)` of an array or of a string; `n` is positive. -/
def sliceLast (n : ℕ) : Json → Option Json
  | .arr l => some (.arr (takeLast n l))
  | .str s => some (.str (String.ofList (joinUnits none (takeLast n (units s.toList)))))
  | _ => none

end Json

end Js
