import Mathlib.Data.List.Nodup
import NeoTrader.Catalogue.Manifest
import NeoTrader.Js.Trim

/-!
# Presets in the store

A strategy is published as a manifest in TOML, whose texts are escaped by hand, under an id that is
made of its name.

* **`preset_round_trip`**, **`preset_accepted`**: the manifest of a clean strategy reads back, and
  the store accepts it.
-/

namespace NeoTrader.Catalogue

open Js

/-! ## The manifest -/

/-- A named bundle of settings. -/
structure StrategyDto where
  name : String
  description : Option String
  config : List (String × String)
  nodup : (config.map Prod.fst).Nodup

/-- `s.replace(c, by)`, everywhere. -/
def replaceChar (c : Char) (repl : List Char) (s : List Char) : List Char :=
  s.flatMap fun x => if x = c then repl else [x]

/-- A basic string: backslashes, quotes and line breaks are escaped, in this order. -/
def tomlStr (v : String) : List Char :=
  '"' :: replaceChar '\n' ['\\', 'n'] (replaceChar '"' ['\\', '"']
    (replaceChar '\\' ['\\', '\\'] v.toList)) ++ ['"']

/-- A letter or a digit of an id. -/
def isKebabChar (c : Char) : Bool := c.isLower || c.isDigit

/-- Whether a mark is a diacritic, U+0300 to U+036F. -/
def isDiacritic (c : Char) : Bool := 0x300 ≤ c.toNat ∧ c.toNat ≤ 0x36f

/-- One character: what is there, and whether it ends in a dash. -/
def kebabStep (st : List Char × Bool) (ch : Char) : List Char × Bool :=
  if isKebabChar ch then (st.1 ++ [ch], false)
  else if st.1 ≠ [] ∧ st.2 = false then (st.1 ++ ['-'], true)
  else st

section Manifest

-- `s.toLowerCase().normalize('NFD')`
variable (decompose : String → List Char)

/-- The id that is made of a name. -/
def kebabId (name : String) : String :=
  let ascii := (decompose name).filter fun c => !isDiacritic c
  let out := (ascii.foldl kebabStep ([], false)).1
  let out := if out.getLast? = some '-' then out.dropLast else out
  if out = [] then "estrategia" else String.ofList out

/-- `key = value`. -/
def tomlLine (key : List Char) (value : String) : List Char :=
  key ++ [' ', '=', ' '] ++ tomlStr value

/-- The description, or one that is made of the name. -/
def StrategyDto.about (s : StrategyDto) : String :=
  s.description.getD ("Preset de estrategia: " ++ s.name)

def presetLines (s : StrategyDto) : List (List Char) :=
  ["[plugin]".toList, tomlLine "id".toList (kebabId decompose s.name),
    tomlLine "name".toList s.name, "type = \"preset\"".toList, "version = \"1.0.0\"".toList,
    "author = \"OpenNeoTrader\"".toList, tomlLine "description".toList s.about, [],
    "[preset.config]".toList] ++
  s.config.map (fun e => tomlLine (tomlStr e.1) e.2) ++ [[]]

/-- **The manifest of a strategy.** -/
def buildPresetManifest (s : StrategyDto) : String :=
  String.ofList (['\n'].intercalate (presetLines decompose s))

end Manifest

/-! ## Documents of tables and strings -/

/-- A character that a basic string must not hold raw. -/
def isControl (c : Char) : Bool := (c.toNat < 0x20 ∧ c ≠ '\t') ∨ c.toNat = 0x7f

/-- What a short escape stands for. -/
def tomlEscape : Char → Option Char
  | 'b' => some '\x08'
  | 't' => some '\t'
  | 'n' => some '\n'
  | 'f' => some '\x0c'
  | 'r' => some '\r'
  | '"' => some '"'
  | '\\' => some '\\'
  | _ => none

/-- A basic string after its opening quote, and what is after it. -/
def readBasic : List Char → Option (List Char × List Char)
  | [] => none
  | '"' :: rest => some ([], rest)
  | '\\' :: e :: rest =>
    (tomlEscape e).bind fun c => (readBasic rest).map fun p => (c :: p.1, p.2)
  | c :: rest => if isControl c then none else (readBasic rest).map fun p => (c :: p.1, p.2)

/-- A character of a bare key. -/
def isBare (c : Char) : Bool := c.isAlphanum || c == '_' || c == '-'

/-- White space inside a line. -/
def isBlank (c : Char) : Bool := c == ' ' || c == '\t'

inductive DocLine
  | blank
  | header (path : List (List Char))
  | entry (key value : List Char)

/-- A key, bare or quoted. -/
def readKey : List Char → Option (List Char × List Char)
  | '"' :: rest => readBasic rest
  | s => if s.takeWhile isBare = [] then none else some (s.takeWhile isBare, s.dropWhile isBare)

/-- The value after a key. -/
def readValue (s : List Char) : Option (List Char) :=
  match s.dropWhile isBlank with
  | '=' :: rest =>
    match rest.dropWhile isBlank with
    | '"' :: rest => (readBasic rest).bind fun p => if p.2.all isBlank then some p.1 else none
    | _ => none
  | _ => none

/-- The path of a header, without its opening bracket. -/
def readHeader (s : List Char) : Option (List (List Char)) :=
  if s.getLast? = some ']' ∧ (s.dropLast.splitOn '.').all fun k => !k.isEmpty && k.all isBare then
    some (s.dropLast.splitOn '.')
  else none

def readLine : List Char → Option DocLine
  | [] => some .blank
  | '[' :: rest => (readHeader rest).map .header
  | s => (readKey s).bind fun p => (readValue p.2).map (.entry p.1)

/-- The entries before the first header, and those under each header. -/
def gather : List DocLine → List (List Char × List Char) ×
    List (List (List Char) × List (List Char × List Char))
  | [] => ([], [])
  | .blank :: l => gather l
  | .entry k v :: l => ((k, v) :: (gather l).1, (gather l).2)
  | .header path :: l => ([], (path, (gather l).1) :: (gather l).2)

def stringTable (fields : List (List Char × List Char)) : Toml :=
  .table (fields.map fun f => (String.ofList f.1, .str (String.ofList f.2)))

/-- The table of a header, nested in those above it. -/
def nested : List (List Char) → Toml → Option (String × Toml)
  | [], _ => none
  | [k], v => some (String.ofList k, v)
  | k :: path, v => (nested path v).map fun f => (String.ofList k, .table [f])

/-- **A document** of strings in tables with different first keys; no key is given twice. -/
def readToml (text : String) : Option Toml := do
  let lines ← (text.toList.splitOn '\n').mapM readLine
  let (top, tables) := gather lines
  let tables ← tables.mapM fun t =>
    if (t.2.map Prod.fst).Nodup then nested t.1 (stringTable t.2) else none
  if top = [] ∧ (tables.map Prod.fst).Nodup then some (.table tables) else none

/-! ## The id -/

/-- The parts of a text between dashes are words of letters and digits. -/
def KebabText (w : List Char) : Prop := ∀ p ∈ w.splitOn '-', p ≠ [] ∧ ∀ c ∈ p, isKebabChar c = true

/-- A text that a word can follow. -/
def Starts (u : List Char) : Prop := u = [] ∨ ∃ w, u = w ++ ['-'] ∧ KebabText w

theorem not_mem_dash {v : List Char} (h : ∀ c ∈ v, isKebabChar c = true) : '-' ∉ v :=
  fun hmem => absurd (h _ hmem) (by decide)

theorem kebabText_append {u v : List Char} (hu : Starts u) (hne : v ≠ [])
    (hv : ∀ c ∈ v, isKebabChar c = true) : KebabText (u ++ v) := by
  have hword : v.splitOn '-' = [v] := List.splitOn_eq_singleton (not_mem_dash hv)
  rcases hu with rfl | ⟨w, rfl, hw⟩
  · rw [List.nil_append]
    intro p hp
    rw [hword, List.mem_singleton] at hp
    rw [hp]
    exact ⟨hne, hv⟩
  · intro p hp
    rw [List.append_assoc, List.singleton_append, List.splitOn_append_cons_self, hword,
      List.mem_append, List.mem_singleton] at hp
    rcases hp with hp | rfl
    · exact hw p hp
    · exact ⟨hne, hv⟩

/-- What is there after some characters: a word, or the dash after one, or nothing. -/
def KebabState (st : List Char × Bool) : Prop :=
  if st.2 then st.1 ≠ [] ∧ Starts st.1
  else st.1 = [] ∨ ∃ u v, st.1 = u ++ v ∧ Starts u ∧ v ≠ [] ∧ ∀ c ∈ v, isKebabChar c = true

theorem kebabState_step {st : List Char × Bool} (h : KebabState st) (ch : Char) :
    KebabState (kebabStep st ch) := by
  obtain ⟨out, dash⟩ := st
  rw [kebabStep]
  by_cases hch : isKebabChar ch = true
  · rw [if_pos hch]
    cases dash with
    | true =>
      refine .inr ⟨out, [ch], rfl, h.2, List.cons_ne_nil _ _, fun c hc => ?_⟩
      rwa [List.mem_singleton.1 hc]
    | false =>
      rcases h with hnil | ⟨u, v, hout, hu, hne, hv⟩
      · rw [show out = [] from hnil]
        refine .inr ⟨[], [ch], rfl, .inl rfl, List.cons_ne_nil _ _, fun c hc => ?_⟩
        rwa [List.mem_singleton.1 hc]
      · refine .inr ⟨u, v ++ [ch], ?_, hu, List.append_ne_nil_of_left_ne_nil hne _, fun c hc => ?_⟩
        · rw [show out = u ++ v from hout, List.append_assoc]
        · rcases List.mem_append.1 hc with hc | hc
          · exact hv c hc
          · rwa [List.mem_singleton.1 hc]
  · rw [if_neg hch]
    by_cases hdash : out ≠ [] ∧ dash = false
    · rw [if_pos hdash]
      obtain ⟨hne, rfl⟩ := hdash
      rcases h with hnil | ⟨u, v, hout, hu, hv⟩
      · exact absurd hnil hne
      · refine ⟨List.append_ne_nil_of_right_ne_nil _ (List.cons_ne_nil _ _), .inr ⟨out, rfl, ?_⟩⟩
        rw [show out = u ++ v from hout]
        exact kebabText_append hu hv.1 hv.2
    · rwa [if_neg hdash]

theorem kebabState_foldl (s : List Char) : ∀ {st : List Char × Bool}, KebabState st →
    KebabState (s.foldl kebabStep st) := by
  induction s with
  | nil => exact fun h => h
  | cons c s ih => exact fun h => ih (kebabState_step h c)

theorem isKebab_ofList {w : List Char} (h : KebabText w) : isKebab (String.ofList w) = true := by
  rw [isKebab, split, String.toList_ofList, List.all_eq_true]
  intro p hp
  obtain ⟨hne, hc⟩ := h p hp
  rw [Bool.and_eq_true, Bool.not_eq_true', List.isEmpty_eq_false_iff, List.all_eq_true]
  exact ⟨hne, hc⟩

/-- **The id of every name** is a kebab-case one. -/
theorem isKebab_kebabId (decompose : String → List Char) (name : String) :
    isKebab (kebabId decompose name) = true := by
  have hfresh : KebabState ([], false) := .inl rfl
  have hstate := kebabState_foldl ((decompose name).filter fun c => !isDiacritic c) hfresh
  rw [kebabId]
  generalize ((decompose name).filter fun c => !isDiacritic c).foldl kebabStep ([], false) = st
    at hstate
  obtain ⟨out, dash⟩ := st
  dsimp only
  have hdefault : isKebab "estrategia" = true := by decide
  cases dash with
  | true =>
    obtain ⟨hne, hstarts⟩ := hstate
    obtain ⟨w, hw, hkebab⟩ := hstarts.resolve_left hne
    rw [show out = w ++ ['-'] from hw, List.getLast?_concat, if_pos rfl, List.dropLast_concat]
    split
    · exact hdefault
    · exact isKebab_ofList hkebab
  | false =>
    rcases hstate with hnil | ⟨u, v, hout, hu, hne, hv⟩
    · rw [show out = [] from hnil]
      exact hdefault
    · have hlast : ¬ out.getLast? = some '-' := by
        rw [show out = u ++ v from hout, List.getLast?_append_of_ne_nil _ hne]
        intro hlast
        exact not_mem_dash hv (List.mem_of_getLast? hlast)
      rw [if_neg hlast]
      split
      · exact hdefault
      · rw [show out = u ++ v from hout]
        exact isKebab_ofList (kebabText_append hu hne hv)

/-! ## Reading strings back -/

/-- No character is left raw that a basic string must not hold. -/
def isClean (c : Char) : Bool := c == '\n' || !isControl c

/-- A text without such characters. -/
def Clean (s : String) : Bool := s.toList.all isClean

/-- One character in a basic string. -/
def escapeChar (c : Char) : List Char :=
  if c = '\\' then ['\\', '\\'] else if c = '"' then ['\\', '"'] else if c = '\n' then ['\\', 'n']
  else [c]

theorem tomlStr_eq (v : String) : tomlStr v = '"' :: (v.toList.flatMap escapeChar ++ ['"']) := by
  have hchar : ∀ c : Char, replaceChar '\n' ['\\', 'n'] (replaceChar '"' ['\\', '"']
      (if c = '\\' then ['\\', '\\'] else [c])) = escapeChar c := by
    intro c
    rw [escapeChar]
    by_cases hslash : c = '\\'
    · rw [if_pos hslash, if_pos hslash]
      rfl
    · rw [if_neg hslash, if_neg hslash]
      by_cases hquote : c = '"'
      · rw [if_pos hquote, hquote]
        rfl
      · rw [if_neg hquote, replaceChar, replaceChar, List.flatMap_singleton, if_neg hquote,
          List.flatMap_singleton]
  have hall : ∀ s : List Char, replaceChar '\n' ['\\', 'n'] (replaceChar '"' ['\\', '"']
      (replaceChar '\\' ['\\', '\\'] s)) = s.flatMap escapeChar := by
    intro s
    induction s with
    | nil => rfl
    | cons c s ih =>
      rw [List.flatMap_cons, ← hchar c, ← ih]
      simp only [replaceChar, List.flatMap_cons, List.flatMap_append]
  rw [tomlStr, hall]
  rfl

theorem readBasic_other {c : Char} (hquote : c ≠ '"') (hslash : c ≠ '\\') (rest : List Char) :
    readBasic (c :: rest) =
      if isControl c then none else (readBasic rest).map fun p => (c :: p.1, p.2) := by
  rw [readBasic]
  · exact fun h => hquote h
  · exact fun _ _ h _ => hslash h

theorem readBasic_slash (e : Char) (rest : List Char) : readBasic ('\\' :: e :: rest) =
    (tomlEscape e).bind fun c => (readBasic rest).map fun p => (c :: p.1, p.2) := by
  rw [readBasic]

theorem readBasic_escapeChar (c : Char) (rest : List Char) : readBasic (escapeChar c ++ rest) =
    if isClean c then (readBasic rest).map fun p => (c :: p.1, p.2) else none := by
  rw [escapeChar]
  by_cases hslash : c = '\\'
  · rw [if_pos hslash, hslash]
    exact readBasic_slash _ _
  rw [if_neg hslash]
  by_cases hquote : c = '"'
  · rw [if_pos hquote, hquote]
    exact readBasic_slash _ _
  rw [if_neg hquote]
  by_cases hline : c = '\n'
  · rw [if_pos hline, hline]
    exact readBasic_slash _ _
  rw [if_neg hline, List.singleton_append, readBasic_other hquote hslash, isClean,
    beq_eq_false_iff_ne.2 hline, Bool.false_or]
  cases isControl c <;> rfl

/-- **An escaped text reads back** iff it is clean. -/
theorem readBasic_tomlStr (v rest : List Char) :
    readBasic (v.flatMap escapeChar ++ '"' :: rest) =
      if v.all isClean then some (v, rest) else none := by
  induction v with
  | nil => rfl
  | cons c v ih =>
    rw [List.flatMap_cons, List.append_assoc, readBasic_escapeChar, ih, List.all_cons]
    cases isClean c <;> cases v.all isClean <;> rfl

/-! ## Reading lines back -/

theorem readValue_tomlStr (v : String) :
    readValue (' ' :: '=' :: ' ' :: tomlStr v) = if Clean v then some v.toList else none := by
  have hvalue : readValue (' ' :: '=' :: ' ' :: tomlStr v) =
      (readBasic (v.toList.flatMap escapeChar ++ ['"'])).bind fun p =>
        if p.2.all isBlank then some p.1 else none := by
    rw [tomlStr_eq]
    rfl
  rw [hvalue, readBasic_tomlStr, Clean]
  cases v.toList.all isClean <;> rfl

theorem readLine_bare {key : List Char}
    (hline : ∀ t, readLine (key ++ ' ' :: t) = (readValue (' ' :: t)).map (.entry key))
    (v : String) :
    readLine (tomlLine key v) = if Clean v then some (.entry key v.toList) else none := by
  rw [tomlLine, List.append_assoc]
  refine (hline _).trans ?_
  show (readValue (' ' :: '=' :: ' ' :: tomlStr v)).map _ = _
  rw [readValue_tomlStr]
  cases Clean v <;> rfl

theorem readLine_quoted (k v : String) : readLine (tomlLine (tomlStr k) v) =
    if Clean k && Clean v then some (.entry k.toList v.toList) else none := by
  have hline : readLine (tomlLine (tomlStr k) v) =
      (readBasic (k.toList.flatMap escapeChar ++ '"' :: (' ' :: '=' :: ' ' :: tomlStr v))).bind
        fun p => (readValue p.2).map (.entry p.1) := by
    rw [tomlLine, tomlStr_eq k]
    simp only [List.append_assoc, List.cons_append, List.nil_append]
    rfl
  rw [hline, readBasic_tomlStr, ← Clean]
  cases Clean k with
  | false => rfl
  | true =>
    rw [if_pos rfl, Option.bind_some, readValue_tomlStr]
    cases Clean v <;> rfl

/-! ## Reading the manifest back -/

section Preset

variable (decompose : String → List Char)

/-- The lines of the manifest, whether each reads back, and as what. -/
def presetReadings (s : StrategyDto) : List (List Char × Bool × DocLine) :=
  [("[plugin]".toList, true, .header ["plugin".toList]),
    (tomlLine "id".toList (kebabId decompose s.name), Clean (kebabId decompose s.name),
      .entry "id".toList (kebabId decompose s.name).toList),
    (tomlLine "name".toList s.name, Clean s.name, .entry "name".toList s.name.toList),
    ("type = \"preset\"".toList, true, .entry "type".toList "preset".toList),
    ("version = \"1.0.0\"".toList, true, .entry "version".toList "1.0.0".toList),
    ("author = \"OpenNeoTrader\"".toList, true, .entry "author".toList "OpenNeoTrader".toList),
    (tomlLine "description".toList s.about, Clean s.about,
      .entry "description".toList s.about.toList),
    ([], true, .blank),
    ("[preset.config]".toList, true, .header ["preset".toList, "config".toList])] ++
  s.config.map (fun e => (tomlLine (tomlStr e.1) e.2, Clean e.1 && Clean e.2,
    DocLine.entry e.1.toList e.2.toList)) ++ [([], true, .blank)]

theorem presetReadings_lines (s : StrategyDto) :
    (presetReadings decompose s).map Prod.fst = presetLines decompose s := by
  rw [presetReadings, presetLines, List.map_append, List.map_append, List.map_map]
  rfl

theorem readLine_presetReadings (s : StrategyDto) : ∀ x ∈ presetReadings decompose s,
    readLine x.1 = if x.2.1 then some x.2.2 else none := by
  rw [presetReadings]
  simp only [List.forall_mem_append, List.forall_mem_map, List.forall_mem_cons, List.not_mem_nil,
    false_imp_iff, implies_true, and_true]
  refine ⟨⟨⟨rfl, ?_, ?_, rfl, rfl, rfl, ?_, rfl, rfl⟩, fun e _ => readLine_quoted e.1 e.2⟩, rfl⟩
  · exact readLine_bare (fun _ => rfl) _
  · exact readLine_bare (fun _ => rfl) _
  · exact readLine_bare (fun _ => rfl) _

def StrategyDto.Clean (s : StrategyDto) : Bool :=
  Catalogue.Clean s.name && Catalogue.Clean s.about &&
    s.config.all fun e => Catalogue.Clean e.1 && Catalogue.Clean e.2

/-- The document that the manifest stands for. -/
def presetDocument (s : StrategyDto) : Toml :=
  .table [("plugin", .table [("id", .str (kebabId decompose s.name)), ("name", .str s.name),
      ("type", .str "preset"), ("version", .str "1.0.0"), ("author", .str "OpenNeoTrader"),
      ("description", .str s.about)]),
    ("preset", .table [("config", .table (s.config.map fun e => (e.1, .str e.2)))])]

theorem mapM_readings {l : List (List Char × Bool × DocLine)}
    (h : ∀ x ∈ l, readLine x.1 = if x.2.1 then some x.2.2 else none) :
    (l.map Prod.fst).mapM readLine =
      if l.all (fun x => x.2.1) then some (l.map fun x => x.2.2) else none := by
  induction l with
  | nil => rfl
  | cons x l ih =>
    rw [List.map_cons, List.mapM_cons, h x List.mem_cons_self,
      ih fun y hy => h y (List.mem_cons_of_mem x hy), List.all_cons]
    cases x.2.1 <;> cases l.all (fun x => x.2.1) <;> rfl

theorem gather_entries (l : List (List Char × List Char)) (rest : List DocLine) :
    gather (l.map (fun e => .entry e.1 e.2) ++ rest) = (l ++ (gather rest).1, (gather rest).2) := by
  induction l with
  | nil => rfl
  | cons e l ih =>
    rw [List.map_cons, List.cons_append, gather, ih]
    rfl

theorem mem_kebabId {name : String} {c : Char} (h : c ∈ (kebabId decompose name).toList) :
    isKebabChar c = true ∨ c = '-' := by
  have hfold : ∀ (s : List Char) (st : List Char × Bool),
      (∀ c ∈ st.1, isKebabChar c = true ∨ c = '-') →
      ∀ c ∈ (s.foldl kebabStep st).1, isKebabChar c = true ∨ c = '-' := by
    intro s
    induction s with
    | nil => exact fun _ hst => hst
    | cons x s ih =>
      intro st hst
      refine ih _ fun c hc => ?_
      rw [kebabStep] at hc
      split_ifs at hc with hx
      · rcases List.mem_append.1 hc with hc | hc
        · exact hst c hc
        · rw [List.mem_singleton.1 hc]
          exact .inl hx
      · rcases List.mem_append.1 hc with hc | hc
        · exact hst c hc
        · exact .inr (List.mem_singleton.1 hc)
      · exact hst c hc
  have hchars := hfold ((decompose name).filter fun c => !isDiacritic c) ([], false)
    (fun _ hc => absurd hc List.not_mem_nil)
  have hdefault : ∀ c ∈ "estrategia".toList, isKebabChar c = true ∨ c = '-' := fun c hc =>
    .inl (List.all_eq_true.1 (show "estrategia".toList.all isKebabChar = true by decide) c hc)
  rw [kebabId] at h
  split_ifs at h with hdash hnil hnil
  · exact hdefault c h
  · rw [String.toList_ofList] at h
    exact hchars c (List.dropLast_subset _ h)
  · exact hdefault c h
  · rw [String.toList_ofList] at h
    exact hchars c h

theorem plain_of_kebabChar {c : Char} (h : isKebabChar c = true ∨ c = '-') :
    isClean c = true ∧ Number.isSpace c = false := by
  have hcode : 45 ≤ c.toNat ∧ c.toNat ≤ 122 := by
    rcases h with h | rfl
    · change (decide (c.val ≥ 97) && decide (c.val ≤ 122) ||
        decide (c.val ≥ 48) && decide (c.val ≤ 57)) = true at h
      simp only [Bool.or_eq_true, Bool.and_eq_true, decide_eq_true_eq, UInt32.le_iff_toNat_le,
        ge_iff_le] at h
      change (97 ≤ c.toNat ∧ c.toNat ≤ 122) ∨ (48 ≤ c.toNat ∧ c.toNat ≤ 57) at h
      omega
    · decide
  constructor
  · rw [isClean, Bool.or_eq_true, Bool.not_eq_true', isControl, decide_eq_false_iff_not]
    right
    omega
  · simp only [Number.isSpace, List.mem_cons, List.not_mem_nil, or_false, Bool.or_eq_false_iff,
      decide_eq_false_iff_not, Bool.and_eq_false_iff]
    omega

theorem clean_kebabId (name : String) : Clean (kebabId decompose name) = true :=
  List.all_eq_true.2 fun _ hc => (plain_of_kebabChar (mem_kebabId decompose hc)).1

theorem line_not_mem_tomlStr (v : String) : '\n' ∉ tomlStr v := by
  rw [tomlStr_eq, List.mem_cons, List.mem_append, not_or, not_or]
  refine ⟨by decide, fun hmem => ?_, by decide⟩
  obtain ⟨c, -, hc⟩ := List.mem_flatMap.1 hmem
  rw [escapeChar] at hc
  split_ifs at hc with hslash hquote hline
  · revert hc
    decide
  · revert hc
    decide
  · revert hc
    decide
  · exact hline (List.mem_singleton.1 hc).symm

theorem line_not_mem_tomlLine {key : List Char} (hkey : '\n' ∉ key) (v : String) :
    '\n' ∉ tomlLine key v := by
  rw [tomlLine, List.mem_append, List.mem_append, not_or, not_or]
  exact ⟨⟨hkey, by decide⟩, line_not_mem_tomlStr v⟩

theorem line_not_mem_presetLines (s : StrategyDto) : ∀ l ∈ presetLines decompose s, '\n' ∉ l := by
  rw [presetLines]
  simp only [List.forall_mem_append, List.forall_mem_map, List.forall_mem_cons, List.not_mem_nil,
    false_imp_iff, implies_true, and_true]
  refine ⟨⟨⟨by decide, ?_, ?_, by decide, by decide, by decide, ?_, by decide, by decide⟩, ?_⟩,
    by decide⟩
  · exact line_not_mem_tomlLine (by decide) _
  · exact line_not_mem_tomlLine (by decide) _
  · exact line_not_mem_tomlLine (by decide) _
  · exact fun e _ => line_not_mem_tomlLine (line_not_mem_tomlStr e.1) e.2

theorem all_presetReadings (s : StrategyDto) :
    (presetReadings decompose s).all (fun x => x.2.1) = s.Clean := by
  rw [presetReadings, StrategyDto.Clean, List.all_append, List.all_append, List.all_map]
  simp only [List.all_cons, List.all_nil, Bool.and_true, Bool.true_and, clean_kebabId]
  rfl

/-- **The round trip of a preset.** The manifest of a strategy is a document that says what the
strategy is, every key a single one, iff no text of the strategy has a control character that its
escapes forget. The id is a kebab-case one in any case. -/
theorem preset_round_trip (s : StrategyDto) :
    (readToml (buildPresetManifest decompose s) = if s.Clean then some (presetDocument decompose s)
      else none) ∧ isKebab (kebabId decompose s.name) = true := by
  refine ⟨?_, isKebab_kebabId decompose s.name⟩
  have hsplit : (['\n'].intercalate (presetLines decompose s)).splitOn '\n' =
      presetLines decompose s :=
    List.splitOn_intercalate _ (line_not_mem_presetLines decompose s) (by simp [presetLines])
  rw [readToml, buildPresetManifest, String.toList_ofList, hsplit, ← presetReadings_lines,
    mapM_readings (readLine_presetReadings decompose s), all_presetReadings]
  cases s.Clean with
  | false => rfl
  | true =>
    have hconfig : gather (s.config.map ((fun x : List Char × Bool × DocLine => x.2.2) ∘ fun e =>
        (tomlLine (tomlStr e.1) e.2, Catalogue.Clean e.1 && Catalogue.Clean e.2,
          .entry e.1.toList e.2.toList)) ++ [.blank]) =
        (s.config.map fun e => (e.1.toList, e.2.toList), []) := by
      have hgather := gather_entries (s.config.map fun e => (e.1.toList, e.2.toList)) [.blank]
      rw [List.map_map] at hgather
      exact hgather.trans (Prod.ext (List.append_nil _) rfl)
    have hlines : gather ((presetReadings decompose s).map fun x => x.2.2) =
        ([], [(["plugin".toList], [("id".toList, (kebabId decompose s.name).toList),
            ("name".toList, s.name.toList), ("type".toList, "preset".toList),
            ("version".toList, "1.0.0".toList), ("author".toList, "OpenNeoTrader".toList),
            ("description".toList, s.about.toList)]),
          (["preset".toList, "config".toList],
            s.config.map fun e => (e.1.toList, e.2.toList))]) := by
      rw [presetReadings, List.map_append, List.map_append, List.map_map, List.append_assoc]
      simp only [List.map_cons, List.map_nil, List.cons_append, List.nil_append, gather]
      rw [hconfig]
    have hkeys : ((s.config.map fun e => (e.1.toList, e.2.toList)).map Prod.fst).Nodup := by
      have hnodup := List.Nodup.map (fun _ _ h => String.toList_injective h) s.nodup
      rwa [List.map_map] at hnodup ⊢
    have hplugin : (["id".toList, "name".toList, "type".toList, "version".toList,
        "author".toList, "description".toList]).Nodup := by decide
    simp only [if_true, Option.bind_eq_bind, Option.bind_some, hlines, List.mapM_cons,
      List.mapM_nil, List.map_cons, List.map_nil, if_pos hplugin, if_pos hkeys]
    simp [nested, stringTable, presetDocument]

/-! ## In the store -/

theorem blank_kebabId (name : String) : blank (kebabId decompose name) = false := by
  have hspace : ∀ c ∈ (kebabId decompose name).toList, Number.isSpace c = false := fun c hc =>
    (plain_of_kebabChar (mem_kebabId decompose hc)).2
  have hne : (kebabId decompose name).toList ≠ [] := by
    intro hnil
    have hkebab := isKebab_kebabId decompose name
    rw [isKebab, split, hnil] at hkebab
    revert hkebab
    decide
  rw [blank, Number.trim_of_forall hspace]
  exact List.isEmpty_eq_false_iff.2 hne

/-- The section `[plugin]` of a preset. -/
def presetRecord (s : StrategyDto) : Toml :=
  .table [("id", .str (kebabId decompose s.name)), ("name", .str s.name), ("type", .str "preset"),
    ("version", .str "1.0.0"), ("author", .str "OpenNeoTrader"), ("description", .str s.about)]

theorem requireStringField_preset (s : StrategyDto) (field : String) {value : String} (pre : String)
    (h : (presetRecord decompose s).field field = some (.str value)) :
    requireStringField (presetRecord decompose s) field pre =
      if blank value then .error [.lit s!"{pre}.{field} requerido"] else .ok value := by
  rw [requireStringField, h]

theorem validatePluginFields_preset (s : StrategyDto) :
    validatePluginFields (presetRecord decompose s) = .ok () ↔
      blank s.name = false ∧ blank s.about = false := by
  have hid := requireStringField_preset decompose s "id" "[plugin]" rfl
  have hname := requireStringField_preset decompose s "name" "[plugin]" rfl
  have htype := requireStringField_preset decompose s "type" "[plugin]" rfl
  have hversion := requireStringField_preset decompose s "version" "[plugin]" rfl
  have hauthor := requireStringField_preset decompose s "author" "[plugin]" rfl
  have hdescription := requireStringField_preset decompose s "description" "[plugin]" rfl
  rw [blank_kebabId] at hid
  rw [show blank "preset" = false by decide] at htype
  rw [show blank "1.0.0" = false by decide] at hversion
  rw [show blank "OpenNeoTrader" = false by decide] at hauthor
  unfold validatePluginFields requiredPluginFields
  simp only [List.forM, hid, hname, htype, hversion, hauthor, hdescription]
  cases blank s.name with
  | true => exact iff_of_false (fun h => by cases h) fun h => Bool.noConfusion h.1
  | false =>
    cases blank s.about with
    | true => exact iff_of_false (fun h => by cases h) fun h => Bool.noConfusion h.2
    | false => exact iff_of_true rfl ⟨rfl, rfl⟩

/-- **A clean preset in the store.** Whatever parser reads the documents of tables and strings as
the language says, the store accepts the manifest of a clean strategy with settings iff neither the
name nor the description is blank, and then under the strategy's own name, id and settings. -/
theorem preset_accepted {parseToml : String → Except String Toml}
    (hspec : ∀ text d, readToml text = some d → parseToml text = .ok d) {s : StrategyDto}
    (hclean : s.Clean = true) (hconfig : s.config ≠ []) :
    ((∃ m, parseAndValidateManifest parseToml (buildPresetManifest decompose s) = .ok m) ↔
      blank s.name = false ∧ blank s.about = false) ∧
    ∀ m, parseAndValidateManifest parseToml (buildPresetManifest decompose s) = .ok m →
      m.id = kebabId decompose s.name ∧ m.name = s.name ∧ m.type = "preset" ∧
      m.description = s.about ∧
      m.payload = .table [("config", .table (s.config.map fun e => (e.1, .str e.2)))] := by
  have hparse := hspec _ _ ((preset_round_trip decompose s).1.trans (if_pos hclean))
  have hrecord : extractRecord (presetDocument decompose s) = .ok (presetRecord decompose s) := rfl
  have hid : stringField (presetRecord decompose s) "id" = kebabId decompose s.name := rfl
  have hpayload : extractOptionalPayload (presetDocument decompose s)
      (stringField (presetRecord decompose s) "type") =
      .ok (.table [("config", .table (s.config.map fun e => (e.1, .str e.2)))]) := by
    obtain ⟨e, rest, he⟩ := List.exists_cons_of_ne_nil hconfig
    rw [presetDocument, he]
    rfl
  rw [← validatePluginFields_preset, parseAndValidateManifest, hparse]
  dsimp only
  simp only [hrecord, hid, isKebab_kebabId, hpayload, bind, Except.bind, Bool.not_true]
  cases validatePluginFields (presetRecord decompose s) with
  | error e =>
    refine ⟨iff_of_false ?_ fun h => (by cases h), fun m h => by cases h⟩
    rintro ⟨m, h⟩
    cases h
  | ok u =>
    refine ⟨iff_of_true ⟨_, rfl⟩ rfl, fun m h => ?_⟩
    cases h
    exact ⟨rfl, rfl, rfl, rfl, rfl⟩

end Preset

/-! ## At a preset -/

def momentumPreset : StrategyDto := ⟨"Momentum", none, [("cycle.bars", "100")], by decide⟩

/-- A parser that reads these documents only. -/
def parseStrings (text : String) : Except String Toml := (readToml text).elim (.error "") .ok

/-- The store accepts it. -/
theorem momentumPreset_accepted : ∃ m,
    parseAndValidateManifest parseStrings (buildPresetManifest String.toList momentumPreset) =
      .ok m := by
  refine (preset_accepted String.toList (fun text d h => ?_) (by decide) (by decide)).1.2
    ⟨by decide, by decide⟩
  rw [parseStrings, h]
  rfl

end NeoTrader.Catalogue
