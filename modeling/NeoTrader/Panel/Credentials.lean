import Mathlib.Data.List.TakeWhile
import Mathlib.Logic.Function.Basic
import NeoTrader.Auth.Guards
import NeoTrader.Js.Parse
import NeoTrader.Js.Search
import NeoTrader.Js.Trim

/-!
# Credentials in the `.env` file

One writer puts `KEY=value` lines without quotes, and two readers with grammars of their own read
them: `readEnvFile`, which strips a quote at each end, and the loader of the configuration at the
next start, which strips surrounding quotes and ends an unquoted value at `#`.

* **`survives_iff`**: which values both readers give back;
* **`value_cut`**: a value that the next start cuts.
-/

namespace NeoTrader

open Js

namespace Credential

/-! ## Names -/

/-- The names of the credentials of the platform. -/
def platformProviders : List (List Char) :=
  ["ANTHROPIC_API_KEY".toList, "GEMINI_API_KEY".toList, "OPENAI_API_KEY".toList,
    "TELEGRAM_BOT_TOKEN".toList, "TELEGRAM_CHAT_ID".toList]

/-- The names that `set` does not touch. -/
def protectedEnvKeys : List (List Char) :=
  ["JWT_SECRET".toList, "DATABASE_URL".toList, "NODE_ENV".toList, "API_PORT".toList,
    "API_HOST".toList, "WS_PORT".toList, "BACKUP_DIR".toList, "DOTENV_PATH".toList,
    "CORS_ORIGINS".toList]

/-- `/^[A-Z][A-Z0-9_]*$/.test(env)`. -/
def upperSnake : List Char → Bool
  | [] => false
  | c :: rest => c.isUpper && rest.all fun c => c.isUpper || c.isDigit || c == '_'

/-- A name that is no name of the system. -/
def isDynamicEnv (env : List Char) : Bool := upperSnake env && !protectedEnvKeys.contains env

/-! ## The file -/

/-- The `.env` file, where it can be read, and `process.env`. -/
structure Store where
  file : Option (List Char)
  environment : List Char → Option (List Char)

def readEnvLines : Option (List Char) → List (List Char)
  | none => []
  | some text => text.splitOn '\n'

/-- The text of some lines. -/
def envText (lines : List (List Char)) : List Char :=
  List.intercalate ['\n'] lines ++ if lines = [] then [] else ['\n']

/-- `line.trimStart()`. -/
def trimStart (line : List Char) : List Char := line.dropWhile Number.isSpace

/-- The lines that do not assign a name. -/
def otherLines (env : List Char) (lines : List (List Char)) : List (List Char) :=
  lines.filter fun line => !(env ++ ['=']).isPrefixOf (trimStart line)

/-- What is stored for a trimmed value: nothing for the empty one. -/
def stored (trimmed : List Char) : Option (List Char) := if trimmed = [] then none else some trimmed

/-- Writes a credential, or removes it where the value is empty. -/
def set (s : Store) (env : List Char) (value : Option (List Char)) : Except Err Store :=
  let trimmed := Number.trim (value.getD [])
  if trimmed ≠ [] ∧ ('\r' ∈ trimmed ∨ '\n' ∈ trimmed) then
    .error (badRequest "el valor no puede contener saltos de línea")
  else if ¬ platformProviders.contains env ∧ ¬ isDynamicEnv env then
    .error (badRequest s!"clave no gestionable: {Json.quote (String.ofList env)}")
  else
    let lines := otherLines env (readEnvLines s.file) ++
      if trimmed = [] then [] else [env ++ '=' :: trimmed]
    .ok { file := some (envText lines)
          environment := Function.update s.environment env (stored trimmed) }

/-! ## The readers -/

/-- `out[k] = v` for each entry. -/
def record (entries : List (List Char × List Char)) : List Char → Option (List Char) :=
  entries.foldl (fun out e => Function.update out e.1 (some e.2)) fun _ => none

/-- What a reader of lines gives. -/
def recordOf (entry : List Char → Option (List Char × List Char)) (lines : List (List Char)) :
    List Char → Option (List Char) :=
  record (lines.filterMap entry)

/-- `["']`. -/
def isQuote (c : Char) : Bool := c == '"' || c == '\''

/-- Without a quote in front. -/
def stripQuote : List Char → List Char
  | [] => []
  | c :: s => if isQuote c then s else c :: s

/-- `v.replace(/^["']|["']$/g, '')`. -/
def unquoted (v : List Char) : List Char := (stripQuote (stripQuote v).reverse).reverse

/-- The entry of a line for `readEnvFile`. -/
def fileEntry (line : List Char) : Option (List Char × List Char) :=
  if ['#'].isPrefixOf (trimStart line) then none
  else (breakOn ['='] line).map fun (k, v) => (Number.trim k, unquoted (Number.trim v))

def readEnvFile (file : Option (List Char)) : List Char → Option (List Char) :=
  recordOf fileEntry (readEnvLines file)

/-- What surrounding quotes enclose. -/
def surrounded? : List Char → Option (List Char)
  | [] => none
  | q :: rest =>
    if q ∈ ['\'', '"', '\x60'] ∧ rest.getLast? = some q then some rest.dropLast else none

/-- The value that the loader takes: without surrounding quotes, or up to `#`. -/
def dotenvValue (v : List Char) : List Char :=
  (surrounded? (Number.trim v)).getD (Number.trim ((Number.trim v).takeWhile (· ≠ '#')))

/-- `\w`. -/
def isWord (c : Char) : Bool := c.isAlphanum || c == '_'

/-- The entry of a line for the loader. -/
def dotenvEntry (line : List Char) : Option (List Char × List Char) :=
  match breakOn ['='] line with
  | none => none
  | some (k, v) =>
    if Number.trim k ≠ [] ∧ (Number.trim k).all fun c => isWord c || c == '.' || c == '-' then
      some (Number.trim k, dotenvValue v)
    else none

/-- What the next start loads from the file. -/
def loaded (file : Option (List Char)) : List Char → Option (List Char) :=
  recordOf dotenvEntry (readEnvLines file)

/-! ### Ordinary files -/

/-- `KEY=VALUE`, or nothing. -/
def OrdinaryLine (line : List Char) : Prop :=
  line = [] ∨ ∃ p ∈ breakOn ['='] line, p.1 ≠ [] ∧ ∀ c ∈ p.1, isWord c

def OrdinaryFile (file : Option (List Char)) : Prop := ∀ line ∈ readEnvLines file, OrdinaryLine line

/-! ## Lines -/

theorem isWord_not_space {c : Char} (h : isWord c) : Number.isSpace c = false := by
  have hcode : 48 ≤ c.toNat ∧ c.toNat ≤ 122 := by
    change (((decide (c.val ≥ 65 ∧ c.val ≤ 90) ||
      (decide (c.val ≥ 97) && decide (c.val ≤ 122))) ||
      (decide (c.val ≥ 48) && decide (c.val ≤ 57))) || c == '_') = true at h
    simp only [Bool.or_eq_true, Bool.and_eq_true, decide_eq_true_eq, beq_iff_eq,
      UInt32.le_iff_toNat_le, ge_iff_le] at h
    change (((65 ≤ c.toNat ∧ c.toNat ≤ 90) ∨ (97 ≤ c.toNat ∧ c.toNat ≤ 122)) ∨
      (48 ≤ c.toNat ∧ c.toNat ≤ 57)) ∨ c = '_' at h
    rcases h with h | rfl
    · omega
    · decide
  simp only [Number.isSpace, List.mem_cons, List.not_mem_nil, or_false, Bool.or_eq_false_iff,
    decide_eq_false_iff_not, Bool.and_eq_false_iff]
  omega

theorem isWord_ne {c : Char} (h : isWord c) : c ≠ '=' ∧ c ≠ '\n' ∧ c ≠ '#' := by
  refine ⟨?_, ?_, ?_⟩ <;> rintro rfl <;> exact absurd h (by decide)

def WordName (key : List Char) : Prop := key ≠ [] ∧ ∀ c ∈ key, isWord c

theorem WordName.equals_not_mem {key : List Char} (h : WordName key) : '=' ∉ key :=
  fun hmem => (isWord_ne (h.2 _ hmem)).1 rfl

theorem breakOn_line {key : List Char} (h : WordName key) (value : List Char) :
    breakOn ['='] (key ++ '=' :: value) = some (key, value) := by
  have hnot : ¬ ['='] <:+: key := fun hin =>
    h.equals_not_mem (hin.subset (List.mem_singleton.mpr rfl))
  have hbreak := breakOn_of_head List.not_mem_nil value hnot
  rwa [List.append_assoc, List.singleton_append] at hbreak

theorem ordinaryLine_iff {line : List Char} :
    OrdinaryLine line ↔ line = [] ∨ ∃ key value, WordName key ∧ line = key ++ '=' :: value := by
  constructor
  · rintro (h | ⟨⟨key, value⟩, hbreak, hkey⟩)
    · exact Or.inl h
    · refine Or.inr ⟨key, value, hkey, ?_⟩
      rw [breakOn_eq_append hbreak, List.append_assoc, List.singleton_append]
  · rintro (h | ⟨key, value, hkey, rfl⟩)
    · exact Or.inl h
    · exact Or.inr ⟨_, breakOn_line hkey value, hkey⟩

theorem trimStart_line {key : List Char} (h : WordName key) (value : List Char) :
    trimStart (key ++ '=' :: value) = key ++ '=' :: value := by
  apply Number.dropWhile_eq_self
  intro c hc
  cases key with
  | nil => exact absurd rfl h.1
  | cons d key =>
    cases hc
    exact isWord_not_space (h.2 c List.mem_cons_self)

theorem assigns_iff {env key : List Char} (henv : WordName env) (hkey : WordName key)
    (value : List Char) :
    (env ++ ['=']).isPrefixOf (trimStart (key ++ '=' :: value)) = true ↔ key = env := by
  rw [trimStart_line hkey, List.isPrefixOf_iff_prefix]
  constructor
  · rintro ⟨rest, hrest⟩
    have hbreak := breakOn_line henv rest
    rw [List.append_assoc, List.singleton_append] at hrest
    rw [hrest, breakOn_line hkey] at hbreak
    cases hbreak
    rfl
  · rintro rfl
    exact ⟨value, by rw [List.append_assoc, List.singleton_append]⟩

theorem trim_name {key : List Char} (h : WordName key) : Number.trim key = key :=
  Number.trim_of_forall fun c hc => isWord_not_space (h.2 c hc)

/-! ### The names that a call accepts -/

theorem isWord_of_upper {c : Char} (h : (c.isUpper || c.isDigit || c == '_') = true) :
    isWord c = true := by
  show (((c.isUpper || c.isLower) || c.isDigit) || c == '_') = true
  simp only [Bool.or_eq_true] at h
  rcases h with (h | h) | h <;> simp [h]

theorem wordName_of_upperSnake {env : List Char} (h : upperSnake env = true) : WordName env := by
  cases env with
  | nil => cases h
  | cons c rest =>
    rw [upperSnake, Bool.and_eq_true, List.all_eq_true] at h
    refine ⟨List.cons_ne_nil c rest, fun d hd => isWord_of_upper ?_⟩
    rcases List.mem_cons.mp hd with heq | hd
    · rw [heq, h.1]
      rfl
    · exact h.2 d hd

theorem upperSnake_of_platform {env : List Char} (h : env ∈ platformProviders) :
    upperSnake env = true := by
  have hall : platformProviders.all upperSnake = true := by decide
  exact List.all_eq_true.mp hall env h

/-! ### The text -/

theorem readEnvLines_envText {lines : List (List Char)} (h : ∀ line ∈ lines, '\n' ∉ line) :
    readEnvLines (some (envText lines)) = lines ++ [[]] := by
  by_cases hnil : lines = []
  · subst hnil
    rfl
  · rw [readEnvLines, envText, if_neg hnil, List.splitOn_append_cons_self,
      List.splitOn_intercalate _ h hnil, List.splitOn_nil]

theorem not_mem_of_splitOn (text : List Char) : ∀ line ∈ text.splitOn '\n', '\n' ∉ line := by
  induction text with
  | nil => simp
  | cons c text ih =>
    rw [List.splitOn_cons_eq_if_modifyHead]
    by_cases hc : c = '\n'
    · rw [if_pos (beq_iff_eq.mpr hc)]
      exact List.forall_mem_cons.mpr ⟨List.not_mem_nil, ih⟩
    · rw [if_neg (mt beq_iff_eq.mp hc)]
      cases hlines : text.splitOn '\n' with
      | nil => exact absurd hlines (List.splitOn_ne_nil _ _)
      | cons line lines =>
        rw [hlines, List.forall_mem_cons] at ih
        refine List.forall_mem_cons.mpr ⟨?_, ih.2⟩
        rw [List.mem_cons, not_or]
        exact ⟨Ne.symm hc, ih.1⟩

theorem newline_not_mem_readEnvLines (file : Option (List Char)) :
    ∀ line ∈ readEnvLines file, '\n' ∉ line := by
  cases file with
  | none => exact fun line hline => absurd hline List.not_mem_nil
  | some text => exact not_mem_of_splitOn text

/-! ## Records -/

theorem record_concat (entries : List (List Char × List Char)) (e : List Char × List Char) :
    record (entries ++ [e]) = Function.update (record entries) e.1 (some e.2) := by
  rw [record, record, List.foldl_append]
  rfl

theorem record_filter (env : List Char) (entries : List (List Char × List Char)) :
    record (entries.filter (·.1 ≠ env)) = Function.update (record entries) env none := by
  induction entries using List.reverseRecOn with
  | nil => exact (Function.update_eq_self _ _).symm
  | append_singleton entries e ih =>
    rw [List.filter_append, record_concat]
    by_cases he : e.1 = env
    · rw [List.filter_cons_of_neg (by simp [he]), List.filter_nil, List.append_nil, ih, he,
        Function.update_idem]
    · rw [List.filter_cons_of_pos (by simp [he]), List.filter_nil, record_concat, ih,
        Function.update_comm he]

/-- What a reader makes of a line: nothing of an empty one, and its value of an assignment. -/
structure Reads (entry : List Char → Option (List Char × List Char))
    (value : List Char → List Char) : Prop where
  blank : entry [] = none
  line : ∀ {key : List Char}, WordName key → ∀ v, entry (key ++ '=' :: v) = some (key, value v)

theorem reads_file : Reads fileEntry fun v => unquoted (Number.trim v) where
  blank := rfl
  line := by
    intro key hkey v
    have hhash : ¬ ['#'].isPrefixOf (trimStart (key ++ '=' :: v)) = true := by
      rw [trimStart_line hkey]
      cases key with
      | nil => exact absurd rfl hkey.1
      | cons d key =>
        have hd := (isWord_ne (hkey.2 d List.mem_cons_self)).2.2
        simp [List.isPrefixOf, hd.symm]
    rw [fileEntry, if_neg hhash, breakOn_line hkey]
    show some (Number.trim key, _) = _
    rw [trim_name hkey]

theorem reads_loaded : Reads dotenvEntry dotenvValue where
  blank := rfl
  line := by
    intro key hkey v
    unfold dotenvEntry
    rw [breakOn_line hkey]
    show (if Number.trim key ≠ [] ∧
        (Number.trim key).all (fun c => isWord c || c == '.' || c == '-') then some (Number.trim key, dotenvValue v) else none) = _
    rw [trim_name hkey, if_pos]
    exact ⟨hkey.1, List.all_eq_true.mpr fun c hc => by rw [hkey.2 c hc]; rfl⟩

section Reader

variable {entry : List Char → Option (List Char × List Char)} {value : List Char → List Char}
  (hr : Reads entry value) {env : List Char} (henv : WordName env)
include hr henv

theorem filterMap_otherLines {lines : List (List Char)} (h : ∀ line ∈ lines, OrdinaryLine line) :
    (otherLines env lines).filterMap entry = (lines.filterMap entry).filter (·.1 ≠ env) := by
  induction lines with
  | nil => rfl
  | cons line lines ih =>
    have ih := ih fun l hl => h l (List.mem_cons_of_mem _ hl)
    rcases ordinaryLine_iff.mp (h line List.mem_cons_self) with rfl | ⟨key, v, hkey, rfl⟩
    · have hkeep : (env ++ ['=']).isPrefixOf (trimStart []) = false := by
        cases env <;> rfl
      rw [otherLines, List.filter_cons_of_pos (by rw [hkeep]; rfl),
        List.filterMap_cons_none hr.blank, List.filterMap_cons_none hr.blank]
      exact ih
    · rw [List.filterMap_cons_some (hr.line hkey v), List.filter_cons]
      by_cases hk : key = env
      · have hdrop := (assigns_iff henv hkey v).mpr hk
        rw [otherLines, List.filter_cons_of_neg (by rw [hdrop]; decide), if_neg (by simp [hk])]
        exact ih
      · have hkeep := Bool.eq_false_iff.mpr (mt (assigns_iff henv hkey v).mp hk)
        rw [otherLines, List.filter_cons_of_pos (by rw [hkeep]; rfl), if_pos (by simp [hk]),
          List.filterMap_cons_some (hr.line hkey v)]
        exact congrArg _ ih

theorem recordOf_written {lines : List (List Char)} (h : ∀ line ∈ lines, OrdinaryLine line)
    (trimmed : List Char) :
    recordOf entry ((otherLines env lines ++ if trimmed = [] then [] else [env ++ '=' :: trimmed])
        ++ [[]])
      = Function.update (recordOf entry lines) env ((stored trimmed).map value) := by
  rw [recordOf, List.filterMap_append, List.filterMap_cons_none hr.blank, List.filterMap_nil,
    List.append_nil, List.filterMap_append, filterMap_otherLines hr henv h]
  by_cases ht : trimmed = []
  · rw [if_pos ht, stored, if_pos ht, List.filterMap_nil, List.append_nil, record_filter]
    rfl
  · rw [if_neg ht, stored, if_neg ht, List.filterMap_cons_some (hr.line henv trimmed),
      List.filterMap_nil, record_concat, record_filter, Function.update_idem]
    rfl

end Reader

/-! ## A call -/

theorem set_ok {s s' : Store} {env : List Char} {value : Option (List Char)}
    (h : set s env value = .ok s') :
    ('\n' ∉ Number.trim (value.getD []) ∧ WordName env) ∧
      s' = { file := some (envText (otherLines env (readEnvLines s.file) ++
              if Number.trim (value.getD []) = [] then []
              else [env ++ '=' :: Number.trim (value.getD [])]))
             environment :=
              Function.update s.environment env (stored (Number.trim (value.getD []))) } := by
  unfold set at h
  by_cases hbreak : Number.trim (value.getD []) ≠ [] ∧
      ('\r' ∈ Number.trim (value.getD []) ∨ '\n' ∈ Number.trim (value.getD []))
  · rw [if_pos hbreak] at h
    cases h
  · rw [if_neg hbreak] at h
    by_cases hname : ¬ platformProviders.contains env = true ∧ ¬ isDynamicEnv env = true
    · rw [if_pos hname] at h
      cases h
    · rw [if_neg hname] at h
      cases h
      refine ⟨⟨fun hmem => hbreak ⟨List.ne_nil_of_mem hmem, Or.inr hmem⟩, ?_⟩, rfl⟩
      rw [not_and_or, not_not, not_not] at hname
      rcases hname with hname | hname
      · exact wordName_of_upperSnake (upperSnake_of_platform (List.contains_iff_mem.mp hname))
      · rw [isDynamicEnv, Bool.and_eq_true] at hname
        exact wordName_of_upperSnake hname.1

section Call

variable {s s' : Store} {env : List Char} {value : Option (List Char)}
  (hfile : OrdinaryFile s.file) (hset : set s env value = .ok s')
include hset

theorem readEnvLines_set :
    readEnvLines s'.file = (otherLines env (readEnvLines s.file) ++
      if Number.trim (value.getD []) = [] then [] else [env ++ '=' :: Number.trim (value.getD [])])
        ++ [[]] := by
  obtain ⟨⟨hvalue, henv⟩, rfl⟩ := set_ok hset
  apply readEnvLines_envText
  intro line hline
  rw [List.mem_append] at hline
  rcases hline with hline | hline
  · exact newline_not_mem_readEnvLines s.file line (List.mem_of_mem_filter hline)
  · by_cases ht : Number.trim (value.getD []) = []
    · rw [if_pos ht] at hline
      cases hline
    · rw [if_neg ht, List.mem_singleton] at hline
      rw [hline, List.mem_append, List.mem_cons, not_or, not_or]
      exact ⟨fun hmem => (isWord_ne (henv.2 _ hmem)).2.1 rfl, by decide, hvalue⟩

include hfile

theorem recordOf_set {entry : List Char → Option (List Char × List Char)}
    {v : List Char → List Char} (hr : Reads entry v) :
    recordOf entry (readEnvLines s'.file) = Function.update (recordOf entry (readEnvLines s.file))
      env ((stored (Number.trim (value.getD []))).map v) := by
  rw [readEnvLines_set hset]
  exact recordOf_written hr (set_ok hset).1.2 hfile _

theorem ordinaryFile_set : OrdinaryFile s'.file := by
  intro line hline
  have henv := (set_ok hset).1.2
  rw [readEnvLines_set hset, List.mem_append, List.mem_append] at hline
  rcases hline with (hline | hline) | hline
  · exact hfile line (List.mem_of_mem_filter hline)
  · by_cases ht : Number.trim (value.getD []) = []
    · rw [if_pos ht] at hline
      cases hline
    · rw [if_neg ht, List.mem_singleton] at hline
      exact ordinaryLine_iff.mpr (Or.inr ⟨env, _, henv, hline⟩)
  · exact Or.inl (List.mem_singleton.mp hline)

end Call

/-! ## Runs -/

/-- Calls of `set` one after another: a call that is rejected leaves everything as it is. -/
def setAll (s : Store) (calls : List (List Char × Option (List Char))) : Store :=
  calls.foldl (fun s c => match set s c.1 c.2 with
    | .ok s' => s'
    | .error _ => s) s

theorem ordinaryFile_setAll {s : Store} (h : OrdinaryFile s.file)
    (calls : List (List Char × Option (List Char))) : OrdinaryFile (setAll s calls).file := by
  induction calls generalizing s with
  | nil => exact h
  | cons c calls ih =>
    rw [setAll, List.foldl_cons]
    cases hc : set s c.1 c.2 with
    | error e => exact ih h
    | ok s' => exact ih (ordinaryFile_set h hc)

/-- A value that both readers give back: without `#`, without quotes at its ends, and not between
backquotes. -/
def Plain (v : List Char) : Prop :=
  '#' ∉ v ∧ (∀ c ∈ v.head?, ¬ isQuote c = true) ∧ (∀ c ∈ v.getLast?, ¬ isQuote c = true) ∧
    ¬ ∃ inner, v = '\x60' :: inner ++ ['\x60']

/-- The credential survives a restart, and the other ones stay. -/
structure Survives (before after : Store) (env trimmed : List Char) : Prop where
  environment : after.environment env = stored trimmed
  readBack : readEnvFile after.file env = after.environment env
  restarted : loaded after.file env = after.environment env
  others : ∀ k, k ≠ env → readEnvFile after.file k = readEnvFile before.file k ∧
    loaded after.file k = loaded before.file k ∧ after.environment k = before.environment k

/-! ### The values of the readers -/

theorem stripQuote_eq_iff (v : List Char) :
    stripQuote v = v ↔ ∀ c ∈ v.head?, ¬ isQuote c = true := by
  cases v with
  | nil => simp [stripQuote]
  | cons c v =>
    by_cases hc : isQuote c = true
    · simp [stripQuote, hc]
    · simp [stripQuote, hc]

theorem length_stripQuote_le (v : List Char) : (stripQuote v).length ≤ v.length := by
  cases v with
  | nil => exact le_refl _
  | cons c v =>
    rw [stripQuote]
    split_ifs
    · exact Nat.le_succ _
    · exact le_refl _

theorem eq_of_stripQuote_length {v : List Char} (h : (stripQuote v).length = v.length) :
    stripQuote v = v := by
  cases v with
  | nil => rfl
  | cons c v =>
    rw [stripQuote] at h ⊢
    split_ifs at h ⊢ with hc
    · rw [List.length_cons] at h
      omega
    · rfl

theorem unquoted_eq_iff (v : List Char) :
    unquoted v = v ↔
      (∀ c ∈ v.head?, ¬ isQuote c = true) ∧ ∀ c ∈ v.getLast?, ¬ isQuote c = true := by
  rw [← List.head?_reverse, ← stripQuote_eq_iff, ← stripQuote_eq_iff, unquoted]
  constructor
  · intro h
    have hfront : stripQuote v = v := by
      apply eq_of_stripQuote_length
      have hlength := congrArg List.length h
      have hle := length_stripQuote_le (stripQuote v).reverse
      have hle' := length_stripQuote_le v
      rw [List.length_reverse] at hlength hle
      omega
    refine ⟨hfront, ?_⟩
    rw [hfront] at h
    rw [← List.reverse_eq_iff, h]
  · rintro ⟨hfront, hback⟩
    rw [hfront, hback, List.reverse_reverse]

theorem surrounded?_eq_some_iff {v inner : List Char} :
    surrounded? v = some inner ↔ ∃ q ∈ ['\'', '"', '\x60'], v = q :: inner ++ [q] := by
  cases v with
  | nil => simp [surrounded?]
  | cons c rest =>
    rw [surrounded?]
    constructor
    · intro h
      split_ifs at h with hq
      cases h
      obtain ⟨init, rfl⟩ := List.getLast?_eq_some_iff.mp hq.2
      exact ⟨c, hq.1, by rw [List.dropLast_concat]; rfl⟩
    · rintro ⟨q, hq, heq⟩
      rw [List.cons_append, List.cons.injEq] at heq
      rw [heq.1, heq.2, if_pos ⟨hq, List.getLast?_concat⟩, List.dropLast_concat]

theorem surrounded?_eq_none_iff (v : List Char) :
    surrounded? v = none ↔ ∀ q ∈ ['\'', '"', '\x60'], ¬ ∃ inner, v = q :: inner ++ [q] := by
  rw [Option.eq_none_iff_forall_ne_some]
  constructor
  · rintro h q hq ⟨inner, hv⟩
    exact h inner (surrounded?_eq_some_iff.mpr ⟨q, hq, hv⟩)
  · intro h inner hsome
    obtain ⟨q, hq, hv⟩ := surrounded?_eq_some_iff.mp hsome
    exact h q hq ⟨inner, hv⟩

theorem length_inner {v inner : List Char} (h : surrounded? v = some inner) :
    inner.length < v.length := by
  obtain ⟨q, -, rfl⟩ := surrounded?_eq_some_iff.mp h
  rw [List.cons_append, List.length_cons, List.length_append]
  omega

theorem dotenvValue_eq_iff {v : List Char} (hv : Number.trim v = v) :
    dotenvValue v = v ↔ surrounded? v = none ∧ '#' ∉ v := by
  rw [dotenvValue, hv]
  cases hs : surrounded? v with
  | some inner =>
    refine iff_of_false (fun h => ?_) fun h => by cases h.1
    have hlength := length_inner hs
    have h : inner = v := h
    rw [h] at hlength
    omega
  | none =>
    rw [Option.getD_none]
    constructor
    · intro h
      refine ⟨rfl, fun hmem => ?_⟩
      have hmem : '#' ∈ v.takeWhile (· ≠ '#') :=
        (Number.trim_infix _).subset (by rw [h]; exact hmem)
      exact absurd (List.mem_takeWhile_imp hmem) (by decide)
    · rintro ⟨-, hhash⟩
      rw [List.takeWhile_eq_self_iff.mpr, hv]
      intro c hc
      simpa using fun heq : c = '#' => hhash (heq ▸ hc)

theorem plain_iff {v : List Char} (hv : Number.trim v = v) :
    Plain v ↔ unquoted (Number.trim v) = v ∧ dotenvValue v = v := by
  rw [hv, unquoted_eq_iff, dotenvValue_eq_iff hv, surrounded?_eq_none_iff]
  constructor
  · rintro ⟨hhash, hhead, hlast, htick⟩
    refine ⟨⟨hhead, hlast⟩, ?_, hhash⟩
    rintro q hq ⟨inner, rfl⟩
    have hquote := hhead q rfl
    simp only [List.mem_cons, List.not_mem_nil, or_false] at hq
    rcases hq with rfl | rfl | rfl
    · exact hquote rfl
    · exact hquote rfl
    · exact htick ⟨inner, rfl⟩
  · rintro ⟨⟨hhead, hlast⟩, hquotes, hhash⟩
    exact ⟨hhash, hhead, hlast, hquotes '\x60' (by simp)⟩

/-- **Which values survive.** After any calls on an ordinary file, an accepted call leaves both
readers with the value in `process.env`, and every other name as it was, exactly where the value is
cleared or plain. -/
theorem survives_iff {s s' : Store} (hfile : OrdinaryFile s.file)
    (calls : List (List Char × Option (List Char))) (env : List Char) (value : Option (List Char))
    (hset : set (setAll s calls) env value = .ok s') :
    Survives (setAll s calls) s' env (Number.trim (value.getD []))
      ↔ Number.trim (value.getD []) = [] ∨ Plain (Number.trim (value.getD [])) := by
  have hreached := ordinaryFile_setAll hfile calls
  have hread := recordOf_set hreached hset reads_file
  have hload := recordOf_set hreached hset reads_loaded
  have henvironment : s'.environment = Function.update (setAll s calls).environment env
      (stored (Number.trim (value.getD []))) := by
    rw [(set_ok hset).2]
  have htrim := Number.trim_trim (value.getD [])
  generalize Number.trim (value.getD []) = trimmed at *
  rw [plain_iff htrim]
  have hothers : ∀ k, k ≠ env → readEnvFile s'.file k = readEnvFile (setAll s calls).file k ∧
      loaded s'.file k = loaded (setAll s calls).file k ∧
      s'.environment k = (setAll s calls).environment k := by
    intro k hk
    refine ⟨?_, ?_, ?_⟩
    · rw [readEnvFile, hread, Function.update_of_ne hk, readEnvFile]
    · rw [loaded, hload, Function.update_of_ne hk, loaded]
    · rw [henvironment, Function.update_of_ne hk]
  have hself : s'.environment env = stored trimmed := by rw [henvironment, Function.update_self]
  have hread' : readEnvFile s'.file env =
      (stored trimmed).map fun v => unquoted (Number.trim v) := by
    rw [readEnvFile, hread, Function.update_self]
  have hload' : loaded s'.file env = (stored trimmed).map dotenvValue := by
    rw [loaded, hload, Function.update_self]
  by_cases ht : trimmed = []
  · have hnone : stored trimmed = none := if_pos ht
    refine iff_of_true ⟨hself, ?_, ?_, hothers⟩ (Or.inl ht)
    · rw [hread', hself, hnone]; rfl
    · rw [hload', hself, hnone]; rfl
  · have hsome : stored trimmed = some trimmed := if_neg ht
    rw [hsome] at hself hread' hload'
    constructor
    · intro h
      refine Or.inr ⟨?_, ?_⟩
      · have hback := h.readBack
        rw [hread', hself] at hback
        exact Option.some.inj hback
      · have hback := h.restarted
        rw [hload', hself] at hback
        exact Option.some.inj hback
    · rintro (h | ⟨hu, hd⟩)
      · exact absurd h ht
      · refine ⟨by rw [hself, hsome], ?_, ?_, hothers⟩
        · rw [hread', hself, Option.map_some, hu]
        · rw [hload', hself, Option.map_some, hd]

/-! ### Two values -/

def oneLine : Store := ⟨some "JWT_SECRET=x\n".toList, fun _ => none⟩

theorem ordinaryFile_oneLine : OrdinaryFile oneLine.file := by
  intro line hline
  have hlines : readEnvLines oneLine.file = ["JWT_SECRET=x".toList, []] := rfl
  rw [hlines] at hline
  rcases List.mem_cons.mp hline with rfl | hline
  · refine ordinaryLine_iff.mpr (Or.inr ⟨"JWT_SECRET".toList, ['x'], ⟨by decide, ?_⟩, rfl⟩)
    exact List.all_eq_true.mp (by decide)
  · exact Or.inl (List.mem_singleton.mp hline)

theorem plain_key : Plain "sk-1".toList := by
  refine ⟨by decide, ?_, ?_, ?_⟩
  · rintro c ⟨rfl⟩
    decide
  · rintro c ⟨rfl⟩
    decide
  · rintro ⟨inner, h⟩
    cases h

/-- A key survives. -/
theorem survives_key :
    ∃ s', set (setAll oneLine [("GEMINI_API_KEY".toList, some " a#b ".toList)])
        "OPENAI_API_KEY".toList (some "sk-1 ".toList) = .ok s' ∧
      Survives (setAll oneLine [("GEMINI_API_KEY".toList, some " a#b ".toList)]) s'
        "OPENAI_API_KEY".toList "sk-1".toList :=
  ⟨_, rfl, (survives_iff ordinaryFile_oneLine _ _ (some "sk-1 ".toList) rfl).mpr (Or.inr plain_key)⟩

/-- **The next start cuts a value** at `#`. -/
theorem value_cut : ¬ ∀ (s s' : Store) (calls : List (List Char × Option (List Char)))
    (env : List Char) (value : Option (List Char)), OrdinaryFile s.file →
      set (setAll s calls) env value = .ok s' →
        Survives (setAll s calls) s' env (Number.trim (value.getD [])) := by
  intro h
  have hset : set (setAll oneLine []) "OPENAI_API_KEY".toList (some "a#b".toList) = .ok
      { file := some "JWT_SECRET=x\n\nOPENAI_API_KEY=a#b\n".toList
        environment := Function.update (fun _ => none) "OPENAI_API_KEY".toList
          (some "a#b".toList) } := rfl
  have hcut := (h oneLine _ [] _ _ ordinaryFile_oneLine hset).restarted
  have hleft : loaded (some "JWT_SECRET=x\n\nOPENAI_API_KEY=a#b\n".toList)
      "OPENAI_API_KEY".toList = some ['a'] := by decide
  rw [hleft] at hcut
  exact absurd hcut (by decide)

end Credential

end NeoTrader
