import NeoTrader.Trade.Rows

/-!
# Manifests of the store

A plugin is published with a manifest in TOML. The store checks the section `[plugin]`, and the block
of the plugin's type where there is one.

* `Toml`: the values of a parsed document;
* `Manifest`, `parseAndValidateManifest`, and the checks that it makes;
* **`manifest_wellFormed`**: an accepted manifest has a kebab-case id and no blank field.
-/

namespace NeoTrader.Catalogue

open Js

/-! ## Documents -/

/-- A value of a TOML document. A date is kept as its text. -/
inductive Toml
  | str (s : String)
  | num (n : Number)
  | bool (b : Bool)
  | date (text : String)
  | arr (l : List Toml)
  | table (fields : List (String × Toml))

namespace Toml

/-- `typeof v`. -/
def typeof : Option Toml → String
  | none => "undefined"
  | some (str _) => "string"
  | some (num _) => "number"
  | some (bool _) => "boolean"
  | some (date _) | some (arr _) | some (table _) => "object"

/-- `v[key]`, for the keys that the store reads. -/
def field (v : Toml) (key : String) : Option Toml :=
  match v with
  | table fields => (fields.find? fun f => f.1 = key).map Prod.snd
  | _ => none

/-- `Object.entries(v)` of an object. -/
def entries : Toml → List (String × Toml)
  | table fields => fields
  | arr l => l.zipIdx.map fun (v, i) => (toString i, v)
  | _ => []

/-- The value, if it is an object. -/
def object? : Option Toml → Option Toml
  | some v => if typeof (some v) = "object" then some v else none
  | none => none

mutual

/-- `String(v)`. -/
def toText : Toml → Text
  | str s => [.lit s]
  | num n => [.num n]
  | bool b => [.lit (if b then "true" else "false")]
  | date text => [.lit text]
  | arr l => listText l
  | table _ => [.lit "[object Object]"]

/-- The texts of the elements of an array, with commas between them. -/
def listText : List Toml → Text
  | [] => []
  | [v] => v.toText
  | v :: l => v.toText ++ .lit "," :: listText l

end

end Toml

/-- A text without numbers, as one string. -/
def plainText? : Text → Option String
  | [] => some ""
  | .lit s :: t => (plainText? t).map (s ++ ·)
  | .num _ :: _ => none

/-! ## Checks -/

/-- `!s.trim()`. -/
def blank (s : String) : Bool := (Number.trim s.toList).isEmpty

/-- `s.split(sep)`, for a separator of one character. -/
def split (sep : Char) (s : String) : List (List Char) := s.toList.splitOn sep

/-- `/^[a-z0-9]+(-[a-z0-9]+)*$/`. -/
def isKebab (s : String) : Bool :=
  (split '-' s).all fun part => !part.isEmpty && part.all fun c => c.isLower || c.isDigit

def requiredPluginFields : List String := ["id", "name", "type", "version", "author", "description"]

def requireStringField (obj : Toml) (field pre : String) : Except Text String :=
  match obj.field field with
  | some (.str s) => if blank s then .error [.lit s!"{pre}.{field} requerido"] else .ok s
  | _ => .error [.lit s!"{pre}.{field} requerido"]

/-- The section `[plugin]`. -/
def extractRecord (data : Toml) : Except Text Toml :=
  match Toml.object? (data.field "plugin") with
  | some v => .ok v
  | none => .error [.lit "falta [plugin]"]

/-- The required fields of the section. -/
def validatePluginFields (record : Toml) : Except Text Unit :=
  requiredPluginFields.forM fun c => do
    let _ ← requireStringField record c "[plugin]"

def clasesActivo : List String := ["equity", "etf", "crypto", "commodity"]

def validateUniverse (payload : Toml) : Except Text Unit :=
  match Toml.object? (payload.field "symbols") with
  | none => .error [.lit "[universe].symbols debe ser un objeto no vacío"]
  | some syms =>
    if syms.entries = [] then .error [.lit "[universe].symbols debe ser un objeto no vacío"]
    else syms.entries.forM fun (sym, clase) =>
      if (plainText? clase.toText).any clasesActivo.contains then .ok ()
      else .error (.lit "clase '" :: clase.toText ++ [.lit s!"' inválida para {sym}"])

def validateSkill (payload : Toml) : Except Text Unit := do
  if Toml.typeof (payload.field "name") ≠ "string" then
    throw [.lit "[skill].name requerido"]
  if let some (.str file) := payload.field "file" then
    if file.toList.head? = some '/' ∨ (split '/' file).contains ['.', '.'] then
      throw [.lit "[skill].file debe ser relativo sin \"..\""]
  if Toml.typeof (payload.field "prompt") ≠ "string" ∧ Toml.typeof (payload.field "file") ≠ "string" then
    throw [.lit "[skill] necesita prompt o file"]

def validatePreset (payload : Toml) : Except Text Unit :=
  if ((Toml.object? (payload.field "config")).map Toml.entries).getD [] = [] then
    .error [.lit "[preset].config no vacío requerido"]
  else .ok ()

/-- The fields of a discipline profile, and their types. -/
def disciplineFields : List (String × String) :=
  [("dsr_threshold", "number"), ("min_sources", "number"), ("stress_windows", "object"),
    ("ex_ante_discount", "number"), ("require_preregistration", "boolean")]

def validateDisciplineProfile (payload : Toml) : Except Text Unit :=
  disciplineFields.forM fun (campo, t) =>
    if Toml.typeof (payload.field campo) = t then .ok ()
    else .error [.lit s!"[discipline].{campo} inválido"]

/-- The block of a type of plugins, and its check. -/
def payloadBlock : String → Option (String × (Toml → Except Text Unit))
  | "skill" => some ("skill", validateSkill)
  | "universe" => some ("universe", validateUniverse)
  | "preset" => some ("preset", validatePreset)
  | "discipline-profile" => some ("discipline", validateDisciplineProfile)
  | _ => none

/-- The block of the plugin's type, checked if it is there. -/
def extractOptionalPayload (data : Toml) (type : String) : Except Text Toml :=
  match payloadBlock type with
  | none => .ok (.table [])
  | some (blockName, validatePayload) =>
    match Toml.object? (data.field blockName) with
    | none => .ok (.table [])
    | some payload => do
      validatePayload payload
      return payload

/-- The fields `fields` and `form` of the section `[config]`. -/
def extractConfigSpec (data : Toml) : Toml :=
  let cfg := (Toml.object? (data.field "config")).getD (.table [])
  .table (["fields", "form"].filterMap fun key => (cfg.field key).map fun v => (key, v))

/-! ## Manifests -/

structure Manifest where
  id : String
  name : String
  type : String
  version : String
  author : String
  description : String
  repository : Option String
  payload : Toml
  configSpec : Toml
  raw : Toml

def stringField (record : Toml) (field : String) : String :=
  match record.field field with
  | some (.str s) => s
  | _ => ""

/-- The repository, trimmed, if it is given. -/
def repositoryField (record : Toml) : Option String :=
  match record.field "repository" with
  | some (.str s) => if blank s then none else some (String.ofList (Number.trim s.toList))
  | _ => none

/-- **Parses and checks a manifest.** The argument is the parser of the TOML library. -/
def parseAndValidateManifest (parseToml : String → Except String Toml) (text : String) :
    Except Text Manifest :=
  match parseToml text with
  | .error e => .error [.lit s!"TOML inválido: {e}"]
  | .ok data => do
    let record ← extractRecord data
    validatePluginFields record
    let id := stringField record "id"
    let type := stringField record "type"
    if !isKebab id then throw [.lit s!"id '{id}' no es kebab-case"]
    let payload ← extractOptionalPayload data type
    return {
      id, type, payload
      name := stringField record "name", version := stringField record "version"
      author := stringField record "author", description := stringField record "description"
      repository := repositoryField record, configSpec := extractConfigSpec data, raw := data }

/-- What the checks make sure of. -/
structure Manifest.WellFormed (m : Manifest) : Prop where
  kebab : isKebab m.id
  filled : ∀ s ∈ [m.id, m.name, m.type, m.version, m.author, m.description], ¬ blank s

theorem requireStringField_ok {record : Toml} {field pre s : String}
    (h : requireStringField record field pre = .ok s) : stringField record field = s ∧ ¬ blank s := by
  unfold requireStringField at h
  unfold stringField
  split at h
  · next t =>
    split_ifs at h with hblank
    cases h
    exact ⟨rfl, hblank⟩
  · cases h

theorem validatePluginFields_ok {record : Toml} (h : validatePluginFields record = .ok ()) :
    ∀ f ∈ requiredPluginFields, ¬ blank (stringField record f) := by
  unfold validatePluginFields at h
  generalize requiredPluginFields = l at h ⊢
  induction l with
  | nil => simp
  | cons f l ih =>
    cases hf : requireStringField record f "[plugin]" with
    | error e =>
      simp only [List.forM, hf] at h
      cases h
    | ok s =>
      simp only [List.forM, hf] at h
      obtain ⟨hs, hblank⟩ := requireStringField_ok hf
      exact List.forall_mem_cons.2 ⟨hs ▸ hblank, ih h⟩

/-- **An accepted manifest** has a kebab-case id and no blank field. -/
theorem manifest_wellFormed {parseToml : String → Except String Toml} {text : String} {m : Manifest}
    (h : parseAndValidateManifest parseToml text = .ok m) : m.WellFormed := by
  unfold parseAndValidateManifest at h
  split at h
  · cases h
  · next data _ =>
    cases hrecord : extractRecord data with
    | error e =>
      rw [hrecord] at h
      cases h
    | ok record =>
      rw [hrecord] at h
      cases hfields : validatePluginFields record with
      | error e =>
        simp only [bind, Except.bind, hfields] at h
        cases h
      | ok u =>
        have hfilled := validatePluginFields_ok hfields
        by_cases hkebab : isKebab (stringField record "id") = true
        · cases hpayload : extractOptionalPayload data (stringField record "type") with
          | error e => simp [bind, Except.bind, hfields, hkebab, hpayload] at h
          | ok payload =>
            simp [bind, Except.bind, hfields, hkebab, hpayload, pure, Except.pure] at h
            subst h
            refine ⟨hkebab, ?_⟩
            simpa [requiredPluginFields, and_assoc, and_left_comm] using hfilled
        · simp [bind, Except.bind, hfields, hkebab, throw, throwThe, MonadExceptOf.throw] at h

end NeoTrader.Catalogue
