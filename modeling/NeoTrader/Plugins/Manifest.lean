import NeoTrader.Auth.Guards
import NeoTrader.Js.Utf8

/-!
# Plugins on disk

A plugin is a directory of files. Its `manifest.toml` says what it is called, what it requires and
which of its files are hooks.

* `Manifest`, `validateManifest`, `checkPluginVersion`, `semverGte`;
* `Directory`, `PluginLib`, `readManifest`: the files, and the libraries that read them;
* `parseSkillMd`: the name and the description in the front matter of a `SKILL.md`;
* `isGitUrl`, `deriveId`, `resolveInstallPath`: the directory of a source;
* `scanLocalManifests`: the plugins of the local directory.
-/

namespace NeoTrader

open Js

/-! ## Manifests -/

/-- The section `[plugin]`; a field may be missing. -/
structure PluginSection where
  id : Option String := none
  name : Option String := none
  version : Option String := none
  type : Option String := none
  description : Option String := none
  author : Option String := none
  minPlatformVersion : Option String := none
  deriving DecidableEq

/-- A credential that a plugin asks for. -/
structure CredentialSpec where
  label : String
  required : Option Bool := none
  group : Option String := none
  deriving DecidableEq

structure Manifest where
  plugin : Option PluginSection := none
  requires : Option (List String) := none
  stackRequires : Option (List String) := none
  credentials : Option (List (String × CredentialSpec)) := none
  hooks : List (String × String) := []
  skillKeys : List String := []
  network : Bool := false
  deriving DecidableEq

/-- A field of the section `[plugin]`. -/
def Manifest.section? (m : Manifest) (f : PluginSection → Option String) : Option String :=
  m.plugin.bind f

/-- `!v`, of a string that may be missing. -/
def falsy (v : Option String) : Bool := v.getD "" = ""

/-- The shape of a plugin's id: lower-case letters, digits and dashes, a letter first. -/
def pluginIdShape (id : String) : Bool :=
  match id.toList with
  | [] => false
  | c :: s => c.isLower && s.length ≤ 62 && s.all fun c => c.isLower || c.isDigit || c = '-'

def pluginTypes : List String := ["skill", "provider", "discipline", "universe", "stack", "extra"]

def validateManifest (m : Manifest) : List String :=
  let f := m.section?
  (if falsy (f PluginSection.id) then ["plugin.id es obligatorio"] else []) ++
  (if falsy (f PluginSection.name) then ["plugin.name es obligatorio"] else []) ++
  (if falsy (f PluginSection.version) then ["plugin.version es obligatorio (semver)"] else []) ++
  (if falsy (f PluginSection.type) then ["plugin.type es obligatorio"] else []) ++
  (if !falsy (f PluginSection.type) && !pluginTypes.contains ((f PluginSection.type).getD "") then
    ["plugin.type debe ser uno de: " ++ ", ".intercalate pluginTypes] else []) ++
  (if !pluginIdShape ((f PluginSection.id).getD "") then
    ["plugin.id debe ser kebab-case (ej. rsi-analysis)"] else [])

/-! ## Versions -/

/-- The number at the start of a text, and what follows it. -/
def leadingNumber (s : List Char) : Option (ℕ × List Char) :=
  match Number.digits 10 s 0 0 with
  | (_, 0, _) => none
  | (v, _, rest) => some (v, rest)

def afterDot : List Char → Option (List Char)
  | '.' :: s => some s
  | _ => none

/-- The numbers `X.Y.Z` at the start of a text. -/
def parseSemver (v : String) : Option (ℕ × ℕ × ℕ) := do
  let (major, s) ← leadingNumber (Number.trim v.toList)
  let (minor, s) ← leadingNumber (← afterDot s)
  let (patch, _) ← leadingNumber (← afterDot s)
  return (major, minor, patch)

def platformVersion : String := "1.0.0"

/-- The installed version satisfies the required one; what does not parse does not block. -/
def semverGte (installed required : String) : Bool :=
  match parseSemver installed, parseSemver required with
  | some (a₀, a₁, a₂), some (b₀, b₁, b₂) =>
    if a₀ ≠ b₀ then b₀ < a₀ else if a₁ ≠ b₁ then b₁ < a₁ else b₂ ≤ a₂
  | _, _ => true

/-- What is wrong with a version, after an existing one. -/
def checkPluginVersion (pluginVersion : String) (existingVersion : Option String) : List String :=
  match parseSemver pluginVersion with
  | none => [s!"version '{pluginVersion}' no cumple formato semver X.Y.Z"]
  | some incoming =>
    match existingVersion.filter (· ≠ "") with
    | none => []
    | some version =>
      match parseSemver version with
      | none => []
      | some existing =>
        if incoming.1 ≠ existing.1 then
          [s!"major version mismatch: instalado={version} vs nuevo={pluginVersion}. " ++
            "Los cambios de major version pueden romper compatibilidad. " ++
            "Desinstala el plugin antes de continuar."]
        else []

example : checkPluginVersion "1.2.0-beta" (some "1.0.3") = [] := by decide
example : checkPluginVersion "2.0.0" (some "1.0.3") ≠ [] := by decide

/-! ## Files -/

/-- A path inside a directory, as its segments. -/
abbrev RelPath : Type := List String

def relPath (s : String) : RelPath :=
  ((s.toList.splitOn '/').map String.ofList).filter fun seg => seg ≠ "" ∧ seg ≠ "."

/-- The files of a directory; one that cannot be read has no bytes. -/
abbrev Files : Type := List (RelPath × Option (List UInt8))

/-- A directory of the directory of the plugins. A clone knows its remote repository. -/
structure Directory where
  name : String
  files : Files := []
  remote : Option String := none
  deriving DecidableEq

/-- The bytes of a file that exists and can be read. -/
def Directory.bytes? (d : Directory) (path : RelPath) : Option (List UInt8) :=
  (d.files.find? fun f => f.1 = path).bind Prod.snd

/-- The text of a file that exists and can be read. -/
def Directory.text? (d : Directory) (path : RelPath) : Option String :=
  (d.bytes? path).map decodeUtf8

/-- A file exists, or a subdirectory with a file. -/
def Directory.exists (d : Directory) (path : RelPath) : Bool :=
  d.files.any fun f => path.isPrefixOf f.1

/-- The names of the files directly inside a subdirectory, in the order they are listed. -/
def Directory.list (d : Directory) (dir : String) : List String :=
  d.files.filterMap fun f =>
    match f.1 with
    | [parent, name] => if parent = dir then some name else none
    | _ => none

/-- The parts of libraries that the plugins rely on: the TOML parsers of both languages, the hash,
and the order of names. -/
structure PluginLib where
  parseToml : String → Option Manifest
  -- a document without keys is falsy
  tomllib : List UInt8 → Except Err (Option Manifest)
  sha256 : String → String
  localeLe : String → String → Bool

/-- The manifest of a directory; it is missing where it cannot be read or does not parse. -/
def readManifest (lib : PluginLib) (d : Option Directory) : Option Manifest :=
  d.bind fun d => (d.text? ["manifest.toml"]).bind lib.parseToml

/-! ## Front matter -/

/-- What stands before a pattern. -/
def textBefore (pat : List Char) : List Char → Option (List Char)
  | [] => if pat = [] then some [] else none
  | c :: s => if pat.isPrefixOf (c :: s) then some [] else (textBefore pat s).map (c :: ·)

def frontMatter (content : List Char) : Option (List Char) :=
  if "---\n".toList.isPrefixOf content then textBefore "\n---".toList (content.drop 4) else none

/-- The value after a key: white space, and then what is left of the line. -/
def fieldValue (s : List Char) : Option (List Char) :=
  let inLine (c : Char) : Bool := c ≠ '\n' ∧ c ≠ '\r'
  match s.dropWhile Number.isSpace with
  | [] => if s.any inLine then some [] else none
  | rest => some (Number.trim (rest.takeWhile inLine))

/-- The value of a key that starts a line. -/
def frontMatterField (key : List Char) : Bool → List Char → Option (List Char)
  | _, [] => none
  | lineStart, c :: s =>
    let here := if lineStart && key.isPrefixOf (c :: s) then fieldValue ((c :: s).drop key.length) else none
    let lineEnd := c = '\n' ∨ c = '\r' ∨ c = '\u2028' ∨ c = '\u2029'
    here <|> frontMatterField key (decide lineEnd) s

/-- The name and the description of a skill. -/
structure SkillMd where
  name : String
  description : String

/-- The name and the description in the front matter; without one they are empty. -/
def parseSkillMd (content : String) : SkillMd :=
  match frontMatter content.toList with
  | none => ⟨"", ""⟩
  | some fm =>
    ⟨String.ofList ((frontMatterField "name:".toList true fm).getD []),
      String.ofList ((frontMatterField "description:".toList true fm).getD [])⟩

def tryReadSkillMd (d : Option Directory) : Option SkillMd :=
  d.bind fun d => (d.text? ["SKILL.md"]).map parseSkillMd

example : (parseSkillMd "---\nname: RSI\ndescription:  momentum \n---\nbody").description = "momentum" := by
  decide

/-! ## Sources -/

/-- Only real git schemes. -/
def isGitUrl (source : String) : Bool :=
  "https://".toList.isPrefixOf source.toList || "git@".toList.isPrefixOf source.toList

/-- The endings of archives and of bare repositories. -/
def archiveSuffixes : List String := [".tar.git", ".tar.zip", ".tar.gz", ".git", ".zip", ".gz"]

/-- The last segment of a source, without the ending of an archive. -/
def deriveId (source : String) : String :=
  let s := (source.toList.splitOn '/').getLastD []
  match archiveSuffixes.find? fun suffix => suffix.toList.isSuffixOf s with
  | some suffix => String.ofList (s.take (s.length - suffix.length))
  | none => String.ofList s

/-- The name of the directory that a source is cloned into. A name of the right shape has no
separator, so that the path stays inside the directory of the plugins. -/
def resolveInstallPath (source : String) : Except Err String :=
  if pluginIdShape (deriveId source) then .ok (deriveId source)
  else .error (badRequest
    s!"Fuente inválida: no se pudo derivar un id de plugin válido de '{source}'")

example : deriveId "https://example.org/rsi-analysis.git" = "rsi-analysis" := by decide
example : deriveId "https://example.org/.." = ".." := by decide

/-! ## Local plugins -/

/-- A plugin found on disk. -/
structure LocalPluginRecord where
  id : String
  name : String
  description : Option String
  version : String
  type : String
  author : Option String
  installedPath : String

def Manifest.localRecord (m : Manifest) (dir : String) : LocalPluginRecord where
  id := (m.section? PluginSection.id).getD ""
  name := (m.section? PluginSection.name).getD ""
  description := m.section? PluginSection.description
  version := (m.section? PluginSection.version).getD ""
  type := (m.section? PluginSection.type).getD ""
  author := m.section? PluginSection.author
  installedPath := dir

/-- The record of a directory with a valid manifest. -/
def localRecord (lib : PluginLib) (d : Directory) : Option LocalPluginRecord :=
  (readManifest lib (some d)).bind fun m =>
    if validateManifest m = [] then some (m.localRecord d.name) else none

/-- The valid plugins of the local directory. -/
def scanLocalManifests (lib : PluginLib) (dirs : List Directory) : List LocalPluginRecord :=
  dirs.filterMap (localRecord lib)

end NeoTrader
