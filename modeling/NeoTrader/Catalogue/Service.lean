import NeoTrader.Auth.Guards
import NeoTrader.Catalogue.Manifest
import NeoTrader.Store.Indexed
import NeoTrader.Trade.Db

/-!
# The services of the store

Plugins are published in versions, voted on and reported, by publishers that have a public key and may
have a name. Requests are answered one after the other; each statement of a request takes effect on
its own, or fails.

* `StoreRequest`, **`serve`**: the requests that write.
-/

namespace NeoTrader.Catalogue

open Js

/-! ## Tables -/

/-- A publisher, under the hash of its key. -/
structure Publisher where
  id : String
  publicKey : String
  displayName : Option String := none
  deriving DecidableEq

structure Plugin where
  id : String
  publisherId : String
  manifestId : String
  type : String
  name : String
  description : String
  latestVersion : String
  repository : Option String
  deriving DecidableEq

structure PluginVersion where
  pluginId : String
  version : String
  manifestToml : String
  payload : List UInt8
  checksum : String
  signature : String
  deriving DecidableEq

inductive VoteKind
  | like
  | dislike
  deriving DecidableEq

structure Vote where
  pluginId : String
  voterId : String
  kind : VoteKind
  deriving DecidableEq

structure Report where
  pluginId : String
  reporterId : String
  reason : String
  deriving DecidableEq

/-! ### Unique columns -/

def Plugin.key (p : Plugin) : String × String := (p.publisherId, p.manifestId)
def PluginVersion.key (v : PluginVersion) : String × String := (v.pluginId, v.version)
def Vote.key (v : Vote) : String × String := (v.pluginId, v.voterId)
def Report.key (r : Report) : String × String := (r.pluginId, r.reporterId)

/-- The tables. No request deletes a row, so that the rows of foreign keys stay. -/
structure StoreDb where
  publishers : Store.Indexed Publisher.id := ∅
  plugins : Store.Indexed Plugin.key := ∅
  versions : Store.Indexed PluginVersion.key := ∅
  votes : Store.Indexed Vote.key := ∅
  reports : Store.Indexed Report.key := ∅

def StoreDb.pluginById? (db : StoreDb) (id : String) : Option Plugin :=
  db.plugins.rows.find? fun p => p.id = id

/-! ## Programs -/

/-- The libraries: the parser of TOML, and the hash SHA-256 of bytes in hexadecimal digits. -/
structure StoreLib where
  parseToml : String → Except String Toml
  sha256Hex : List UInt8 → String

inductive Statement
  | publisherUpsert
  | pluginUpsert
  | pluginFindUnique
  | versionFindUnique
  | versionCreate
  | voteUpsert
  | reportUpsert
  deriving DecidableEq

/-- What a request meets: the statements that fail, and the id of a new plugin. -/
structure StoreEnv where
  failure : Statement → Option Err := fun _ => none
  newId : String := ""

/-- A program over the tables; what it has written stays when it throws. -/
abbrev StoreM (α : Type) : Type := StoreDb → Except Err α × StoreDb

namespace StoreM

variable {α β : Type}

instance : Monad StoreM where
  pure a := fun db => (.ok a, db)
  bind p f := fun db =>
    match p db with
    | (.ok a, db') => f a db'
    | (.error e, db') => (.error e, db')

def throw (e : Err) : StoreM α := fun db => (.error e, db)

@[simp] theorem pure_apply (a : α) (db : StoreDb) : (pure a : StoreM α) db = (.ok a, db) := rfl

@[simp] theorem throw_apply (e : Err) (db : StoreDb) : (throw e : StoreM α) db = (.error e, db) := rfl

theorem bind_ok {p : StoreM α} {f : α → StoreM β} {db db' : StoreDb} {a : α}
    (h : p db = (.ok a, db')) : (p >>= f) db = f a db' := by
  show (match p db with
    | (.ok a, db') => f a db'
    | (.error e, db') => (.error e, db')) = f a db'
  rw [h]

theorem bind_error {p : StoreM α} {f : α → StoreM β} {db db' : StoreDb} {e : Err}
    (h : p db = (.error e, db')) : (p >>= f) db = (.error e, db') := by
  show (match p db with
    | (.ok a, db') => f a db'
    | (.error e, db') => (.error e, db')) = (.error e, db')
  rw [h]

end StoreM

/-- One statement: it fails as a whole, or takes effect as a whole. -/
def statement {α : Type} (e : StoreEnv) (s : Statement) (f : StoreDb → Except Err (α × StoreDb)) :
    StoreM α := fun db =>
  match e.failure s, f db with
  | some err, _ => (.error err, db)
  | none, .error err => (.error err, db)
  | none, .ok (a, db') => (.ok a, db')

/-! ## Publishers -/

/-- Adds a publisher, or updates its row. A public key belongs to one publisher. -/
def StoreDb.upsertPublisher (db : StoreDb) (row : Publisher) (update : Publisher → Publisher)
    (hu : ∀ p, p.id = row.id → (update p).id = row.id) : Except Err (Unit × StoreDb) :=
  if h : db.publishers.get? row.id = none then
    if db.publishers.rows.any fun p => p.publicKey = row.publicKey then .error uniqueViolation
    else .ok ((), { db with publishers := db.publishers.insert row h })
  else .ok ((), { db with publishers := db.publishers.update row.id update hu })

/-- Makes sure that the publisher has a row. -/
def ensurePublisher (e : StoreEnv) (id publicKey : String) : StoreM Unit :=
  statement e .publisherUpsert fun db => db.upsertPublisher { id, publicKey } (fun p => p) fun _ h => h

/-- What an update writes: `undefined` leaves the name as it is. -/
def renamed (displayName : Option (Option String)) (p : Publisher) : Publisher :=
  { p with displayName := displayName.getD p.displayName }

@[simp] theorem renamed_id (displayName : Option (Option String)) (p : Publisher) :
    (renamed displayName p).id = p.id := rfl

/-- Sets or removes the name of a publisher; `none` is `undefined`. -/
def setName (e : StoreEnv) (id publicKey : String) (displayName : Option (Option String)) :
    StoreM Unit :=
  statement e .publisherUpsert fun db =>
    db.upsertPublisher { id, publicKey, displayName := displayName.getD none } (renamed displayName)
      fun p h => (renamed_id displayName p).trans h

/-! ## Plugins -/

/-- What a publication writes on the row of an existing plugin. -/
def Manifest.updates (m : Manifest) (p : Plugin) : Plugin :=
  { p with
    name := m.name, description := m.description, latestVersion := m.version
    repository := m.repository }

@[simp] theorem Manifest.updates_key (m : Manifest) (p : Plugin) : (m.updates p).key = p.key := rfl

/-- The row of a new plugin. -/
def Manifest.creates (m : Manifest) (id publisherId : String) : Plugin :=
  { id, publisherId, manifestId := m.id, type := m.type, name := m.name
    description := m.description, latestVersion := m.version, repository := m.repository }

@[simp] theorem Manifest.creates_key (m : Manifest) (id publisherId : String) :
    (m.creates id publisherId).key = (publisherId, m.id) := rfl

/-- Updates the plugin of the publisher, or adds it. -/
def StoreDb.upsertPlugin (db : StoreDb) (newId publisherId : String) (m : Manifest) :
    Except Err (Plugin × StoreDb) :=
  match h : db.plugins.get? (publisherId, m.id) with
  | some p => .ok (m.updates p, { db with
      plugins := db.plugins.update (publisherId, m.id) m.updates fun p h =>
        (m.updates_key p).trans h })
  | none =>
    if db.plugins.rows.any fun p => p.id = newId then .error uniqueViolation
    else .ok (m.creates newId publisherId, { db with
      plugins := db.plugins.insert (m.creates newId publisherId)
        ((congrArg _ (m.creates_key newId publisherId)).trans h) })

/-- Adds a version; a plugin has a version once. -/
def StoreDb.createVersion (db : StoreDb) (row : PluginVersion) : Except Err (Unit × StoreDb) :=
  if h : db.versions.get? row.key = none then
    .ok ((), { db with versions := db.versions.insert row h })
  else .error uniqueViolation

/-! ### Base 64 -/

/-- The value of a digit, of either alphabet. -/
def base64Digit (c : Char) : Option ℕ :=
  if c.isUpper then some (c.toNat - 65)
  else if c.isLower then some (c.toNat - 71)
  else if c.isDigit then some (c.toNat + 4)
  else if c = '+' ∨ c = '-' then some 62
  else if c = '/' ∨ c = '_' then some 63
  else none

/-- The bytes of digits, four at a time. -/
def base64Bytes : List ℕ → List UInt8
  | a :: b :: c :: d :: l =>
    UInt8.ofNat (a * 4 + b / 16) :: UInt8.ofNat (b * 16 + c / 4) :: UInt8.ofNat (c * 64 + d) ::
      base64Bytes l
  | [a, b, c] => [UInt8.ofNat (a * 4 + b / 16), UInt8.ofNat (b * 16 + c / 4)]
  | [a, b] => [UInt8.ofNat (a * 4 + b / 16)]
  | _ => []

/-- `Buffer.from(s, 'base64')`: other characters are passed over. -/
def decodeBase64 (s : String) : List UInt8 := base64Bytes (s.toList.filterMap base64Digit)

example : decodeBase64 "aG9sYQ==" = [104, 111, 108, 97] := by decide

def base64Alphabet : List Char :=
  "ABCDEFGHIJKLMNOPQRSTUVWXYZabcdefghijklmnopqrstuvwxyz0123456789+/".toList

/-- The digit of six bits. -/
def base64Char (n : ℕ) : Char := base64Alphabet.getD (n % 64) '='

/-- The digits of bytes, padded. -/
def base64Chars : List UInt8 → List Char
  | [] => []
  | [a] => [base64Char (a.toNat / 4), base64Char (a.toNat * 16), '=', '=']
  | [a, b] =>
    [base64Char (a.toNat / 4), base64Char (a.toNat * 16 + b.toNat / 16), base64Char (b.toNat * 4), '=']
  | a :: b :: c :: l =>
    base64Char (a.toNat / 4) :: base64Char (a.toNat % 4 * 16 + b.toNat / 16) ::
      base64Char (b.toNat % 16 * 4 + c.toNat / 64) :: base64Char c.toNat :: base64Chars l

/-- `buffer.toString('base64')`. -/
def encodeBase64 (bytes : List UInt8) : String := String.ofList (base64Chars bytes)

example : encodeBase64 [104, 111, 108, 97] = "aG9sYQ==" := by decide

/-! ### Publication -/

/-- What the caller of a publication is told. -/
structure PublishResult where
  id : String
  manifestId : String
  version : String
  deriving DecidableEq

/-- **Publishes a version of a plugin.** The row of the plugin is written first. -/
def publish (lib : StoreLib) (e : StoreEnv) (publisherId publicKey manifestToml payloadBase64 : String) :
    StoreM PublishResult :=
  match parseAndValidateManifest lib.parseToml manifestToml with
  | .error message => StoreM.throw { name := "BadRequestException", message }
  | .ok m => do
    let payload := decodeBase64 payloadBase64
    let checksum := lib.sha256Hex payload
    ensurePublisher e publisherId publicKey
    let plugin ← statement e .pluginUpsert fun db => db.upsertPlugin e.newId publisherId m
    let dup ← statement e .versionFindUnique fun db => .ok (db.versions.get? (plugin.id, m.version), db)
    match dup with
    | some _ => StoreM.throw (conflict s!"versión {m.version} ya publicada")
    | none =>
      statement e .versionCreate fun db => db.createVersion
        { pluginId := plugin.id, version := m.version, manifestToml, payload, checksum, signature := "" }
      return { id := plugin.id, manifestId := m.id, version := m.version }

structure DownloadResult where
  manifestToml : String
  payloadBase64 : String
  checksum : String

/-- A version that was published. -/
def download (e : StoreEnv) (publisherId manifestId version : String) :
    StoreM DownloadResult := do
  let plugin ← statement e .pluginFindUnique fun db =>
    .ok (db.plugins.get? (publisherId, manifestId), db)
  match plugin with
  | none => StoreM.throw (notFound "plugin no encontrado")
  | some plugin =>
    let found ← statement e .versionFindUnique fun db => .ok (db.versions.get? (plugin.id, version), db)
    match found with
    | none => StoreM.throw (notFound "versión no encontrada")
    | some v => return {
        manifestToml := v.manifestToml, payloadBase64 := encodeBase64 v.payload
        checksum := v.checksum }

/-! ## Votes and reports -/

/-- The plugin that a vote or a report is about. -/
def findPlugin (e : StoreEnv) (pluginId : String) : StoreM Plugin := do
  let plugin ← statement e .pluginFindUnique fun db => .ok (db.pluginById? pluginId, db)
  match plugin with
  | none => StoreM.throw (notFound "plugin no encontrado")
  | some plugin => return plugin

/-- Records the vote of a publisher, in place of its earlier one. -/
def vote (e : StoreEnv) (pluginId voterId voterKey : String) (kind : VoteKind) : StoreM Unit := do
  let _ ← findPlugin e pluginId
  ensurePublisher e voterId voterKey
  statement e .voteUpsert fun db =>
    .ok ((), { db with votes := db.votes.put { pluginId, voterId, kind } })

/-- Records the report of a publisher, in place of its earlier one. -/
def report (e : StoreEnv) (pluginId reporterId reporterKey reason : String) : StoreM Unit := do
  let _ ← findPlugin e pluginId
  ensurePublisher e reporterId reporterKey
  statement e .reportUpsert fun db =>
    .ok ((), { db with reports := db.reports.put { pluginId, reporterId, reason } })

/-! ## Requests -/

/-- A request that writes. -/
inductive StoreAction
  | publish (manifestToml payloadBase64 : String)
  | vote (pluginId : String) (kind : VoteKind)
  | report (pluginId reason : String)
  | setName (displayName : Option (Option String))
  deriving DecidableEq

/-- A request, in the name of a publisher. -/
structure StoreRequest where
  publisherId : String
  publicKey : String
  action : StoreAction
  deriving DecidableEq

/-- **Answers a request.** -/
def serve (lib : StoreLib) (e : StoreEnv) (r : StoreRequest) : StoreM (Option PublishResult) :=
  match r.action with
  | .publish manifestToml payloadBase64 => do
    return some (← publish lib e r.publisherId r.publicKey manifestToml payloadBase64)
  | .vote pluginId kind => do
    vote e pluginId r.publisherId r.publicKey kind
    return none
  | .report pluginId reason => do
    report e pluginId r.publisherId r.publicKey reason
    return none
  | .setName displayName => do
    setName e r.publisherId r.publicKey displayName
    return none

end NeoTrader.Catalogue
