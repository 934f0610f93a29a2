import NeoTrader.Catalogue.Service

/-!
# What a request of the store writes

* **`publish_refused`**, **`publish_late`**, **`publish_done`**: the three ends of a publication.
-/

namespace NeoTrader.Catalogue

open Js Store

/-! ## Programs -/

section Programs

variable {α β : Type} {e : StoreEnv} {s : Statement} {db db' : StoreDb}

theorem statement_ok {f : StoreDb → Except Err (α × StoreDb)} {a : α} (he : e.failure s = none)
    (hf : f db = .ok (a, db')) : statement e s f db = (.ok a, db') := by
  simp only [statement, he, hf]

theorem statement_failed {f : StoreDb → Except Err (α × StoreDb)}
    (h : e.failure s ≠ none ∨ ∃ err, f db = .error err) :
    ∃ err, statement e s f db = (.error err, db) := by
  cases he : e.failure s with
  | some err => exact ⟨err, by simp only [statement, he]⟩
  | none =>
    obtain ⟨err, hf⟩ := h.resolve_left (by simp [he])
    exact ⟨err, by simp only [statement, he, hf]⟩

theorem statement_bind_failed {f : StoreDb → Except Err (α × StoreDb)} {g : α → StoreM β}
    (h : e.failure s ≠ none ∨ ∃ err, f db = .error err) :
    ∃ err, (statement e s f >>= g) db = (.error err, db) := by
  obtain ⟨err, hfailed⟩ := statement_failed h
  exact ⟨err, StoreM.bind_error hfailed⟩

theorem statement_cases {f : StoreDb → Except Err (α × StoreDb)} {x : Except Err α}
    (h : statement e s f db = (x, db')) :
    (∃ err, x = .error err ∧ db' = db) ∨ ∃ a, x = .ok a ∧ f db = .ok (a, db') := by
  unfold statement at h
  split at h
  · cases h
    exact .inl ⟨_, rfl, rfl⟩
  · cases h
    exact .inl ⟨_, rfl, rfl⟩
  · next hf =>
    cases h
    exact .inr ⟨_, rfl, hf⟩

theorem StoreM.bind_cases {p : StoreM α} {f : α → StoreM β} {x : Except Err β}
    (h : (p >>= f) db = (x, db')) :
    (∃ err, p db = (.error err, db') ∧ x = .error err) ∨
      ∃ a db₁, p db = (.ok a, db₁) ∧ f a db₁ = (x, db') := by
  cases hp : p db with
  | mk y db₁ =>
    cases y with
    | error err =>
      rw [StoreM.bind_error hp] at h
      cases h
      exact .inl ⟨err, rfl, rfl⟩
    | ok a =>
      rw [StoreM.bind_ok hp] at h
      exact .inr ⟨a, db₁, rfl, h⟩

end Programs

/-! ## The other tables -/

/-- The tables of plugins and versions are the same. -/
structure SameCatalogue (db db' : StoreDb) : Prop where
  plugins : db'.plugins = db.plugins
  versions : db'.versions = db.versions

theorem SameCatalogue.refl (db : StoreDb) : SameCatalogue db db := ⟨rfl, rfl⟩

theorem SameCatalogue.trans {db db₁ db₂ : StoreDb} (h : SameCatalogue db db₁)
    (h' : SameCatalogue db₁ db₂) : SameCatalogue db db₂ :=
  ⟨h'.plugins.trans h.plugins, h'.versions.trans h.versions⟩

section Publishers

variable {e : StoreEnv} {db db' : StoreDb} {x : Except Err Unit} {row : Publisher}
  {update : Publisher → Publisher} {hu : ∀ p, p.id = row.id → (update p).id = row.id}

theorem upsertPublisher_same (h : db.upsertPublisher row update hu = .ok ((), db')) :
    SameCatalogue db db' := by
  unfold StoreDb.upsertPublisher at h
  split_ifs at h
  · cases h
    exact ⟨rfl, rfl⟩
  · cases h
    exact ⟨rfl, rfl⟩

theorem statement_publisher_same
    (h : statement e .publisherUpsert (fun db => db.upsertPublisher row update hu) db = (x, db')) :
    SameCatalogue db db' := by
  rcases statement_cases h with ⟨_, -, rfl⟩ | ⟨_, -, hf⟩
  · exact .refl _
  · exact upsertPublisher_same hf

/-- The row of the publisher is there, or can be made. -/
def PublisherReady (e : StoreEnv) (id publicKey : String) (db : StoreDb) : Prop :=
  e.failure .publisherUpsert = none ∧
    ((db.publishers.get? id).isSome ∨ ∀ p ∈ db.publishers.rows, p.publicKey ≠ publicKey)

theorem ensurePublisher_ok {id publicKey : String} (h : PublisherReady e id publicKey db) :
    ∃ db', ensurePublisher e id publicKey db = (.ok (), db') ∧ SameCatalogue db db' := by
  cases hget : db.publishers.get? id with
  | some p =>
    have hu : ∀ p : Publisher, p.id = id → p.id = id := fun _ h => h
    refine ⟨{ db with publishers := db.publishers.update id (fun p => p) hu }, statement_ok h.1 ?_,
      rfl, rfl⟩
    exact dif_neg (by simp [hget])
  | none =>
    have hkeys : (db.publishers.rows.any fun p => p.publicKey = publicKey) = false := by
      simpa using h.2.resolve_left (by simp [hget])
    refine ⟨{ db with publishers := db.publishers.insert { id, publicKey } hget },
      statement_ok h.1 ?_, rfl, rfl⟩
    simp [StoreDb.upsertPublisher, hget, hkeys]

theorem ensurePublisher_failed {id publicKey : String} (h : ¬ PublisherReady e id publicKey db) :
    ∃ err, ensurePublisher e id publicKey db = (.error err, db) := by
  refine statement_failed ?_
  by_cases he : e.failure .publisherUpsert = none
  · right
    simp only [PublisherReady, he, true_and, not_or, not_forall, not_not] at h
    obtain ⟨hnone, p, hp, hkey⟩ := h
    have hget : db.publishers.get? id = none := by simpa using hnone
    have hkeys : (db.publishers.rows.any fun p => p.publicKey = publicKey) = true := by
      simpa using ⟨p, hp, hkey⟩
    exact ⟨uniqueViolation, by simp [StoreDb.upsertPublisher, hget, hkeys]⟩
  · exact .inl he

end Publishers

/-! ## Publications -/

section Publish

variable {lib : StoreLib} {e : StoreEnv} {publisherId publicKey manifestToml payloadBase64 : String}
  {db : StoreDb} {m : Manifest}

/-- The row of the plugin after its publication. -/
def Manifest.row (m : Manifest) (newId publisherId : String) (db : StoreDb) : Plugin :=
  match db.plugins.get? (publisherId, m.id) with
  | some p => m.updates p
  | none => m.creates newId publisherId

/-- The row of the plugin is there, or can be made. -/
def PluginReady (e : StoreEnv) (publisherId : String) (m : Manifest) (db : StoreDb) : Prop :=
  e.failure .pluginUpsert = none ∧
    ((db.plugins.get? (publisherId, m.id)).isSome ∨ ∀ p ∈ db.plugins.rows, p.id ≠ e.newId)

/-- The publication fails after the row of the plugin was written. -/
def LateFailure (e : StoreEnv) (publisherId : String) (m : Manifest) (db : StoreDb) : Prop :=
  e.failure .versionFindUnique ≠ none ∨ e.failure .versionCreate ≠ none ∨
    (db.versions.get? ((m.row e.newId publisherId db).id, m.version)).isSome

/-- The table of plugins after a publication. -/
structure Upserted (newId publisherId : String) (m : Manifest) (db db' : StoreDb) : Prop where
  row : db'.plugins.get? (publisherId, m.id) = some (m.row newId publisherId db)
  others : ∀ k, k ≠ (publisherId, m.id) → db'.plugins.get? k = db.plugins.get? k
  same : ∀ p, db.plugins.get? (publisherId, m.id) = some p → m.updates p = p →
    db'.plugins = db.plugins

theorem Upserted.same_iff {newId publisherId : String} {m : Manifest} {db db' : StoreDb}
    (h : Upserted newId publisherId m db db') : db'.plugins = db.plugins ↔
      ∃ p, db.plugins.get? (publisherId, m.id) = some p ∧ m.updates p = p := by
  constructor
  · intro hsame
    have hrow := h.row
    rw [hsame] at hrow
    obtain ⟨p, hp⟩ : ∃ p, db.plugins.get? (publisherId, m.id) = some p := ⟨_, hrow⟩
    have hupdates : m.row newId publisherId db = m.updates p := by
      simp only [Manifest.row, hp]
    rw [hp, hupdates] at hrow
    exact ⟨p, hp, (Option.some.inj hrow).symm⟩
  · rintro ⟨p, hp, hu⟩
    exact h.same p hp hu

theorem upsertPlugin_ok (h : PluginReady e publisherId m db) :
    ∃ db', db.upsertPlugin e.newId publisherId m = .ok (m.row e.newId publisherId db, db') ∧
      db' = { db with plugins := db'.plugins } ∧ Upserted e.newId publisherId m db db' := by
  unfold StoreDb.upsertPlugin
  split
  · next p hp =>
    have hrow : m.row e.newId publisherId db = m.updates p := by
      simp only [Manifest.row, hp]
    refine ⟨_, congrArg (fun r => Except.ok (r, _)) hrow.symm, rfl, ?_, fun k hk => ?_,
      fun p' hp' hsame => ?_⟩
    · rw [hrow, Indexed.get?_update, if_pos rfl, hp, Option.map_some]
    · rw [Indexed.get?_update, if_neg hk]
    · rw [Indexed.update_eq_self_iff]
      intro r hr
      rw [hp'] at hr
      cases hr
      exact hsame
  · next hp =>
    have hrow : m.row e.newId publisherId db = m.creates e.newId publisherId := by
      simp only [Manifest.row, hp]
    have hids : (db.plugins.rows.any fun p => p.id = e.newId) = false := by
      simpa using h.2.resolve_left (by simp [hp])
    rw [if_neg (by simp [hids])]
    refine ⟨_, congrArg (fun r => Except.ok (r, _)) hrow.symm, rfl, ?_, fun k hk => ?_,
      fun p' hp' => ?_⟩
    · rw [hrow, Indexed.get?_insert, if_pos (m.creates_key _ _).symm]
    · rw [Indexed.get?_insert, if_neg (by simpa using hk)]
    · rw [hp] at hp'
      cases hp'

theorem upsertPlugin_failed (h : ¬ PluginReady e publisherId m db) :
    e.failure .pluginUpsert ≠ none ∨ ∃ err, db.upsertPlugin e.newId publisherId m = .error err := by
  by_cases he : e.failure .pluginUpsert = none
  · right
    simp only [PluginReady, he, true_and, not_or, not_forall, not_not] at h
    obtain ⟨hnone, p, hp, hid⟩ := h
    have hget : db.plugins.get? (publisherId, m.id) = none := by simpa using hnone
    have hids : (db.plugins.rows.any fun p => p.id = e.newId) = true := by
      simpa using ⟨p, hp, hid⟩
    unfold StoreDb.upsertPlugin
    split
    · next hsome => exact absurd hsome (by simp [hget])
    · exact ⟨_, if_pos hids⟩
  · exact .inl he

theorem row_congr {db db' : StoreDb} (h : SameCatalogue db db') (newId : String) :
    m.row newId publisherId db' = m.row newId publisherId db := by
  simp only [Manifest.row, h.plugins]

theorem pluginReady_congr {db db' : StoreDb} (h : SameCatalogue db db') :
    PluginReady e publisherId m db' ↔ PluginReady e publisherId m db := by
  simp only [PluginReady, h.plugins]

def publishedVersion (lib : StoreLib) (pluginId manifestToml payloadBase64 : String) (m : Manifest) :
    PluginVersion :=
  let payload := decodeBase64 payloadBase64
  { pluginId, version := m.version, manifestToml, payload, checksum := lib.sha256Hex payload
    signature := "" }

/-- The statements after the row of the plugin was written. -/
def publishVersion (lib : StoreLib) (e : StoreEnv) (m : Manifest) (manifestToml payloadBase64 : String)
    (plugin : Plugin) : StoreM PublishResult := do
  let dup ← statement e .versionFindUnique fun db => .ok (db.versions.get? (plugin.id, m.version), db)
  match dup with
  | some _ => StoreM.throw (conflict s!"versión {m.version} ya publicada")
  | none =>
    statement e .versionCreate fun db => db.createVersion
      (publishedVersion lib plugin.id manifestToml payloadBase64 m)
    return { id := plugin.id, manifestId := m.id, version := m.version }

theorem publish_eq (hm : parseAndValidateManifest lib.parseToml manifestToml = .ok m) :
    publish lib e publisherId publicKey manifestToml payloadBase64 = (do
      ensurePublisher e publisherId publicKey
      let plugin ← statement e .pluginUpsert fun db => db.upsertPlugin e.newId publisherId m
      publishVersion lib e m manifestToml payloadBase64 plugin) := by
  unfold publish
  rw [hm]
  rfl

theorem publish_invalid {message : Text}
    (hm : parseAndValidateManifest lib.parseToml manifestToml = .error message) :
    publish lib e publisherId publicKey manifestToml payloadBase64 db =
      (.error { name := "BadRequestException", message }, db) := by
  unfold publish
  rw [hm]
  rfl

variable (payloadBase64) in
/-- **A publication that does not get to the row of the plugin.** -/
theorem publish_refused (hm : parseAndValidateManifest lib.parseToml manifestToml = .ok m)
    (h : ¬ (PublisherReady e publisherId publicKey db ∧ PluginReady e publisherId m db)) :
    ∃ err db', publish lib e publisherId publicKey manifestToml payloadBase64 db = (.error err, db') ∧
      SameCatalogue db db' := by
  rw [publish_eq hm]
  by_cases hpub : PublisherReady e publisherId publicKey db
  · obtain ⟨db₁, hensure, hsame⟩ := ensurePublisher_ok hpub
    have hready : ¬ PluginReady e publisherId m db₁ := by
      rw [pluginReady_congr hsame]
      exact fun hplugin => h ⟨hpub, hplugin⟩
    obtain ⟨err, hupsert⟩ := statement_bind_failed (s := .pluginUpsert)
      (f := fun db => db.upsertPlugin e.newId publisherId m)
      (g := publishVersion lib e m manifestToml payloadBase64) (upsertPlugin_failed hready)
    exact ⟨err, db₁, (StoreM.bind_ok hensure).trans hupsert, hsame⟩
  · obtain ⟨err, hensure⟩ := ensurePublisher_failed hpub
    exact ⟨err, db, StoreM.bind_error hensure, .refl db⟩

variable (payloadBase64) in
theorem publish_upserted (hm : parseAndValidateManifest lib.parseToml manifestToml = .ok m)
    (hpub : PublisherReady e publisherId publicKey db) (hplugin : PluginReady e publisherId m db) :
    ∃ db', publish lib e publisherId publicKey manifestToml payloadBase64 db =
        publishVersion lib e m manifestToml payloadBase64 (m.row e.newId publisherId db) db' ∧
      db'.versions = db.versions ∧ Upserted e.newId publisherId m db db' := by
  obtain ⟨db₁, hensure, hsame⟩ := ensurePublisher_ok hpub
  obtain ⟨db₂, hupsert, hrest, hup⟩ := upsertPlugin_ok ((pluginReady_congr hsame).2 hplugin)
  have hversions : db₂.versions = db₁.versions := by rw [hrest]
  have hrow : m.row e.newId publisherId db₁ = m.row e.newId publisherId db := row_congr hsame _
  refine ⟨db₂, ?_, hversions.trans hsame.versions, ?_, fun k hk => ?_, fun p hp hu => ?_⟩
  · rw [publish_eq hm, StoreM.bind_ok hensure, StoreM.bind_ok (statement_ok hplugin.1 hupsert), hrow]
  · rw [hup.row, hrow]
  · rw [hup.others k hk, hsame.plugins]
  · rw [hup.same p (by rw [hsame.plugins, hp]) hu, hsame.plugins]

variable (lib manifestToml payloadBase64) in
theorem publishVersion_late {db' : StoreDb} (hversions : db'.versions = db.versions)
    (hlate : LateFailure e publisherId m db) :
    ∃ err, publishVersion lib e m manifestToml payloadBase64 (m.row e.newId publisherId db) db' =
      (.error err, db') := by
  unfold publishVersion
  by_cases hfind : e.failure .versionFindUnique = none
  · rw [StoreM.bind_ok (statement_ok hfind rfl), hversions]
    cases hget : db.versions.get? ((m.row e.newId publisherId db).id, m.version) with
    | some v => exact ⟨_, rfl⟩
    | none =>
      rw [LateFailure, hget] at hlate
      have hcreate := (hlate.resolve_left (by simp [hfind])).resolve_right (by simp)
      exact statement_bind_failed (.inl hcreate)
  · exact statement_bind_failed (.inl hfind)

variable (payloadBase64) in
/-- **A publication that fails after the row of the plugin was written.** -/
theorem publish_late (hm : parseAndValidateManifest lib.parseToml manifestToml = .ok m)
    (hpub : PublisherReady e publisherId publicKey db) (hplugin : PluginReady e publisherId m db)
    (hlate : LateFailure e publisherId m db) :
    ∃ err db', publish lib e publisherId publicKey manifestToml payloadBase64 db = (.error err, db') ∧
      db'.versions = db.versions ∧ Upserted e.newId publisherId m db db' := by
  obtain ⟨db', hpublish, hversions, hup⟩ := publish_upserted payloadBase64 hm hpub hplugin
  obtain ⟨err, herr⟩ := publishVersion_late lib manifestToml payloadBase64 hversions hlate
  exact ⟨err, db', hpublish.trans herr, hversions, hup⟩

variable (lib manifestToml payloadBase64) in
theorem publishVersion_done {db' : StoreDb} (hversions : db'.versions = db.versions)
    (hlate : ¬ LateFailure e publisherId m db) :
    ∃ db'', publishVersion lib e m manifestToml payloadBase64 (m.row e.newId publisherId db) db' =
        (.ok ⟨(m.row e.newId publisherId db).id, m.id, m.version⟩, db'') ∧
      db''.plugins = db'.plugins ∧
      ∀ k, db''.versions.get? k = if k = ((m.row e.newId publisherId db).id, m.version) then
          some (publishedVersion lib (m.row e.newId publisherId db).id manifestToml payloadBase64 m)
        else db.versions.get? k := by
  simp only [LateFailure, not_or, not_not, Option.not_isSome_iff_eq_none] at hlate
  obtain ⟨hfind, hcreate, hnew⟩ := hlate
  let row := publishedVersion lib (m.row e.newId publisherId db).id manifestToml payloadBase64 m
  have hfree : db'.versions.get? row.key = none := (congrArg (Indexed.get? · _) hversions).trans hnew
  refine ⟨{ db' with versions := db'.versions.insert row hfree }, ?_, rfl, fun k => ?_⟩
  · rw [publishVersion, StoreM.bind_ok (statement_ok hfind rfl)]
    rw [show db'.versions.get? ((m.row e.newId publisherId db).id, m.version) = none from hfree]
    exact StoreM.bind_ok (statement_ok hcreate (dif_pos hfree))
  · rw [Indexed.get?_insert, hversions]
    rfl

variable (payloadBase64) in
/-- **A publication that succeeds.** -/
theorem publish_done (hm : parseAndValidateManifest lib.parseToml manifestToml = .ok m)
    (hpub : PublisherReady e publisherId publicKey db) (hplugin : PluginReady e publisherId m db)
    (hlate : ¬ LateFailure e publisherId m db) :
    ∃ db', publish lib e publisherId publicKey manifestToml payloadBase64 db =
        (.ok ⟨(m.row e.newId publisherId db).id, m.id, m.version⟩, db') ∧
      Upserted e.newId publisherId m db db' ∧
      ∀ k, db'.versions.get? k = if k = ((m.row e.newId publisherId db).id, m.version) then
          some (publishedVersion lib (m.row e.newId publisherId db).id manifestToml payloadBase64 m)
        else db.versions.get? k := by
  obtain ⟨db₁, hpublish, hversions, hup⟩ := publish_upserted payloadBase64 hm hpub hplugin
  obtain ⟨db', hdone, hplugins, hget⟩ :=
    publishVersion_done lib manifestToml payloadBase64 hversions hlate
  refine ⟨db', hpublish.trans hdone, ⟨?_, fun k hk => ?_, fun p hp hu => ?_⟩, hget⟩
  · rw [hplugins, hup.row]
  · rw [hplugins, hup.others k hk]
  · rw [hplugins, hup.same p hp hu]

end Publish

/-! ## The other requests -/

section Others

variable {e : StoreEnv} {db db' : StoreDb}

theorem findPlugin_cases {pluginId : String} {x : Except Err Plugin}
    (h : findPlugin e pluginId db = (x, db')) :
    db' = db ∧ ∀ p, x = .ok p → db.pluginById? pluginId = some p := by
  rcases StoreM.bind_cases h with ⟨err, hfind, rfl⟩ | ⟨found, db₁, hfind, hrest⟩
  · rcases statement_cases hfind with ⟨_, -, rfl⟩ | ⟨_, hbad, -⟩
    · exact ⟨rfl, nofun⟩
    · cases hbad
  · rcases statement_cases hfind with ⟨_, hbad, -⟩ | ⟨a, ha, hf⟩
    · cases hbad
    · cases ha
      cases hf
      cases hfound : db.pluginById? pluginId with
      | none =>
        rw [hfound] at hrest
        cases hrest
        exact ⟨rfl, nofun⟩
      | some p =>
        rw [hfound] at hrest
        cases hrest
        exact ⟨rfl, fun _ hp => congrArg some (Except.ok.inj hp)⟩

theorem ensurePublisher_same {id publicKey : String} {x : Except Err Unit}
    (h : ensurePublisher e id publicKey db = (x, db')) : SameCatalogue db db' :=
  statement_publisher_same h

theorem onPlugin_same {s : Statement} {pluginId id publicKey : String} {x : Except Err Unit}
    {f : StoreDb → Except Err (Unit × StoreDb)}
    (hf : ∀ db db', f db = .ok ((), db') → SameCatalogue db db')
    (h : (findPlugin e pluginId >>= fun _ => ensurePublisher e id publicKey >>= fun _ =>
      statement e s f) db = (x, db')) : SameCatalogue db db' := by
  rcases StoreM.bind_cases h with ⟨_, hfind, -⟩ | ⟨_, db₁, hfind, h⟩
  · rw [(findPlugin_cases hfind).1]
    exact .refl db
  · rw [(findPlugin_cases hfind).1] at h
    rcases StoreM.bind_cases h with ⟨_, hensure, -⟩ | ⟨_, db₂, hensure, h⟩
    · exact ensurePublisher_same hensure
    · rcases statement_cases h with ⟨_, -, rfl⟩ | ⟨_, -, hf'⟩
      · exact ensurePublisher_same hensure
      · exact (ensurePublisher_same hensure).trans (hf _ _ hf')

/-- **Votes, reports and names leave the catalogue alone.** -/
theorem serve_sameCatalogue {lib : StoreLib} {r : StoreRequest} {x : Except Err (Option PublishResult)}
    (hr : ∀ manifestToml payloadBase64, r.action ≠ .publish manifestToml payloadBase64)
    (h : serve lib e r db = (x, db')) : SameCatalogue db db' := by
  have done {p : StoreM Unit} {x : Except Err (Option PublishResult)}
      (hp : ∀ y db', p db = (y, db') → SameCatalogue db db')
      (h : (p >>= fun _ => pure none) db = (x, db')) : SameCatalogue db db' := by
    rcases StoreM.bind_cases h with ⟨_, hp', -⟩ | ⟨_, db₁, hp', h⟩
    · exact hp _ _ hp'
    · cases h
      exact hp _ _ hp'
  obtain ⟨publisherId, publicKey, action⟩ := r
  cases action with
  | publish manifestToml payloadBase64 => exact absurd rfl (hr _ _)
  | vote pluginId kind =>
    refine done (fun y db' hp => onPlugin_same (fun _ _ hf => ?_) hp) h
    cases hf
    exact ⟨rfl, rfl⟩
  | report pluginId reason =>
    refine done (fun y db' hp => onPlugin_same (fun _ _ hf => ?_) hp) h
    cases hf
    exact ⟨rfl, rfl⟩
  | setName displayName => exact done (fun y db' hp => statement_publisher_same hp) h

end Others

end NeoTrader.Catalogue
