import NeoTrader.Catalogue.Consistency
import NeoTrader.Catalogue.Signature

/-!
# Replayed requests

The guard remembers no request. Inside the window of its timestamp a copy of a request is answered as
the request was, on the tables as they are by then.

* `Settled`: a request finds what it writes; **`serve_unchanged_iff`**: it then changes nothing;
* **`replays_change_nothing_iff`**: when copies change nothing; **`vote_replayed`**: a copy of a vote
  that was changed since.
-/

namespace NeoTrader.Catalogue

open Js Store

/-! ## What a program keeps -/

section Keeps

variable {α β : Type} {P : StoreDb → Prop}

/-- The program keeps a property of the tables, also when it throws. -/
def Keeps (P : StoreDb → Prop) (p : StoreM α) : Prop := ∀ db, P db → P (p db).2

theorem keeps_pure (a : α) : Keeps P (pure a : StoreM α) := fun _ h => h

theorem keeps_throw (e : Err) : Keeps P (StoreM.throw e : StoreM α) := fun _ h => h

theorem keeps_bind {p : StoreM α} {f : α → StoreM β} (hp : Keeps P p) (hf : ∀ a, Keeps P (f a)) :
    Keeps P (p >>= f) := by
  intro db h
  have hp := hp db h
  cases hx : p db with
  | mk x db₁ =>
    rw [hx] at hp
    cases x with
    | error e => rwa [StoreM.bind_error hx]
    | ok a =>
      rw [StoreM.bind_ok hx]
      exact hf a db₁ hp

theorem keeps_statement {e : StoreEnv} {s : Statement} {f : StoreDb → Except Err (α × StoreDb)}
    (hf : ∀ db a db', f db = .ok (a, db') → P db → P db') : Keeps P (statement e s f) := by
  intro db h
  cases hx : statement e s f db with
  | mk x db' =>
    rcases statement_cases hx with ⟨_, -, rfl⟩ | ⟨a, -, ha⟩
    · exact h
    · exact hf db a db' ha h

end Keeps

theorem snd_bind_pure {α β : Type} (p : StoreM α) (f : α → β) (db : StoreDb) :
    ((p >>= fun a => pure (f a)) db).2 = (p db).2 := by
  cases hx : p db with
  | mk x db' =>
    cases x with
    | error e => rw [StoreM.bind_error hx]
    | ok a => rw [StoreM.bind_ok hx, StoreM.pure_apply]

/-! ## Publishers -/

section Publishers

variable {e : StoreEnv} {db : StoreDb} {id publicKey : String}

theorem ensurePublisher_present (h : PublisherReady e id publicKey db)
    (hp : (db.publishers.get? id).isSome) : ensurePublisher e id publicKey db = (.ok (), db) := by
  have hu : ∀ p : Publisher, p.id = id → p.id = id := fun _ h => h
  have hsame : db.publishers.update id (fun p => p) hu = db.publishers := by
    rw [Indexed.update_eq_self_iff]
    exact fun _ _ => rfl
  refine statement_ok h.1 ?_
  have hne : db.publishers.get? id ≠ none := by
    intro hnone
    rw [hnone] at hp
    cases hp
  refine (dif_neg hne).trans ?_
  rw [hsame]

theorem ensurePublisher_absent (h : PublisherReady e id publicKey db)
    (hp : db.publishers.get? id = none) :
    ∃ db', ensurePublisher e id publicKey db = (.ok (), db') ∧ (db'.publishers.get? id).isSome := by
  have hkeys : (db.publishers.rows.any fun p => p.publicKey = publicKey) = false := by
    simpa using h.2.resolve_left (by simp [hp])
  refine ⟨{ db with publishers := db.publishers.insert { id, publicKey } hp }, statement_ok h.1 ?_, ?_⟩
  · simp [StoreDb.upsertPublisher, hp, hkeys]
  · simp [Indexed.get?_insert]

theorem ensurePublisher_unchanged_iff {α : Type} {f : Unit → StoreM α}
    (hf : Keeps (fun db => (db.publishers.get? id).isSome) (f ())) :
    ((ensurePublisher e id publicKey >>= f) db).2 = db ↔
      (PublisherReady e id publicKey db →
        (db.publishers.get? id).isSome ∧ (f () db).2 = db) := by
  by_cases hready : PublisherReady e id publicKey db
  · cases hp : db.publishers.get? id with
    | some p =>
      rw [StoreM.bind_ok (ensurePublisher_present hready (by simp [hp]))]
      simp [hready]
    | none =>
      obtain ⟨db₁, hensure, hsome⟩ := ensurePublisher_absent hready hp
      rw [StoreM.bind_ok hensure]
      have hkept := hf db₁ hsome
      constructor
      · intro h
        rw [h, hp] at hkept
        cases hkept
      · intro h
        exact absurd (h hready).1 (by simp)
  · obtain ⟨err, hfailed⟩ := ensurePublisher_failed hready
    rw [StoreM.bind_error hfailed]
    simp [hready]

end Publishers

/-! ## Requests that change nothing -/

/-- **The request finds what it writes**, as far as it gets. -/
def Settled (store : StoreLib) (e : StoreEnv) (r : StoreRequest) (db : StoreDb) : Prop :=
  match r.action with
  | .publish manifestToml _ => ∀ m, parseAndValidateManifest store.parseToml manifestToml = .ok m →
      PublisherReady e r.publisherId r.publicKey db → (db.publishers.get? r.publisherId).isSome ∧
        (PluginReady e r.publisherId m db → LateFailure e r.publisherId m db ∧
          ∃ p, db.plugins.get? (r.publisherId, m.id) = some p ∧ m.updates p = p)
  | .vote pluginId kind => e.failure .pluginFindUnique = none → (db.pluginById? pluginId).isSome →
      PublisherReady e r.publisherId r.publicKey db → (db.publishers.get? r.publisherId).isSome ∧
        (e.failure .voteUpsert = none →
          db.votes.get? (pluginId, r.publisherId) = some ⟨pluginId, r.publisherId, kind⟩)
  | .report pluginId reason => e.failure .pluginFindUnique = none → (db.pluginById? pluginId).isSome →
      PublisherReady e r.publisherId r.publicKey db → (db.publishers.get? r.publisherId).isSome ∧
        (e.failure .reportUpsert = none →
          db.reports.get? (pluginId, r.publisherId) = some ⟨pluginId, r.publisherId, reason⟩)
  | .setName displayName => PublisherReady e r.publisherId r.publicKey db →
      ∃ p, db.publishers.get? r.publisherId = some p ∧ renamed displayName p = p

section Unchanged

variable {store : StoreLib} {e : StoreEnv} {db : StoreDb}

theorem statement_unchanged_iff {s : Statement} {g : StoreDb → StoreDb} :
    (statement e s (fun db => .ok ((), g db)) db).2 = db ↔ (e.failure s = none → g db = db) := by
  cases he : e.failure s with
  | some err => simp [statement, he]
  | none => simp [statement, he]

theorem findPlugin_unchanged_iff {α : Type} {pluginId : String} {f : Plugin → StoreM α} {p : StoreM α}
    (hf : ∀ a, f a = p) : ((findPlugin e pluginId >>= f) db).2 = db ↔
      (e.failure .pluginFindUnique = none → (db.pluginById? pluginId).isSome → (p db).2 = db) := by
  cases he : e.failure .pluginFindUnique with
  | some err =>
    have hfind : findPlugin e pluginId db = (.error err, db) := by
      refine StoreM.bind_error ?_
      simp only [statement, he]
    rw [StoreM.bind_error hfind]
    simp
  | none =>
    cases hp : db.pluginById? pluginId with
    | none =>
      have hfind : findPlugin e pluginId db = (.error (notFound "plugin no encontrado"), db) := by
        rw [findPlugin, StoreM.bind_ok (statement_ok he rfl), hp]
        rfl
      rw [StoreM.bind_error hfind]
      simp
    | some plugin =>
      have hfind : findPlugin e pluginId db = (.ok plugin, db) := by
        rw [findPlugin, StoreM.bind_ok (statement_ok he rfl), hp]
        rfl
      rw [StoreM.bind_ok hfind, hf]
      simp

theorem onPlugin_unchanged_iff {pluginId id publicKey : String} {s : Statement} {g : StoreDb → StoreDb}
    (hg : ∀ db, (g db).publishers = db.publishers) :
    ((findPlugin e pluginId >>= fun _ => ensurePublisher e id publicKey >>= fun _ =>
      statement e s fun db => .ok ((), g db)) db).2 = db ↔
      (e.failure .pluginFindUnique = none → (db.pluginById? pluginId).isSome →
        PublisherReady e id publicKey db → (db.publishers.get? id).isSome ∧
          (e.failure s = none → g db = db)) := by
  rw [findPlugin_unchanged_iff fun _ => rfl, ensurePublisher_unchanged_iff]
  · simp only [statement_unchanged_iff]
  · refine keeps_statement fun db a db' hdb h => ?_
    cases hdb
    rwa [hg]

theorem setName_unchanged_iff {id publicKey : String} {displayName : Option (Option String)} :
    (setName e id publicKey displayName db).2 = db ↔
      (PublisherReady e id publicKey db →
        ∃ p, db.publishers.get? id = some p ∧ renamed displayName p = p) := by
  cases he : e.failure .publisherUpsert with
  | some err => simp [setName, statement, PublisherReady, he]
  | none =>
    cases hp : db.publishers.get? id with
    | some p =>
      have hname : setName e id publicKey displayName db = (.ok (), { db with
          publishers := db.publishers.update id (renamed displayName) fun p h =>
            (renamed_id displayName p).trans h }) :=
        statement_ok he (dif_neg (by simp [hp]))
      have hready : PublisherReady e id publicKey db := ⟨he, .inl (by simp [hp])⟩
      rw [hname]
      constructor
      · intro h _
        have hsame : db.publishers.update id (renamed displayName) (fun p h =>
            (renamed_id displayName p).trans h) = db.publishers := congrArg StoreDb.publishers h
        rw [Indexed.update_eq_self_iff] at hsame
        exact ⟨p, rfl, hsame p hp⟩
      · intro h
        obtain ⟨p', hp', hsame⟩ := h hready
        cases hp'
        have htable : db.publishers.update id (renamed displayName) (fun p h =>
            (renamed_id displayName p).trans h) = db.publishers := by
          rw [Indexed.update_eq_self_iff]
          intro r hr
          rw [hp] at hr
          cases hr
          exact hsame
        rw [htable]
    | none =>
      by_cases hkeys : (db.publishers.rows.any fun p => p.publicKey = publicKey) = true
      · have hname : setName e id publicKey displayName db = (.error uniqueViolation, db) := by
          simp [setName, statement, he, StoreDb.upsertPublisher, hp, hkeys]
        have hready : ¬ PublisherReady e id publicKey db := by
          rintro ⟨-, hsome | hnew⟩
          · rw [hp] at hsome
            cases hsome
          · simp only [List.any_eq_true, decide_eq_true_eq] at hkeys
            obtain ⟨p, hmem, hkey⟩ := hkeys
            exact hnew p hmem hkey
        rw [hname]
        simp [hready]
      · have hname : setName e id publicKey displayName db = (.ok (), { db with
            publishers := db.publishers.insert
              { id, publicKey, displayName := displayName.getD none } hp }) := by
          refine statement_ok he ?_
          simp [StoreDb.upsertPublisher, hp, hkeys]
        rw [hname]
        have hready : PublisherReady e id publicKey db := by
          refine ⟨he, .inr fun p hmem hkey => hkeys ?_⟩
          simpa using ⟨p, hmem, hkey⟩
        constructor
        · intro h
          exact absurd (congrArg StoreDb.publishers h) (Indexed.insert_ne_self (h := hp))
        · intro h
          obtain ⟨p, hp', -⟩ := h hready
          cases hp'

theorem upsertPlugin_publishers {newId publisherId : String} {m : Manifest} {p : Plugin} {db' : StoreDb}
    (h : db.upsertPlugin newId publisherId m = .ok (p, db')) : db'.publishers = db.publishers := by
  unfold StoreDb.upsertPlugin at h
  split at h
  · cases h
    rfl
  · split_ifs at h
    cases h
    rfl

theorem keeps_publishVersion {id : String} {m : Manifest} {manifestToml payloadBase64 : String}
    (p : Plugin) : Keeps (fun db => (db.publishers.get? id).isSome)
      (publishVersion store e m manifestToml payloadBase64 p) := by
  refine keeps_bind (keeps_statement fun db a db' hdb h => ?_) fun dup => ?_
  · cases hdb
    exact h
  · cases dup with
    | some v => exact keeps_throw _
    | none =>
      refine keeps_bind (keeps_statement fun db a db' hdb h => ?_) fun _ => keeps_pure _
      unfold StoreDb.createVersion at hdb
      split_ifs at hdb
      cases hdb
      exact h

theorem publish_unchanged_iff {publisherId publicKey manifestToml payloadBase64 : String} :
    (publish store e publisherId publicKey manifestToml payloadBase64 db).2 = db ↔
      ∀ m, parseAndValidateManifest store.parseToml manifestToml = .ok m →
        PublisherReady e publisherId publicKey db → (db.publishers.get? publisherId).isSome ∧
          (PluginReady e publisherId m db → LateFailure e publisherId m db ∧
            ∃ p, db.plugins.get? (publisherId, m.id) = some p ∧ m.updates p = p) := by
  cases hm : parseAndValidateManifest store.parseToml manifestToml with
  | error message =>
    rw [publish_invalid hm]
    simp
  | ok m =>
    have hrest : (((statement e .pluginUpsert fun db => db.upsertPlugin e.newId publisherId m) >>=
        publishVersion store e m manifestToml payloadBase64) db).2 = db ↔
        (PluginReady e publisherId m db → LateFailure e publisherId m db ∧
          ∃ p, db.plugins.get? (publisherId, m.id) = some p ∧ m.updates p = p) := by
      by_cases hready : PluginReady e publisherId m db
      · obtain ⟨db₁, hupsert, hrest, hup⟩ := upsertPlugin_ok hready
        have hversions : db₁.versions = db.versions := by rw [hrest]
        rw [StoreM.bind_ok (statement_ok hready.1 hupsert), ← hup.same_iff]
        by_cases hlate : LateFailure e publisherId m db
        · obtain ⟨err, hend⟩ := publishVersion_late store manifestToml payloadBase64 hversions hlate
          rw [hend]
          refine ⟨fun h _ => ⟨hlate, congrArg StoreDb.plugins h⟩, fun h => ?_⟩
          show db₁ = db
          rw [hrest, (h hready).2]
        · obtain ⟨db₂, hend, -, hget⟩ := publishVersion_done store manifestToml payloadBase64 hversions hlate
          rw [hend]
          refine ⟨fun h => ?_, fun h => absurd (h hready).1 hlate⟩
          have hnew := hget ((m.row e.newId publisherId db).id, m.version)
          rw [if_pos rfl, show db₂ = db from h] at hnew
          exact absurd (.inr (.inr (by rw [hnew]; rfl))) hlate
      · obtain ⟨err, hfailed⟩ := statement_bind_failed (s := .pluginUpsert)
          (f := fun db => db.upsertPlugin e.newId publisherId m)
          (g := publishVersion store e m manifestToml payloadBase64) (upsertPlugin_failed hready)
        rw [hfailed]
        simp [hready]
    rw [publish_eq hm, ensurePublisher_unchanged_iff, hrest]
    · simp
    · refine keeps_bind (keeps_statement fun db p db' hdb h => ?_) fun p => keeps_publishVersion p
      rwa [upsertPlugin_publishers hdb]

theorem vote_unchanged_iff {pluginId voterId voterKey : String} {kind : VoteKind} :
    (vote e pluginId voterId voterKey kind db).2 = db ↔
      (e.failure .pluginFindUnique = none → (db.pluginById? pluginId).isSome →
        PublisherReady e voterId voterKey db → (db.publishers.get? voterId).isSome ∧
          (e.failure .voteUpsert = none →
            db.votes.get? (pluginId, voterId) = some ⟨pluginId, voterId, kind⟩)) := by
  refine (onPlugin_unchanged_iff (g := fun db =>
    { db with votes := db.votes.put { pluginId, voterId, kind } }) fun _ => rfl).trans ?_
  have hput : { db with votes := db.votes.put { pluginId, voterId, kind } } = db ↔
      db.votes.get? (pluginId, voterId) = some ⟨pluginId, voterId, kind⟩ := by
    refine Iff.trans ⟨congrArg StoreDb.votes, fun h => ?_⟩ Indexed.put_eq_self_iff
    replace h : db.votes.put { pluginId, voterId, kind } = db.votes := h
    rw [h]
  simp only [hput]

theorem report_unchanged_iff {pluginId reporterId reporterKey reason : String} :
    (report e pluginId reporterId reporterKey reason db).2 = db ↔
      (e.failure .pluginFindUnique = none → (db.pluginById? pluginId).isSome →
        PublisherReady e reporterId reporterKey db → (db.publishers.get? reporterId).isSome ∧
          (e.failure .reportUpsert = none →
            db.reports.get? (pluginId, reporterId) = some ⟨pluginId, reporterId, reason⟩)) := by
  refine (onPlugin_unchanged_iff (g := fun db =>
    { db with reports := db.reports.put { pluginId, reporterId, reason } }) fun _ => rfl).trans ?_
  have hput : { db with reports := db.reports.put { pluginId, reporterId, reason } } = db ↔
      db.reports.get? (pluginId, reporterId) = some ⟨pluginId, reporterId, reason⟩ := by
    refine Iff.trans ⟨congrArg StoreDb.reports, fun h => ?_⟩ Indexed.put_eq_self_iff
    replace h : db.reports.put { pluginId, reporterId, reason } = db.reports := h
    rw [h]
  simp only [hput]

/-- **A request changes nothing exactly if it finds what it writes.** -/
theorem serve_unchanged_iff {r : StoreRequest} :
    (serve store e r db).2 = db ↔ Settled store e r db := by
  obtain ⟨publisherId, publicKey, action⟩ := r
  cases action with
  | publish manifestToml payloadBase64 =>
    exact (iff_of_eq (congrArg (· = db) (snd_bind_pure _ some db))).trans publish_unchanged_iff
  | vote pluginId kind =>
    exact (iff_of_eq (congrArg (· = db) (snd_bind_pure _ _ db))).trans vote_unchanged_iff
  | report pluginId reason =>
    exact (iff_of_eq (congrArg (· = db) (snd_bind_pure _ _ db))).trans report_unchanged_iff
  | setName displayName =>
    exact (iff_of_eq (congrArg (· = db) (snd_bind_pure _ _ db))).trans setName_unchanged_iff

end Unchanged

/-! ## Copies of requests -/

/-- The store's server: its libraries and its configuration. -/
structure Server (Key : Type) where
  signatures : SignatureLib Key
  routes : RouteLib
  windowMs : Option ℚ
  store : StoreLib

/-- A request at the server. -/
structure Sent where
  env : StoreEnv := {}
  now : ℚ
  request : HttpRequest
  -- a copy, sent by somebody else
  replayed : Bool := false

section Server

variable {Key : Type} (S : Server Key)

/-- What the request stands for, if it gets to the services. -/
def Server.requestOf (d : Sent) : Except Err StoreRequest :=
  NeoTrader.Catalogue.requestOf S.signatures S.routes S.windowMs d.now d.request

/-- **The tables after the requests.** -/
abbrev Server.tablesAfter (l : List Sent) : StoreDb :=
  History.after (fun (d : Sent) db =>
    (answer S.signatures S.routes S.windowMs S.store d.env d.now d.request db).2) {} l

/-- The requests without the copies. -/
def honest (l : List Sent) : List Sent := l.filter fun d => !d.replayed

theorem answer_unchanged_iff {d : Sent} {db : StoreDb} :
    (answer S.signatures S.routes S.windowMs S.store d.env d.now d.request db).2 = db ↔
      ∀ r, S.requestOf d = .ok r → Settled S.store d.env r db := by
  unfold answer Server.requestOf
  cases h : NeoTrader.Catalogue.requestOf S.signatures S.routes S.windowMs d.now d.request with
  | error err => simp
  | ok r =>
    simp only [Except.ok.injEq, forall_eq']
    exact serve_unchanged_iff

/-- **When copies change nothing.** At every point of a run the tables are those of the honest requests
alone, exactly if every copy that gets to the services finds what it writes there. And the guard only
lets a request pass whose timestamp, method, path and body the holder of the key has signed. -/
theorem replays_change_nothing_iff {signed : Signing → Prop}
    (hforge : Unforgeable S.signatures signed) (hhash : NoCollision S.signatures signed)
    (l : List Sent) :
    ((∀ l₀, l₀ <+: l → S.tablesAfter (honest l₀) = S.tablesAfter l₀) ↔
      ∀ l₀ d, l₀ ++ [d] <+: l → d.replayed = true → ∀ r, S.requestOf d = .ok r →
        Settled S.store d.env r (S.tablesAfter l₀)) ∧
    ∀ now req a, canActivate S.signatures S.windowMs now req = .ok a →
      ∃ s, signed s ∧ S.signatures.keyOf s.publicKey = S.signatures.keyOf a.publicKey ∧
        (S.signatures.keyOf a.publicKey).isSome ∧ req.timestamp = some s.timestamp ∧
        s.method.val.toUpper = req.method.val.toUpper ∧ s.path = pathOf req.url ∧
        bodyText S.signatures s.body = bodyText S.signatures req.body := by
  refine ⟨History.after_filter_iff.trans ?_, fun now req a h => canActivate_sound hforge hhash h⟩
  simp only [answer_unchanged_iff, Bool.not_eq_false']

end Server

/-! ## A name that was changed since -/

def demoKey : Line :=
  ⟨"MCowBQYDK2VwAyEAGb9ECWmEzf6FQbrBZ9w7lshQhqowtrbLDFw4rXAxZuE=", by decide⟩

def demoPublisherId : Line := ⟨"Gszd8RfWvwejvTVzDte8WVqrX-XkdjifxrwZbnxoeWg", by decide⟩

/-- The hashes of two bodies. -/
def demoSha256 (text : String) : String :=
  if text = "\x7b\"displayName\":\"Ana\"\x7d" then
    "620a17aebcf76666fc7e6485bef7df1685c977d6568a864cd4167eb9c8730f90"
  else if text = "\x7b\"displayName\":\"Eva\"\x7d" then
    "3fac7f0e94f9ecc81a97e685632272f93f2cd0da2c660ce570463dffe0fcb0d2"
  else ""

def demoSigning (name : String) (timestamp : Line) : Signing where
  publicKey := demoKey
  method := ⟨"POST", by decide⟩
  path := ⟨"/api/publishers/name", by decide⟩
  body := some (.obj [("displayName", .str name)])
  timestamp := timestamp

def demoSignings : List Signing :=
  [demoSigning "Ana" ⟨"1000", by decide⟩, demoSigning "Eva" ⟨"2000", by decide⟩]

def demoMessage (s : Signing) : String :=
  buildSignedMessage s.timestamp s.method s.path
    (demoSha256 ((s.body.getD (.obj [])).stringify fun _ => "0"))

def demoSignatures : SignatureLib String where
  publisherIdFromPublicKey _ := demoPublisherId
  sha256Hex := demoSha256
  keyOf publicKey := some publicKey
  verify key message signature :=
    key = demoKey && signature = "c2lnbmF0dXJl" && demoSignings.any fun s => demoMessage s = message
  numeral _ := "0"

def demoServer : Server String where
  signatures := demoSignatures
  routes :=
    { route := fun method path =>
        if method = "POST" ∧ path = "/api/publishers/name" then some .setName else none
      isBase64 := fun _ => true
      maxLength := fun n s => s.length ≤ n }
  windowMs := none
  store := demoLib

theorem demo_unforgeable : Unforgeable demoSignatures fun s => s ∈ demoSignings := by
  intro key message signature h
  simp only [demoSignatures, Bool.and_eq_true, decide_eq_true_eq, List.any_eq_true] at h
  obtain ⟨⟨rfl, -⟩, s, hs, rfl⟩ := h
  refine ⟨s, hs, ?_, rfl⟩
  simp only [demoSignings, List.mem_cons, List.not_mem_nil, or_false] at hs
  rcases hs with rfl | rfl <;> rfl

theorem demo_noCollision : NoCollision demoSignatures fun s => s ∈ demoSignings := by
  intro s text hs h
  simp only [demoSignings, List.mem_cons, List.not_mem_nil, or_false] at hs
  rcases hs with rfl | rfl
  · replace h : "620a17aebcf76666fc7e6485bef7df1685c977d6568a864cd4167eb9c8730f90" = demoSha256 text := h
    unfold demoSha256 at h
    split_ifs at h with h1 h2
    · exact h1.symm
    · exact absurd h (by decide)
    · exact absurd h (by decide)
  · replace h : "3fac7f0e94f9ecc81a97e685632272f93f2cd0da2c660ce570463dffe0fcb0d2" = demoSha256 text := h
    unfold demoSha256 at h
    split_ifs at h with h1 h2
    · exact absurd h (by decide)
    · exact h2.symm
    · exact absurd h (by decide)

def demoSign (_ : String) : Line := ⟨"c2lnbmF0dXJl", by decide⟩

/-- The signed request of a signing. -/
def demoRequest (s : Signing) : HttpRequest :=
  buildSignedHeaders demoSignatures demoSign demoKey demoPublisherId s

theorem canActivate_demo : canActivate demoSignatures none 1500
    (demoRequest (demoSigning "Ana" ⟨"1000", by decide⟩)) = .ok ⟨demoPublisherId, demoKey⟩ := by
  have ht : Number.ofString "1000" = .fin 1000 := by decide +kernel
  have hverify : demoSignatures.verify demoKey
      ((demoSigning "Ana" ⟨"1000", by decide⟩).message demoSignatures) "c2lnbmF0dXJl" = true := by
    decide +kernel
  refine (canActivate_signed rfl hverify rfl (by decide) (by decide) ht).2 ?_
  norm_num [defaultWindowMs]

/-- The guard lets a signed name pass, and it was signed. -/
theorem replays_change_nothing_demo : ∃ s ∈ demoSignings,
    some s.timestamp = (demoRequest (demoSigning "Ana" ⟨"1000", by decide⟩)).timestamp := by
  have haccept : canActivate demoServer.signatures demoServer.windowMs 1500
      (demoRequest (demoSigning "Ana" ⟨"1000", by decide⟩)) = .ok ⟨demoPublisherId, demoKey⟩ := by
    decide +kernel
  obtain ⟨s, hs, -, -, hts, -⟩ := (replays_change_nothing_iff demoServer demo_unforgeable
    demo_noCollision []).2 1500 _ _ haccept
  exact ⟨s, hs, hts.symm⟩

def demoReplay : List Sent :=
  let ana := demoRequest (demoSigning "Ana" ⟨"1000", by decide⟩)
  let eva := demoRequest (demoSigning "Eva" ⟨"2000", by decide⟩)
  [{ now := 1500, request := ana }, { now := 2500, request := eva },
    { now := 3500, request := ana, replayed := true }]

def demoName (db : StoreDb) : Option (Option String) :=
  (db.publishers.get? demoPublisherId).map Publisher.displayName

theorem demoReplay_eq : demoName (demoServer.tablesAfter demoReplay) = some (some "Ana") ∧
    demoName (demoServer.tablesAfter (honest demoReplay)) = some (some "Eva") := by
  decide +kernel

/-- A copy of a request that was sent before, inside the window. -/
def CopiesInWindow {Key : Type} (S : Server Key) (l : List Sent) : Prop :=
  ∀ l₀ d, l₀ ++ [d] <+: l → d.replayed = true → ∃ d' ∈ l₀, d'.request = d.request ∧
    d'.now ≤ d.now ∧ d.now - d'.now ≤ S.windowMs.getD defaultWindowMs

/-- The requests that are no copies are signed by the holders of their keys. -/
def HonestlySigned {Key : Type} (S : Server Key) (signed : Signing → Prop) (l : List Sent) : Prop :=
  ∀ d ∈ honest l, ∃ s sign publicKey publisherId, signed s ∧ s.publicKey = publicKey.val ∧
    d.request = buildSignedHeaders S.signatures sign publicKey publisherId s

/-- **A copy of an earlier request takes a later one back.** -/
theorem name_replayed : ¬ ∀ (S : Server String) (signed : Signing → Prop) (l : List Sent),
    Unforgeable S.signatures signed → NoCollision S.signatures signed → HonestlySigned S signed l →
    CopiesInWindow S l → ∀ id, ((S.tablesAfter l).publishers.get? id).map Publisher.displayName =
      ((S.tablesAfter (honest l)).publishers.get? id).map Publisher.displayName := by
  intro hall
  have hsigned : HonestlySigned demoServer (fun s => s ∈ demoSignings) demoReplay := by
    intro d hd
    simp only [honest, demoReplay, List.filter_cons, Bool.not_false, if_true, Bool.not_true,
      Bool.false_eq_true, if_false, List.filter_nil, List.mem_cons, List.not_mem_nil, or_false] at hd
    rcases hd with rfl | rfl
    · exact ⟨_, demoSign, demoKey, demoPublisherId, List.mem_cons_self, rfl, rfl⟩
    · exact ⟨_, demoSign, demoKey, demoPublisherId, List.mem_cons_of_mem _ List.mem_cons_self, rfl, rfl⟩
  have hcopies : CopiesInWindow demoServer demoReplay := by
    rintro l₀ d ⟨rest, hrest⟩ hreplayed
    simp only [demoReplay, List.append_assoc, List.singleton_append] at hrest
    rcases l₀ with _ | ⟨x, _ | ⟨y, _ | ⟨z, l₀⟩⟩⟩
    · cases hrest
      cases hreplayed
    · cases hrest
      cases hreplayed
    · cases hrest
      refine ⟨_, List.mem_cons_self, rfl, ?_, ?_⟩
      · norm_num
      · norm_num [demoServer, defaultWindowMs]
    · have hlen := congrArg List.length hrest
      simp only [List.length_append, List.length_cons, List.length_nil] at hlen
      omega
  have hname := hall demoServer _ demoReplay demo_unforgeable demo_noCollision hsigned hcopies
    demoPublisherId
  rw [show Option.map _ _ = _ from demoReplay_eq.1, show Option.map _ _ = _ from demoReplay_eq.2] at hname
  exact absurd hname (by decide)

end NeoTrader.Catalogue
