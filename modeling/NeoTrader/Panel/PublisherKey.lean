import NeoTrader.Auth.Guards
import NeoTrader.Common.Noninterference
import NeoTrader.Js.Parse
import NeoTrader.Store.Indexed

/-!
# The private key of the publisher

Settings, metrics, logs and the key pair of the publisher stand in one table of keys and values. The
panel reads it through endpoints that take keys or dump the table.

* `PanelService.getConfig`, `getJournal`, `getLogs`, `getMetrics`, `getIdentity`: the endpoints that
  read;
* `PrivateKeyDiffers`: tables that differ only in the value of the private key;
* **`respond_eq_iff`**: when such tables have the same response, and a dump that shows the key
  (**`config_shows_private_key`**).
-/

namespace NeoTrader

open Js Noninterference

/-! ## The table of settings -/

/-- A setting. -/
structure ConfigEntry where
  key : String
  value : String
  deriving DecidableEq

/-- The settings, by key. -/
abbrev ConfigTable : Type := Store.Indexed ConfigEntry.key

/-- The value of a setting. -/
def kvGet (t : ConfigTable) (key : String) : Option String := (t.get? key).map ConfigEntry.value

/-- Stores a setting. -/
def kvSet (t : ConfigTable) (key value : String) : ConfigTable := t.put ⟨key, value⟩

theorem kvGet_kvSet {t : ConfigTable} {key value key' : String} :
    kvGet (kvSet t key value) key' = if key' = key then some value else kvGet t key' := by
  unfold kvGet kvSet
  rw [Store.Indexed.get?_put]
  split_ifs <;> rfl

/-- A value as the panel shows it: parsed where that is possible. -/
def shownValue (value : String) : Json := (Json.parse value).getD (.str value)

/-! ## The panel -/

/-- **All settings.** -/
def PanelService.getConfig (t : ConfigTable) : List (String × Json) :=
  t.rows.map fun e => (e.key, shownValue e.value)

/-- One setting. -/
def getCfgKey (t : ConfigTable) (key : String) (fallback : Json) : Json :=
  ((kvGet t key).map shownValue).getD fallback

/-- `s.includes(pat)`. -/
def textIncludes (pat s : String) : Bool := s.toList.tails.any fun t => pat.toList.isPrefixOf t

/-- The settings that the journal shows. -/
def journalKey (k : String) : Bool :=
  k.startsWith "param" || k.startsWith "pretest" || k.startsWith "promotion" ||
    k.startsWith "reflection" || textIncludes "discipline" k || textIncludes "lock" k

/-- The journal: the locks of the parameters and the gates. -/
def getJournal (t : ConfigTable) (strategies : ℕ) : Json :=
  .obj [
    ("nota", .str "Red anti-overfitting: candados de parámetros, gates de pretest y promoción."),
    ("estrategias_registradas", .num (.fin strategies)),
    ("disciplina", .obj ((PanelService.getConfig t).filter fun f => journalKey f.1))]

/-- The shape of the names of log streams and of metrics: small letters, digits and underscores. -/
def slugShape (s : String) : Bool :=
  match s.toList with
  | [] => false
  | c :: s => c.isLower && s.length ≤ 63 && s.all fun c => c.isLower || c.isDigit || c = '_'

/-- `v.slice(-n)`, of anything that a setting can hold. -/
def sliceEntries (n : ℕ) : Json → Except Err Json
  | .null => .error
      { name := "TypeError", message := [.lit "Cannot read properties of null (reading 'slice')"] }
  | v =>
    match v.sliceLast n with
    | some entries => .ok entries
    | none => .error { name := "TypeError", message := [.lit "raw.slice is not a function"] }

/-- The last entries of a log stream. -/
def getLogs (t : ConfigTable) (stream : String) (limit : ℤ) : Except Err Json :=
  if !slugShape stream then
    .error (badRequest s!"nombre de stream inválido: {Json.quote stream}")
  else do
    let entries ← sliceEntries (max 1 (min limit 5000)).toNat (getCfgKey t s!"logs_{stream}" (.arr []))
    return .obj [("stream", .str stream), ("entries", entries)]

def getMetrics (t : ConfigTable) (key : String) : Except Err Json :=
  if !slugShape key then .error (badRequest s!"clave de métrica inválida: {Json.quote key}")
  else .ok (getCfgKey t key .null)

/-! ## The store -/

def kvPublicKey : String := "store.publisher.public_key"
def kvPrivateKey : String := "store.publisher.private_key"
def kvDisplayName : String := "store.publisher.display_name"

/-- A key pair, both keys as texts. -/
structure StoreKeypair where
  publicKeyB64 : String
  privateKeyB64 : String

/-- A setting with a value that is not empty. -/
def kvTruthy (t : ConfigTable) (key : String) : Option String := (kvGet t key).filter (· ≠ "")

/-- The key pair of the publisher; it is generated where one of the keys is missing. -/
def keypair (generated : StoreKeypair) (t : ConfigTable) : StoreKeypair × ConfigTable :=
  match kvTruthy t kvPublicKey, kvTruthy t kvPrivateKey with
  | some publicKey, some privateKey => (⟨publicKey, privateKey⟩, t)
  | _, _ =>
    (generated, kvSet (kvSet t kvPublicKey generated.publicKeyB64) kvPrivateKey generated.privateKeyB64)

/-- The public identity of the publisher. -/
def getIdentity (generated : StoreKeypair) (publisherIdFromPublicKey : String → String)
    (t : ConfigTable) : Json :=
  let (kp, t) := keypair generated t
  .obj [
    ("publisher_id", .str (publisherIdFromPublicKey kp.publicKeyB64)),
    ("public_key", .str kp.publicKeyB64),
    ("display_name", ((kvGet t kvDisplayName).map Json.str).getD .null)]

/-! ## Requests -/

inductive ReadRequest
  | config
  | journal
  | metrics (key : String)
  | logs (stream : String) (limit : ℤ)
  | identity

/-- What a response depends on besides the settings: the number of strategies, the key pair that
would be generated, and the hash of a public key. -/
structure ReadEnv where
  strategies : ℕ
  generated : StoreKeypair
  publisherIdFromPublicKey : String → String

/-- **The response to a request.** -/
def respondTo (env : ReadEnv) (r : ReadRequest) (t : ConfigTable) : Except Err Json :=
  match r with
  | .config => .ok (.obj (PanelService.getConfig t))
  | .journal => .ok (getJournal t env.strategies)
  | .metrics key => getMetrics t key
  | .logs stream limit => getLogs t stream limit
  | .identity => .ok (getIdentity env.generated env.publisherIdFromPublicKey t)

/-! ## Tables that differ in the private key -/

/-- Settings that differ at most in the value of the private key. -/
structure EntriesAgree (e e' : ConfigEntry) : Prop where
  key : e.key = e'.key
  value : e.key ≠ kvPrivateKey → e.value = e'.value

/-- **Tables that differ only in the value of the private key.** -/
def PrivateKeyDiffers (t t' : ConfigTable) : Prop := List.Forall₂ EntriesAgree t.rows t'.rows

/-- Two tables that differ only in the value of the private key. -/
structure KeyPair where
  left : ConfigTable
  right : ConfigTable
  differ : PrivateKeyDiffers left right

section Lookups

variable {t t' : ConfigTable}

theorem find?_agree {rows rows' : List ConfigEntry} (h : List.Forall₂ EntriesAgree rows rows')
    (key : String) : Option.Rel EntriesAgree (rows.find? fun e => e.key = key)
      (rows'.find? fun e => e.key = key) := by
  induction h with
  | nil => exact .none
  | @cons e e' rows rows' he _ ih =>
    have hsame : (e'.key = key) = (e.key = key) := by rw [he.key]
    simp only [List.find?_cons, hsame]
    by_cases hkey : e.key = key
    · simp only [hkey, decide_true]
      exact .some he
    · simpa only [hkey, decide_false] using ih

theorem kvGet_hides {key : String} (hkey : key ≠ kvPrivateKey) :
    Hides PrivateKeyDiffers fun t => kvGet t key := by
  intro t t' h
  have hrel : Option.Rel EntriesAgree (t.get? key) (t'.get? key) := find?_agree h key
  show Option.map _ (t.get? key) = Option.map _ (t'.get? key)
  cases hfound : t.get? key with
  | none =>
    rw [hfound] at hrel
    cases hfound' : t'.get? key with
    | none => rfl
    | some e' =>
      rw [hfound'] at hrel
      cases hrel
  | some e =>
    rw [hfound] at hrel
    cases hfound' : t'.get? key with
    | none =>
      rw [hfound'] at hrel
      cases hrel
    | some e' =>
      rw [hfound'] at hrel
      cases hrel with
      | some he =>
        have hne : e.key ≠ kvPrivateKey := by rwa [Store.Indexed.key_of_get? hfound]
        exact congrArg some (he.value hne)

end Lookups

/-! ## Responses -/

theorem getCfgKey_hides {key : String} (hkey : key ≠ kvPrivateKey) (fallback : Json) :
    Hides PrivateKeyDiffers fun t => getCfgKey t key fallback :=
  (kvGet_hides hkey).comp fun v => (v.map shownValue).getD fallback

theorem ne_privateKey_of_slugShape {key : String} (h : slugShape key = true) : key ≠ kvPrivateKey := by
  rintro rfl
  exact absurd h (by decide)

theorem logs_ne_privateKey (stream : String) : s!"logs_{stream}" ≠ kvPrivateKey := by
  intro heq
  have hlist := congrArg (fun s => s.toList.head?) heq
  have hlogs : (s!"logs_{stream}").toList = "logs_".toList ++ stream.toList := String.toList_append
  have hstart : "logs_".toList = ['l', 'o', 'g', 's', '_'] := by decide
  have hstart' : kvPrivateKey.toList.head? = some 's' := by decide
  rw [hlogs, hstart, hstart'] at hlist
  exact absurd (Option.some.inj hlist) (by decide)

theorem metrics_hide (env : ReadEnv) (key : String) :
    Hides PrivateKeyDiffers (respondTo env (.metrics key)) := by
  intro t t' h
  show getMetrics t key = getMetrics t' key
  unfold getMetrics
  by_cases hshape : slugShape key = true
  · have hvalue : getCfgKey t key .null = getCfgKey t' key .null :=
      getCfgKey_hides (ne_privateKey_of_slugShape hshape) .null t t' h
    rw [hvalue]
  · simp [hshape]

theorem logs_hide (env : ReadEnv) (stream : String) (limit : ℤ) :
    Hides PrivateKeyDiffers (respondTo env (.logs stream limit)) := by
  intro t t' h
  have hvalue : getCfgKey t s!"logs_{stream}" (.arr []) = getCfgKey t' s!"logs_{stream}" (.arr []) :=
    getCfgKey_hides (logs_ne_privateKey stream) (.arr []) t t' h
  show getLogs t stream limit = getLogs t' stream limit
  unfold getLogs
  rw [hvalue]

theorem journal_hides (env : ReadEnv) : Hides PrivateKeyDiffers (respondTo env .journal) := by
  intro t t' h
  have hfields : ∀ {rows rows' : List ConfigEntry}, List.Forall₂ EntriesAgree rows rows' →
      (rows.map fun e => (e.key, shownValue e.value)).filter (fun f => journalKey f.1) =
        (rows'.map fun e => (e.key, shownValue e.value)).filter fun f => journalKey f.1 := by
    intro rows rows' hrows
    induction hrows with
    | nil => rfl
    | @cons e e' rows rows' he _ ih =>
      rw [List.map_cons, List.map_cons, List.filter_cons, List.filter_cons, ih, ← he.key]
      by_cases hkey : e.key = kvPrivateKey
      · have hnot : journalKey e.key = false := by
          rw [hkey]
          decide +kernel
        simp [hnot]
      · rw [he.value hkey]
  show Except.ok (getJournal t env.strategies) = Except.ok (getJournal t' env.strategies)
  unfold getJournal PanelService.getConfig
  rw [hfields h]

/-! ### The dump -/

theorem shownValue_eq_find (t : ConfigTable) (key : String) :
    (kvGet t key).map shownValue = ((PanelService.getConfig t).find? fun f => f.1 = key).map Prod.snd := by
  unfold kvGet Store.Indexed.get? PanelService.getConfig
  rw [List.find?_map, Option.map_map, Option.map_map]
  rfl

theorem map_eq_of_forall₂ {α β γ : Type} {R : α → β → Prop} {f : α → γ} {g : β → γ} {l : List α}
    {l' : List β} (h : List.Forall₂ R l l') (heq : ∀ a ∈ l, ∀ b ∈ l', R a b → f a = g b) :
    l.map f = l'.map g := by
  induction h with
  | nil => rfl
  | @cons a b l l' hab _ ih =>
    rw [List.map_cons, List.map_cons, heq a List.mem_cons_self b List.mem_cons_self hab,
      ih fun a ha b hb => heq a (List.mem_cons_of_mem _ ha) b (List.mem_cons_of_mem _ hb)]

/-- **Dumps are equal exactly if both show the same value of the private key.** -/
theorem getConfig_eq_iff {t t' : ConfigTable} (h : PrivateKeyDiffers t t') :
    PanelService.getConfig t = PanelService.getConfig t' ↔
      (kvGet t kvPrivateKey).map shownValue = (kvGet t' kvPrivateKey).map shownValue := by
  constructor
  · intro heq
    rw [shownValue_eq_find, shownValue_eq_find, heq]
  · intro hshown
    refine map_eq_of_forall₂ h fun e he e' he' hagree => ?_
    have hvalue : shownValue e.value = shownValue e'.value := by
      by_cases hkey : e.key = kvPrivateKey
      · have hfound : t.get? kvPrivateKey = some e := by
          rw [← hkey]
          exact Store.Indexed.get?_of_mem he
        have hfound' : t'.get? kvPrivateKey = some e' := by
          rw [← hkey, hagree.key]
          exact Store.Indexed.get?_of_mem he'
        unfold kvGet at hshown
        rw [hfound, hfound'] at hshown
        exact Option.some.inj hshown
      · rw [hagree.value hkey]
    rw [hagree.key, hvalue]

/-! ### The identity -/

theorem kvGet_keypair_displayName (generated : StoreKeypair) (t : ConfigTable) :
    kvGet (keypair generated t).2 kvDisplayName = kvGet t kvDisplayName := by
  unfold keypair
  split
  · rfl
  · rw [kvGet_kvSet, if_neg (by decide), kvGet_kvSet, if_neg (by decide)]

theorem getIdentity_eq_iff {generated : StoreKeypair} {hash : String → String} {t t' : ConfigTable}
    (hname : kvGet t kvDisplayName = kvGet t' kvDisplayName) :
    getIdentity generated hash t = getIdentity generated hash t' ↔
      (keypair generated t).1.publicKeyB64 = (keypair generated t').1.publicKeyB64 := by
  unfold getIdentity
  dsimp only
  rw [kvGet_keypair_displayName, kvGet_keypair_displayName, hname]
  constructor
  · intro heq
    injection heq with heq
    have hpublic := (List.cons.inj (List.cons.inj heq).2).1
    exact Json.str.inj (congrArg Prod.snd hpublic)
  · intro heq
    rw [heq]

theorem publicKey_keypair (generated : StoreKeypair) (t : ConfigTable) :
    (keypair generated t).1.publicKeyB64 =
      if (kvTruthy t kvPrivateKey).isSome then (kvTruthy t kvPublicKey).getD generated.publicKeyB64
      else generated.publicKeyB64 := by
  unfold keypair
  cases kvTruthy t kvPublicKey <;> cases kvTruthy t kvPrivateKey <;> rfl

/-! ### The condition -/

/-- **When a response hides the private key.** A dump shows the value; an identity shows whether there
is a private key at all, where there is a public key. -/
def Hidden (env : ReadEnv) (p : KeyPair) : ReadRequest → Prop
  | .config => (kvGet p.left kvPrivateKey).map shownValue = (kvGet p.right kvPrivateKey).map shownValue
  | .identity =>
    ((kvTruthy p.left kvPrivateKey).isSome ↔ (kvTruthy p.right kvPrivateKey).isSome) ∨
      (kvTruthy p.left kvPublicKey).getD env.generated.publicKeyB64 = env.generated.publicKeyB64
  | .journal | .metrics _ | .logs _ _ => True

theorem identity_eq_iff (env : ReadEnv) (p : KeyPair) :
    respondTo env .identity p.left = respondTo env .identity p.right ↔ Hidden env p .identity := by
  have hpublic : kvTruthy p.left kvPublicKey = kvTruthy p.right kvPublicKey :=
    congrArg (Option.filter (· ≠ "")) (kvGet_hides (by decide) _ _ p.differ)
  show Except.ok _ = Except.ok _ ↔ _
  rw [Except.ok.injEq, getIdentity_eq_iff (kvGet_hides (by decide) _ _ p.differ), publicKey_keypair,
    publicKey_keypair, ← hpublic]
  unfold Hidden
  cases (kvTruthy p.left kvPrivateKey).isSome <;> cases (kvTruthy p.right kvPrivateKey).isSome <;>
    simp [eq_comm]

/-- **Tables that differ only in the private key have the same response exactly if it is hidden.** -/
theorem respond_eq_iff (env : ReadEnv) (p : KeyPair) (r : ReadRequest) :
    respondTo env r p.left = respondTo env r p.right ↔ Hidden env p r := by
  cases r with
  | config =>
    show Except.ok (Json.obj _) = Except.ok (Json.obj _) ↔ _
    rw [Except.ok.injEq, Json.obj.injEq, getConfig_eq_iff p.differ]
    rfl
  | journal => exact iff_of_true (journal_hides env _ _ p.differ) trivial
  | metrics key => exact iff_of_true (metrics_hide env key _ _ p.differ) trivial
  | logs stream limit => exact iff_of_true (logs_hide env stream limit _ _ p.differ) trivial
  | identity => exact identity_eq_iff env p

/-! ### A dump with the private key -/

/-- The table of a platform with a key pair. -/
def publisherTable (privateKey : String) : ConfigTable where
  rows := [⟨kvPublicKey, "MCowBQYDK2VwAyEA"⟩, ⟨kvPrivateKey, privateKey⟩]
  nodup := by
    show [kvPublicKey, kvPrivateKey].Nodup
    decide

def publisherPair : KeyPair where
  left := publisherTable "MC4CAQAwBQYDK2Vw"
  right := publisherTable "MC4CAQAwBQYDK2Vx"
  differ := by
    refine .cons ⟨rfl, fun _ => rfl⟩ (.cons ⟨rfl, fun h => absurd rfl h⟩ .nil)

/-- **The dump of the settings shows the private key.** -/
theorem config_shows_private_key : ¬ ∀ (env : ReadEnv) (p : KeyPair) (r : ReadRequest),
    respondTo env r p.left = respondTo env r p.right := by
  intro hall
  have heq := hall ⟨0, ⟨"", ""⟩, id⟩ publisherPair .config
  have hconfig : PanelService.getConfig publisherPair.left = PanelService.getConfig publisherPair.right :=
    Json.obj.inj (Except.ok.inj heq)
  have hshown := (getConfig_eq_iff publisherPair.differ).1 hconfig
  have htext := congrArg (fun v => Json.asString? v) hshown
  exact absurd htext (by decide)

end NeoTrader
