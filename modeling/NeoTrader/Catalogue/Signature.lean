import NeoTrader.Catalogue.Service
import NeoTrader.Js.Parse

/-!
# Signed requests

A request that writes carries the public key of a publisher and a signature over its timestamp, its
method, its path and the hash of its body.

* `buildSignedMessage`, **`buildSignedMessage_inj`**: what a signed message says;
* `canActivate`: the guard; `buildSignedHeaders`: the signer, and **`canActivate_signed`**: the guard
  lets its requests pass exactly inside the window;
* **`canActivate_sound`**: the guard lets only pass what the holder of the key has signed.
-/

namespace NeoTrader.Catalogue

open Js

/-! ## Messages -/

/-- A text without line breaks, as header values, methods and request targets are. -/
abbrev Line : Type := { s : String // '\n' ∉ s.toList }

/-- The value of a header; a missing one is as good as an empty one. -/
def header (v : Option Line) : String := (v.map Subtype.val).getD ""

/-- What is signed: the timestamp, the method, the path and the hash of the body, a line each. -/
def buildSignedMessage (timestamp method path bodyHashHex : String) : String :=
  timestamp ++ "\n" ++ method.toUpper ++ "\n" ++ path ++ "\n" ++ bodyHashHex

theorem cut_inj {α : Type} {a : α} {l l' k k' : List α} (hl : a ∉ l) (hl' : a ∉ l')
    (h : l ++ a :: k = l' ++ a :: k') : l = l' ∧ k = k' := by
  induction l generalizing l' with
  | nil =>
    cases l' with
    | nil => exact ⟨rfl, (List.cons.inj h).2⟩
    | cons b l' => exact absurd (List.cons.inj h).1 (List.ne_of_not_mem_cons hl')
  | cons b l ih =>
    cases l' with
    | nil => exact absurd (List.cons.inj h).1.symm (List.ne_of_not_mem_cons hl)
    | cons b' l' =>
      obtain ⟨rfl, htail⟩ := List.cons.inj h
      obtain ⟨rfl, hk⟩ := ih (List.not_mem_of_not_mem_cons hl) (List.not_mem_of_not_mem_cons hl') htail
      exact ⟨rfl, hk⟩

theorem toUpper_ne_newline {c : Char} (h : c ≠ '\n') : c.toUpper ≠ '\n' := by
  intro hn
  by_cases hc : 'a'.val ≤ c.val ∧ c.val ≤ 'z'.val
  · have hval : c.toUpper.val = c.val + ('A'.val - 'a'.val) := by
      delta Char.toUpper
      rw [dif_pos hc]
    have hnat := congrArg UInt32.toNat hval
    have hle := UInt32.le_iff_toNat_le.1 hc.1
    have hle' := UInt32.le_iff_toNat_le.1 hc.2
    rw [hn, UInt32.toNat_add] at hnat
    have hoffset : ('A'.val - 'a'.val).toNat = 4294967264 := by decide
    have ha : 'a'.val.toNat = 97 := by decide
    have hz : 'z'.val.toNat = 122 := by decide
    have hline : '\n'.val.toNat = 10 := by decide
    omega
  · exact h ((dif_neg hc : c.toUpper = c).symm.trans hn)

theorem line_toUpper {s : String} (h : '\n' ∉ s.toList) : '\n' ∉ s.toUpper.toList := by
  rw [String.toUpper, String.toList_map]
  intro hmem
  obtain ⟨c, hc, hn⟩ := List.mem_map.1 hmem
  exact toUpper_ne_newline (fun heq => h (heq ▸ hc)) hn

/-- **A signed message says what was signed.** -/
theorem buildSignedMessage_inj {ts ts' method method' path path' : Line} {hash hash' : String}
    (h : buildSignedMessage ts method path hash = buildSignedMessage ts' method' path' hash') :
    ts = ts' ∧ method.val.toUpper = method'.val.toUpper ∧ path = path' ∧ hash = hash' := by
  have hchars := congrArg String.toList h
  simp only [buildSignedMessage, String.toList_append, List.append_assoc] at hchars
  obtain ⟨hts, hchars⟩ := cut_inj ts.2 ts'.2 hchars
  obtain ⟨hmethod, hchars⟩ := cut_inj (line_toUpper method.2) (line_toUpper method'.2) hchars
  obtain ⟨hpath, hhash⟩ := cut_inj path.2 path'.2 hchars
  exact ⟨Subtype.ext (String.toList_injective hts), String.toList_injective hmethod,
    Subtype.ext (String.toList_injective hpath), String.toList_injective hhash⟩

/-! ## The guard -/

/-- The libraries of the signatures: hashes, keys, and the text of a number. `Key` are the public keys
that their texts stand for. -/
structure SignatureLib (Key : Type) where
  publisherIdFromPublicKey : String → String
  sha256Hex : String → String
  keyOf : String → Option Key
  verify : Key → String → String → Bool
  numeral : Number → String

structure HttpRequest where
  publisherId : Option Line
  publicKey : Option Line
  timestamp : Option Line
  signature : Option Line
  method : Line
  url : Line
  body : Option Json

/-- The URL without its query. -/
def pathOf (url : Line) : Line :=
  ⟨String.ofList (url.val.toList.takeWhile (· ≠ '?')), fun h => url.2
    ((List.takeWhile_sublist _).subset (by rwa [String.toList_ofList] at h))⟩

/-- The publisher that a request comes from. -/
structure Authenticated where
  publisherId : String
  publicKey : String
  deriving DecidableEq

def defaultWindowMs : ℚ := 300000

section Guard

variable {Key : Type} (lib : SignatureLib Key)

/-- The hash of a body; a missing one is an empty object. -/
def bodyText (body : Option Json) : String := (body.getD (.obj [])).stringify lib.numeral

/-- The signature is one of the key, over the message. A text that is no key verifies nothing. -/
def verifySignature (publicKey message signature : String) : Bool :=
  match lib.keyOf publicKey with
  | some key => lib.verify key message signature
  | none => false

/-- What a request must be signed over. -/
def signedMessage (req : HttpRequest) : String :=
  buildSignedMessage (header req.timestamp) req.method (pathOf req.url)
    (lib.sha256Hex (bodyText lib req.body))

/-- **The guard of the requests that write.** -/
def canActivate (windowMs : Option ℚ) (now : ℚ) (req : HttpRequest) : Except Err Authenticated :=
  let id := header req.publisherId
  let pub := header req.publicKey
  let ts := header req.timestamp
  let sig := header req.signature
  if id = "" ∨ pub = "" ∨ ts = "" ∨ sig = "" then .error (unauthorized "faltan cabeceras de firma")
  else if lib.publisherIdFromPublicKey pub ≠ id then
    .error (forbidden "el id no corresponde a la clave pública")
  else
    let edad := ((Number.fin now).sub (Number.ofString ts)).abs
    if !edad.isFinite || edad.gt (.fin (windowMs.getD defaultWindowMs)) then
      .error (unauthorized "timestamp fuera de la ventana (replay)")
    else if !verifySignature lib pub (signedMessage lib req) sig then
      .error (unauthorized "firma inválida")
    else .ok { publisherId := id, publicKey := pub }

/-! ## The signer -/

/-- A call of the signer, by the holder of the key. -/
structure Signing where
  publicKey : String
  method : Line
  path : Line
  body : Option Json
  timestamp : Line

def Signing.message (s : Signing) : String :=
  buildSignedMessage s.timestamp s.method s.path (lib.sha256Hex (bodyText lib s.body))

/-- The headers of a signed request. The argument `sign` signs with the private key. -/
def buildSignedHeaders (sign : String → Line) (publicKey : Line) (publisherId : Line)
    (s : Signing) : HttpRequest where
  publisherId := some publisherId
  publicKey := some publicKey
  timestamp := some s.timestamp
  signature := some (sign (s.message lib))
  method := s.method
  url := s.path
  body := s.body

/-- **Signatures cannot be forged**: what verifies under a key was signed by its holder. -/
def Unforgeable (signed : Signing → Prop) : Prop :=
  ∀ key message signature, lib.verify key message signature →
    ∃ s, signed s ∧ lib.keyOf s.publicKey = some key ∧ s.message lib = message

/-- No other body was found for the hash of a signed one. -/
def NoCollision (signed : Signing → Prop) : Prop :=
  ∀ s text, signed s → lib.sha256Hex (bodyText lib s.body) = lib.sha256Hex text →
    bodyText lib s.body = text

variable {lib} {windowMs : Option ℚ} {now : ℚ} {req : HttpRequest} {a : Authenticated}

/-- What the guard has made sure of. -/
structure Accepted (lib : SignatureLib Key) (windowMs : Option ℚ) (now : ℚ) (req : HttpRequest)
    (a : Authenticated) : Prop where
  publisherId : a.publisherId = lib.publisherIdFromPublicKey a.publicKey
  publicKey : a.publicKey = header req.publicKey
  timestamp : ∃ ts t, req.timestamp = some ts ∧ Number.ofString ts = .fin t ∧
    |now - t| ≤ windowMs.getD defaultWindowMs
  verified : verifySignature lib a.publicKey (signedMessage lib req) (header req.signature)

theorem canActivate_ok (h : canActivate lib windowMs now req = .ok a) :
    Accepted lib windowMs now req a := by
  simp only [canActivate] at h
  split_ifs at h with hmissing hid hage hverify
  cases h
  simp only [not_or] at hmissing
  refine ⟨(not_not.1 hid).symm, rfl, ?_, by simpa using hverify⟩
  cases hts : req.timestamp with
  | none => exact absurd (by rw [hts]; rfl) hmissing.2.2.1
  | some ts =>
    simp only [hts, header, Option.map_some, Option.getD_some] at hage
    cases ht : Number.ofString ts with
    | fin t => exact ⟨ts, t, rfl, ht, by simpa [ht] using hage⟩
    | nan => simp [ht, Number.sub, Number.neg, Number.add, Number.abs] at hage
    | inf neg => simp [ht, Number.sub, Number.neg, Number.add, Number.abs] at hage

/-- **The guard lets only pass what the holder of the key has signed**: this timestamp, this method,
this path and this body. -/
theorem canActivate_sound {signed : Signing → Prop} (hforge : Unforgeable lib signed)
    (hhash : NoCollision lib signed) (h : canActivate lib windowMs now req = .ok a) :
    ∃ s, signed s ∧ lib.keyOf s.publicKey = lib.keyOf a.publicKey ∧ (lib.keyOf a.publicKey).isSome ∧
      req.timestamp = some s.timestamp ∧ s.method.val.toUpper = req.method.val.toUpper ∧
      s.path = pathOf req.url ∧ bodyText lib s.body = bodyText lib req.body := by
  have hok := canActivate_ok h
  obtain ⟨ts, t, hts, -, -⟩ := hok.timestamp
  have hverified := hok.verified
  unfold verifySignature at hverified
  split at hverified
  · next key hkey =>
    obtain ⟨s, hs, hskey, hmessage⟩ := hforge _ _ _ hverified
    rw [signedMessage, hts] at hmessage
    obtain ⟨rfl, hmethod, hpath, hbody⟩ := buildSignedMessage_inj hmessage
    exact ⟨s, hs, hskey.trans hkey.symm, by simp [hkey], hts, hmethod, hpath, hhash s _ hs hbody⟩
  · cases hverified

/-- **The guard lets a signed request pass exactly inside the window.** -/
theorem canActivate_signed {sign : String → Line} {publicKey publisherId : Line} {key : Key}
    {s : Signing} {t : ℚ} (hkey : lib.keyOf publicKey = some key)
    (hsign : lib.verify key (s.message lib) (sign (s.message lib)))
    (hid : publisherId.val = lib.publisherIdFromPublicKey publicKey)
    (hne : publisherId.val ≠ "" ∧ publicKey.val ≠ "" ∧ s.timestamp.val ≠ "" ∧
      (sign (s.message lib)).val ≠ "")
    (hpath : pathOf s.path = s.path) (ht : Number.ofString s.timestamp = .fin t) :
    canActivate lib windowMs now (buildSignedHeaders lib sign publicKey publisherId s) =
      .ok ⟨publisherId, publicKey⟩ ↔ |now - t| ≤ windowMs.getD defaultWindowMs := by
  constructor
  · intro h
    obtain ⟨ts, t', hts, ht', hage⟩ := (canActivate_ok h).timestamp
    cases hts
    rw [ht] at ht'
    cases ht'
    exact hage
  · intro hage
    have hverify : verifySignature lib publicKey
        (signedMessage lib (buildSignedHeaders lib sign publicKey publisherId s))
        (sign (s.message lib)) = true := by
      simp only [verifySignature, hkey, signedMessage, buildSignedHeaders, hpath]
      exact hsign
    simp only [canActivate]
    rw [if_neg, if_neg, if_neg, if_neg]
    · rfl
    · simpa [header, buildSignedHeaders] using hverify
    · simpa [header, buildSignedHeaders, ht] using hage
    · simpa [header, buildSignedHeaders] using hid.symm
    · simpa [header, buildSignedHeaders] using hne

end Guard

/-! ## Routes -/

/-- The routes that write. -/
inductive Endpoint
  | publish
  | vote (pluginId : String)
  | report (pluginId : String)
  | setName
  deriving DecidableEq

/-- The libraries of the routes: the router, and the checks of the validators. -/
structure RouteLib where
  route : String → String → Option Endpoint
  isBase64 : String → Bool
  maxLength : ℕ → String → Bool

/-- The exception of a body that does not pass its checks. -/
def invalidBody : Err := badRequest "Bad Request Exception"

/-- A field of a body; a missing body has none, and an array is no body. -/
def bodyField (body : Option Json) (key : String) : Except Err (Option Json) :=
  match body with
  | none => .ok none
  | some (.obj fields) => .ok (Json.field (.obj fields) key)
  | some _ => .error invalidBody

/-- A field of a body that must be a string with a property. -/
def stringOf (body : Option Json) (key : String) (ok : String → Bool) : Except Err String := do
  match ← bodyField body key with
  | some (.str s) => if ok s then return s else throw invalidBody
  | _ => throw invalidBody

/-- `@IsNotEmpty()`. -/
def notEmpty (s : String) : Bool := s ≠ ""

/-- What a request is to do, if its body passes the checks of its route. -/
def actionOf (lib : RouteLib) (body : Option Json) : Endpoint → Except Err StoreAction
  | .publish => do
    let manifestToml ← stringOf body "manifestToml" notEmpty
    let payloadBase64 ← stringOf body "payloadBase64" lib.isBase64
    return .publish manifestToml payloadBase64
  | .vote pluginId => do
    let kind ← stringOf body "kind" fun s => s = "like" || s = "dislike"
    return .vote pluginId (if kind = "like" then .like else .dislike)
  | .report pluginId => do
    let reason ← stringOf body "reason" fun s => notEmpty s && lib.maxLength 500 s
    return .report pluginId reason
  | .setName => do
    match ← bodyField body "displayName" with
    | none => return .setName none
    | some .null => return .setName (some none)
    | some (.str s) => if lib.maxLength 40 s then return .setName (some (some s)) else throw invalidBody
    | some _ => throw invalidBody

/-- The request that a network request stands for, if it gets to the services. -/
def requestOf {Key : Type} (lib : SignatureLib Key) (routes : RouteLib) (windowMs : Option ℚ) (now : ℚ)
    (req : HttpRequest) : Except Err StoreRequest :=
  match routes.route req.method (pathOf req.url) with
  | none => .error (notFound "Not Found")
  | some endpoint => do
    let a ← canActivate lib windowMs now req
    let action ← actionOf routes req.body endpoint
    return { publisherId := a.publisherId, publicKey := a.publicKey, action }

/-- **Answers a network request.** -/
def answer {Key : Type} (lib : SignatureLib Key) (routes : RouteLib) (windowMs : Option ℚ)
    (store : StoreLib) (e : StoreEnv) (now : ℚ) (req : HttpRequest) : StoreM (Option PublishResult) :=
  match requestOf lib routes windowMs now req with
  | .error err => StoreM.throw err
  | .ok r => serve store e r

end NeoTrader.Catalogue
