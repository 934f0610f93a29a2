import NeoTrader.Auth.Guards
import NeoTrader.Await.Logic
import NeoTrader.Store.Table

/-!
# Authentication and its second factor

The password gives a token; a code of the authenticator or a backup code raises it to a token that
has passed the second factor. Every route reads and writes the same row of the user.

* `User`, `UserPatch`, `JwtPayload`, `RequestUser`: the row, a write, a token, and what
  authentication attaches to the request;
* `consumeBackupCode`, `issueToken`, `verifyTotpAndUpgrade`, `verifyBackupCode`, `setupTotp`,
  `activateTotp`, `disableTotp`: the services;
* `jwtAuthGuard`, `AuthRoute.guard`, `AuthRoute.handler`, **`AuthRequest.body`**: a request, behind
  the global guards and the guards of its route.
-/

namespace NeoTrader

open Await

/-! ## Rows and tokens -/

structure User where
  id : String
  username : String
  passwordHash : String
  totpSecret : Option String := none
  totpEnabled : Bool := false
  backupCodesHash : Option String := none
  isActive : Bool := true
  deriving DecidableEq

/-- What an update writes. -/
structure UserPatch where
  totpSecret : Option (Option String) := none
  totpEnabled : Option Bool := none
  backupCodesHash : Option (Option String) := none

/-- The row after the update. -/
def UserPatch.apply (d : UserPatch) (u : User) : User :=
  { u with
    totpSecret := d.totpSecret.getD u.totpSecret
    totpEnabled := d.totpEnabled.getD u.totpEnabled
    backupCodesHash := d.backupCodesHash.getD u.backupCodesHash }

structure JwtPayload where
  sub : String
  username : String
  totpVerified : Bool
  deriving DecidableEq

/-- The answer to a login. -/
structure TokenPair where
  accessToken : JwtPayload
  totpRequired : Bool

/-- What authentication attaches to the request; a password leaves `totp_verified` undefined. -/
structure RequestUser where
  user : User
  totpVerified : Option Bool

/-! ## Operations -/

/-- The libraries: a code of a secret at a time, a text against a hash, and upper case. -/
structure Crypto where
  verify : ℤ → String → String → Bool
  compare : String → String → Bool
  toUpperCase : String → String

inductive AuthOp
  | userCount
  | userCreate (username passwordHash : String)
  | userFindByUsername (username : String)
  | userFindById (id : String)
  | userUpdate (id : String) (patch : UserPatch)
  | bcryptHash (text : String)
  | bcryptCompare (text hash : String)
  | totpVerify (secret token : String)
  | generateSecret
  | generateQrSvg (username secret : String)
  | generateBackupCodes
  | jwtSign (payload : JwtPayload)
  | jwtVerify (token : JwtPayload)
  -- the rate limit, which lets a request pass or rejects it
  | throttle

def AuthOp.Ans : AuthOp → Type
  | userCount => ℕ
  | userCreate _ _ => User
  | userFindByUsername _ => Option User
  | userFindById _ => Option User
  | userUpdate _ _ => Unit
  | bcryptHash _ => String
  | bcryptCompare _ _ => Bool
  | totpVerify _ _ => Bool
  | generateSecret => String
  | generateQrSvg _ _ => String
  | generateBackupCodes => List String
  | jwtSign _ => JwtPayload
  | jwtVerify _ => Bool
  | throttle => Unit

/-- The signature of the authentication services. -/
def authSig : Sig := ⟨AuthOp, AuthOp.Ans, Err⟩

/-- A program of the authentication services. -/
abbrev Auth (α : Type) : Type := Prog authSig α

/-- Await one operation of the authentication services. -/
abbrev auth (op : AuthOp) : Auth op.Ans := Prog.perform (S := authSig) op

/-- The users, and the tokens that have been signed. -/
structure AuthWorld where
  users : List User := []
  issued : List JwtPayload := []
  deriving DecidableEq

/-- What one operation meets outside: the time, a failure, fresh values, the age of a token. -/
structure AuthOracle where
  time : ℤ := 0
  failure : Option Err := none
  newId : String := ""
  text : String := ""
  codes : List String := []
  expired : Bool := false

/-- An operation fails and changes nothing, or takes effect. -/
def effect {α : Type} (o : AuthOracle) (w : AuthWorld) (x : Except Err (α × AuthWorld)) :
    Except Err α × AuthWorld :=
  match o.failure, x with
  | some e, _ => (.error e, w)
  | none, .error e => (.error e, w)
  | none, .ok (a, w') => (.ok a, w')

/-- A unique name is taken. -/
def userExists : Err :=
  { name := "PrismaClientKnownRequestError", code := some "P2002"
    message := [.lit "Unique constraint failed"] }

/-- The row to update does not exist. -/
def userMissing : Err :=
  { name := "PrismaClientKnownRequestError", code := some "P2025"
    message := [.lit "Record to update not found"] }

/-- **One operation**: its outcome and the world after it. A token is accepted if it has been signed
here and has not expired. -/
def handleAuth (c : Crypto) (o : AuthOracle) : (op : AuthOp) → AuthWorld →
    Except Err op.Ans × AuthWorld
  | .userCount, w => effect o w (.ok (w.users.length, w))
  | .userCreate username passwordHash, w => effect o w <|
    if w.users.any fun u => u.id = o.newId ∨ u.username = username then .error userExists
    else .ok ({ id := o.newId, username, passwordHash },
      { w with users := w.users ++ [{ id := o.newId, username, passwordHash }] })
  | .userFindByUsername username, w =>
    effect o w (.ok (w.users.find? fun u => u.username = username ∧ u.isActive, w))
  | .userFindById id, w => effect o w (.ok (w.users.find? fun u => u.id = id ∧ u.isActive, w))
  | .userUpdate id patch, w => effect o w <|
    if w.users.any fun u => u.id = id then
      .ok ((), { w with users := Store.modify (fun u => u.id = id) patch.apply w.users })
    else .error userMissing
  | .bcryptHash _, w => effect o w (.ok (o.text, w))
  | .bcryptCompare text hash, w => effect o w (.ok (c.compare text hash, w))
  | .totpVerify secret token, w => effect o w (.ok (c.verify o.time secret token, w))
  | .generateSecret, w => effect o w (.ok (o.text, w))
  | .generateQrSvg _ _, w => effect o w (.ok (o.text, w))
  | .generateBackupCodes, w => effect o w (.ok (o.codes, w))
  | .jwtSign payload, w =>
    effect o w (.ok (payload, { w with issued := w.issued ++ [payload] }))
  | .jwtVerify token, w => effect o w (.ok (token ∈ w.issued && ¬ o.expired, w))
  | .throttle, w => effect o w (.ok ((), w))

/-- The semantics of the authentication services, where the oracles satisfy `A`. -/
def authSem (c : Crypto) (A : AuthOracle → Prop) : Sem authSig AuthWorld :=
  Sem.ofHandler (S := authSig) (handleAuth c) fun o _ _ => A o

/-! ## Users -/

def createUser (username password : String) : Auth User := do
  let count : ℕ ← auth .userCount
  if 0 < count then
    .throw (conflict
      "Ya existe un usuario en esta instalación. OpenNeoTrader es monousuario.")
  else
    let passwordHash ← auth (.bcryptHash password)
    auth (.userCreate username passwordHash)

/-- The user of an id, or the exception. -/
def findById (id : String) : Auth User := do
  match ← auth (.userFindById id) with
  | some u => return u
  | none => .throw (notFound "Usuario no encontrado")

/-- Stores a secret that is yet to be confirmed. -/
def saveTotpSecret (userId secret : String) : Auth Unit :=
  auth (.userUpdate userId { totpSecret := some (some secret), totpEnabled := some false })

def enableTotp (userId : String) : Auth Unit :=
  auth (.userUpdate userId { totpEnabled := some true })

/-- Forgets the secret and the backup codes. -/
def clearTotp (userId : String) : Auth Unit :=
  auth (.userUpdate userId
    { totpSecret := some none, totpEnabled := some false, backupCodesHash := some none })

/-- The column of backup codes. -/
def joinHashes (hashes : List String) : String := "|".intercalate hashes

def splitHashes (column : String) : List String :=
  (column.toList.splitOn '|').map String.ofList

/-- Stores the hashes of the codes. -/
def saveBackupCodes (userId : String) (codes : List String) : Auth (List String) := do
  let hashes ← Prog.collect codes fun code => auth (.bcryptHash code)
  auth (.userUpdate userId { backupCodesHash := some (some (joinHashes hashes)) })
  return codes

/-- **Consumes a backup code**: the hashes of the row as it was read, without the first that matches,
are written back. -/
def consumeBackupCode (user : User) (code : String) : Auth Bool :=
  match user.backupCodesHash.filter (· ≠ "") with
  | none => return false
  | some column => do
    let hashes := splitHashes column
    let results : List Bool ← Prog.collect hashes fun h => auth (.bcryptCompare code h)
    if true ∈ results then
      let rest := hashes.eraseIdx (results.idxOf true)
      auth (.userUpdate user.id
        { backupCodesHash := some (if rest = [] then none else some (joinHashes rest)) })
      return true
    else return false

/-! ## The service -/

/-- The token of a password; it has passed the second factor if there is none. -/
def issueToken (user : User) : Auth TokenPair := do
  let accessToken ← auth (.jwtSign
    { sub := user.id, username := user.username, totpVerified := ¬ user.totpEnabled })
  return { accessToken, totpRequired := user.totpEnabled }

/-- The token that has passed the second factor. -/
def upgradedToken (user : User) : JwtPayload :=
  { sub := user.id, username := user.username, totpVerified := true }

def totpInactive : Err := badRequest "TOTP no está activado"

def totpInvalid : Err := unauthorized "Código TOTP inválido"

/-- The secret of a user with the second factor. -/
def activeSecret (user : User) : Option String :=
  if user.totpEnabled then user.totpSecret.filter (· ≠ "") else none

/-- **A code of the authenticator gives a token that has passed the second factor.** -/
def verifyTotpAndUpgrade (user : User) (code : String) : Auth JwtPayload :=
  match activeSecret user with
  | none => .throw totpInactive
  | some secret => do
    let ok : Bool ← auth (.totpVerify secret code)
    if ok then auth (.jwtSign (upgradedToken user))
    else .throw totpInvalid

/-- **A backup code gives a token that has passed the second factor.** -/
def verifyBackupCode (toUpperCase : String → String) (user : User) (code : String) :
    Auth JwtPayload := do
  if ← consumeBackupCode user (toUpperCase code) then auth (.jwtSign (upgradedToken user))
  else .throw (unauthorized "Código de respaldo inválido o ya usado")

/-- Stores a new secret, and switches the second factor off until it is confirmed. -/
def setupTotp (user : User) : Auth (String × String) := do
  let secret ← auth .generateSecret
  saveTotpSecret user.id secret
  let qrSvg ← auth (.generateQrSvg user.username secret)
  return (secret, qrSvg)

/-- Confirms the secret and switches the second factor on. -/
def activateTotp (user : User) (code : String) : Auth (List String) :=
  match user.totpSecret.filter (· ≠ "") with
  | none => .throw (badRequest "Primero llama a /auth/totp/setup")
  | some secret => do
    if user.totpEnabled then .throw (conflict "TOTP ya está activado")
    else
      let ok : Bool ← auth (.totpVerify secret code)
      if ok then
        enableTotp user.id
        let codes ← auth .generateBackupCodes
        saveBackupCodes user.id codes
      else .throw totpInvalid

/-- Switches the second factor off. -/
def disableTotp (user : User) (code : String) : Auth Unit :=
  match activeSecret user with
  | none => .throw totpInactive
  | some secret => do
    let ok : Bool ← auth (.totpVerify secret code)
    if ok then clearTotp user.id
    else .throw totpInvalid

/-! ## Routes -/

inductive AuthRoute
  | register (username password : String)
  | login (username password : String)
  | totpSetup
  | totpActivate (code : String)
  | totpVerify (code : String)
  | totpBackup (code : String)
  | totpDisable (code : String)
  deriving DecidableEq

/-- A request: its bearer token and its route. -/
structure AuthRequest where
  bearer : Option JwtPayload
  route : AuthRoute
  deriving DecidableEq

/-- What a route answers. -/
inductive AuthReply
  | user (id username : String)
  | tokens (pair : TokenPair)
  | setup (secret qrSvg : String)
  | backupCodes (codes : List String)
  | token (accessToken : JwtPayload)
  | noContent

def AuthRoute.isPublic : AuthRoute → Bool
  | register _ _ | login _ _ | totpVerify _ | totpBackup _ => true
  | totpSetup | totpActivate _ | totpDisable _ => false

/-- **The guard of the bearer token**: it lets a public route pass, and then attaches no user to the
request. -/
def jwtAuthGuard (isPublic : Bool) (bearer : Option JwtPayload) (attached : Option RequestUser) :
    Auth (Option RequestUser) :=
  if isPublic then return attached
  else
    match bearer with
    | none => .throw (unauthorized "Unauthorized")
    | some token => do
      let ok : Bool ← auth (.jwtVerify token)
      if ok then
        let user ← findById token.sub
        return some { user, totpVerified := some token.totpVerified }
      else .throw (unauthorized "Unauthorized")

def wrongCredentials : Err := unauthorized "Credenciales inválidas"

def localGuard (username password : String) : Auth (Option RequestUser) := do
  match ← auth (.userFindByUsername username) with
  | none => .throw wrongCredentials
  | some user =>
    let ok : Bool ← auth (.bcryptCompare password user.passwordHash)
    if ok then return some { user, totpVerified := none }
    else .throw wrongCredentials

/-- The guards of the route itself, after the global ones. -/
def AuthRoute.guard (bearer : Option JwtPayload) (attached : Option RequestUser) (r : AuthRoute) :
    Auth (Option RequestUser) :=
  match r with
  | login username password => localGuard username password
  | totpVerify _ | totpBackup _ => jwtAuthGuard r.isPublic bearer attached
  | totpDisable _ => do
    Prog.ofOutcome (S := authSig)
      (totpRequiredGuard (attached.map fun u => u.totpVerified.getD false))
    return attached
  | register _ _ | totpSetup | totpActivate _ => return attached

/-- The length of a field is not what the request's type demands. -/
def lengthError (field : String) : Err := badRequest (field ++ " must have the required length")

/-- The checks of the request's body. -/
def AuthRoute.validate : AuthRoute → Except Err Unit
  | register username password =>
    if username.length < 3 ∨ 32 < username.length then .error (lengthError "username")
    else if password.length < 10 then .error (lengthError "password")
    else .ok ()
  | totpActivate code | totpVerify code | totpDisable code =>
    if code.length = 6 then .ok () else .error (lengthError "code")
  | totpBackup code => if code.length = 8 then .ok () else .error (lengthError "code")
  | login _ _ | totpSetup => .ok ()

/-- The attached user, of which the service reads the property first. -/
def attachedUser (property : String) : Option RequestUser → Auth User
  | some u => return u.user
  | none => .throw (undefinedPropertyError property)

/-- The controller's method. -/
def AuthRoute.handler (toUpperCase : String → String) (attached : Option RequestUser) :
    AuthRoute → Auth AuthReply
  | register username password => do
    let user ← createUser username password
    return .user user.id user.username
  | login _ _ => do
    let user ← attachedUser "id" attached
    let pair ← issueToken user
    return .tokens pair
  | totpSetup => do
    let user ← attachedUser "id" attached
    let (secret, qrSvg) ← setupTotp user
    return .setup secret qrSvg
  | totpActivate code => do
    let user ← attachedUser "totp_secret" attached
    let codes ← activateTotp user code
    return .backupCodes codes
  | totpVerify code => do
    let user ← attachedUser "totp_enabled" attached
    let accessToken ← verifyTotpAndUpgrade user code
    return .token accessToken
  | totpBackup code => do
    let user ← attachedUser "backup_codes_hash" attached
    let accessToken ← verifyBackupCode toUpperCase user code
    return .token accessToken
  | totpDisable code => do
    let user ← attachedUser "totp_enabled" attached
    disableTotp user code
    return .noContent

/-- **A request**: the global guards, the guards of the route, the checks of the body, and the
controller. -/
def AuthRequest.body (toUpperCase : String → String) (r : AuthRequest) : Auth AuthReply := do
  let attached ← jwtAuthGuard r.route.isPublic r.bearer none
  auth .throttle
  let attached ← r.route.guard r.bearer attached
  Prog.ofOutcome (S := authSig) r.route.validate
  r.route.handler toUpperCase attached

end NeoTrader
