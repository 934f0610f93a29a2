import NeoTrader.Trade.Rows

/-!
# Guards of the routes

A guard lets a request pass or throws. What it looks at is the user that authentication has attached
to the request, if there is one, and the second factor of its token.

* `unauthorized`, `forbidden`, `notFound`, `conflict`, `badRequest`: the exceptions of the routes;
* `totpRequiredGuard`, `walkForwardTotpGuard`.
-/

namespace NeoTrader

/-! ## Exceptions -/

def unauthorized (message : String) : Err :=
  { name := "UnauthorizedException", message := [.lit message] }

def forbidden (message : String) : Err := { name := "ForbiddenException", message := [.lit message] }

def notFound (message : String) : Err := { name := "NotFoundException", message := [.lit message] }

def conflict (message : String) : Err := { name := "ConflictException", message := [.lit message] }

def badRequest (message : String) : Err :=
  { name := "BadRequestException", message := [.lit message] }

/-- `undefined.property`. -/
def undefinedPropertyError (property : String) : Err :=
  { name := "TypeError"
    message := [.lit s!"Cannot read properties of undefined (reading '{property}')"] }

/-! ## The second factor -/

/-- The token must have passed the second factor. The argument is `req.user?.totp_verified`. -/
def totpRequiredGuard : Option Bool → Except Err Unit
  | none => .error (unauthorized "Unauthorized")
  | some false => .error (forbidden "Se requiere verificación TOTP")
  | some true => .ok ()

/-- A walk-forward run that records its verdict needs the second factor; others are free. -/
def walkForwardTotpGuard (strategyRowId : Option String) (totpVerified : Option Bool) :
    Except Err Unit :=
  match strategyRowId.filter (· ≠ "") with
  | none => .ok ()
  | some _ => totpRequiredGuard totpVerified

theorem totpRequiredGuard_ok {v : Option Bool} : totpRequiredGuard v = .ok () ↔ v = some true := by
  unfold totpRequiredGuard
  split <;> simp

end NeoTrader
