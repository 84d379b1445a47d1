import SmartParking.Async.Discipline
import SmartParking.Auth.Specs
import SmartParking.Gateway.Controllers
import SmartParking.Realtime.Namespace

namespace SmartParking.Gateway

open Async Auth

-- What a request can know: that a user is there, and that it was shown a session
-- token or a challenge of a user.
inductive Fact where
  | user (payload : AuthTokenPayload)
  | owner (userId : Id)
  | challenged (userId : Id)

def told (user : User) : Set Fact := {.user (.ofUser user)}

-- Sessions and challenges are signed for users who are there, new users are no
-- administrators, and the second factor of a user is written for that user only.
def authRules : Discipline Fact Auth.Call Auth.Answer Auth.Fault where
  permits known
    | .create data => data.role = .USER
    | .sign payload => .user payload ∈ known
    | .signMfaChallenge userId => ∃ payload, .user payload ∈ known ∧ payload.sub = userId
    | .updateMfa userId patch =>
        .owner userId ∈ known ∨ (patch.Consumes ∧ .challenged userId ∈ known)
    | _ => True
  teaches
    | .findById _, .ok (some user) => told user
    | .findByEmail _, .ok (some user) => told user
    | .create _, .ok user => told user
    | .verifyMfaChallenge _, .ok userId => {.challenged userId}
    | _, _ => ∅
  possible
    | .findById id, .ok (some user) => user.id = id
    | _, _ => True
  permits_mono {known more call} h hp := by
    cases call with
    | sign payload => exact h hp
    | signMfaChallenge userId => exact hp.imp fun _ hp => ⟨h hp.1, hp.2⟩
    | updateMfa userId patch => exact hp.imp (fun hp => h hp) fun hp => ⟨hp.1, h hp.2⟩
    | _ => exact hp

def rules : Discipline Fact Call Answer Auth.Fault where
  permits known
    | .auth call => authRules.permits known call
    | _ => True
  teaches
    | .verify _, .ok verified => {.owner (VerifiedToken.userId verified)}
    | .auth call, answer => authRules.teaches call answer
    | _, _ => ∅
  possible
    | .auth call, answer => authRules.possible call answer
    | _, _ => True
  permits_mono {known more call} h hp := by
    cases call with
    | auth call => exact authRules.permits_mono h hp
    | _ => exact trivial

-- A token whose signature verifies was issued before, as one of the two kinds.
def Issued {Tid : Type} (env : Environment) (key : SigningKey) (history : History Tid)
    (token : String) : Prop :=
  ∀ now claims, env.jwtVerify key now token = some claims →
    (∃ issuer payload issuedAt, ⟨issuer, .auth (.sign payload), .ok token⟩ ∈ history ∧
      claims = JwtTokenAdapter.accessClaims env issuedAt payload) ∨
    ∃ issuer userId issuedAt, ⟨issuer, .auth (.signMfaChallenge userId), .ok token⟩ ∈ history ∧
      claims = JwtTokenAdapter.challengeClaims env issuedAt userId

-- Signatures cannot be forged.
def presented {Tid : Type} (env : Environment) : CallGuard Tid
  | _, history, _, .verify token, _ => Issued env .privateKey history token
  | _, history, _, .auth (.verifyMfaChallenge token), _ => Issued env .mfaSecret history token
  | _, _, _, _, _ => True

-- The guards of the other services, at a time.

def JwtAuthGuard.canActivate (env : Environment) (now : ℤ) (authorization : Option String) :
    Reply VerifiedToken :=
  match bearer authorization with
  | none => .error (.unauthorized "Token de autenticacion faltante.")
  | some token =>
      match Rs256PublicKeyVerifier.verify env now token with
      | .error _ => .error (.unauthorized "Token de autenticacion invalido.")
      | .ok user => .ok user

def RolesGuard.canActivate (requiredRoles : List Auth.Role) (user : VerifiedToken) : Reply Unit :=
  if requiredRoles = [] then .ok ()
  else if user.role ∈ requiredRoles.map some then .ok ()
  else .error (.forbidden "No tienes permisos para esta accion.")

-- The routes of backend for administrators.
def adminRoute (env : Environment) (now : ℤ) (authorization : Option String) :
    Reply VerifiedToken :=
  match JwtAuthGuard.canActivate env now authorization with
  | .error error => .error error
  | .ok user => (RolesGuard.canActivate [.ADMIN] user).map fun _ => user

-- The history of audit-service, whose guard is its own.
def isAdmin (env : Environment) (now : ℤ) (authorization : Option String) : Bool :=
  match bearer authorization with
  | none => false
  | some token =>
      match env.jwtVerify .privateKey now token with
      | none => false
      | some payload =>
          payload.role = some .ADMIN &&
            (payload.purpose = none || payload.purpose = some "access")

-- The verifier that realtime-service is given, where a missing field is the empty text.
def realtimeRole : Auth.Role → Realtime.Role
  | .USER => .USER
  | .ADMIN => .ADMIN

def realtimeVerify (env : Environment) (now : ℤ) (token : String) :
    Except String Realtime.JwtPayload :=
  match env.jwtVerify .privateKey now token with
  | none => .error "signature verification failed"
  | some claims => .ok {
      sub := claims.sub.getD ""
      email := claims.email.getD ""
      role := realtimeRole (claims.role.getD .USER)
      purpose := claims.purpose }

-- The token was signed as a session of an account that was an administrator from the start.
def AdminSession {Tid : Type} (db : Auth.Database) (history : History Tid) (token : String)
    (account : Account) : Prop :=
  account ∈ accounts db ∧ account.role = .ADMIN ∧
    ∃ issuer, ⟨issuer, .auth (.sign account.payload), .ok token⟩ ∈ history

-- An administrator who logs in, and then sets the second factor up.
namespace Demo

def payload : AuthTokenPayload where
  sub := "u1"
  email := "ana@parking.com"
  role := .ADMIN

def env : Environment := { Auth.Demo.env with
  signJwt _ claims := "token of " ++ claims.sub.getD ""
  jwtVerify key now token :=
    if key = .privateKey ∧ token = "token of u1" ∧ now < 4000000 then
      some (JwtTokenAdapter.accessClaims Auth.Demo.env 3000000 payload)
    else none }

def first : Auth.World := Auth.Demo.world { Auth.Demo.user with role := .ADMIN }

def authorization : Option String := some "Bearer token of u1"

def requests : Bool → HttpRequest
  | false => .login { email := "ana@parking.com", password := "clave" }
  | true => .mfaSetup authorization

def turn (thread : Bool) : Bool × Choice :=
  (thread, { auth := Auth.Demo.choice "iv", delivered := .ok () })

-- The five calls of the login, and those of the setup until it writes.
def schedule : List (Bool × Choice) := List.replicate 5 (turn false) ++ List.replicate 5 (turn true)

def loggedIn : Requests Bool :=
  (Requests.start env first requests).play (serve env) schedule

end Demo

end SmartParking.Gateway
