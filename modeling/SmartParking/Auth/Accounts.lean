import SmartParking.Auth.Operations

namespace SmartParking.Auth

open Async

structure RegisterUserInput where
  email : String
  password : String
  fullName : String
  deriving DecidableEq

def RegisterUserUseCase.execute (input : RegisterUserInput) : Port User := do
  let existing ← users.findByEmail input.email
  match existing with
  | some _ => throw (.domain .EmailAlreadyRegistered)
  | none =>
      let passwordHash ← hasher.hash input.password
      users.create { email := input.email, passwordHash, fullName := input.fullName, role := .USER }

def GetCurrentUserUseCase.execute (userId : Id) : Port User := do
  let user ← users.findById userId
  match user with
  | none => throw (.domain (.NotFound "User" userId))
  | some user => pure user

-- The replies of the service.

structure UserReply extends AuthenticatedUserSummary where
  mfaEnabled : Bool
  createdAt : ℤ
  deriving DecidableEq

def toUserReply (user : User) : UserReply where
  id := user.id
  email := user.email
  fullName := user.fullName
  role := user.role
  mfaEnabled := user.mfaEnabled
  createdAt := user.createdAt

-- One of the two is there.
structure LoginReply where
  fullSession : Option (String × AuthenticatedUserSummary) := none
  mfaChallenge : Option String := none
  deriving DecidableEq

def toLoginReply : LoginUserResult → LoginReply
  | .mfaRequired mfaToken => { mfaChallenge := some mfaToken }
  | .session accessToken user => { fullSession := some (accessToken, user) }

namespace AuthGrpcController

def register (data : RegisterUserInput) : Port UserReply :=
  toUserReply <$> RegisterUserUseCase.execute data

def login (data : LoginUserInput) : Port LoginReply :=
  toLoginReply <$> LoginUserUseCase.execute data

def loginWithGoogleRpc (data : LoginWithGoogleInput) : Port LoginReply :=
  toLoginReply <$> LoginWithGoogleUseCase.execute data

def loginWithFacebookRpc (data : LoginWithFacebookInput) : Port LoginReply :=
  toLoginReply <$> LoginWithFacebookUseCase.execute data

def verifyMfaRpc (env : Environment) (data : VerifyMfaInput) : Port LoginReply :=
  toLoginReply <$> VerifyMfaUseCase.execute env data

def setupMfaRpc (data : SetupMfaInput) : Port SetupMfaResult := SetupMfaUseCase.execute data

def confirmMfaRpc (data : ConfirmMfaInput) : Port ConfirmMfaResult := ConfirmMfaUseCase.execute data

def disableMfaRpc (data : DisableMfaInput) : Port Unit := DisableMfaUseCase.execute data

def getUserByIdRpc (userId : Id) : Port UserReply :=
  toUserReply <$> GetCurrentUserUseCase.execute userId

end AuthGrpcController

-- What a session token says of its user, where it says it.
structure VerifiedToken where
  sub : Option String
  email : Option String
  role : Option Role
  deriving DecidableEq

-- The verifier of auth-service, and its copies in gateway, backend and payments-service.
def Rs256PublicKeyVerifier.verify (env : Environment) (now : ℤ) (token : String) :
    Except Fault VerifiedToken :=
  match env.jwtVerify .privateKey now token with
  | none => .error (.infrastructure "signature verification failed")
  | some claims =>
      if claims.purpose ≠ none ∧ claims.purpose ≠ some JwtTokenAdapter.PURPOSE_ACCESS then
        .error (.infrastructure "El token no es un access token.")
      else .ok { sub := claims.sub, email := claims.email, role := claims.role }

def JwtTokenAdapter.verify : Environment → ℤ → String → Except Fault VerifiedToken :=
  Rs256PublicKeyVerifier.verify

-- The claims that `sign` puts in a session token.
def JwtTokenAdapter.accessClaims (env : Environment) (now : ℤ) (payload : AuthTokenPayload) :
    JwtClaims where
  sub := some payload.sub
  email := some payload.email
  role := some payload.role
  purpose := some PURPOSE_ACCESS
  iat := now / 1000
  exp := now / 1000 + env.expiresIn

theorem JwtTokenAdapter.sign_eq (env : Environment) (now : ℤ) (payload : AuthTokenPayload) :
    sign env now payload = env.signJwt .privateKey (accessClaims env now payload) := rfl

def AuthTokenPayload.ofUser (user : User) : AuthTokenPayload where
  sub := user.id
  email := user.email
  role := user.role

-- The columns of a user that are no second factor.
structure Account where
  id : Id
  email : String
  passwordHash : String
  fullName : String
  role : Role
  createdAt : ℤ
  deriving DecidableEq

def UserRow.account (row : UserRow) : Account where
  id := row.id
  email := row.email
  passwordHash := row.passwordHash
  fullName := row.fullName
  role := row.role
  createdAt := row.createdAt

def Account.payload (account : Account) : AuthTokenPayload where
  sub := account.id
  email := account.email
  role := account.role

def accounts (db : Database) : List Account := db.users.rows.map UserRow.account

end SmartParking.Auth
