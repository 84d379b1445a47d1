import SmartParking.Auth.UseCases

namespace SmartParking.Auth

open Async

-- One request to the service, as a value.
inductive Operation where
  | LoginUser (input : LoginUserInput)
  | LoginWithGoogle (input : LoginWithGoogleInput)
  | LoginWithFacebook (input : LoginWithFacebookInput)
  | SetupMfa (input : SetupMfaInput)
  | ConfirmMfa (input : ConfirmMfaInput)
  | VerifyMfa (input : VerifyMfaInput)
  | DisableMfa (input : DisableMfaInput)
  deriving DecidableEq

inductive Outcome where
  | LoggedIn (result : LoginUserResult)
  | Configured (result : SetupMfaResult)
  | Confirmed (result : ConfirmMfaResult)
  | Disabled
  deriving DecidableEq

def Operation.execute (env : Environment) : Operation → Port Outcome
  | .LoginUser input => Outcome.LoggedIn <$> LoginUserUseCase.execute input
  | .LoginWithGoogle input => Outcome.LoggedIn <$> LoginWithGoogleUseCase.execute input
  | .LoginWithFacebook input => Outcome.LoggedIn <$> LoginWithFacebookUseCase.execute input
  | .SetupMfa input => Outcome.Configured <$> SetupMfaUseCase.execute input
  | .ConfirmMfa input => Outcome.Confirmed <$> ConfirmMfaUseCase.execute input
  | .VerifyMfa input => Outcome.LoggedIn <$> VerifyMfaUseCase.execute env input
  | .DisableMfa input => (fun _ => Outcome.Disabled) <$> DisableMfaUseCase.execute input

-- Requests executed at the same time.
abbrev Requests (Tid : Type) := Pool Tid World Call Answer Fault Outcome

def Requests.start {Tid : Type} (env : Environment) (world : World)
    (operations : Tid → Operation) : Requests Tid :=
  Pool.start world fun thread => (operations thread).execute env

abbrev History (Tid : Type) := List (Event Tid Call Answer Fault)

abbrev CallGuard (Tid : Type) := Pool.Guard Tid Choice World Call Answer Fault

-- One user, and libraries that are easy to follow, for concrete runs. The codes
-- of all secrets are 000000, and a token is the text of its subject.
namespace Demo

def createHmac : HmacSha1 where
  digest _ _ := List.replicate 20 0
  length_digest _ _ := rfl

def env : Environment where
  upperCase c := [c]
  createHmac
  encrypt iv plainText := iv ++ "." ++ plainText
  decrypt cipherText := .ok (String.ofList (cipherText.toList.dropWhile (· ≠ '.')).tail)
  hash salt plain := salt ++ "." ++ plain
  compare plain hash := (hash.toList.dropWhile (· ≠ '.')).tail = plain.toList
  signJwt _ claims := claims.sub.getD ""
  jwtVerify _ now token := some {
    sub := some token
    email := none
    role := none
    purpose := some JwtTokenAdapter.PURPOSE_MFA
    iat := now
    exp := now }
  expiresIn := 28800
  mfaChallengeExpiresIn := 300

def user : UserRow where
  id := "u1"
  email := "ana@parking.com"
  passwordHash := "s.clave"
  fullName := "Ana"
  role := .USER
  mfaEnabled := false
  totpSecretEnc := none
  totpLastStep := none
  mfaBackupCodes := []
  createdAt := 0

def world (user : UserRow) : World where
  db := { users := ⟨[user], by simp, by simp⟩ }
  clock := 3000000

-- Each call takes a millisecond, and draws these.
def choice (iv : String) : Choice where
  elapsed := 1
  uuid := "u2"
  randomBytes := Vector.replicate _ 0
  iv
  salt := "s"
  picks _ := 0
  google := .error (.infrastructure "")
  facebook := .error (.infrastructure "")

end Demo

end SmartParking.Auth
