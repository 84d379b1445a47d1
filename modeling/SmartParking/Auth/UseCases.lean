import SmartParking.Auth.Ports

namespace SmartParking.Auth

open Async

structure AuthenticatedUserSummary where
  id : Id
  email : String
  fullName : String
  role : Role
  deriving DecidableEq

inductive LoginUserResult where
  | session (accessToken : String) (user : AuthenticatedUserSummary)
  | mfaRequired (mfaToken : String)
  deriving DecidableEq

def issueAccessSession (user : User) : Port LoginUserResult := do
  let accessToken ← tokenService.sign { sub := user.id, email := user.email, role := user.role }
  pure (.session accessToken
    { id := user.id, email := user.email, fullName := user.fullName, role := user.role })

def issueSession (user : User) : Port LoginUserResult := do
  if user.mfaEnabled then
    let mfaToken ← tokenService.signMfaChallenge user.id
    pure (.mfaRequired mfaToken)
  else issueAccessSession user

structure LoginUserInput where
  email : String
  password : String
  deriving DecidableEq

def LoginUserUseCase.execute (input : LoginUserInput) : Port LoginUserResult := do
  let user ← users.findByEmail input.email
  match user with
  | none => throw (.domain .invalidCredentials)
  | some user =>
      let passwordMatches ← hasher.compare input.password user.passwordHash
      if passwordMatches then issueSession user
      else throw (.domain .invalidCredentials)

-- What the two social logins share: the account of the email, or a new one.
def findOrCreate (email fullName : String) : Port User := do
  let user ← users.findByEmail email
  match user with
  | some user => pure user
  | none =>
      let uuid ← randomUUID
      let unusablePassword ← hasher.hash uuid
      users.create { email, passwordHash := unusablePassword, fullName, role := .USER }

structure LoginWithGoogleInput where
  idToken : String
  deriving DecidableEq

def LoginWithGoogleUseCase.execute (input : LoginWithGoogleInput) : Port LoginUserResult := do
  let identity ← googleVerifier.verify input.idToken
  if identity.emailVerified then
    let user ← findOrCreate identity.email identity.fullName
    issueSession user
  else throw (.domain (.InvalidCredentials "El correo de Google no esta verificado."))

structure LoginWithFacebookInput where
  accessToken : String
  deriving DecidableEq

def LoginWithFacebookUseCase.execute (input : LoginWithFacebookInput) : Port LoginUserResult := do
  let identity ← facebookVerifier.verify input.accessToken
  let user ← findOrCreate identity.email identity.fullName
  issueSession user

structure SetupMfaInput where
  userId : Id
  deriving DecidableEq

structure SetupMfaResult where
  secret : String
  otpauthUri : String
  deriving DecidableEq

def MFA_ISSUER : String := "Parking/OS"

namespace SetupMfaUseCase

def generate (user : User) : Port SetupMfaResult := do
  let secret ← totp.generateSecret
  let totpSecretEnc ← cipher.encrypt secret
  users.updateMfa user.id {
    enabled := some false
    totpSecretEnc := some (some totpSecretEnc)
    lastStep := some none
    backupCodeHashes := some [] }
  pure {
    secret
    otpauthUri := Rfc6238TotpAdapter.buildOtpAuthUri secret user.email MFA_ISSUER }

def execute (input : SetupMfaInput) : Port SetupMfaResult := do
  let user ← users.findById input.userId
  match user with
  | none => throw (.domain (.NotFound "User" input.userId))
  | some user =>
      if user.mfaEnabled then throw (.domain .MfaAlreadyEnabled) else generate user

end SetupMfaUseCase

-- The stored secret, where the empty text counts as none.
def MfaCredentials.configured (credentials : MfaCredentials) : Option String :=
  credentials.totpSecretEnc.filter (· ≠ "")

-- That of a user who has the second factor on.
def MfaCredentials.active (credentials : MfaCredentials) : Option String :=
  if credentials.enabled then credentials.configured else none

structure ConfirmMfaInput where
  userId : Id
  code : String
  deriving DecidableEq

structure ConfirmMfaResult where
  backupCodes : List String
  deriving DecidableEq

@[irreducible] def BACKUP_CODES_COUNT : ℕ := 8

def generateBackupCodes : ℕ → Port (List String)
  | 0 => pure []
  | count + 1 => do
      let code ← ask .generateBackupCode
      let codes ← generateBackupCodes count
      pure (code :: codes)

-- What the user types is put in upper case, without blanks and hyphens, and
-- formatted again.
def normalizeBackupCode (toUpperCase : String → String) (raw : String) : String :=
  let clean := JsString.keep (fun c => ('A' ≤ c && c ≤ 'Z') || ('0' ≤ c && c ≤ '9'))
    (toUpperCase raw)
  if clean.length = 8 then
    String.ofList (clean.toList.take 4) ++ "-" ++ String.ofList (clean.toList.drop 4)
  else toUpperCase (JsString.trim raw)

namespace ConfirmMfaUseCase

-- What follows the right code.
def enable (userId : Id) (step : ℤ) : Port ConfirmMfaResult := do
  let backupCodes ← generateBackupCodes BACKUP_CODES_COUNT
  let backupCodeHashes ← Program.all (backupCodes.map hasher.hash)
  users.updateMfa userId {
    enabled := some true
    lastStep := some (some step)
    backupCodeHashes := some backupCodeHashes }
  pure { backupCodes }

def confirm (input : ConfirmMfaInput) (totpSecretEnc : String) : Port ConfirmMfaResult := do
  let secret ← cipher.decrypt totpSecretEnc
  let step ← totp.verify secret input.code
  match step with
  | none => throw (.domain .InvalidMfaCode)
  | some step => enable input.userId step

def execute (input : ConfirmMfaInput) : Port ConfirmMfaResult := do
  let credentials ← users.findMfaCredentials input.userId
  match credentials with
  | none => throw (.domain (.MfaNotConfigured "Primero genera el codigo QR (setup)."))
  | some credentials =>
      match credentials.configured with
      | none => throw (.domain (.MfaNotConfigured "Primero genera el codigo QR (setup)."))
      | some totpSecretEnc =>
          if credentials.enabled then throw (.domain .MfaAlreadyEnabled)
          else confirm input totpSecretEnc

end ConfirmMfaUseCase

-- A step that was used already, or one before it.
def used (lastStep : Option ℤ) (step : ℤ) : Bool := lastStep.any (step ≤ ·)

structure DisableMfaInput where
  userId : Id
  code : String
  deriving DecidableEq

namespace DisableMfaUseCase

def disable (input : DisableMfaInput) (lastStep : Option ℤ) (totpSecretEnc : String) :
    Port Unit := do
  let secret ← cipher.decrypt totpSecretEnc
  let step ← totp.verify secret (JsString.trim input.code)
  match step with
  | none => throw (.domain .InvalidMfaCode)
  | some step =>
      if used lastStep step then throw (.domain .InvalidMfaCode)
      else users.updateMfa input.userId {
        enabled := some false
        totpSecretEnc := some none
        lastStep := some none
        backupCodeHashes := some [] }

def execute (input : DisableMfaInput) : Port Unit := do
  let credentials ← users.findMfaCredentials input.userId
  match credentials with
  | none => throw (.domain .mfaNotConfigured)
  | some credentials =>
      match credentials.active with
      | none => throw (.domain .mfaNotConfigured)
      | some totpSecretEnc => disable input credentials.lastStep totpSecretEnc

end DisableMfaUseCase

structure VerifyMfaInput where
  mfaToken : String
  code : String
  deriving DecidableEq

namespace VerifyMfaUseCase

def consumeTotp (userId : Id) (lastStep : Option ℤ) (totpSecretEnc code : String) :
    Port Bool := do
  let secret ← cipher.decrypt totpSecretEnc
  let step ← totp.verify secret code
  match step with
  | none => pure false
  | some step =>
      if used lastStep step then pure false
      else
        users.updateMfa userId { lastStep := some (some step) }
        pure true

-- The hashes from `index` on.
def tryHashes (userId : Id) (backupCodeHashes : List String) (code : String) :
    (index : ℕ) → List String → Port Bool
  | _, [] => pure false
  | index, hash :: rest => do
      let equal ← hasher.compare code hash
      if equal then
        users.updateMfa userId { backupCodeHashes := some (backupCodeHashes.eraseIdx index) }
        pure true
      else tryHashes userId backupCodeHashes code (index + 1) rest

def consumeBackupCode (env : Environment) (userId : Id) (backupCodeHashes : List String)
    (raw : String) : Port Bool :=
  tryHashes userId backupCodeHashes (normalizeBackupCode env.toUpperCase raw) 0 backupCodeHashes

-- The second factor of a user who has it.
def consume (env : Environment) (userId : Id) (credentials : MfaCredentials)
    (totpSecretEnc code : String) : Port Bool :=
  if isSixDigits code then consumeTotp userId credentials.lastStep totpSecretEnc code
  else consumeBackupCode env userId credentials.backupCodeHashes code

def factor (env : Environment) (userId : Id) (user : User) (credentials : MfaCredentials)
    (totpSecretEnc code : String) : Port LoginUserResult := do
  let accepted ← consume env userId credentials totpSecretEnc code
  if accepted then issueAccessSession user else throw (.domain .InvalidMfaCode)

def challenge (token : String) : Port Id :=
  tryCatch (tokenService.verifyMfaChallenge token) fun _ =>
    throw (.domain (.InvalidCredentials "El desafio MFA expiro. Vuelve a iniciar sesion."))

-- What follows the two lookups.
def withCredentials (env : Environment) (userId : Id) (code : String) :
    Option User × Option MfaCredentials → Port LoginUserResult
  | (some user, some credentials) =>
      match credentials.active with
      | none => throw (.domain .invalidCredentials)
      | some totpSecretEnc => factor env userId user credentials totpSecretEnc (JsString.trim code)
  | _ => throw (.domain .invalidCredentials)

def execute (env : Environment) (input : VerifyMfaInput) : Port LoginUserResult := do
  let userId ← challenge input.mfaToken
  let found ← (users.findById userId).both (users.findMfaCredentials userId)
  withCredentials env userId input.code found

end VerifyMfaUseCase

end SmartParking.Auth
