import SmartParking.Async.Pool
import SmartParking.Auth.Totp

namespace SmartParking.Auth

open Async

structure GoogleIdentity where
  email : String
  fullName : String
  emailVerified : Bool
  deriving DecidableEq

structure FacebookIdentity where
  email : String
  fullName : String
  facebookUserId : String
  deriving DecidableEq

structure AuthTokenPayload where
  sub : Id
  email : String
  role : Role
  deriving DecidableEq

-- The keys of the two kinds of tokens: RS256 for sessions, HS256 for challenges.
inductive SigningKey where
  | privateKey | mfaSecret
  deriving DecidableEq

structure JwtClaims where
  sub : Option String
  email : Option String
  role : Option Role
  purpose : Option String
  iat : ℤ
  exp : ℤ
  deriving DecidableEq

-- The libraries under the adapters, with the keys they are given: the case
-- mapping of Unicode, node:crypto, bcrypt and jose.
structure Environment where
  upperCase : Char → List Char
  createHmac : HmacSha1
  encrypt : String → String → String
  decrypt : String → Except Fault String
  hash : String → String → String
  compare : String → String → Bool
  signJwt : SigningKey → JwtClaims → String
  jwtVerify : SigningKey → ℤ → String → Option JwtClaims
  expiresIn : ℤ
  mfaChallengeExpiresIn : ℤ

def Environment.toUpperCase (env : Environment) : String → String := JsString.toUpperCase env.upperCase

namespace JwtTokenAdapter

def PURPOSE_ACCESS : String := "access"
def PURPOSE_MFA : String := "mfa"

def sign (env : Environment) (now : ℤ) (payload : AuthTokenPayload) : String :=
  env.signJwt .privateKey {
    sub := some payload.sub
    email := some payload.email
    role := some payload.role
    purpose := some PURPOSE_ACCESS
    iat := now / 1000
    exp := now / 1000 + env.expiresIn }

def challengeClaims (env : Environment) (now : ℤ) (userId : Id) : JwtClaims where
  sub := some userId
  email := none
  role := none
  purpose := some PURPOSE_MFA
  iat := now / 1000
  exp := now / 1000 + env.mfaChallengeExpiresIn

def signMfaChallenge (env : Environment) (now : ℤ) (userId : Id) : String :=
  env.signJwt .mfaSecret (challengeClaims env now userId)

def verifyMfaChallenge (env : Environment) (now : ℤ) (token : String) : Except Fault Id :=
  match env.jwtVerify .mfaSecret now token with
  | none => .error (.infrastructure "signature verification failed")
  | some claims =>
      match claims.sub with
      | some sub =>
          if claims.purpose = some PURPOSE_MFA then .ok sub
          else .error (.infrastructure "El token no es un desafio MFA.")
      | none => .error (.infrastructure "El token no es un desafio MFA.")

end JwtTokenAdapter

-- One constructor for each call of the use cases on their ports out, and for
-- what they draw at random.
inductive Call where
  | findById (id : Id)
  | findByEmail (email : String)
  | create (data : CreateUserData)
  | findMfaCredentials (userId : Id)
  | updateMfa (userId : Id) (patch : MfaCredentialsPatch)
  | generateSecret
  | totpVerify (secret code : String)
  | encrypt (plainText : String)
  | decrypt (cipherText : String)
  | hash (plain : String)
  | compare (plain hash : String)
  | sign (payload : AuthTokenPayload)
  | signMfaChallenge (userId : Id)
  | verifyMfaChallenge (token : String)
  | googleVerify (idToken : String)
  | facebookVerify (accessToken : String)
  | generateBackupCode
  | randomUUID
  deriving DecidableEq

@[reducible] def Answer : Call → Type
  | .findById _ => Option User
  | .findByEmail _ => Option User
  | .create _ => User
  | .findMfaCredentials _ => Option MfaCredentials
  | .updateMfa _ _ => Unit
  | .generateSecret => String
  | .totpVerify _ _ => Option ℤ
  | .encrypt _ => String
  | .decrypt _ => String
  | .hash _ => String
  | .compare _ _ => Bool
  | .sign _ => String
  | .signMfaChallenge _ => String
  | .verifyMfaChallenge _ => Id
  | .googleVerify _ => GoogleIdentity
  | .facebookVerify _ => FacebookIdentity
  | .generateBackupCode => String
  | .randomUUID => Id

abbrev Port (α : Type) := Program Call Answer Fault α

abbrev ask (call : Call) : Port (Answer call) := Program.perform call

abbrev users.findById (id : Id) : Port (Option User) := ask (.findById id)
abbrev users.findByEmail (email : String) : Port (Option User) := ask (.findByEmail email)
abbrev users.create (data : CreateUserData) : Port User := ask (.create data)
abbrev users.findMfaCredentials (userId : Id) : Port (Option MfaCredentials) :=
  ask (.findMfaCredentials userId)
abbrev users.updateMfa (userId : Id) (patch : MfaCredentialsPatch) : Port Unit :=
  ask (.updateMfa userId patch)
abbrev totp.generateSecret : Port String := ask .generateSecret
abbrev totp.verify (secret code : String) : Port (Option ℤ) := ask (.totpVerify secret code)
abbrev cipher.encrypt (plainText : String) : Port String := ask (.encrypt plainText)
abbrev cipher.decrypt (cipherText : String) : Port String := ask (.decrypt cipherText)
abbrev hasher.hash (plain : String) : Port String := ask (.hash plain)
abbrev hasher.compare (plain hash : String) : Port Bool := ask (.compare plain hash)
abbrev tokenService.sign (payload : AuthTokenPayload) : Port String := ask (.sign payload)
abbrev tokenService.signMfaChallenge (userId : Id) : Port String := ask (.signMfaChallenge userId)
abbrev tokenService.verifyMfaChallenge (token : String) : Port Id :=
  ask (.verifyMfaChallenge token)
abbrev googleVerifier.verify (idToken : String) : Port GoogleIdentity := ask (.googleVerify idToken)
abbrev facebookVerifier.verify (accessToken : String) : Port FacebookIdentity :=
  ask (.facebookVerify accessToken)
abbrev randomUUID : Port Id := ask .randomUUID

-- The alphabet of the backup codes, and a code of two blocks of four symbols.
def BACKUP_CODE_ALPHABET : List Char := "ABCDEFGHJKMNPQRSTUVWXYZ23456789".toList

def backupCodeOf (picks : Fin 8 → Fin 31) : String :=
  let pick (i : Fin 8) : Char := BACKUP_CODE_ALPHABET.getD (picks i) 'A'
  String.ofList [pick 0, pick 1, pick 2, pick 3, '-', pick 4, pick 5, pick 6, pick 7]

structure World where
  db : Database
  clock : ℤ

-- What a call does not decide by itself: the time it takes, what it draws, and
-- the identity that the provider certifies.
structure Choice where
  elapsed : ℕ
  uuid : Id
  randomBytes : Vector UInt8 Rfc6238TotpAdapter.SECRET_BYTES
  iv : String
  salt : String
  picks : Fin 8 → Fin 31
  google : Except Fault GoogleIdentity
  facebook : Except Fault FacebookIdentity

def committed {α : Type} (db : Database) : Except Fault (α × Database) → Except Fault α × Database
  | .ok (value, db') => (.ok value, db')
  | .error err => (.error err, db)

def query (env : Environment) (choice : Choice) (now : ℤ) (db : Database) :
    (call : Call) → Except Fault (Answer call) × Database
  | .findById id => (.ok (PrismaUserRepository.findById db id), db)
  | .findByEmail email => (.ok (PrismaUserRepository.findByEmail db email), db)
  | .create data => committed db (PrismaUserRepository.create db choice.uuid now data)
  | .findMfaCredentials userId => (.ok (PrismaUserRepository.findMfaCredentials db userId), db)
  | .updateMfa userId patch => committed db (PrismaUserRepository.updateMfa db userId patch)
  | .generateSecret => (.ok (Rfc6238TotpAdapter.generateSecret choice.randomBytes), db)
  | .totpVerify secret code =>
      (Rfc6238TotpAdapter.verify env.createHmac env.toUpperCase now secret code, db)
  | .encrypt plainText => (.ok (env.encrypt choice.iv plainText), db)
  | .decrypt cipherText => (env.decrypt cipherText, db)
  | .hash plain => (.ok (env.hash choice.salt plain), db)
  | .compare plain hash => (.ok (env.compare plain hash), db)
  | .sign payload => (.ok (JwtTokenAdapter.sign env now payload), db)
  | .signMfaChallenge userId => (.ok (JwtTokenAdapter.signMfaChallenge env now userId), db)
  | .verifyMfaChallenge token => (JwtTokenAdapter.verifyMfaChallenge env now token, db)
  | .googleVerify _ => (choice.google, db)
  | .facebookVerify _ => (choice.facebook, db)
  | .generateBackupCode => (.ok (backupCodeOf choice.picks), db)
  | .randomUUID => (.ok choice.uuid, db)

def serve (env : Environment) : Server Choice World Call Answer Fault := fun choice world call =>
  let now := world.clock + choice.elapsed
  let (answer, db) := query env choice now world.db call
  (answer, { db, clock := now })

end SmartParking.Auth
