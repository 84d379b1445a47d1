import SmartParking.Backend.Repositories

namespace SmartParking.Auth

-- auth-service, with its own entity, errors and database.
inductive Role where
  | USER | ADMIN
  deriving DecidableEq

structure User where
  id : Id
  email : String
  passwordHash : String
  fullName : String
  role : Role
  mfaEnabled : Bool
  createdAt : ℤ
  deriving DecidableEq

def User.isAdmin (user : User) : Bool := user.role = .ADMIN

inductive DomainError where
  | EmailAlreadyRegistered
  | InvalidCredentials (message : String)
  | InvalidMfaCode
  | MfaAlreadyEnabled
  | MfaNotConfigured (message : String)
  | NotFound (entity id : String)
  deriving DecidableEq

namespace DomainError

def code : DomainError → String
  | EmailAlreadyRegistered => "EMAIL_ALREADY_REGISTERED"
  | InvalidCredentials _ => "INVALID_CREDENTIALS"
  | InvalidMfaCode => "INVALID_MFA_CODE"
  | MfaAlreadyEnabled => "MFA_ALREADY_ENABLED"
  | MfaNotConfigured _ => "MFA_NOT_CONFIGURED"
  | NotFound _ _ => "NOT_FOUND"

def message : DomainError → String
  | EmailAlreadyRegistered => "El correo ya se encuentra registrado."
  | InvalidCredentials message => message
  | InvalidMfaCode => "Codigo de verificacion invalido o ya utilizado."
  | MfaAlreadyEnabled => "La verificacion en dos pasos ya esta activada."
  | MfaNotConfigured message => message
  | NotFound entity id => entity ++ " con id \"" ++ id ++ "\" no fue encontrado."

-- The messages of errors thrown without one.
def invalidCredentials : DomainError := InvalidCredentials "Credenciales invalidas."

def mfaNotConfigured : DomainError :=
  MfaNotConfigured "La verificacion en dos pasos no esta configurada."

end DomainError

inductive Fault where
  | domain (error : DomainError)
  | infrastructure (message : String)
  deriving DecidableEq

-- A row of the table of users.
structure UserRow where
  id : Id
  email : String
  passwordHash : String
  fullName : String
  role : Role
  mfaEnabled : Bool
  totpSecretEnc : Option String
  totpLastStep : Option ℤ
  mfaBackupCodes : List String
  createdAt : ℤ
  deriving DecidableEq

structure Database where
  users : Table UserRow.id UserRow.email

structure CreateUserData where
  email : String
  passwordHash : String
  fullName : String
  role : Role
  deriving DecidableEq

structure MfaCredentials where
  enabled : Bool
  totpSecretEnc : Option String
  lastStep : Option ℤ
  backupCodeHashes : List String
  deriving DecidableEq

-- Those of a user who has just registered.
def MfaCredentials.empty : MfaCredentials where
  enabled := false
  totpSecretEnc := none
  lastStep := none
  backupCodeHashes := []

-- The columns that an update sets.
structure MfaCredentialsPatch where
  enabled : Option Bool := none
  totpSecretEnc : Option (Option String) := none
  lastStep : Option (Option ℤ) := none
  backupCodeHashes : Option (List String) := none
  deriving DecidableEq

def MfaCredentials.patch (patch : MfaCredentialsPatch) (credentials : MfaCredentials) :
    MfaCredentials where
  enabled := patch.enabled.getD credentials.enabled
  totpSecretEnc := patch.totpSecretEnc.getD credentials.totpSecretEnc
  lastStep := patch.lastStep.getD credentials.lastStep
  backupCodeHashes := patch.backupCodeHashes.getD credentials.backupCodeHashes

def UserMapper.toDomain (record : UserRow) : User where
  id := record.id
  email := record.email
  passwordHash := record.passwordHash
  fullName := record.fullName
  role := record.role
  mfaEnabled := record.mfaEnabled
  createdAt := record.createdAt

namespace PrismaUserRepository

open Table

def findById (db : Database) (id : Id) : Option User :=
  (db.users.lookup id).map UserMapper.toDomain

def findByEmail (db : Database) (email : String) : Option User :=
  (db.users.lookupBy email).map UserMapper.toDomain

def newRow (db : Database) (uuid : Id) (now : ℤ) (data : CreateUserData) : UserRow where
  id := newId uuid (db.users.rows.map UserRow.id)
  email := data.email
  passwordHash := data.passwordHash
  fullName := data.fullName
  role := data.role
  mfaEnabled := false
  totpSecretEnc := none
  totpLastStep := none
  mfaBackupCodes := []
  createdAt := now

def create (db : Database) (uuid : Id) (now : ℤ) (data : CreateUserData) :
    Except Fault (User × Database) :=
  match db.users.insert (newRow db uuid now data) with
  | some users => .ok (UserMapper.toDomain (newRow db uuid now data), { users })
  | none => .error (.infrastructure "Unique constraint failed on the fields: (`email`)")

def credentialsOf (record : UserRow) : MfaCredentials where
  enabled := record.mfaEnabled
  totpSecretEnc := record.totpSecretEnc
  lastStep := record.totpLastStep
  backupCodeHashes := record.mfaBackupCodes

def findMfaCredentials (db : Database) (userId : Id) : Option MfaCredentials :=
  (db.users.lookup userId).map credentialsOf

def withPatch (patch : MfaCredentialsPatch) : Change UserRow.id UserRow.email where
  apply record := { record with
    mfaEnabled := patch.enabled.getD record.mfaEnabled
    totpSecretEnc := patch.totpSecretEnc.getD record.totpSecretEnc
    totpLastStep := patch.lastStep.getD record.totpLastStep
    mfaBackupCodes := patch.backupCodeHashes.getD record.mfaBackupCodes }
  key_apply _ := rfl
  mark_apply _ := rfl

def updateMfa (db : Database) (userId : Id) (patch : MfaCredentialsPatch) :
    Except Fault (Unit × Database) :=
  match db.users.lookup userId with
  | some _ => .ok ((), { users := db.users.modify userId (withPatch patch) })
  | none => .error (.infrastructure "Record to update not found.")

end PrismaUserRepository

-- The credentials of any user, also of one who is not there.
def credentials (db : Database) (userId : Id) : MfaCredentials :=
  (PrismaUserRepository.findMfaCredentials db userId).getD .empty

end SmartParking.Auth
