import SmartParking.Auth.BackupCodes
import SmartParking.Auth.Freshness

namespace SmartParking.Auth

open Async Rfc6238TotpAdapter

def Separator (c : Char) : Prop := c.toNat < 128 ∧ c.isAlphanum = false

instance (c : Char) : Decidable (Separator c) := inferInstanceAs (Decidable (_ ∧ _))

-- A code and what is typed for it: the case of the letters and the separators are free.
inductive Typed : List Char → List Char → Prop
  | nil : Typed [] []
  | same {code text : List Char} (c : Char) (h : Typed code text) : Typed (c :: code) (c :: text)
  | lower {code text : List Char} (c : Char) (h : Typed code text) :
      Typed (c :: code) (c.toLower :: text)
  | upper {code text : List Char} (c : Char) (h : Typed code text) :
      Typed (c :: code) (c.toUpper :: text)
  | inserted {code text : List Char} (c : Char) (hc : Separator c) (h : Typed code text) :
      Typed code (c :: text)
  | removed {code text : List Char} (c : Char) (hc : Separator c) (h : Typed code text) :
      Typed (c :: code) text

-- The upper case of a blank is the blank.
def PlainBlanks (special : Char → List Char) (text : String) : Prop :=
  ∀ c ∈ text.toList, JsString.isWhiteSpace c = true → 128 ≤ c.toNat → special c = [c]

-- A request of a user who has the hashes of some codes.
structure Holds (env : Environment) (world : World) (choices : ℕ → Choice) (input : VerifyMfaInput)
    (userId : Id) (totpSecretEnc : String) (codes : List String) (hashOf : String → String) :
    Prop extends Challenged env world choices input userId totpSecretEnc,
      IdealHasher env codes hashOf where
  stored : (credentials world.db userId).backupCodeHashes = codes.map hashOf

-- The text is a code of the other kind, and the step that it is of was not used.
def IsTotp (env : Environment) (now : ℤ) (totpSecretEnc : String) (lastStep : Option ℤ)
    (code : String) : Prop :=
  isSixDigits code = true ∧ ∃ secret step, env.decrypt totpSecretEnc = .ok secret ∧
    verify env.createHmac env.toUpperCase now secret code = .ok (some step) ∧
      used lastStep step = false

-- A backup code is recognised however it is typed, and the texts that are `judged` are
-- rejected when they are none.
structure Recognised (env : Environment) (judged : ℤ → String → Option ℤ → String → Prop) :
    Prop where
  typed : ∀ {world choices input userId totpSecretEnc codes hashOf},
    Holds env world choices input userId totpSecretEnc codes hashOf →
      ∀ picks, backupCodeOf picks ∈ codes →
        Typed (backupCodeOf picks).toList input.code.toList →
          (VerifyMfaUseCase.execute env input).Uses
            (fun call => ∀ secret code, call ≠ .totpVerify secret code) ∧
          (verifyMfa env world choices input).1.isOk = true ∧
            credentials (verifyMfa env world choices input).2.db userId =
              (credentials world.db userId).patch {
                backupCodeHashes := some ((codes.erase (backupCodeOf picks)).map hashOf) }
  other : ∀ {world choices input userId totpSecretEnc codes hashOf},
    Holds env world choices input userId totpSecretEnc codes hashOf →
      presented env input ∉ codes →
        (credentials (verifyMfa env world choices input).2.db userId).backupCodeHashes =
          codes.map hashOf ∧
        (judged (clockAt world choices 4) totpSecretEnc (credentials world.db userId).lastStep
            (JsString.trim input.code) →
          (verifyMfa env world choices input).1.isOk = false)
  trimmed : ∀ text, PlainBlanks env.upperCase text →
    normalizeBackupCode env.toUpperCase (JsString.trim text) =
      normalizeBackupCode env.toUpperCase text
  idempotent : ∀ text, JsString.IsAscii text.toList →
    normalizeBackupCode env.toUpperCase (normalizeBackupCode env.toUpperCase text) =
      normalizeBackupCode env.toUpperCase text

end SmartParking.Auth
