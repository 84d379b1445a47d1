import SmartParking.Auth.Challenge
import SmartParking.Auth.Hotp

namespace SmartParking.Auth

open Rfc6238TotpAdapter

-- A step of the window that has the code.
def HasCode (env : Environment) (now : ℤ) (secret code : String) (step : ℤ) : Prop :=
  step ∈ window now ∧ codeAt env.createHmac env.toUpperCase secret step = code

-- One that is later than all that were used.
def IsFresh (env : Environment) (now : ℤ) (secret code : String) (lastStep : Option ℤ)
    (step : ℤ) : Prop :=
  HasCode env now secret code step ∧ used lastStep step = false

-- A code is accepted when it is of a fresh step, which is stored, and in no other case.
structure AcceptsFresh (env : Environment) (world : World) (choices : ℕ → Choice)
    (input : VerifyMfaInput) (userId : Id) (fresh : ℤ → Prop) : Prop where
  accepted : (verifyMfa env world choices input).1.isOk = true ↔ ∃ step, fresh step
  stored : (verifyMfa env world choices input).1.isOk = true → ∃ step, fresh step ∧
    credentials (verifyMfa env world choices input).2.db userId =
      (credentials world.db userId).patch { lastStep := some (some step) }

-- The code of a fresh step is also that of a step of the window that was used.
def Shadowed (env : Environment) (now : ℤ) (secret code : String) (lastStep : Option ℤ) : Prop :=
  (∃ step, IsFresh env now secret code lastStep step) ∧
    ∃ step, HasCode env now secret code step ∧ used lastStep step = true

-- Codes that are the parity of the step, and a user who has used a step.
namespace Demo

def parity : Environment := { env with
  createHmac := {
    digest _ message := [0, 0, 0, message.getLastD 0 % 2] ++ List.replicate 16 0
    length_digest _ _ := rfl } }

def since (step : ℤ) : World :=
  world { user with
    mfaEnabled := true
    totpSecretEnc := some "iv.AAAA"
    totpLastStep := some step }

end Demo

end SmartParking.Auth
