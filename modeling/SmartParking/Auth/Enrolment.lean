import SmartParking.Auth.Operations

namespace SmartParking.Auth

open Async

variable {Tid : Type}

-- Some confirmation of the user accepted a code against the encrypted secret.
def Confirmed (operations : Tid → Operation) (userId : Id) (history : History Tid)
    (totpSecretEnc : String) : Prop :=
  ∃ thread code secret step, operations thread = .ConfirmMfa { userId, code } ∧
    ⟨thread, .decrypt totpSecretEnc, .ok secret⟩ ∈ history ∧
      ⟨thread, .totpVerify secret code, .ok (some step)⟩ ∈ history

-- The last write of a ConfirmMfa or a DisableMfa is one of the former.
def SwitchedOn (operations : Tid → Operation) (userId : Id) : History Tid → Prop
  | [] => False
  | ⟨thread, .updateMfa id _, .ok _⟩ :: earlier =>
      if id = userId then
        match operations thread with
        | .ConfirmMfa _ => True
        | .DisableMfa _ => False
        | _ => SwitchedOn operations userId earlier
      else SwitchedOn operations userId earlier
  | _ :: earlier => SwitchedOn operations userId earlier

-- The second factor of an enabled user can be produced, and what was enabled is
-- only undone by a DisableMfa.
structure Consistent (operations : Tid → Operation) (userId : Id) (db : Database)
    (history : History Tid) : Prop where
  producible : (credentials db userId).enabled = true → ∃ totpSecretEnc,
    (credentials db userId).totpSecretEnc = some totpSecretEnc ∧
      Confirmed operations userId history totpSecretEnc
  kept : SwitchedOn operations userId history → (credentials db userId).enabled = true

-- The stored secret that a query was answered with.
def readSecret (userId : Id) : Event Tid Call Answer Fault → Option (Option String)
  | ⟨_, .findMfaCredentials id, .ok (some found)⟩ =>
      if id = userId then some found.totpSecretEnc else none
  | _ => none

-- A SetupMfa finds the user not enabled, and a ConfirmMfa still finds the secret
-- that it has read.
def Finds (operation : Operation) (userId : Id) (db : Database) (history : History Tid)
    (thread : Tid) : Prop :=
  match operation with
  | .SetupMfa _ => (credentials db userId).enabled = false
  | .ConfirmMfa _ => ∀ event ∈ history, event.thread = thread →
      ∀ secret ∈ readSecret userId event, (credentials db userId).totpSecretEnc = secret
  | _ => True

-- Each write of the user finds what its operation has checked.
def Undisturbed (operations : Tid → Operation) (userId : Id) : CallGuard Tid :=
  fun world history thread call _ =>
    match call with
    | .updateMfa id _ => id = userId → Finds (operations thread) userId world.db history thread
    | _ => True

section Decidable

variable [DecidableEq Tid]

instance decideFinds (operation : Operation) (userId : Id) (db : Database) (history : History Tid)
    (thread : Tid) : Decidable (Finds operation userId db history thread) :=
  match operation with
  | .SetupMfa _ => inferInstanceAs (Decidable (_ = false))
  | .ConfirmMfa _ => inferInstanceAs (Decidable (∀ event ∈ history, _ → ∀ secret ∈ _, _))
  | .LoginUser _ | .LoginWithGoogle _ | .LoginWithFacebook _ | .VerifyMfa _ | .DisableMfa _ =>
      isTrue trivial

instance decideUndisturbed (operations : Tid → Operation) (userId : Id) (world : World)
    (history : History Tid) (thread : Tid) (call : Call) (choice : Choice) :
    Decidable (Undisturbed operations userId world history thread call choice) :=
  match call with
  | .updateMfa id _ =>
      inferInstanceAs (Decidable (id = userId →
        Finds (operations thread) userId world.db history thread))
  | .findById _ | .findByEmail _ | .create _ | .findMfaCredentials _ | .generateSecret
  | .totpVerify _ _ | .encrypt _ | .decrypt _ | .hash _ | .compare _ _ | .sign _
  | .signMfaChallenge _ | .verifyMfaChallenge _ | .googleVerify _ | .facebookVerify _
  | .generateBackupCode | .randomUUID => isTrue trivial

end Decidable

end SmartParking.Auth
