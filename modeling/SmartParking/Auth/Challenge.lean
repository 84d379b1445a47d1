import SmartParking.Auth.Specs

namespace SmartParking.Auth

open Async Program

-- The clock at a call of a run.
def clockAt (world : World) (choices : ℕ → Choice) : ℕ → ℤ
  | 0 => world.clock + (choices 0).elapsed
  | n + 1 => clockAt world choices n + (choices (n + 1)).elapsed

-- The challenge of a user who has the second factor on.
structure Challenged (env : Environment) (world : World) (choices : ℕ → Choice)
    (input : VerifyMfaInput) (userId : Id) (totpSecretEnc : String) : Prop where
  token : JwtTokenAdapter.verifyMfaChallenge env (clockAt world choices 0) input.mfaToken =
    .ok userId
  active : (credentials world.db userId).active = some totpSecretEnc

def verifyMfa (env : Environment) (world : World) (choices : ℕ → Choice) (input : VerifyMfaInput) :
    Except Fault LoginUserResult × World :=
  (VerifyMfaUseCase.execute env input).run (serve env) choices world

variable {env : Environment} {world : World} {choices : ℕ → Choice} {input : VerifyMfaInput}
  {userId : Id} {totpSecretEnc : String}

theorem Challenged.ne_empty (h : Challenged env world choices input userId totpSecretEnc) :
    credentials world.db userId ≠ .empty := by
  intro hempty
  have hactive := h.active
  rw [hempty] at hactive
  cases hactive

theorem Challenged.lookup (h : Challenged env world choices input userId totpSecretEnc) :
    ∃ row, world.db.users.lookup userId = some row := by
  cases hrow : world.db.users.lookup userId with
  | some row => exact ⟨row, rfl⟩
  | none => exact absurd (credentials_eq_empty hrow) h.ne_empty

-- What is left after the challenge and the two lookups.
theorem Challenged.run (h : Challenged env world choices input userId totpSecretEnc) :
    ∃ user, verifyMfa env world choices input =
      (VerifyMfaUseCase.factor env userId user (credentials world.db userId) totpSecretEnc
        (JsString.trim input.code)).run (serve env) (fun n => choices (n + 3))
          { world with clock := clockAt world choices 2 } := by
  obtain ⟨row, hrow⟩ := h.lookup
  have htoken : (serve env (choices 0) world (.verifyMfaChallenge input.mfaToken)).1 = .ok userId :=
    h.token
  have hactive : (PrismaUserRepository.credentialsOf row).active = some totpSecretEnc := by
    rw [← credentials_of_lookup hrow]
    exact h.active
  refine ⟨UserMapper.toDomain row, ?_⟩
  rw [credentials_of_lookup hrow]
  change Program.run (serve env) ((Program.done _).tryCatch _ >>= _) _ _ = _
  rw [htoken]
  change (VerifyMfaUseCase.withCredentials env userId input.code
    (PrismaUserRepository.findById world.db userId,
      PrismaUserRepository.findMfaCredentials world.db userId)).run (serve env)
        (fun n => choices (n + 3)) { world with clock := clockAt world choices 2 } = _
  simp only [PrismaUserRepository.findById, PrismaUserRepository.findMfaCredentials, hrow,
    Option.map_some, VerifyMfaUseCase.withCredentials, hactive]

-- A second factor that is accepted is consumed, and the session is issued.
theorem wp_accept (env : Environment) (world : World) (hon : credentials world.db userId ≠ .empty)
    (user : User) (patch : MfaCredentialsPatch) :
    ((users.updateMfa userId patch >>= fun _ => pure true) >>= fun accepted =>
      if accepted then issueAccessSession user else throw (.domain .InvalidMfaCode)).wp (serve env)
        world fun result world' => result.isOk = true ∧
          credentials world'.db userId = (credentials world.db userId).patch patch := by
  intro choice
  rcases serve_updateMfa_cases env choice world userId patch with
    ⟨world', hserve, hdb⟩ | ⟨_, _, _, _, hempty⟩
  · rw [hserve]
    exact fun _ => ⟨rfl, (hdb userId).trans (if_pos rfl)⟩
  · exact absurd hempty hon

end SmartParking.Auth
