import SmartParking.Auth.Operations

namespace SmartParking.Auth

open Async Program

variable {env : Environment} {choice : Choice} {now : ℤ} {db : Database} {call : Call}

-- What a call does to the credentials of the users.

theorem credentials_eq_empty {userId : Id} (h : db.users.lookup userId = none) :
    credentials db userId = .empty := by
  simp [credentials, PrismaUserRepository.findMfaCredentials, h]

theorem credentials_of_lookup {userId : Id} {row : UserRow}
    (h : db.users.lookup userId = some row) :
    credentials db userId = PrismaUserRepository.credentialsOf row := by
  simp [credentials, PrismaUserRepository.findMfaCredentials, h]

theorem credentials_create {users : Table UserRow.id UserRow.email} {uuid : Id} {now : ℤ}
    {data : CreateUserData}
    (h : db.users.insert (PrismaUserRepository.newRow db uuid now data) = some users)
    (userId : Id) : credentials { users } userId = credentials db userId := by
  by_cases hid : userId = (PrismaUserRepository.newRow db uuid now data).id
  · have hnew : users.lookup userId = some (PrismaUserRepository.newRow db uuid now data) := by
      rw [Table.lookup_insert h, if_pos hid]
    have hold : db.users.lookup userId = none := by
      rw [Table.lookup_eq_none, hid]
      exact (Table.insert_fresh h).1
    rw [credentials_of_lookup hnew, credentials_eq_empty hold]
    rfl
  · simp only [credentials, PrismaUserRepository.findMfaCredentials, Table.lookup_insert h,
      if_neg hid]

theorem updateMfa_cases (env : Environment) (choice : Choice) (now : ℤ) (db : Database) (id : Id)
    (patch : MfaCredentialsPatch) :
    (∃ db', query env choice now db (.updateMfa id patch) = (.ok (), db') ∧
      ∀ userId, credentials db' userId =
        if userId = id then (credentials db id).patch patch else credentials db userId) ∨
    ∃ err, query env choice now db (.updateMfa id patch) = (.error err, db) ∧
      credentials db id = .empty := by
  cases h : db.users.lookup id with
  | none =>
      refine .inr ⟨.infrastructure "Record to update not found.", ?_, credentials_eq_empty h⟩
      simp [query, PrismaUserRepository.updateMfa, h, committed]
  | some row =>
      refine .inl ⟨{ users := db.users.modify id (PrismaUserRepository.withPatch patch) }, ?_, ?_⟩
      · simp [query, PrismaUserRepository.updateMfa, h, committed]
      · intro userId
        split
        next hid =>
          subst hid
          have hpatched :
              (⟨db.users.modify userId (PrismaUserRepository.withPatch patch)⟩ : Database).users.lookup
                userId = some (PrismaUserRepository.withPatch patch row) := by
            simp [h]
          rw [credentials_of_lookup h, credentials_of_lookup hpatched]
          rfl
        next hid =>
          simp only [credentials, PrismaUserRepository.findMfaCredentials, Table.lookup_modify,
            if_neg hid]

theorem serve_updateMfa_cases (env : Environment) (choice : Choice) (world : World) (id : Id)
    (patch : MfaCredentialsPatch) :
    (∃ world', serve env choice world (.updateMfa id patch) = (.ok (), world') ∧
      ∀ userId, credentials world'.db userId =
        if userId = id then (credentials world.db id).patch patch
        else credentials world.db userId) ∨
    ∃ err world', serve env choice world (.updateMfa id patch) = (.error err, world') ∧
      world'.db = world.db ∧ credentials world.db id = .empty := by
  rcases updateMfa_cases env choice (world.clock + choice.elapsed) world.db id patch with
    ⟨db', hq, hdb⟩ | ⟨err, hq, hempty⟩
  · exact .inl ⟨{ db := db', clock := world.clock + choice.elapsed }, by simp [serve, hq], hdb⟩
  · refine .inr ⟨err, { world with clock := world.clock + choice.elapsed }, ?_, rfl, hempty⟩
    simp [serve, hq]

-- The credentials of a user are only changed by an update of that user.
theorem credentials_query {userId : Id} (h : ∀ patch, call ≠ .updateMfa userId patch) :
    credentials (query env choice now db call).2 userId = credentials db userId := by
  cases call with
  | create data =>
      simp only [query, PrismaUserRepository.create]
      cases hi : db.users.insert (PrismaUserRepository.newRow db choice.uuid now data) with
      | none => rfl
      | some users => exact credentials_create hi userId
  | updateMfa id patch =>
      rcases updateMfa_cases env choice now db id patch with ⟨db', hq, hdb⟩ | ⟨err, hq, -⟩
      · rw [hq, hdb, if_neg fun hid => h patch (by rw [hid])]
      · rw [hq]
  | _ => rfl

-- Which columns the use cases write.

def Call.OnlyPatches (allowed : MfaCredentialsPatch → Prop) : Call → Prop
  | .updateMfa _ patch => allowed patch
  | _ => True

-- Of the second factor itself.
def MfaCredentialsPatch.Consumes (patch : MfaCredentialsPatch) : Prop :=
  patch.enabled = none ∧ patch.totpSecretEnc = none

-- No update of the user.
def Call.Spares (userId : Id) (call : Call) : Prop := ∀ patch, call ≠ .updateMfa userId patch

theorem spares_of_onlyPatches {userId : Id} (h : call.OnlyPatches fun _ => False) :
    call.Spares userId := by
  rintro patch rfl
  exact h

variable {allowed : MfaCredentialsPatch → Prop}

theorem uses_issueAccessSession {permitted : Call → Prop}
    (hsign : ∀ payload, permitted (.sign payload)) (user : User) :
    (issueAccessSession user).Uses permitted :=
  uses_bind (uses_perform (hsign _)) fun _ => trivial

theorem uses_issueSession (user : User) :
    (issueSession user).Uses (Call.OnlyPatches allowed) := by
  unfold issueSession
  split
  · exact uses_bind (uses_perform trivial) fun _ => trivial
  · exact uses_issueAccessSession (fun _ => trivial) user

theorem uses_findOrCreate (email fullName : String) :
    (findOrCreate email fullName).Uses (Call.OnlyPatches allowed) := by
  refine uses_bind (uses_perform trivial) fun user => ?_
  cases user with
  | some user => trivial
  | none =>
      refine uses_bind (uses_perform trivial) fun uuid => ?_
      exact uses_bind (uses_perform trivial) fun hash => uses_perform trivial

theorem uses_loginUser (input : LoginUserInput) :
    (LoginUserUseCase.execute input).Uses (Call.OnlyPatches allowed) := by
  refine uses_bind (uses_perform trivial) fun user => ?_
  cases user with
  | none => trivial
  | some user =>
      refine uses_bind (uses_perform trivial) fun passwordMatches => ?_
      split
      · exact uses_issueSession user
      · trivial

theorem uses_loginWithGoogle (input : LoginWithGoogleInput) :
    (LoginWithGoogleUseCase.execute input).Uses (Call.OnlyPatches allowed) := by
  refine uses_bind (uses_perform trivial) fun identity => ?_
  split
  · exact uses_bind (uses_findOrCreate _ _) uses_issueSession
  · trivial

theorem uses_loginWithFacebook (input : LoginWithFacebookInput) :
    (LoginWithFacebookUseCase.execute input).Uses (Call.OnlyPatches allowed) :=
  uses_bind (uses_perform trivial) fun _ => uses_bind (uses_findOrCreate _ _) uses_issueSession

theorem uses_setupMfa (input : SetupMfaInput) :
    (SetupMfaUseCase.execute input).Uses (Call.OnlyPatches (·.enabled = some false)) := by
  refine uses_bind (uses_perform trivial) fun user => ?_
  cases user with
  | none => trivial
  | some user =>
      dsimp only
      split
      · trivial
      · refine uses_bind (uses_perform trivial) fun secret => ?_
        refine uses_bind (uses_perform trivial) fun totpSecretEnc => ?_
        exact uses_bind (uses_perform rfl) fun _ => trivial

theorem uses_generateBackupCodes {allowed : Call → Prop} (h : allowed .generateBackupCode)
    (count : ℕ) : (generateBackupCodes count).Uses allowed := by
  induction count with
  | zero => trivial
  | succ count ih => exact uses_bind (uses_perform h) fun _ => uses_bind ih fun _ => trivial

theorem uses_hashAll {allowed : Call → Prop} (h : ∀ code, allowed (.hash code))
    (codes : List String) : (Program.all (codes.map hasher.hash)).Uses allowed := by
  refine uses_all fun p hp => ?_
  obtain ⟨code, -, rfl⟩ := List.mem_map.mp hp
  exact uses_perform (h code)

theorem spares_enable {userId other : Id} (h : userId ≠ other) (step : ℤ) :
    (ConfirmMfaUseCase.enable userId step).Uses (Call.Spares other) := by
  refine uses_bind (uses_generateBackupCodes (fun _ => nofun) _) fun codes => ?_
  refine uses_bind (uses_hashAll (fun _ _ => nofun) _) fun hashes => ?_
  exact uses_bind (uses_perform fun patch heq => h (Call.updateMfa.inj heq).1) fun _ => trivial

theorem spares_confirmMfa {input : ConfirmMfaInput} {other : Id} (h : input.userId ≠ other) :
    (ConfirmMfaUseCase.execute input).Uses (Call.Spares other) := by
  refine uses_bind (uses_perform fun _ => nofun) fun found => ?_
  cases found with
  | none => trivial
  | some found =>
      dsimp only
      split
      · trivial
      · split
        · trivial
        · refine uses_bind (uses_perform fun _ => nofun) fun secret => ?_
          refine uses_bind (uses_perform fun _ => nofun) fun step => ?_
          cases step with
          | none => trivial
          | some step => exact spares_enable h step

theorem uses_disableMfa (input : DisableMfaInput) :
    (DisableMfaUseCase.execute input).Uses (Call.OnlyPatches (·.enabled = some false)) := by
  refine uses_bind (uses_perform trivial) fun found => ?_
  cases found with
  | none => trivial
  | some found =>
      dsimp only
      split
      · trivial
      · refine uses_bind (uses_perform trivial) fun secret => ?_
        refine uses_bind (uses_perform trivial) fun step => ?_
        cases step with
        | none => trivial
        | some step =>
            dsimp only
            split
            · trivial
            · exact uses_perform rfl

theorem uses_consumeTotp {permitted : Call → Prop}
    (hdecrypt : ∀ cipherText, permitted (.decrypt cipherText))
    (hverify : ∀ secret code, permitted (.totpVerify secret code)) {userId : Id}
    (hpatch : ∀ step, permitted (.updateMfa userId { lastStep := some (some step) }))
    (lastStep : Option ℤ) (totpSecretEnc code : String) :
    (VerifyMfaUseCase.consumeTotp userId lastStep totpSecretEnc code).Uses permitted := by
  refine uses_bind (uses_perform (hdecrypt _)) fun secret => ?_
  refine uses_bind (uses_perform (hverify _ _)) fun step => ?_
  cases step with
  | none => trivial
  | some step =>
      dsimp only
      split
      · trivial
      · exact uses_bind (uses_perform (hpatch step)) fun _ => trivial

theorem uses_tryHashes {permitted : Call → Prop}
    (hcompare : ∀ plain hash, permitted (.compare plain hash)) {userId : Id}
    (hpatch : ∀ hashes, permitted (.updateMfa userId { backupCodeHashes := some hashes }))
    (backupCodeHashes : List String) (code : String) (index : ℕ) (rest : List String) :
    (VerifyMfaUseCase.tryHashes userId backupCodeHashes code index rest).Uses permitted := by
  induction rest generalizing index with
  | nil => trivial
  | cons hash rest ih =>
      refine uses_bind (uses_perform (hcompare _ _)) fun equal => ?_
      split
      · exact uses_bind (uses_perform (hpatch _)) fun _ => trivial
      · exact ih (index + 1)

theorem uses_consume (userId : Id) (found : MfaCredentials) (totpSecretEnc code : String) :
    (VerifyMfaUseCase.consume env userId found totpSecretEnc code).Uses
      (Call.OnlyPatches (·.Consumes)) := by
  unfold VerifyMfaUseCase.consume VerifyMfaUseCase.consumeBackupCode
  split
  · exact uses_consumeTotp (fun _ => trivial) (fun _ _ => trivial) (fun _ => ⟨rfl, rfl⟩) _ _ _
  · exact uses_tryHashes (fun _ _ => trivial) (fun _ => ⟨rfl, rfl⟩) _ _ _ _

theorem uses_factor (userId : Id) (user : User) (found : MfaCredentials)
    (totpSecretEnc code : String) :
    (VerifyMfaUseCase.factor env userId user found totpSecretEnc code).Uses
      (Call.OnlyPatches (·.Consumes)) := by
  refine uses_bind (uses_consume _ _ _ _) fun accepted => ?_
  split
  · exact uses_issueAccessSession (fun _ => trivial) user
  · trivial

theorem uses_withCredentials (userId : Id) (code : String)
    (found : Option User × Option MfaCredentials) :
    (VerifyMfaUseCase.withCredentials env userId code found).Uses
      (Call.OnlyPatches (·.Consumes)) := by
  unfold VerifyMfaUseCase.withCredentials
  split
  · split
    · trivial
    · exact uses_factor _ _ _ _ _
  · trivial

theorem uses_challenge (token : String) :
    (VerifyMfaUseCase.challenge token).Uses (Call.OnlyPatches allowed) :=
  uses_tryCatch (uses_perform trivial) fun _ => trivial

theorem uses_verifyMfa (input : VerifyMfaInput) :
    (VerifyMfaUseCase.execute env input).Uses (Call.OnlyPatches (·.Consumes)) :=
  uses_bind (uses_challenge _) fun _ =>
    uses_bind (uses_both (uses_perform trivial) (uses_perform trivial)) fun _ =>
      uses_withCredentials _ _ _

end SmartParking.Auth
