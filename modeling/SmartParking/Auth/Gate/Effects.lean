import SmartParking.Auth.Gate
import SmartParking.Auth.Specs

namespace SmartParking.Auth

open Async Program

variable {env : Environment} {call : Call} {world world' : World} {seen : List Visible} {α β : Type}

-- An answer that a call can get.
def Serves (env : Environment) (world : World) (call : Call) (answer : Except Fault (Answer call))
    (world' : World) : Prop :=
  ∃ choice, serve env choice world call = (answer, world')

-- One call, and what follows it.
theorem wp_ask_bind {f : Answer call → Port α}
    {post : Except Fault α → World × List Visible → Prop}
    (h : ∀ answer world', Serves env world call answer world' →
      continued (watched env) f post answer (world', (visible call answer).toList ++ seen)) :
    (ask call >>= f).wp (watched env) (world, seen) post := by
  refine wp_bind.mpr fun choice => ?_
  exact h _ _ ⟨choice, rfl⟩

theorem wp_ask {post : Except Fault (Answer call) → World × List Visible → Prop}
    (h : ∀ answer world', Serves env world call answer world' →
      post answer (world', (visible call answer).toList ++ seen)) :
    (ask call).wp (watched env) (world, seen) post :=
  fun choice => h _ _ ⟨choice, rfl⟩

-- The calls that neither write nor show anything.
def Call.Silent : Call → Prop
  | .findById _ | .findByEmail _ | .encrypt _ | .hash _ | .verifyMfaChallenge _
  | .googleVerify _ | .facebookVerify _ | .generateBackupCode | .randomUUID => True
  | _ => False

theorem silent_watched (h : call.Silent) (choice : Choice) (state : World × List Visible) :
    (watched env choice state call).2.1.db = state.1.db ∧
      (watched env choice state call).2.2 = state.2 := by
  cases call with
  | findById id => exact ⟨rfl, rfl⟩
  | findByEmail email => exact ⟨rfl, rfl⟩
  | encrypt plainText => exact ⟨rfl, rfl⟩
  | hash plain => exact ⟨rfl, rfl⟩
  | verifyMfaChallenge token =>
      refine ⟨rfl, ?_⟩
      simp only [watched, visible, Option.toList_none, List.nil_append]
  | googleVerify idToken =>
      refine ⟨rfl, ?_⟩
      simp only [watched, visible, Option.toList_none, List.nil_append]
  | facebookVerify accessToken =>
      refine ⟨rfl, ?_⟩
      simp only [watched, visible, Option.toList_none, List.nil_append]
  | generateBackupCode => exact ⟨rfl, rfl⟩
  | randomUUID => exact ⟨rfl, rfl⟩
  | _ => exact h.elim

def Unchanged (state state' : World × List Visible) : Prop :=
  state'.1.db = state.1.db ∧ state'.2 = state.2

theorem wp_silent {p : Port α} (hp : p.Uses Call.Silent) (state : World × List Visible) :
    p.wp (watched env) state fun _ => Unchanged state := by
  refine wp_of_uses (fun _ => ⟨rfl, rfl⟩) ?_ (fun _ h choice state => ?_) hp state
  · exact fun _ _ _ h h' => ⟨h'.1.trans h.1, h'.2.trans h.2⟩
  · exact silent_watched h choice state

-- What the calls answer.

theorem serves_findById {id : Id} {answer : Except Fault (Option User)}
    (h : Serves env world (.findById id) answer world') :
    answer = .ok (PrismaUserRepository.findById world.db id) ∧ world'.db = world.db := by
  obtain ⟨choice, h⟩ := h
  cases h
  exact ⟨rfl, rfl⟩

theorem serves_findByEmail {email : String} {answer : Except Fault (Option User)}
    (h : Serves env world (.findByEmail email) answer world') :
    answer = .ok (PrismaUserRepository.findByEmail world.db email) ∧ world'.db = world.db := by
  obtain ⟨choice, h⟩ := h
  cases h
  exact ⟨rfl, rfl⟩

theorem serves_findMfaCredentials {userId : Id} {answer : Except Fault (Option MfaCredentials)}
    (h : Serves env world (.findMfaCredentials userId) answer world') :
    answer = .ok (PrismaUserRepository.findMfaCredentials world.db userId) ∧
      world'.db = world.db := by
  obtain ⟨choice, h⟩ := h
  cases h
  exact ⟨rfl, rfl⟩

theorem serves_decrypt {cipherText : String} {answer : Except Fault String}
    (h : Serves env world (.decrypt cipherText) answer world') :
    answer = env.decrypt cipherText ∧ world'.db = world.db := by
  obtain ⟨choice, h⟩ := h
  cases h
  exact ⟨rfl, rfl⟩

theorem serves_encrypt {plainText : String} {answer : Except Fault String}
    (h : Serves env world (.encrypt plainText) answer world') :
    (∃ iv, answer = .ok (env.encrypt iv plainText)) ∧ world'.db = world.db := by
  obtain ⟨choice, h⟩ := h
  cases h
  exact ⟨⟨choice.iv, rfl⟩, rfl⟩

theorem serves_totpVerify {secret code : String} {answer : Except Fault (Option ℤ)}
    (h : Serves env world (.totpVerify secret code) answer world') : world'.db = world.db := by
  obtain ⟨choice, h⟩ := h
  cases h
  rfl

theorem serves_compare {plain hash : String} {answer : Except Fault Bool}
    (h : Serves env world (.compare plain hash) answer world') :
    answer = .ok (env.compare plain hash) ∧ world'.db = world.db := by
  obtain ⟨choice, h⟩ := h
  cases h
  exact ⟨rfl, rfl⟩

theorem serves_generateSecret {answer : Except Fault String}
    (h : Serves env world .generateSecret answer world') :
    (∃ secret, answer = .ok secret) ∧ world'.db = world.db := by
  obtain ⟨choice, h⟩ := h
  cases h
  exact ⟨⟨_, rfl⟩, rfl⟩

theorem serves_sign {payload : AuthTokenPayload} {answer : Except Fault String}
    (h : Serves env world (.sign payload) answer world') :
    (∃ token, answer = .ok token) ∧ world'.db = world.db := by
  obtain ⟨choice, h⟩ := h
  cases h
  exact ⟨⟨_, rfl⟩, rfl⟩

theorem serves_signMfaChallenge {userId : Id} {answer : Except Fault String}
    (h : Serves env world (.signMfaChallenge userId) answer world') :
    (∃ token, answer = .ok token) ∧ world'.db = world.db := by
  obtain ⟨choice, h⟩ := h
  cases h
  exact ⟨⟨_, rfl⟩, rfl⟩

theorem serves_verifyMfaChallenge {token : String} {answer : Except Fault Id}
    (h : Serves env world (.verifyMfaChallenge token) answer world') :
    (∀ userId, answer = .ok userId → ∃ now claims,
      env.jwtVerify .mfaSecret now token = some claims ∧ claims.sub = some userId) ∧
    world'.db = world.db := by
  obtain ⟨choice, h⟩ := h
  cases h
  refine ⟨fun userId hok => ⟨world.clock + choice.elapsed, ?_⟩, rfl⟩
  unfold JwtTokenAdapter.verifyMfaChallenge at hok
  split at hok
  next => cases hok
  next claims hclaims =>
    split at hok
    next sub hsub =>
      split at hok
      next =>
        cases hok
        exact ⟨claims, hclaims, hsub⟩
      next => cases hok
    next => cases hok

-- A new account has no second factor yet, and the others keep theirs.
theorem serves_create {data : CreateUserData} {answer : Except Fault User}
    (h : Serves env world (.create data) answer world') :
    (∀ userId, credentials world'.db userId = credentials world.db userId) ∧
      ((∃ user, answer = .ok user ∧ user.mfaEnabled = false ∧
          (credentials world.db user.id).enabled = false) ∨
        ∃ err, answer = .error err ∧ world'.db = world.db) := by
  obtain ⟨choice, h⟩ := h
  unfold serve at h
  simp only [query, PrismaUserRepository.create] at h
  cases hi : world.db.users.insert
      (PrismaUserRepository.newRow world.db choice.uuid (world.clock + choice.elapsed) data) with
  | none =>
      simp only [hi, committed] at h
      cases h
      exact ⟨fun _ => rfl, .inr ⟨_, rfl, rfl⟩⟩
  | some users =>
      simp only [hi, committed] at h
      cases h
      refine ⟨credentials_create hi, .inl ⟨_, rfl, rfl, ?_⟩⟩
      have hempty := credentials_eq_empty (Table.lookup_eq_none.mpr (Table.insert_fresh hi).1)
      exact congrArg MfaCredentials.enabled hempty

theorem serves_updateMfa {id : Id} {patch : MfaCredentialsPatch} {answer : Except Fault Unit}
    (h : Serves env world (.updateMfa id patch) answer world') :
    (answer = .ok () ∧ ∀ userId, credentials world'.db userId =
      if userId = id then (credentials world.db id).patch patch
      else credentials world.db userId) ∨
    ∃ err, answer = .error err ∧ world'.db = world.db := by
  obtain ⟨choice, h⟩ := h
  rcases serve_updateMfa_cases env choice world id patch with
    ⟨other, hs, hdb⟩ | ⟨err, other, hs, hdb, -⟩
  · rw [hs] at h
    cases h
    exact .inl ⟨rfl, hdb⟩
  · rw [hs] at h
    cases h
    exact .inr ⟨err, rfl, hdb⟩

-- What each operation does, from what its calls answer.

abbrev Effects (env : Environment) (db : Database) (operation : Operation)
    (result : Except Fault Outcome) (state : World × List Visible) : Prop :=
  Effect env db operation result state.1.db state.2

theorem refused {operation : Operation} {db db' : Database} {err : Fault} (hdb : db' = db)
    (hseen : ∀ sub, .session sub ∉ seen ∧ ∀ token, .challenge sub token ∉ seen) :
    Effect env db operation (.error err) db' seen := by
  subst hdb
  exact .refused (fun sub => (hseen sub).1) fun sub => (hseen sub).2

-- A user that was found is in the state of the database.
theorem enabled_of_row {db : Database} {row : UserRow} (h : row ∈ db.users) :
    (credentials db row.id).enabled = row.mfaEnabled := by
  rw [credentials_of_lookup (Table.lookup_key h)]
  rfl

theorem enabled_of_findByEmail {db : Database} {email : String} {user : User}
    (h : PrismaUserRepository.findByEmail db email = some user) :
    (credentials db user.id).enabled = user.mfaEnabled := by
  obtain ⟨row, hrow, rfl⟩ := Option.map_eq_some_iff.mp h
  exact enabled_of_row (Table.lookupBy_eq_some.mp hrow).1

theorem enabled_of_findById {db : Database} {id : Id} {user : User}
    (h : PrismaUserRepository.findById db id = some user) :
    user.id = id ∧ (credentials db user.id).enabled = user.mfaEnabled := by
  obtain ⟨row, hrow, rfl⟩ := Option.map_eq_some_iff.mp h
  obtain ⟨hm, hid⟩ := Table.lookup_eq_some.mp hrow
  exact ⟨hid, enabled_of_row hm⟩

-- The token that ends a login, after calls that have shown neither tokens nor
-- credentials.
theorem login_of_token {db db' : Database} {operation : Operation} {outcome : Outcome}
    (hop : operation.IsLogin) (hdb : ∀ userId, credentials db' userId = credentials db userId)
    (hseen : ∀ visible ∈ seen, ∃ hash, visible = .equal hash) {shown : Visible}
    (hshown : (∃ sub token, shown = .challenge sub token) ∨
      ∃ sub, shown = .session sub ∧ (credentials db sub).enabled = false) :
    Effect env db operation (.ok outcome) db' (shown :: seen) := by
  refine Effect.login hop hdb (fun sub hsub => ?_) fun userId found hlooked => ?_
  · rcases List.mem_cons.mp hsub with h | h
    · subst h
      rcases hshown with ⟨_, _, h⟩ | ⟨_, h, hoff⟩
      · cases h
      · cases h
        exact hoff
    · obtain ⟨hash, h⟩ := hseen _ h
      cases h
  · rcases List.mem_cons.mp hlooked with h | h
    · subst h
      rcases hshown with ⟨_, _, h⟩ | ⟨_, h, -⟩ <;> cases h
    · obtain ⟨hash, h⟩ := hseen _ h
      cases h

theorem effects_issueSession {db : Database} {operation : Operation} (hop : operation.IsLogin)
    {user : User} (huser : (credentials db user.id).enabled = user.mfaEnabled)
    (hdb : ∀ userId, credentials world.db userId = credentials db userId)
    (hseen : ∀ visible ∈ seen, ∃ hash, visible = .equal hash) :
    (issueSession user).wp (watched env) (world, seen) fun result =>
      Effects env db operation (result.map Outcome.LoggedIn) := by
  unfold issueSession issueAccessSession
  split
  next =>
    refine wp_ask_bind fun answer world' hs => ?_
    obtain ⟨⟨token, rfl⟩, hsame⟩ := serves_signMfaChallenge hs
    refine login_of_token hop (fun userId => by rw [hsame, hdb]) hseen (.inl ⟨_, _, rfl⟩)
  next hoff =>
    refine wp_ask_bind fun answer world' hs => ?_
    obtain ⟨⟨token, rfl⟩, hsame⟩ := serves_sign hs
    refine login_of_token hop (fun userId => by rw [hsame, hdb]) hseen (.inr ⟨_, rfl, ?_⟩)
    exact huser.trans (Bool.eq_false_of_not_eq_true hoff)

theorem effects_loginUser (input : LoginUserInput) :
    (LoginUserUseCase.execute input).wp (watched env) (world, []) fun result =>
      Effects env world.db (.LoginUser input) (result.map Outcome.LoggedIn) := by
  have hop : (Operation.LoginUser input).IsLogin := trivial
  refine wp_ask_bind fun answer world' hs => ?_
  obtain ⟨rfl, hdb⟩ := serves_findByEmail hs
  cases hfound : PrismaUserRepository.findByEmail world.db input.email with
  | none => exact refused hdb (by simp [visible])
  | some user =>
      refine wp_ask_bind fun answer world'' hs => ?_
      obtain ⟨rfl, hdb'⟩ := serves_compare hs
      cases hequal : env.compare input.password user.passwordHash with
      | false => exact refused (hdb'.trans hdb) (by simp [visible])
      | true =>
          refine effects_issueSession hop (enabled_of_findByEmail hfound)
            (fun userId => by rw [hdb', hdb]) ?_
          simp [visible]

-- The account of a social login.
theorem wp_findOrCreate (email fullName : String)
    {post : Except Fault User → World × List Visible → Prop}
    (hok : ∀ user world', (credentials world.db user.id).enabled = user.mfaEnabled →
      (∀ userId, credentials world'.db userId = credentials world.db userId) →
        post (.ok user) (world', seen))
    (herr : ∀ err world', world'.db = world.db → post (.error err) (world', seen)) :
    (findOrCreate email fullName).wp (watched env) (world, seen) post := by
  refine wp_ask_bind fun answer world₁ hs => ?_
  obtain ⟨rfl, hdb₁⟩ := serves_findByEmail hs
  cases hfound : PrismaUserRepository.findByEmail world.db email with
  | some user => exact hok user world₁ (enabled_of_findByEmail hfound) fun userId => by rw [hdb₁]
  | none =>
      have hsilent : (randomUUID >>= hasher.hash).Uses Call.Silent :=
        uses_bind (uses_perform trivial) fun _ => uses_perform trivial
      change ((randomUUID >>= hasher.hash) >>= fun unusablePassword => users.create {
        email, passwordHash := unusablePassword, fullName, role := .USER }).wp _ _ _
      refine wp_bind.mpr (wp_mono (wp_silent hsilent _) fun result state hstate => ?_)
      obtain ⟨world₂, seen₂⟩ := state
      obtain ⟨hdb₂, hseen⟩ := hstate
      simp only [visible] at hseen
      subst hseen
      cases result with
      | error err => exact herr err world₂ (hdb₂.trans hdb₁)
      | ok unusablePassword =>
          refine wp_ask fun answer world₃ hs => ?_
          have hdb : world₂.db = world.db := hdb₂.trans hdb₁
          obtain ⟨hcredentials, ⟨user, rfl, hoff, hnew⟩ | ⟨err, rfl, hdb₃⟩⟩ := serves_create hs
          · rw [hdb] at hnew hcredentials
            exact hok user world₃ (hnew.trans hoff.symm) hcredentials
          · exact herr err world₃ (hdb₃.trans hdb)

-- A social login, after the answer of its provider.
theorem effects_social {operation : Operation} (hop : operation.IsLogin) {db : Database}
    (hdb : world.db = db) (email fullName : String) :
    (findOrCreate email fullName >>= issueSession).wp (watched env) (world, []) fun result =>
      Effects env db operation (result.map Outcome.LoggedIn) := by
  subst hdb
  refine wp_bind.mpr (wp_findOrCreate email fullName (fun user world' huser hdb => ?_) ?_)
  · exact effects_issueSession hop huser hdb fun _ h => absurd h List.not_mem_nil
  · exact fun err world' hdb => refused hdb (by simp)

theorem effects_loginWithGoogle (input : LoginWithGoogleInput) :
    (LoginWithGoogleUseCase.execute input).wp (watched env) (world, []) fun result =>
      Effects env world.db (.LoginWithGoogle input) (result.map Outcome.LoggedIn) := by
  have hop : (Operation.LoginWithGoogle input).IsLogin := trivial
  have hsilent : (googleVerifier.verify input.idToken).Uses Call.Silent := uses_perform trivial
  refine wp_bind.mpr (wp_mono (wp_silent hsilent _) fun result state hstate => ?_)
  obtain ⟨world', seen⟩ := state
  obtain ⟨hdb, rfl⟩ := hstate
  cases result with
  | error err => exact refused hdb (by simp)
  | ok identity =>
      dsimp only [continued]
      split
      · exact effects_social hop hdb _ _
      · exact refused hdb (by simp)

theorem effects_loginWithFacebook (input : LoginWithFacebookInput) :
    (LoginWithFacebookUseCase.execute input).wp (watched env) (world, []) fun result =>
      Effects env world.db (.LoginWithFacebook input) (result.map Outcome.LoggedIn) := by
  have hop : (Operation.LoginWithFacebook input).IsLogin := trivial
  have hsilent : (facebookVerifier.verify input.accessToken).Uses Call.Silent :=
    uses_perform trivial
  refine wp_bind.mpr (wp_mono (wp_silent hsilent _) fun result state hstate => ?_)
  obtain ⟨world', seen⟩ := state
  obtain ⟨hdb, rfl⟩ := hstate
  cases result with
  | error err => exact refused hdb (by simp)
  | ok identity => exact effects_social hop hdb _ _

theorem effects_setupMfa (input : SetupMfaInput) :
    (SetupMfaUseCase.execute input).wp (watched env) (world, []) fun result =>
      Effects env world.db (.SetupMfa input) (result.map Outcome.Configured) := by
  refine wp_ask_bind fun answer world₁ hs => ?_
  obtain ⟨rfl, hdb₁⟩ := serves_findById hs
  cases hfound : PrismaUserRepository.findById world.db input.userId with
  | none => exact refused hdb₁ (by simp [visible])
  | some user =>
      obtain ⟨hid, huser⟩ := enabled_of_findById hfound
      dsimp only [continued]
      split
      next => exact refused hdb₁ (by simp [visible])
      next hoff =>
        refine wp_ask_bind fun answer world₂ hs => ?_
        obtain ⟨⟨secret, rfl⟩, hdb₂⟩ := serves_generateSecret hs
        refine wp_ask_bind fun answer world₃ hs => ?_
        obtain ⟨⟨iv, rfl⟩, hdb₃⟩ := serves_encrypt hs
        refine wp_ask_bind fun answer world₄ hs => ?_
        have hdb : world₃.db = world.db := hdb₃.trans (hdb₂.trans hdb₁)
        obtain ⟨rfl, hwrite⟩ | ⟨err, rfl, hdb₄⟩ := serves_updateMfa hs
        · rw [hdb, hid] at hwrite
          rw [hid] at huser
          exact Effect.setup (huser.trans (Bool.eq_false_of_not_eq_true hoff)) hwrite
        · exact refused (hdb₄.trans hdb) (by simp [visible])

-- What a lookup of credentials finds.

theorem credentials_of_find {db : Database} {userId : Id} {found : MfaCredentials}
    (h : PrismaUserRepository.findMfaCredentials db userId = some found) :
    found = credentials db userId := by
  rw [credentials, h, Option.getD_some]

theorem totpSecretEnc_of_configured {found : MfaCredentials} {totpSecretEnc : String}
    (h : found.configured = some totpSecretEnc) : found.totpSecretEnc = some totpSecretEnc :=
  (Option.filter_eq_some_iff.mp h).1

theorem of_active {found : MfaCredentials} {totpSecretEnc : String}
    (h : found.active = some totpSecretEnc) :
    found.enabled = true ∧ found.totpSecretEnc = some totpSecretEnc := by
  unfold MfaCredentials.active at h
  split at h
  next hon => exact ⟨hon, totpSecretEnc_of_configured h⟩
  next => cases h

-- The two calls that every check of a code begins with.
theorem wp_decrypt_verify {totpSecretEnc code : String} {f : Option ℤ → Port α}
    {post : Except Fault α → World × List Visible → Prop}
    (herr : ∀ err world' seen', world'.db = world.db →
      (seen' = seen ∨ ∃ secret, seen' = .decrypted totpSecretEnc secret :: seen) →
        post (.error err) (world', seen'))
    (hnone : ∀ secret world', world'.db = world.db →
      (f none).wp (watched env) (world', .decrypted totpSecretEnc secret :: seen) post)
    (hsome : ∀ secret step world', world'.db = world.db → env.decrypt totpSecretEnc = .ok secret →
      (f (some step)).wp (watched env)
        (world', .matched step :: .decrypted totpSecretEnc secret :: seen) post) :
    (cipher.decrypt totpSecretEnc >>= fun secret => totp.verify secret code >>= f).wp
      (watched env) (world, seen) post := by
  refine wp_ask_bind fun answer world₁ hs => ?_
  obtain ⟨rfl, hdb₁⟩ := serves_decrypt hs
  cases hdecrypt : env.decrypt totpSecretEnc with
  | error err => exact herr err world₁ seen hdb₁ (.inl rfl)
  | ok secret =>
      refine wp_ask_bind fun answer world₂ hs => ?_
      have hdb₂ := (serves_totpVerify hs).trans hdb₁
      rcases answer with err | (_ | step)
      · exact herr err world₂ _ hdb₂ (.inr ⟨secret, rfl⟩)
      · exact hnone secret world₂ hdb₂
      · exact hsome secret step world₂ hdb₂ hdecrypt

theorem effects_enable {userId : Id} {code totpSecretEnc secret : String} {step : ℤ}
    {db : Database} (hdb : world.db = db) (hoff : (credentials db userId).enabled = false)
    (hsecret : (credentials db userId).totpSecretEnc = some totpSecretEnc)
    (hdecrypt : env.decrypt totpSecretEnc = .ok secret) :
    (ConfirmMfaUseCase.enable userId step).wp (watched env) (world, [.matched step,
      .decrypted totpSecretEnc secret, .looked userId (credentials db userId)]) fun result =>
      Effects env db (.ConfirmMfa { userId, code }) (result.map Outcome.Confirmed) := by
  have hcodes : (generateBackupCodes BACKUP_CODES_COUNT).Uses Call.Silent :=
    uses_generateBackupCodes trivial _
  refine wp_bind.mpr (wp_mono (wp_silent hcodes _) fun result state hstate => ?_)
  obtain ⟨world₁, seen⟩ := state
  obtain ⟨hdb₁, rfl⟩ := hstate
  rcases result with err | backupCodes
  · exact refused (hdb₁.trans hdb) (by simp)
  have hhashes : (Program.all (backupCodes.map hasher.hash)).Uses Call.Silent :=
    uses_hashAll (fun _ => trivial) backupCodes
  refine wp_bind.mpr (wp_mono (wp_silent hhashes _) fun result state hstate => ?_)
  obtain ⟨world₂, seen⟩ := state
  obtain ⟨hdb₂, rfl⟩ := hstate
  have hdb₂ : world₂.db = db := hdb₂.trans (hdb₁.trans hdb)
  rcases result with err | backupCodeHashes
  · exact refused hdb₂ (by simp)
  refine wp_ask_bind fun answer world₃ hs => ?_
  obtain ⟨rfl, hwrite⟩ | ⟨err, rfl, hdb₃⟩ := serves_updateMfa hs
  · rw [hdb₂] at hwrite
    exact Effect.confirm hoff hsecret hdecrypt hwrite
  · exact refused (hdb₃.trans hdb₂) (by simp [visible])

theorem effects_confirmMfa (input : ConfirmMfaInput) :
    (ConfirmMfaUseCase.execute input).wp (watched env) (world, []) fun result =>
      Effects env world.db (.ConfirmMfa input) (result.map Outcome.Confirmed) := by
  refine wp_ask_bind fun answer world₁ hs => ?_
  obtain ⟨rfl, hdb₁⟩ := serves_findMfaCredentials hs
  cases hfound : PrismaUserRepository.findMfaCredentials world.db input.userId with
  | none => exact refused hdb₁ (by simp [visible])
  | some found =>
      obtain rfl := credentials_of_find hfound
      dsimp only [continued]
      split
      next => exact refused hdb₁ (by simp [visible])
      next totpSecretEnc hconfigured =>
        split
        next => exact refused hdb₁ (by simp [visible])
        next hoff =>
          refine wp_decrypt_verify ?_ ?_ ?_
          · rintro err world' _ hdb (rfl | ⟨secret, rfl⟩)
            · exact refused (hdb.trans hdb₁) (by simp [visible])
            · exact refused (hdb.trans hdb₁) (by simp [visible])
          · exact fun secret world' hdb => refused (hdb.trans hdb₁) (by simp [visible])
          · intro secret step world' hdb hdecrypt
            exact effects_enable (hdb.trans hdb₁) (Bool.eq_false_of_not_eq_true hoff)
              (totpSecretEnc_of_configured hconfigured) hdecrypt

theorem effects_disableMfa (input : DisableMfaInput) :
    (DisableMfaUseCase.execute input).wp (watched env) (world, []) fun result =>
      Effects env world.db (.DisableMfa input) (result.map fun _ => Outcome.Disabled) := by
  refine wp_ask_bind fun answer world₁ hs => ?_
  obtain ⟨rfl, hdb₁⟩ := serves_findMfaCredentials hs
  cases hfound : PrismaUserRepository.findMfaCredentials world.db input.userId with
  | none => exact refused hdb₁ (by simp [visible])
  | some found =>
      obtain rfl := credentials_of_find hfound
      dsimp only [continued]
      split
      next => exact refused hdb₁ (by simp [visible])
      next totpSecretEnc hactive =>
        obtain ⟨hon, hsecret⟩ := of_active hactive
        refine wp_decrypt_verify ?_ ?_ ?_
        · rintro err world' _ hdb (rfl | ⟨secret, rfl⟩)
          · exact refused (hdb.trans hdb₁) (by simp [visible])
          · exact refused (hdb.trans hdb₁) (by simp [visible])
        · exact fun secret world' hdb => refused (hdb.trans hdb₁) (by simp [visible])
        · intro secret step world₂ hdb₂ hdecrypt
          have hdb : world₂.db = world.db := hdb₂.trans hdb₁
          dsimp only
          split
          next => exact refused hdb (by simp [visible])
          next hused =>
            refine wp_ask fun answer world₃ hs => ?_
            obtain ⟨rfl, hwrite⟩ | ⟨err, rfl, hdb₃⟩ := serves_updateMfa hs
            · rw [hdb] at hwrite
              exact Effect.disable hsecret hon hdecrypt (Bool.eq_false_of_not_eq_true hused) hwrite
            · exact refused (hdb₃.trans hdb) (by simp [visible])

-- The second factor of a login, of the user of the challenge.

-- The outcomes of the check of a code: it is accepted, or nothing was written.
def Checked (env : Environment) (userId : Id) (db : Database) (seen : List Visible)
    (result : Except Fault Bool) (state : World × List Visible) : Prop :=
  ∃ shown, state.2 = shown ++ seen ∧
    match result with
    | .ok true => Factor env userId db state.1.db shown
    | _ => state.1.db = db ∧ ∀ sub, .session sub ∉ shown ∧ ∀ token, .challenge sub token ∉ shown

theorem checked_consumeTotp {userId : Id} {db : Database} (hdb : world.db = db)
    {totpSecretEnc code : String}
    (hsecret : (credentials db userId).totpSecretEnc = some totpSecretEnc) :
    (VerifyMfaUseCase.consumeTotp userId (credentials db userId).lastStep totpSecretEnc code).wp
      (watched env) (world, seen) (Checked env userId db seen) := by
  refine wp_decrypt_verify ?_ ?_ ?_
  · rintro err world' _ hdb' (rfl | ⟨secret, rfl⟩)
    · exact ⟨[], rfl, hdb'.trans hdb, by simp⟩
    · exact ⟨[_], rfl, hdb'.trans hdb, by simp⟩
  · exact fun secret world' hdb' => ⟨[_], rfl, hdb'.trans hdb, by simp⟩
  · intro secret step world₁ hdb₁ hdecrypt
    have hdb₁ : world₁.db = db := hdb₁.trans hdb
    dsimp only
    split
    next => exact ⟨[_, _], rfl, hdb₁, by simp⟩
    next hused =>
      refine wp_ask_bind fun answer world₂ hs => ?_
      obtain ⟨rfl, hwrite⟩ | ⟨err, rfl, hdb₂⟩ := serves_updateMfa hs
      · rw [hdb₁] at hwrite
        exact ⟨[_, _], rfl, .totp hsecret hdecrypt (Bool.eq_false_of_not_eq_true hused) hwrite⟩
      · exact ⟨[_, _], rfl, hdb₂.trans hdb₁, by simp⟩

-- The first equal hash is the one that is removed.
theorem checked_tryHashes {userId : Id} {db : Database} (hdb : world.db = db) {code : String}
    {index : ℕ} {rest : List String}
    (hrest : (credentials db userId).backupCodeHashes.drop index = rest) :
    (VerifyMfaUseCase.tryHashes userId (credentials db userId).backupCodeHashes code index rest).wp
      (watched env) (world, seen) (Checked env userId db seen) := by
  induction rest generalizing index world with
  | nil => exact ⟨[], rfl, hdb, by simp⟩
  | cons hash rest ih =>
      refine wp_ask_bind fun answer world₁ hs => ?_
      obtain ⟨rfl, hdb₁⟩ := serves_compare hs
      have hdb₁ : world₁.db = db := hdb₁.trans hdb
      cases hequal : env.compare code hash with
      | false =>
          refine ih hdb₁ ?_
          rw [← List.drop_drop, hrest]
          rfl
      | true =>
          refine wp_ask_bind fun answer world₂ hs => ?_
          obtain ⟨rfl, hwrite⟩ | ⟨err, rfl, hdb₂⟩ := serves_updateMfa hs
          · rw [hdb₁] at hwrite
            refine ⟨[.equal hash], rfl, .backup ?_ hwrite⟩
            rw [← List.head?_drop, hrest]
            rfl
          · exact ⟨[.equal hash], rfl, hdb₂.trans hdb₁, by simp⟩

theorem checked_consume {userId : Id} {db : Database} (hdb : world.db = db)
    {totpSecretEnc code : String}
    (hsecret : (credentials db userId).totpSecretEnc = some totpSecretEnc) :
    (VerifyMfaUseCase.consume env userId (credentials db userId) totpSecretEnc code).wp
      (watched env) (world, seen) (Checked env userId db seen) := by
  unfold VerifyMfaUseCase.consume VerifyMfaUseCase.consumeBackupCode
  split
  · exact checked_consumeTotp hdb hsecret
  · generalize normalizeBackupCode env.toUpperCase code = normal
    exact checked_tryHashes hdb rfl

theorem effects_withCredentials {input : VerifyMfaInput} {now : ℤ} {claims : JwtClaims} {userId : Id}
    {db : Database} {found : Option User × Option MfaCredentials}
    (hclaims : env.jwtVerify .mfaSecret now input.mfaToken = some claims)
    (hsub : claims.sub = some userId) (hdb : world.db = db)
    (huser : ∀ user, found.1 = some user → user.id = userId)
    (hfound : ∀ credentials', found.2 = some credentials' → credentials' = credentials db userId)
    (hseen : ∀ sub, .session sub ∉ seen ∧ ∀ token, .challenge sub token ∉ seen)
    (hlooked : ∀ credentials', found.2 = some credentials' →
      seen = [.looked userId (credentials db userId)]) :
    (VerifyMfaUseCase.withCredentials env userId input.code found).wp (watched env) (world, seen)
      fun result => Effects env db (.VerifyMfa input) (result.map Outcome.LoggedIn) := by
  unfold VerifyMfaUseCase.withCredentials
  split
  next user credentials' =>
    obtain rfl := hfound credentials' rfl
    obtain rfl := hlooked _ rfl
    split
    next => exact refused hdb hseen
    next totpSecretEnc hactive =>
      obtain ⟨hon, hsecret⟩ := of_active hactive
      refine wp_bind.mpr (wp_mono (checked_consume hdb hsecret) ?_)
      rintro (err | _ | _) ⟨world₁, _⟩ ⟨shown, rfl, h⟩
      · exact refused h.1 fun sub => by simp [h.2 sub]
      · exact refused h.1 fun sub => by simp [h.2 sub]
      · refine wp_ask_bind fun answer world₂ hs => ?_
        obtain ⟨⟨token, rfl⟩, hdb₂⟩ := serves_sign hs
        have hfactor : Factor env userId db world₂.db shown := hdb₂ ▸ h
        have hid : user.id = userId := huser user rfl
        subst hid
        exact Effect.verify hclaims hsub hon hfactor
  next => exact refused hdb hseen

theorem wp_challenge {token : String} {post : Except Fault Id → World × List Visible → Prop}
    (hok : ∀ userId now claims world', env.jwtVerify .mfaSecret now token = some claims →
      claims.sub = some userId → world'.db = world.db → post (.ok userId) (world', seen))
    (herr : ∀ err world', world'.db = world.db → post (.error err) (world', seen)) :
    (VerifyMfaUseCase.challenge token).wp (watched env) (world, seen) post := by
  intro choice
  have hs : Serves env world (.verifyMfaChallenge token)
      (serve env choice world (.verifyMfaChallenge token)).1
      (serve env choice world (.verifyMfaChallenge token)).2 := ⟨choice, rfl⟩
  obtain ⟨hclaims, hdb⟩ := serves_verifyMfaChallenge hs
  have hsilent : (Call.verifyMfaChallenge token).Silent := trivial
  have hseen : (watched env choice (world, seen) (.verifyMfaChallenge token)).2.2 = seen :=
    (silent_watched hsilent choice (world, seen)).2
  change (((Program.done (serve env choice world (.verifyMfaChallenge token)).1).tryCatch _).wp
    (watched env) (_, (watched env choice (world, seen) (.verifyMfaChallenge token)).2.2) post)
  rw [hseen]
  cases hanswer : (serve env choice world (.verifyMfaChallenge token)).1 with
  | error err => exact herr _ _ hdb
  | ok userId =>
      obtain ⟨now, claims, hjwt, hsub⟩ := hclaims userId hanswer
      exact hok userId now claims _ hjwt hsub hdb

theorem wp_lookups {userId : Id}
    {post : Except Fault (Option User × Option MfaCredentials) → World × List Visible → Prop}
    (h : ∀ world', world'.db = world.db →
      post (.ok (PrismaUserRepository.findById world.db userId,
        PrismaUserRepository.findMfaCredentials world.db userId)) (world',
          (visible (.findMfaCredentials userId)
            (.ok (PrismaUserRepository.findMfaCredentials world.db userId))).toList ++ seen)) :
    ((users.findById userId).both (users.findMfaCredentials userId)).wp (watched env)
      (world, seen) post :=
  fun _ _ => h _ rfl

theorem effects_verifyMfa (input : VerifyMfaInput) :
    (VerifyMfaUseCase.execute env input).wp (watched env) (world, []) fun result =>
      Effects env world.db (.VerifyMfa input) (result.map Outcome.LoggedIn) := by
  refine wp_bind.mpr (wp_challenge ?_ fun err world₁ hdb => refused hdb (by simp))
  intro userId now claims world₁ hclaims hsub hdb₁
  refine wp_bind.mpr (wp_lookups fun world₂ hdb₂ => ?_)
  have hdb : world₂.db = world.db := hdb₂.trans hdb₁
  rw [hdb₁]
  refine effects_withCredentials hclaims hsub hdb (fun user h => (enabled_of_findById h).1)
    (fun found h => credentials_of_find h) ?_ fun found h => ?_
  · cases PrismaUserRepository.findMfaCredentials world.db userId <;> simp [visible]
  · change PrismaUserRepository.findMfaCredentials world.db userId = some found at h
    rw [h, ← credentials_of_find h]
    rfl

-- Everything that one request can do.
theorem effects_execute (operation : Operation) (world : World) :
    (operation.execute env).wp (watched env) (world, []) (Effects env world.db operation) := by
  cases operation with
  | LoginUser input => exact wp_map.mpr (effects_loginUser input)
  | LoginWithGoogle input => exact wp_map.mpr (effects_loginWithGoogle input)
  | LoginWithFacebook input => exact wp_map.mpr (effects_loginWithFacebook input)
  | SetupMfa input => exact wp_map.mpr (effects_setupMfa input)
  | ConfirmMfa input => exact wp_map.mpr (effects_confirmMfa input)
  | VerifyMfa input => exact wp_map.mpr (effects_verifyMfa input)
  | DisableMfa input => exact wp_map.mpr (effects_disableMfa input)

theorem effect_done (env : Environment) (service : Service) (turn : Turn) :
    Effect env service.world.db (service.done env turn).2.operation
      (service.done env turn).2.result (service.done env turn).2.after
        (service.done env turn).2.seen :=
  run_of_wp (effects_execute turn.operation service.world) turn.choices

end SmartParking.Auth
