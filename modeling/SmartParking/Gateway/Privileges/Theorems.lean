import SmartParking.Gateway.Privileges
import SmartParking.Realtime.Isolation.Theorems

namespace SmartParking.Gateway

open Async Auth Program

variable {Tid : Type} {env : Environment} {known : Set Fact}

-- The use cases of auth-service obey, one function at a time.

abbrev Lawful {α : Type} (p : Auth.Port α) (known : Set Fact) : Prop :=
  p.Obeys authRules (fun _ _ => True) known

theorem lawful_ask_bind {α : Type} {call : Auth.Call} {f : Auth.Answer call → Auth.Port α}
    (hcall : authRules.permits known call)
    (hf : ∀ answer, authRules.possible call (.ok answer) →
      Lawful (f answer) (authRules.teaches call (.ok answer) ∪ known)) :
    Lawful (Auth.ask call >>= f) known := by
  refine obeys_perform_bind hcall fun answer ha => ?_
  cases answer with
  | ok answer => exact hf answer ha
  | error fault => trivial

theorem mem_told (user : User) (known : Set Fact) : .user (.ofUser user) ∈ told user ∪ known :=
  .inl rfl

theorem lawful_issueAccessSession {user : User} (h : .user (.ofUser user) ∈ known) :
    Lawful (issueAccessSession user) known :=
  lawful_ask_bind h fun _ _ => trivial

theorem lawful_issueSession {user : User} (h : .user (.ofUser user) ∈ known) :
    Lawful (issueSession user) known := by
  unfold issueSession
  split
  · exact lawful_ask_bind ⟨_, h, rfl⟩ fun _ _ => trivial
  · exact lawful_issueAccessSession h

theorem lawful_loginUser (input : LoginUserInput) : Lawful (LoginUserUseCase.execute input) known := by
  refine lawful_ask_bind trivial fun user _ => ?_
  cases user with
  | none => trivial
  | some user =>
      refine lawful_ask_bind trivial fun passwordMatches _ => ?_
      split
      · exact lawful_issueSession (.inr (mem_told user known))
      · trivial

-- The account of a social login is one that was read or created.
theorem lawful_findOrCreate_bind {α : Type} {email fullName : String} {f : User → Auth.Port α}
    (hf : ∀ user known, .user (.ofUser user) ∈ known → Lawful (f user) known) :
    Lawful (findOrCreate email fullName >>= f) known := by
  refine obeys_bind (obeys_perform_bind trivial fun found _ => ?_)
  cases found with
  | error fault => trivial
  | ok found =>
      cases found with
      | some user => exact hf user _ (mem_told user known)
      | none =>
          refine obeys_perform_bind trivial fun uuid _ => ?_
          cases uuid with
          | error fault => trivial
          | ok uuid =>
              refine obeys_perform_bind trivial fun unusablePassword _ => ?_
              cases unusablePassword with
              | error fault => trivial
              | ok unusablePassword =>
                  refine ⟨rfl, fun created _ => ?_⟩
                  cases created with
                  | error fault => trivial
                  | ok user => exact hf user _ (mem_told user _)

theorem lawful_loginWithGoogle (input : LoginWithGoogleInput) :
    Lawful (LoginWithGoogleUseCase.execute input) known := by
  refine lawful_ask_bind trivial fun identity _ => ?_
  split
  · exact lawful_findOrCreate_bind fun _ _ => lawful_issueSession
  · trivial

theorem lawful_loginWithFacebook (input : LoginWithFacebookInput) :
    Lawful (LoginWithFacebookUseCase.execute input) known :=
  lawful_ask_bind trivial fun _ _ => lawful_findOrCreate_bind fun _ _ => lawful_issueSession

theorem lawful_registerUser (input : RegisterUserInput) :
    Lawful (RegisterUserUseCase.execute input) known := by
  refine lawful_ask_bind trivial fun existing _ => ?_
  cases existing with
  | some user => trivial
  | none => exact lawful_ask_bind trivial fun _ _ => ⟨rfl, fun _ _ => trivial⟩

theorem lawful_getCurrentUser (userId : Id) : Lawful (GetCurrentUserUseCase.execute userId) known := by
  refine lawful_ask_bind trivial fun user _ => ?_
  cases user <;> trivial

theorem lawful_setupMfa {input : SetupMfaInput} (h : .owner input.userId ∈ known) :
    Lawful (SetupMfaUseCase.execute input) known := by
  refine lawful_ask_bind trivial fun user huser => ?_
  cases user with
  | none => trivial
  | some user =>
      have hid : user.id = input.userId := huser
      dsimp only
      split
      · trivial
      · refine obeys_of_uses (uses_bind (uses_perform trivial) fun secret => ?_)
        refine uses_bind (uses_perform trivial) fun totpSecretEnc => ?_
        refine uses_bind (uses_perform (.inl ?_)) fun _ => trivial
        rw [hid]
        exact .inr h

theorem lawful_confirmMfa {input : ConfirmMfaInput} (h : .owner input.userId ∈ known) :
    Lawful (ConfirmMfaUseCase.execute input) known := by
  refine obeys_of_uses (uses_bind (uses_perform trivial) fun found => ?_)
  cases found with
  | none => trivial
  | some found =>
      dsimp only
      split
      · trivial
      · split
        · trivial
        · refine uses_bind (uses_perform trivial) fun secret => ?_
          refine uses_bind (uses_perform trivial) fun step => ?_
          cases step with
          | none => trivial
          | some step =>
              refine uses_bind (uses_generateBackupCodes trivial _) fun codes => ?_
              refine uses_bind (uses_hashAll (fun _ => trivial) _) fun hashes => ?_
              exact uses_bind (uses_perform (.inl h)) fun _ => trivial

theorem lawful_disableMfa {input : DisableMfaInput} (h : .owner input.userId ∈ known) :
    Lawful (DisableMfaUseCase.execute input) known := by
  refine obeys_of_uses (uses_bind (uses_perform trivial) fun found => ?_)
  cases found with
  | none => trivial
  | some found =>
      dsimp only
      split
      · trivial
      · refine uses_bind (uses_perform trivial) fun secret => ?_
        refine uses_bind (uses_perform trivial) fun step => ?_
        cases step with
        | none => trivial
        | some step =>
            dsimp only
            split
            · trivial
            · exact uses_perform (.inl h)

theorem lawful_consume {userId : Id} (h : .challenged userId ∈ known) (found : MfaCredentials)
    (totpSecretEnc code : String) :
    Lawful (VerifyMfaUseCase.consume env userId found totpSecretEnc code) known := by
  unfold VerifyMfaUseCase.consume VerifyMfaUseCase.consumeBackupCode
  split
  · exact obeys_of_uses (uses_consumeTotp (fun _ => trivial) (fun _ _ => trivial)
      (fun _ => .inr ⟨⟨rfl, rfl⟩, h⟩) _ _ _)
  · exact obeys_of_uses (uses_tryHashes (fun _ _ => trivial) (fun _ => .inr ⟨⟨rfl, rfl⟩, h⟩) _ _ _ _)

theorem lawful_withCredentials {userId : Id} {user : User} {found : Option MfaCredentials}
    (hchallenged : .challenged userId ∈ known) (huser : .user (.ofUser user) ∈ known) (code : String) :
    Lawful (VerifyMfaUseCase.withCredentials env userId code (some user, found)) known := by
  cases found with
  | none => trivial
  | some found =>
      dsimp only [VerifyMfaUseCase.withCredentials]
      split
      · trivial
      · refine obeys_bind (obeys_imp (obeys_grows (lawful_consume hchallenged _ _ _)) ?_)
        rintro (fault | accepted) known' ⟨-, hgrows⟩
        · trivial
        · dsimp only [Continues]
          split
          · exact lawful_issueAccessSession (hgrows huser)
          · trivial

theorem lawful_verifyMfa (input : VerifyMfaInput) :
    Lawful (VerifyMfaUseCase.execute env input) known := by
  refine obeys_bind (obeys_tryCatch ⟨trivial, fun answer _ => ?_⟩)
  cases answer with
  | error fault => trivial
  | ok userId =>
      -- the challenge names the user, whatever the two lookups find
      refine obeys_bind (obeys_both ⟨trivial, fun user _ => ⟨trivial, fun found _ => ?_⟩⟩)
      rcases user with fault | (_ | user) <;> rcases found with fault | found
      all_goals try trivial
      · exact lawful_withCredentials (.inr (.inr (.inl rfl))) (.inr (mem_told user _)) input.code

-- The handlers of gateway obey.

abbrev Obedient {α : Type} (p : Port α) (known : Set Fact) : Prop :=
  p.Obeys rules (fun _ _ => True) known

theorem obedient_remote {α : Type} {rpc : Auth.Port α} (h : Lawful rpc known) :
    Obedient (remote rpc) known := by
  change (rpc.lift Call.auth fun (call : Auth.Call) (answer : Auth.Answer call) => answer).Obeys
    rules _ known
  refine obeys_lift ?_ ?_ ?_ h
  · exact fun _ _ hp => hp
  · exact fun _ answer => by cases answer <;> rfl
  · exact fun _ answer ha => by cases answer <;> exact ha

theorem obedient_callAuthRpc {α : Type} {rpc : Auth.Port α} (h : ∀ known', known ⊆ known' →
    Lawful rpc known') : Obedient (callAuthRpc rpc) known := by
  refine obeys_perform_bind trivial fun sent _ => ?_
  rcases sent with fault | (error | _)
  · trivial
  · trivial
  · refine obeys_bind (obeys_settle (obeys_imp (obedient_remote (h _ Set.subset_union_right)) ?_))
    intro reply known' _
    refine obeys_perform_bind trivial fun received _ => ?_
    rcases received with fault | (error | _)
    · trivial
    · trivial
    · cases reply <;> trivial

-- Behind the guard the user of the token is known.
theorem obedient_guarded {α : Type} {handler : VerifiedToken → Port (Reply α)}
    (h : ∀ user known', .owner (VerifiedToken.userId user) ∈ known' →
      Obedient (handler user) known') (authorization : Option String) :
    Obedient (guarded authorization handler) known := by
  unfold guarded
  split
  · trivial
  · refine obeys_bind (obeys_settle ⟨trivial, fun verified _ => ?_⟩)
    cases verified with
    | error fault => trivial
    | ok user => exact h user _ (.inl rfl)

theorem obedient_handle (env : Environment) (request : HttpRequest) :
    Obedient (request.handle env) ∅ := by
  cases request with
  | register dto =>
      refine obeys_map (obedient_callAuthRpc fun _ _ => ?_)
      exact obeys_map (lawful_registerUser dto)
  | login dto =>
      refine obeys_map (obeys_map (obedient_callAuthRpc fun _ _ => ?_))
      exact obeys_map (lawful_loginUser dto)
  | google dto =>
      refine obeys_map (obeys_map (obedient_callAuthRpc fun _ _ => ?_))
      exact obeys_map (lawful_loginWithGoogle dto)
  | facebook dto =>
      refine obeys_map (obeys_map (obedient_callAuthRpc fun _ _ => ?_))
      exact obeys_map (lawful_loginWithFacebook dto)
  | mfaVerify dto =>
      refine obeys_map (obeys_map (obedient_callAuthRpc fun _ _ => ?_))
      exact obeys_map (lawful_verifyMfa dto)
  | mfaSetup authorization =>
      refine obeys_map (obedient_guarded (fun user known' h => ?_) authorization)
      exact obedient_callAuthRpc fun _ hmore => lawful_setupMfa (hmore h)
  | mfaConfirm authorization code =>
      refine obeys_map (obedient_guarded (fun user known' h => ?_) authorization)
      exact obedient_callAuthRpc fun _ hmore => lawful_confirmMfa (hmore h)
  | mfaDisable authorization code =>
      refine obeys_map (obedient_guarded (fun user known' h => ?_) authorization)
      exact obedient_callAuthRpc fun _ hmore => lawful_disableMfa (hmore h)
  | me authorization =>
      refine obeys_map (obedient_guarded (fun user known' _ => ?_) authorization)
      refine obeys_map (obedient_callAuthRpc fun _ _ => ?_)
      exact obeys_map (lawful_getCurrentUser _)

-- What the ports answer.

theorem possible_serve (choice : Choice) (world : Auth.World) (call : Call) :
    rules.possible call (serve env choice world call).1 := by
  cases call with
  | auth call =>
      cases call with
      | findById id =>
          change authRules.possible (.findById id) (.ok (PrismaUserRepository.findById world.db id))
          unfold PrismaUserRepository.findById
          cases h : world.db.users.lookup id with
          | none => trivial
          | some row => exact (Table.lookup_eq_some.mp h).2
      | _ => trivial
  | _ => trivial

-- A call adds at most one account, with the role it asks for.
theorem accounts_query (env : Environment) (choice : Auth.Choice) (now : ℤ) (db : Auth.Database)
    (call : Auth.Call) : ∃ added, accounts (Auth.query env choice now db call).2 = accounts db ++ added ∧
      ∀ account ∈ added, ∃ data, call = .create data ∧ account.role = data.role := by
  cases call with
  | create data =>
      cases h : db.users.insert (PrismaUserRepository.newRow db choice.uuid now data) with
      | none =>
          have hdb : (Auth.query env choice now db (.create data)).2 = db := by
            simp [Auth.query, PrismaUserRepository.create, h, Auth.committed]
          exact ⟨[], by rw [hdb, List.append_nil], by simp⟩
      | some users =>
          have hdb : (Auth.query env choice now db (.create data)).2 = { users } := by
            simp [Auth.query, PrismaUserRepository.create, h, Auth.committed]
          refine ⟨[(PrismaUserRepository.newRow db choice.uuid now data).account], ?_, ?_⟩
          · rw [hdb, accounts, Table.rows_insert h, List.map_append]
            rfl
          · simp [UserRow.account, PrismaUserRepository.newRow]
  | updateMfa userId patch =>
      refine ⟨[], ?_, by simp⟩
      cases h : db.users.lookup userId with
      | none => simp [Auth.query, PrismaUserRepository.updateMfa, h, Auth.committed]
      | some row =>
          have hdb : (Auth.query env choice now db (.updateMfa userId patch)).2 =
              { users := db.users.modify userId (PrismaUserRepository.withPatch patch) } := by
            simp [Auth.query, PrismaUserRepository.updateMfa, h, Auth.committed]
          rw [hdb, List.append_nil, accounts, accounts, Table.modify, List.map_map]
          refine List.map_congr_left fun row _ => ?_
          rw [Function.comp_apply]
          split <;> rfl
  | _ => exact ⟨[], (List.append_nil _).symm, by simp⟩

theorem accounts_serve (env : Environment) (choice : Choice) (world : Auth.World) (call : Call) :
    ∃ added, accounts (serve env choice world call).2.db = accounts world.db ++ added ∧
      ∀ account ∈ added, ∃ data, call = .auth (.create data) ∧ account.role = data.role := by
  cases call with
  | auth call =>
      obtain ⟨added, hadded, hrole⟩ := accounts_query env choice.auth
        (world.clock + choice.auth.elapsed) world.db call
      exact ⟨added, hadded, fun account hm => (hrole account hm).imp fun _ h => ⟨by rw [h.1], h.2⟩⟩
  | _ => exact ⟨[], (List.append_nil _).symm, by simp⟩

-- The initial accounts are kept as they are, and those after them are of users.
def Extends (first now : Auth.World) : Prop :=
  ∃ added, accounts now.db = accounts first.db ++ added ∧ ∀ account ∈ added, account.role = .USER

theorem extends_serve {first world : Auth.World} {choice : Choice} {call : Call}
    (hcall : rules.permits known call) (h : Extends first world) :
    Extends first (serve env choice world call).2 := by
  obtain ⟨added, hadded, husers⟩ := h
  obtain ⟨more, hmore, hrole⟩ := accounts_serve env choice world call
  refine ⟨added ++ more, by rw [hmore, hadded, List.append_assoc], fun account hm => ?_⟩
  rcases List.mem_append.mp hm with hm | hm
  · exact husers account hm
  · obtain ⟨data, rfl, hdata⟩ := hrole account hm
    exact hdata.trans hcall

-- What is known of a user is true of an account.
def Fact.Holds (world : Auth.World) : Fact → Prop
  | .user payload => ∃ account ∈ accounts world.db, account.payload = payload
  | _ => True

theorem holds_serve {choice : Choice} {world : Auth.World} {call : Call} {fact : Fact}
    (h : fact.Holds world) : fact.Holds (serve env choice world call).2 := by
  obtain ⟨added, hadded, -⟩ := accounts_serve env choice world call
  cases fact with
  | user payload =>
      obtain ⟨account, hm, hpayload⟩ := h
      exact ⟨account, by rw [hadded]; exact List.mem_append_left _ hm, hpayload⟩
  | _ => trivial

theorem holds_told {world : Auth.World} {row : UserRow} {fact : Fact} (hrow : row ∈ world.db.users)
    (h : fact ∈ told (UserMapper.toDomain row)) : fact.Holds world := by
  cases Set.mem_singleton_iff.mp h
  exact ⟨row.account, List.mem_map_of_mem hrow, rfl⟩

theorem holds_teaches {choice : Choice} {world : Auth.World} {call : Call} {fact : Fact}
    (h : fact ∈ rules.teaches call (serve env choice world call).1) :
    fact.Holds (serve env choice world call).2 := by
  cases call with
  | auth call =>
      cases call with
      | findById id =>
          cases hrow : world.db.users.lookup id with
          | none =>
              simp only [serve, Auth.serve, Auth.query, PrismaUserRepository.findById, hrow] at h
              exact h.elim
          | some row =>
              simp only [serve, Auth.serve, Auth.query, PrismaUserRepository.findById, hrow] at h
              exact holds_told (Table.lookup_eq_some.mp hrow).1 h
      | findByEmail email =>
          cases hrow : world.db.users.lookupBy email with
          | none =>
              simp only [serve, Auth.serve, Auth.query, PrismaUserRepository.findByEmail, hrow] at h
              exact h.elim
          | some row =>
              simp only [serve, Auth.serve, Auth.query, PrismaUserRepository.findByEmail, hrow] at h
              exact holds_told (Table.lookupBy_eq_some.mp hrow).1 h
      | create data =>
          cases hinsert : world.db.users.insert (PrismaUserRepository.newRow world.db
              choice.auth.uuid (world.clock + choice.auth.elapsed) data) with
          | none =>
              simp only [serve, Auth.serve, Auth.query, PrismaUserRepository.create, hinsert,
                Auth.committed] at h
              exact h.elim
          | some users =>
              simp only [serve, Auth.serve, Auth.query, PrismaUserRepository.create, hinsert,
                Auth.committed] at h ⊢
              exact holds_told (Table.mem_insert hinsert |>.mpr (.inr rfl)) h
      | verifyMfaChallenge token =>
          generalize (serve env choice world (.auth (.verifyMfaChallenge token))).1 = answer at h
          cases answer <;> cases h
          trivial
      | _ => exact h.elim
  | verify token =>
      generalize (serve env choice world (.verify token)).1 = answer at h
      cases answer <;> cases h
      trivial
  | _ => exact h.elim

section Runs

variable [DecidableEq Tid] {guard : CallGuard Tid} {first : Auth.World}
  {requests : Tid → HttpRequest} {pool : Requests Tid}

theorem permitted_of_reaches (h : Pool.Reaches (serve env) guard (Requests.start env first requests) pool) :
    Along (fun event earlier => rules.permits (rules.taught earlier event.thread) event.call)
      pool.history :=
  (h.obeys rfl possible_serve fun thread => obedient_handle env (requests thread)).1

theorem extends_of_reaches (h : Pool.Reaches (serve env) guard (Requests.start env first requests) pool) :
    Extends first pool.world := by
  have hfirst : Extends first first := ⟨[], (List.append_nil _).symm, nofun⟩
  exact h.kept rfl possible_serve (fun thread => obedient_handle env (requests thread)) hfirst
    fun _ _ _ _ => extends_serve

-- Every session that was signed is one of an account.
theorem signed_of_reaches (h : Pool.Reaches (serve env) guard (Requests.start env first requests) pool)
    {event : Event Tid Call Answer Auth.Fault} (hevent : event ∈ pool.history)
    {payload : AuthTokenPayload} (hsign : event.call = .auth (.sign payload)) :
    ∃ account ∈ accounts pool.world.db, account.payload = payload := by
  obtain ⟨later, earlier, hhistory, hpermits⟩ := (permitted_of_reaches h).mem hevent
  rw [hsign] at hpermits
  obtain ⟨source, hsource, -, hfact⟩ := hpermits
  have hsource' : source ∈ pool.history := by
    rw [hhistory]
    exact List.mem_append_right _ (List.mem_cons_of_mem _ hsource)
  exact h.upheld rfl (fun _ _ _ _ => holds_teaches) (fun _ _ _ _ => holds_serve) source hsource' _ hfact

-- In no interleaving of requests does an account change or a new one get more than
-- the role of a user, and every session that is signed is one of an account.
theorem privileges_kept (env : Environment) (first : Auth.World) (requests : Tid → HttpRequest)
    (pool : Requests Tid)
    (h : Pool.Reaches (serve env) Pool.unguarded (Requests.start env first requests) pool) :
    (∃ added, accounts pool.world.db = accounts first.db ++ added ∧
      ∀ account ∈ added, account.role = .USER) ∧
    ∀ event ∈ pool.history, ∀ payload, event.call = .auth (.sign payload) →
      ∃ account ∈ accounts pool.world.db, account.payload = payload :=
  ⟨extends_of_reaches h, fun _ hevent _ hsign => signed_of_reaches h hevent hsign⟩

theorem signed_demo : (⟨false, .auth (.sign Demo.payload), .ok "token of u1"⟩ :
    Event Bool Call Answer Auth.Fault) ∈ Demo.loggedIn.history :=
  List.mem_of_getElem? (i := 6) rfl

theorem privileges_kept_loggedIn :
    ∃ account ∈ accounts Demo.loggedIn.world.db, account.payload = Demo.payload := by
  have hreaches : Pool.Reaches (serve Demo.env) Pool.unguarded
      (Requests.start Demo.env Demo.first Demo.requests) Demo.loggedIn :=
    Pool.reaches_of_follows .refl (Pool.follows_unguarded _)
  exact (privileges_kept Demo.env Demo.first Demo.requests Demo.loggedIn hreaches).2 _ signed_demo _ rfl

omit [DecidableEq Tid] in
-- Of the two kinds of tokens only the sessions are for access.
theorem session_of_issued {history : History Tid} {token : String} {now : ℤ} {claims : JwtClaims}
    (hissued : Issued env .privateKey history token)
    (hverify : env.jwtVerify .privateKey now token = some claims)
    (haccess : claims.purpose = none ∨ claims.purpose = some JwtTokenAdapter.PURPOSE_ACCESS) :
    ∃ issuer payload issuedAt, ⟨issuer, .auth (.sign payload), .ok token⟩ ∈ history ∧
      claims = JwtTokenAdapter.accessClaims env issuedAt payload := by
  rcases hissued now claims hverify with hsession | ⟨_, _, _, _, rfl⟩
  · exact hsession
  · simp [JwtTokenAdapter.challengeClaims, JwtTokenAdapter.PURPOSE_MFA,
      JwtTokenAdapter.PURPOSE_ACCESS] at haccess

theorem claims_of_verify {now : ℤ} {token : String} {user : VerifiedToken}
    (h : Rs256PublicKeyVerifier.verify env now token = .ok user) :
    ∃ claims, env.jwtVerify .privateKey now token = some claims ∧
      (claims.purpose = none ∨ claims.purpose = some JwtTokenAdapter.PURPOSE_ACCESS) ∧
      user = { sub := claims.sub, email := claims.email, role := claims.role } := by
  unfold Rs256PublicKeyVerifier.verify at h
  split at h
  · cases h
  next claims hclaims =>
    split at h
    · cases h
    next hpurpose =>
      refine ⟨claims, hclaims, ?_, (Except.ok.inj h).symm⟩
      rwa [not_and_or, not_not, not_not] at hpurpose

-- An administrator whose session was issued was one from the start.
theorem admin_of_session
    (h : Pool.Reaches (serve env) guard (Requests.start env first requests) pool) {issuer : Tid}
    {payload : AuthTokenPayload} {token : String}
    (hsign : ⟨issuer, .auth (.sign payload), .ok token⟩ ∈ pool.history) (hadmin : payload.role = .ADMIN) :
    ∃ account ∈ accounts first.db, account.role = .ADMIN ∧ account.payload = payload := by
  obtain ⟨account, hm, rfl⟩ := signed_of_reaches h hsign rfl
  obtain ⟨added, hadded, husers⟩ := extends_of_reaches h
  rw [hadded] at hm
  rcases List.mem_append.mp hm with hm | hm
  · exact ⟨account, hm, hadmin, rfl⟩
  · exact absurd ((husers account hm).symm.trans hadmin) (by decide)

theorem admitted_of_roles {verified user : VerifiedToken}
    (h : (RolesGuard.canActivate [.ADMIN] verified).map (fun _ => verified) = .ok user) :
    verified.role = some .ADMIN ∧ verified = user := by
  by_cases hrole : verified.role = some .ADMIN
  · simp only [RolesGuard.canActivate, hrole, List.map_cons, List.map_nil, List.mem_singleton,
      if_true, if_neg (List.cons_ne_nil _ _)] at h
    exact ⟨hrole, Except.ok.inj h⟩
  · simp only [RolesGuard.canActivate, hrole, List.map_cons, List.map_nil, List.mem_singleton,
      if_false, if_neg (List.cons_ne_nil _ _)] at h
    cases h

theorem verify_of_adminRoute {now : ℤ} {authorization : Option String} {user : VerifiedToken}
    (h : adminRoute env now authorization = .ok user) :
    ∃ token, bearer authorization = some token ∧
      Rs256PublicKeyVerifier.verify env now token = .ok user ∧ user.role = some .ADMIN := by
  unfold adminRoute JwtAuthGuard.canActivate at h
  cases hbearer : bearer authorization with
  | none =>
      rw [hbearer] at h
      cases h
  | some token =>
      cases hverify : Rs256PublicKeyVerifier.verify env now token with
      | error fault =>
          simp only [hbearer, hverify] at h
          cases h
      | ok verified =>
          simp only [hbearer, hverify] at h
          obtain ⟨hrole, huser⟩ := admitted_of_roles h
          exact ⟨token, rfl, by rw [hverify, huser], huser ▸ hrole⟩

theorem claims_of_isAdmin {now : ℤ} {authorization : Option String}
    (h : isAdmin env now authorization = true) :
    ∃ token claims, bearer authorization = some token ∧
      env.jwtVerify .privateKey now token = some claims ∧ claims.role = some .ADMIN ∧
        (claims.purpose = none ∨ claims.purpose = some JwtTokenAdapter.PURPOSE_ACCESS) := by
  unfold isAdmin at h
  cases hbearer : bearer authorization with
  | none => simp [hbearer] at h
  | some token =>
      cases hclaims : env.jwtVerify .privateKey now token with
      | none => simp [hbearer, hclaims] at h
      | some claims =>
          simp only [hbearer, hclaims, Bool.and_eq_true, decide_eq_true_eq, Bool.or_eq_true] at h
          exact ⟨token, claims, rfl, hclaims, h.1, h.2⟩

theorem claims_of_handshake {now : ℤ} {token : Option String} {text : String}
    {user : Realtime.AuthenticatedUser}
    (h : Realtime.Nsp.handshake (realtimeVerify env now) token = .ok (text, user)) :
    ∃ claims, env.jwtVerify .privateKey now text = some claims ∧
      (claims.purpose = none ∨ claims.purpose = some JwtTokenAdapter.PURPOSE_ACCESS) ∧
      user.sub = claims.sub.getD "" ∧ user.role = realtimeRole (claims.role.getD .USER) := by
  have hverify := Realtime.verify_of_handshake h
  unfold Realtime.verify realtimeVerify at hverify
  cases hclaims : env.jwtVerify .privateKey now text with
  | none =>
      rw [hclaims] at hverify
      cases hverify
  | some claims =>
      rw [hclaims] at hverify
      by_cases hpurpose : claims.purpose ≠ none ∧ claims.purpose ≠ some Realtime.PURPOSE_ACCESS
      · change (if _ then _ else _) = _ at hverify
        rw [if_pos hpurpose] at hverify
        cases hverify
      · change (if _ then _ else _) = _ at hverify
        rw [if_neg hpurpose] at hverify
        rw [not_and_or, not_not, not_not] at hpurpose
        cases hverify
        exact ⟨claims, rfl, hpurpose, rfl, rfl⟩

theorem admin_of_realtimeRole {role : Option Auth.Role}
    (h : realtimeRole (role.getD .USER) = .ADMIN) : role = some .ADMIN := by
  rcases role with _ | _ | _
  · cases h
  · cases h
  · rfl

theorem role_of_adminRoom {id : Realtime.Sid} {token : String} {user : Realtime.AuthenticatedUser}
    (h : Realtime.ADMIN_ROOM ∈ (Realtime.Socket.onConnection id token user).rooms) :
    user.role = .ADMIN := by
  rcases Realtime.mem_rooms_onConnection h with h | h | ⟨-, h⟩
  · exact absurd h.symm id.ne_ADMIN_ROOM
  · exact absurd h.symm (Realtime.userRoom_ne_ADMIN_ROOM _)
  · exact h

theorem adminSession_of_claims
    (h : Pool.Reaches (serve env) Pool.unguarded (Requests.start env first requests) pool)
    {now : ℤ} {token : String} (hissued : Issued env .privateKey pool.history token)
    {claims : JwtClaims} (hclaims : env.jwtVerify .privateKey now token = some claims)
    (hpurpose : claims.purpose = none ∨ claims.purpose = some JwtTokenAdapter.PURPOSE_ACCESS)
    (hrole : claims.role = some .ADMIN) : ∃ account, AdminSession first.db pool.history token account ∧
      claims.sub = some account.id ∧ claims.email = some account.email := by
  obtain ⟨issuer, payload, issuedAt, hsign, rfl⟩ := session_of_issued hissued hclaims hpurpose
  obtain ⟨account, hm, hadmin, rfl⟩ := admin_of_session h hsign (Option.some.inj hrole)
  exact ⟨account, ⟨hm, hadmin, issuer, hsign⟩, rfl, rfl⟩

-- The purpose of a challenge is that of no session.
theorem purpose_challengeClaims (env : Environment) (issuedAt : ℤ) (userId : Id) :
    ¬((JwtTokenAdapter.challengeClaims env issuedAt userId).purpose = none ∨
      (JwtTokenAdapter.challengeClaims env issuedAt userId).purpose =
        some JwtTokenAdapter.PURPOSE_ACCESS) := by
  simp [JwtTokenAdapter.challengeClaims, JwtTokenAdapter.PURPOSE_MFA,
    JwtTokenAdapter.PURPOSE_ACCESS]

-- A route for administrators, the history of the audit and the room of the
-- administrators open for sessions of accounts that were administrators from the
-- start, and none of them opens for a challenge.
theorem admins_were_admins (env : Environment) (first : Auth.World) (requests : Tid → HttpRequest)
    (pool : Requests Tid)
    (h : Pool.Reaches (serve env) Pool.unguarded (Requests.start env first requests) pool)
    (now : ℤ) (token : String) (hissued : Issued env .privateKey pool.history token)
    (authorization : Option String) (hbearer : bearer authorization = some token) :
    (∀ user, adminRoute env now authorization = .ok user →
      ∃ account, AdminSession first.db pool.history token account ∧
        user.sub = some account.id ∧ user.email = some account.email) ∧
    (isAdmin env now authorization = true →
      ∃ account, AdminSession first.db pool.history token account) ∧
    (∀ id user, Realtime.Nsp.handshake (realtimeVerify env now) (some token) = .ok (token, user) →
      Realtime.ADMIN_ROOM ∈ (Realtime.Socket.onConnection id token user).rooms →
        ∃ account, AdminSession first.db pool.history token account ∧ user.sub = account.id) ∧
    ∀ issuedAt userId, env.jwtVerify .privateKey now token =
        some (JwtTokenAdapter.challengeClaims env issuedAt userId) →
      (∀ user, adminRoute env now authorization ≠ .ok user) ∧
        isAdmin env now authorization = false ∧
          ∀ user, Realtime.Nsp.handshake (realtimeVerify env now) (some token) ≠ .ok (token, user) := by
  have hroute : ∀ user, adminRoute env now authorization = .ok user →
      ∃ claims, env.jwtVerify .privateKey now token = some claims ∧
        (claims.purpose = none ∨ claims.purpose = some JwtTokenAdapter.PURPOSE_ACCESS) ∧
          claims.role = some .ADMIN ∧ user.sub = claims.sub ∧ user.email = claims.email := by
    intro user hroute
    obtain ⟨token', hbearer', hverify, hrole⟩ := verify_of_adminRoute hroute
    cases Option.some.inj (hbearer.symm.trans hbearer')
    obtain ⟨claims, hclaims, hpurpose, rfl⟩ := claims_of_verify hverify
    exact ⟨claims, hclaims, hpurpose, hrole, rfl, rfl⟩
  have haudit : isAdmin env now authorization = true →
      ∃ claims, env.jwtVerify .privateKey now token = some claims ∧
        (claims.purpose = none ∨ claims.purpose = some JwtTokenAdapter.PURPOSE_ACCESS) ∧
          claims.role = some .ADMIN := by
    intro hadmin
    obtain ⟨token', claims, hbearer', hclaims, hrole, hpurpose⟩ := claims_of_isAdmin hadmin
    cases Option.some.inj (hbearer.symm.trans hbearer')
    exact ⟨claims, hclaims, hpurpose, hrole⟩
  refine ⟨fun user hadmin => ?_, fun hadmin => ?_, fun id user hhandshake hroom => ?_,
    fun issuedAt userId hchallenge => ⟨fun user hadmin => ?_, ?_, fun user hhandshake => ?_⟩⟩
  · obtain ⟨claims, hclaims, hpurpose, hrole, hsub, hemail⟩ := hroute user hadmin
    obtain ⟨account, hsession, hid, hmail⟩ := adminSession_of_claims h hissued hclaims hpurpose hrole
    exact ⟨account, hsession, hsub.trans hid, hemail.trans hmail⟩
  · obtain ⟨claims, hclaims, hpurpose, hrole⟩ := haudit hadmin
    obtain ⟨account, hsession, -⟩ := adminSession_of_claims h hissued hclaims hpurpose hrole
    exact ⟨account, hsession⟩
  · obtain ⟨claims, hclaims, hpurpose, hsub, hrole⟩ := claims_of_handshake hhandshake
    have hadmin := admin_of_realtimeRole (hrole.symm.trans (role_of_adminRoom hroom))
    obtain ⟨account, hsession, hid, -⟩ := adminSession_of_claims h hissued hclaims hpurpose hadmin
    exact ⟨account, hsession, by rw [hsub, hid, Option.getD_some]⟩
  · obtain ⟨claims, hclaims, hpurpose, -⟩ := hroute user hadmin
    cases Option.some.inj (hclaims.symm.trans hchallenge)
    exact purpose_challengeClaims env issuedAt userId hpurpose
  · refine Bool.eq_false_of_not_eq_true fun hadmin => ?_
    obtain ⟨claims, hclaims, hpurpose, -⟩ := haudit hadmin
    cases Option.some.inj (hclaims.symm.trans hchallenge)
    exact purpose_challengeClaims env issuedAt userId hpurpose
  · obtain ⟨claims, hclaims, hpurpose, -⟩ := claims_of_handshake hhandshake
    cases Option.some.inj (hclaims.symm.trans hchallenge)
    exact purpose_challengeClaims env issuedAt userId hpurpose

omit [DecidableEq Tid] in
theorem issued_demo {key : SigningKey} {history : History Tid} (issuer : Tid)
    (hsign : ⟨issuer, .auth (.sign Demo.payload), .ok "token of u1"⟩ ∈ history) (token : String) :
    Issued Demo.env key history token := by
  intro now claims hclaims
  dsimp only [Demo.env] at hclaims
  split at hclaims
  next h =>
    cases hclaims
    rw [h.2.1]
    exact .inl ⟨issuer, Demo.payload, 3000000, hsign, rfl⟩
  next => cases hclaims

theorem admins_were_admins_loggedIn :
    ∃ account, AdminSession Demo.first.db Demo.loggedIn.history "token of u1" account ∧
      some "u1" = some account.id ∧ some "ana@parking.com" = some account.email :=
  (admins_were_admins Demo.env Demo.first Demo.requests Demo.loggedIn
    (Pool.reaches_of_follows .refl (Pool.follows_unguarded _)) 3500000 "token of u1"
    (issued_demo false signed_demo _) Demo.authorization rfl).1
      { sub := some "u1", email := some "ana@parking.com", role := some .ADMIN } rfl

-- What the guard puts on record: the tokens that were verified were issued before.
def Recorded (event : Event Tid Call Answer Auth.Fault) (earlier : History Tid) : Prop :=
  match event with
  | ⟨_, .verify token, .ok user⟩ =>
      ∃ issuer payload, ⟨issuer, .auth (.sign payload), .ok token⟩ ∈ earlier ∧
        user.sub = some payload.sub
  | ⟨_, .auth (.verifyMfaChallenge token), .ok userId⟩ =>
      ∃ issuer, ⟨issuer, .auth (.signMfaChallenge userId), .ok token⟩ ∈ earlier
  | _ => True

omit [DecidableEq Tid] in
theorem challenge_of_issued {history : History Tid} {token : String} {now : ℤ} {userId : Id}
    (hissued : Issued env .mfaSecret history token)
    (h : JwtTokenAdapter.verifyMfaChallenge env now token = .ok userId) :
    ∃ issuer, ⟨issuer, .auth (.signMfaChallenge userId), .ok token⟩ ∈ history := by
  unfold JwtTokenAdapter.verifyMfaChallenge at h
  cases hclaims : env.jwtVerify .mfaSecret now token with
  | none =>
      rw [hclaims] at h
      cases h
  | some claims =>
      rw [hclaims] at h
      rcases hissued now claims hclaims with
        ⟨_, payload, issuedAt, _, rfl⟩ | ⟨issuer, sub, issuedAt, hsign, rfl⟩
      · simp [JwtTokenAdapter.accessClaims, JwtTokenAdapter.PURPOSE_MFA,
          JwtTokenAdapter.PURPOSE_ACCESS] at h
      · simp [JwtTokenAdapter.challengeClaims] at h
        exact ⟨issuer, h ▸ hsign⟩

omit [DecidableEq Tid] in
theorem recorded_of_presented {world : Auth.World} {history : History Tid} {thread : Tid}
    {call : Call} {choice : Choice} (hguard : presented env world history thread call choice) :
    Recorded ⟨thread, call, (serve env choice world call).1⟩ history := by
  cases call with
  | verify token =>
      cases hverify : Rs256PublicKeyVerifier.verify env (world.clock + choice.auth.elapsed) token with
      | error fault =>
          simp only [serve, hverify]
          trivial
      | ok user =>
          obtain ⟨claims, hclaims, hpurpose, rfl⟩ := claims_of_verify hverify
          obtain ⟨issuer, payload, issuedAt, hsign, rfl⟩ := session_of_issued hguard hclaims hpurpose
          simp only [serve, hverify]
          exact ⟨issuer, payload, hsign, rfl⟩
  | auth call =>
      cases call with
      | verifyMfaChallenge token =>
          cases hverify : JwtTokenAdapter.verifyMfaChallenge env
              (world.clock + choice.auth.elapsed) token with
          | error fault =>
              simp only [serve, Auth.serve, Auth.query, hverify]
              trivial
          | ok userId =>
              simp only [serve, Auth.serve, Auth.query, hverify]
              exact challenge_of_issued hguard hverify
      | _ => trivial
  | _ => trivial

omit [DecidableEq Tid] in
theorem verified_of_owner {event : Event Tid Call Answer Auth.Fault} {userId : Id}
    (h : .owner userId ∈ rules.teaches event.call event.answer) :
    ∃ token user, event = ⟨event.thread, .verify token, .ok user⟩ ∧
      userId = VerifiedToken.userId user := by
  obtain ⟨thread, call, answer⟩ := event
  cases call with
  | verify token =>
      cases answer with
      | error fault => exact h.elim
      | ok user => exact ⟨token, user, rfl, Fact.owner.inj (Set.mem_singleton_iff.mp h)⟩
  | auth call =>
      cases call with
      | findById id => rcases answer with fault | (_ | user) <;> cases h
      | findByEmail email => rcases answer with fault | (_ | user) <;> cases h
      | create data => rcases answer with fault | user <;> cases h
      | verifyMfaChallenge token => rcases answer with fault | userId <;> cases h
      | _ => exact h.elim
  | _ => exact h.elim

omit [DecidableEq Tid] in
theorem verified_of_challenged {event : Event Tid Call Answer Auth.Fault} {userId : Id}
    (h : .challenged userId ∈ rules.teaches event.call event.answer) :
    ∃ token, event = ⟨event.thread, .auth (.verifyMfaChallenge token), .ok userId⟩ := by
  obtain ⟨thread, call, answer⟩ := event
  cases call with
  | verify token => rcases answer with fault | user <;> cases h
  | auth call =>
      cases call with
      | findById id => rcases answer with fault | (_ | user) <;> cases h
      | findByEmail email => rcases answer with fault | (_ | user) <;> cases h
      | create data => rcases answer with fault | user <;> cases h
      | verifyMfaChallenge token =>
          cases answer with
          | error fault => exact h.elim
          | ok sub =>
              cases Set.mem_singleton_iff.mp h
              exact ⟨token, rfl⟩
      | _ => exact h.elim
  | _ => exact h.elim

-- A write to the second factor of a user is made by a request that was shown a
-- session of that user, or a challenge when it only consumes a code, and the one it
-- was shown had been issued to that user before.
theorem second_factor_owned (env : Environment) (first : Auth.World) (requests : Tid → HttpRequest)
    (pool : Requests Tid)
    (h : Pool.Reaches (serve env) (presented env) (Requests.start env first requests) pool)
    (later earlier : History Tid) (thread : Tid) (userId : Id) (patch : MfaCredentialsPatch)
    (answer : Except Auth.Fault Unit)
    (hhistory : pool.history = later ++ ⟨thread, .auth (.updateMfa userId patch), answer⟩ :: earlier) :
    (∃ token user before, (⟨thread, .verify token, .ok user⟩ :: before) <:+ earlier ∧
      ∃ issuer payload, ⟨issuer, .auth (.sign payload), .ok token⟩ ∈ before ∧
        payload.sub = userId) ∨
    patch.Consumes ∧ ∃ token before,
      (⟨thread, .auth (.verifyMfaChallenge token), .ok userId⟩ :: before) <:+ earlier ∧
        ∃ issuer, ⟨issuer, .auth (.signMfaChallenge userId), .ok token⟩ ∈ before := by
  have hpermitted := permitted_of_reaches h
  have hrecorded : Along Recorded pool.history := h.along rfl fun _ _ _ _ _ => recorded_of_presented
  rw [hhistory] at hpermitted hrecorded
  have hearlier : Along Recorded earlier := hrecorded.of_append.2
  rcases hpermitted.of_append.1 with hfact | ⟨hconsumes, hfact⟩
  · obtain ⟨event, hm, rfl, htaught⟩ := hfact
    obtain ⟨token, user, hevent, rfl⟩ := verified_of_owner htaught
    obtain ⟨_, before, hsplit, hrecord⟩ := hearlier.mem hm
    rw [hevent] at hrecord hsplit
    obtain ⟨issuer, payload, hsign, hsub⟩ := hrecord
    exact .inl ⟨token, user, before, ⟨_, hsplit.symm⟩, issuer, payload, hsign,
      by simp [VerifiedToken.userId, hsub]⟩
  · obtain ⟨event, hm, rfl, htaught⟩ := hfact
    obtain ⟨token, hevent⟩ := verified_of_challenged htaught
    obtain ⟨_, before, hsplit, hrecord⟩ := hearlier.mem hm
    rw [hevent] at hrecord hsplit
    exact .inr ⟨hconsumes, token, before, ⟨_, hsplit.symm⟩, hrecord⟩

theorem presented_demo : (Requests.start Demo.env Demo.first Demo.requests).Follows (serve Demo.env)
    (presented Demo.env) (Demo.schedule ++ [Demo.turn true]) := by
  refine ⟨trivial, trivial, trivial, trivial, trivial, ?_, trivial, trivial, trivial, trivial,
    trivial, trivial⟩
  exact issued_demo false (List.mem_of_getElem? (i := 1) rfl) "token of u1"

theorem second_factor_owned_setup : ∃ token user before,
    (⟨true, .verify token, .ok user⟩ :: before) <:+ Demo.loggedIn.history ∧
      ∃ issuer payload, ⟨issuer, .auth (.sign payload), .ok token⟩ ∈ before ∧
        payload.sub = "u1" := by
  have h := second_factor_owned Demo.env Demo.first Demo.requests _
    (Pool.reaches_of_follows .refl presented_demo) [] Demo.loggedIn.history true "u1" _ (.ok ()) rfl
  rcases h with h | ⟨hconsumes, -⟩
  · exact h
  · exact absurd hconsumes.1 (by decide)

end Runs

end SmartParking.Gateway
