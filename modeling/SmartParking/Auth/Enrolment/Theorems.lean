import SmartParking.Auth.Enrolment
import SmartParking.Auth.Specs

namespace SmartParking.Auth

open Async Program

variable {Tid : Type} {env : Environment} {operations : Tid → Operation} {userId : Id}
  {db : Database} {history : History Tid} {thread : Tid} {choice : Choice} {now : ℤ}

theorem Confirmed.cons {totpSecretEnc : String}
    (h : Confirmed operations userId history totpSecretEnc) (event : Event Tid Call Answer Fault) :
    Confirmed operations userId (event :: history) totpSecretEnc := by
  obtain ⟨thread, code, secret, step, hop, hdecrypt, hverify⟩ := h
  exact ⟨thread, code, secret, step, hop, List.mem_cons_of_mem _ hdecrypt,
    List.mem_cons_of_mem _ hverify⟩

theorem switchedOn_cons {call : Call} (h : ∀ patch, call ≠ .updateMfa userId patch)
    (answer : Except Fault (Answer call)) :
    SwitchedOn operations userId (⟨thread, call, answer⟩ :: history) ↔
      SwitchedOn operations userId history := by
  cases call with
  | updateMfa id patch =>
      cases answer with
      | ok value =>
          have hid : id ≠ userId := fun hid => h patch (hid ▸ rfl)
          simp only [SwitchedOn, if_neg hid]
      | error err => rfl
  | _ => rfl

-- A call that is no update of the user.
theorem Consistent.other (h : Consistent operations userId db history) {call : Call}
    (hcall : ∀ patch, call ≠ .updateMfa userId patch) :
    Consistent operations userId (query env choice now db call).2
      (⟨thread, call, (query env choice now db call).1⟩ :: history) where
  producible := by
    rw [credentials_query hcall]
    intro henabled
    obtain ⟨totpSecretEnc, hstored, hconfirmed⟩ := h.producible henabled
    exact ⟨totpSecretEnc, hstored, hconfirmed.cons _⟩
  kept := by
    rw [credentials_query hcall, switchedOn_cons hcall]
    exact h.kept

-- An update of the user, which a failure leaves out.
theorem Consistent.update (h : Consistent operations userId db history) (env : Environment)
    (choice : Choice) (now : ℤ) {patch : MfaCredentialsPatch}
    (hpatch : ∀ db', credentials db' userId = (credentials db userId).patch patch →
      Consistent operations userId db' (⟨thread, .updateMfa userId patch, .ok ()⟩ :: history)) :
    Consistent operations userId (query env choice now db (.updateMfa userId patch)).2
      (⟨thread, .updateMfa userId patch, (query env choice now db (.updateMfa userId patch)).1⟩ ::
        history) := by
  rcases updateMfa_cases env choice now db userId patch with ⟨db', hq, hdb⟩ | ⟨err, hq, -⟩
  · rw [hq]
    exact hpatch db' ((hdb userId).trans (if_pos rfl))
  · rw [hq]
    refine ⟨fun henabled => ?_, h.kept⟩
    obtain ⟨totpSecretEnc, hstored, hconfirmed⟩ := h.producible henabled
    exact ⟨totpSecretEnc, hstored, hconfirmed.cons _⟩

-- What the writes of the four operations do, when they succeed.

theorem Consistent.consumes (h : Consistent operations userId db history)
    {patch : MfaCredentialsPatch} (hpatch : patch.Consumes) {db' : Database}
    (hdb : credentials db' userId = (credentials db userId).patch patch) {input : VerifyMfaInput}
    (hop : operations thread = .VerifyMfa input) :
    Consistent operations userId db' (⟨thread, .updateMfa userId patch, .ok ()⟩ :: history) := by
  have henabled : (credentials db' userId).enabled = (credentials db userId).enabled := by
    rw [hdb, MfaCredentials.patch, hpatch.1]
    rfl
  have hsecret : (credentials db' userId).totpSecretEnc = (credentials db userId).totpSecretEnc := by
    rw [hdb, MfaCredentials.patch, hpatch.2]
    rfl
  constructor
  · rw [henabled, hsecret]
    intro he
    obtain ⟨totpSecretEnc, hstored, hconfirmed⟩ := h.producible he
    exact ⟨totpSecretEnc, hstored, hconfirmed.cons _⟩
  · simp only [SwitchedOn, if_true, hop, henabled]
    exact h.kept

-- A user who is not enabled afterwards has nothing to produce.
theorem Consistent.off {patch : MfaCredentialsPatch} (hpatch : patch.enabled = some false)
    {db' : Database} (hdb : credentials db' userId = (credentials db userId).patch patch)
    (hoff : ¬SwitchedOn operations userId (⟨thread, .updateMfa userId patch, .ok ()⟩ :: history)) :
    Consistent operations userId db' (⟨thread, .updateMfa userId patch, .ok ()⟩ :: history) where
  producible henabled := by
    rw [hdb, MfaCredentials.patch, hpatch] at henabled
    cases henabled
  kept hon := absurd hon hoff

theorem Consistent.confirms {patch : MfaCredentialsPatch} (henabled : patch.enabled = some true)
    (hkeeps : patch.totpSecretEnc = none) {db' : Database}
    (hdb : credentials db' userId = (credentials db userId).patch patch) {totpSecretEnc : String}
    (hstored : (credentials db userId).totpSecretEnc = some totpSecretEnc)
    (hconfirmed : Confirmed operations userId history totpSecretEnc) :
    Consistent operations userId db' (⟨thread, .updateMfa userId patch, .ok ()⟩ :: history) where
  producible _ := by
    refine ⟨totpSecretEnc, ?_, hconfirmed.cons _⟩
    rw [hdb, MfaCredentials.patch, hkeeps]
    exact hstored
  kept _ := by rw [hdb, MfaCredentials.patch, henabled]; rfl

-- The ghost of an execution is what it has done itself.
def Shared (operations : Tid → Operation) (userId : Id) (world : World) (history : History Tid)
    (ghosts : Tid → History Tid) : Prop :=
  Consistent operations userId world.db history ∧ ∀ thread, ∀ event ∈ ghosts thread, event ∈ history

variable [DecidableEq Tid]

abbrev Enrols (env : Environment) (operations : Tid → Operation) (userId : Id) (thread : Tid)
    {α : Type} (p : Port α) (ghost : History Tid) (post : Except Fault α → History Tid → Prop) :
    Prop :=
  Safe (serve env) (Undisturbed operations userId) (Shared operations userId) thread p ghost post

abbrev QuietCall (env : Environment) (operations : Tid → Operation) (userId : Id) (thread : Tid)
    (call : Call) : Prop :=
  Quiet (serve env) (Undisturbed operations userId) (Shared operations userId) thread call

omit [DecidableEq Tid] in
theorem quiet_other {call : Call} (hcall : ∀ patch, call ≠ .updateMfa userId patch) :
    QuietCall env operations userId thread call := by
  rintro world history ghosts choice ⟨h, hghosts⟩ -
  exact ⟨h.other hcall, fun thread event he => List.mem_cons_of_mem _ (hghosts thread event he)⟩

omit [DecidableEq Tid] in
theorem quiet_update {patch : MfaCredentialsPatch}
    (h : ∀ world history choice db', Consistent operations userId world.db history →
      Undisturbed operations userId world history thread (.updateMfa userId patch) choice →
      credentials db' userId = (credentials world.db userId).patch patch →
      Consistent operations userId db' (⟨thread, .updateMfa userId patch, .ok ()⟩ :: history)) :
    QuietCall env operations userId thread (.updateMfa userId patch) := by
  rintro world history ghosts choice ⟨hc, hghosts⟩ hguard
  refine ⟨hc.update env choice (world.clock + choice.elapsed) fun db' hdb =>
    h world history choice db' hc hguard hdb, ?_⟩
  exact fun thread event he => List.mem_cons_of_mem _ (hghosts thread event he)

-- The calls of an operation are quiet, if its updates of the user are.
omit [DecidableEq Tid] in
theorem quiet_of_onlyPatches {allowed : MfaCredentialsPatch → Prop}
    (h : ∀ patch, allowed patch →
      QuietCall env operations userId thread (.updateMfa userId patch))
    (call : Call) (hcall : call.OnlyPatches allowed) :
    QuietCall env operations userId thread call := by
  by_cases hupdate : ∃ patch, call = .updateMfa userId patch
  · obtain ⟨patch, rfl⟩ := hupdate
    exact h patch hcall
  · exact quiet_other fun patch hp => hupdate ⟨patch, hp⟩

theorem enrols_of_uses {allowed : MfaCredentialsPatch → Prop} {α : Type} {p : Port α}
    (hp : p.Uses (Call.OnlyPatches allowed))
    (h : ∀ patch, allowed patch → QuietCall env operations userId thread (.updateMfa userId patch))
    (ghost : History Tid) :
    Enrols env operations userId thread p ghost fun _ ghost' => ghost' = ghost :=
  safe_of_quiet (quiet_of_onlyPatches h) hp ghost

omit [DecidableEq Tid] in
theorem quiet_verify {input : VerifyMfaInput} (hop : operations thread = .VerifyMfa input)
    (patch : MfaCredentialsPatch) (hpatch : patch.Consumes) :
    QuietCall env operations userId thread (.updateMfa userId patch) :=
  quiet_update fun _ _ _ _ h _ hdb => h.consumes hpatch hdb hop

omit [DecidableEq Tid] in
theorem quiet_disable {input : DisableMfaInput} (hop : operations thread = .DisableMfa input)
    (patch : MfaCredentialsPatch) (hpatch : patch.enabled = some false) :
    QuietCall env operations userId thread (.updateMfa userId patch) := by
  refine quiet_update fun world history choice db' _ _ hdb => Consistent.off hpatch hdb ?_
  simp only [SwitchedOn, if_true, hop, not_false_iff]

omit [DecidableEq Tid] in
theorem quiet_setup {input : SetupMfaInput} (hop : operations thread = .SetupMfa input)
    (patch : MfaCredentialsPatch) (hpatch : patch.enabled = some false) :
    QuietCall env operations userId thread (.updateMfa userId patch) := by
  refine quiet_update fun world history choice db' h hguard hdb => Consistent.off hpatch hdb ?_
  have hoff := hguard rfl
  rw [hop] at hoff
  change (credentials world.db userId).enabled = false at hoff
  simp only [SwitchedOn, if_true, hop]
  exact fun hon => absurd (h.kept hon) (by simp [hoff])

-- A call that is no update of the user joins the ghost.
theorem enrols_ask_bind {call : Call} {α : Type} {f : Answer call → Port α}
    {ghost : History Tid} {post : Except Fault α → History Tid → Prop}
    (hcall : ∀ patch, call ≠ .updateMfa userId patch)
    (hok : ∀ value, Enrols env operations userId thread (f value)
      (⟨thread, call, .ok value⟩ :: ghost) post)
    (herr : ∀ err ghost', post (.error err) ghost') :
    Enrols env operations userId thread (ask call >>= f) ghost post := by
  refine safe_perform_bind fun world history ghosts choice hghost hinv _ => ?_
  obtain ⟨h, hghosts⟩ := hinv
  refine ⟨⟨thread, call, (serve env choice world call).1⟩ :: ghost, ⟨h.other hcall, ?_⟩, ?_⟩
  · intro other event he
    by_cases ho : other = thread
    · subst ho
      rw [Function.update_self] at he
      rcases List.mem_cons.mp he with rfl | he
      · exact List.mem_cons_self
      · exact List.mem_cons_of_mem _ (hghosts other event (hghost ▸ he))
    · rw [Function.update_of_ne ho] at he
      exact List.mem_cons_of_mem _ (hghosts other event he)
  · cases (serve env choice world call).1 with
    | ok value => exact hok value
    | error err => exact herr err _

-- The confirmation, which is the one that enables.

theorem enrols_bind_reads {α β : Type} {p : Port α} (hp : p.Uses (Call.OnlyPatches fun _ => False))
    {f : α → Port β} {ghost : History Tid}
    (hf : ∀ value, Enrols env operations userId thread (f value) ghost fun _ _ => True) :
    Enrols env operations userId thread (p >>= f) ghost fun _ _ => True := by
  refine safe_bind (fun _ ghost' => ghost' = ghost)
    (safe_mono (enrols_of_uses hp (fun _ h => h.elim) ghost) fun result _ h => ?_) ?_
  · cases result with
    | ok value => exact h
    | error err => trivial
  · intro value ghost' h
    exact h ▸ hf value

theorem enrols_enable {code : String} {step : ℤ} {secret totpSecretEnc : String}
    {found : MfaCredentials} {ghost : History Tid}
    (hop : operations thread = .ConfirmMfa { userId, code })
    (hfound : found.totpSecretEnc = some totpSecretEnc)
    (hread : ⟨thread, .findMfaCredentials userId, .ok (some found)⟩ ∈ ghost)
    (hdecrypt : ⟨thread, .decrypt totpSecretEnc, .ok secret⟩ ∈ ghost)
    (hverify : ⟨thread, .totpVerify secret code, .ok (some step)⟩ ∈ ghost) :
    Enrols env operations userId thread (ConfirmMfaUseCase.enable userId step) ghost
      fun _ _ => True := by
  refine enrols_bind_reads (uses_generateBackupCodes trivial _) fun backupCodes => ?_
  refine enrols_bind_reads (uses_hashAll (fun _ => trivial) _) fun backupCodeHashes => ?_
  refine safe_perform_bind fun world history ghosts choice hghost hinv hguard => ?_
  obtain ⟨h, hghosts⟩ := hinv
  have hpast := hghosts thread
  rw [hghost] at hpast
  have hstored : (credentials world.db userId).totpSecretEnc = found.totpSecretEnc := by
    have hfinds := hguard rfl
    rw [hop] at hfinds
    exact hfinds _ (hpast _ hread) rfl _ (by simp [readSecret])
  have hconfirmed : Confirmed operations userId history totpSecretEnc :=
    ⟨thread, code, secret, step, hop, hpast _ hdecrypt, hpast _ hverify⟩
  refine ⟨ghost, ⟨h.update env choice (world.clock + choice.elapsed) fun db' hdb => ?_, ?_⟩, ?_⟩
  · exact Consistent.confirms rfl rfl hdb (hstored.trans hfound) hconfirmed
  · rw [← hghost, Function.update_eq_self]
    exact fun other event he => List.mem_cons_of_mem _ (hghosts other event he)
  · unfold Onward
    split <;> trivial

theorem enrols_confirmMfa {input : ConfirmMfaInput} (hop : operations thread = .ConfirmMfa input)
    (hid : input.userId = userId) :
    Enrols env operations userId thread (ConfirmMfaUseCase.execute input) [] fun _ _ => True := by
  subst hid
  refine enrols_ask_bind (fun _ => nofun) (fun found => ?_) fun _ _ => trivial
  cases found with
  | none => trivial
  | some found =>
      dsimp only
      split
      next => trivial
      next totpSecretEnc hconfigured =>
        split
        next => trivial
        next =>
          have hfound : found.totpSecretEnc = some totpSecretEnc :=
            (Option.filter_eq_some_iff.mp hconfigured).1
          refine enrols_ask_bind (fun _ => nofun) (fun secret => ?_) fun _ _ => trivial
          refine enrols_ask_bind (fun _ => nofun) (fun step => ?_) fun _ _ => trivial
          cases step with
          | none => trivial
          | some step =>
              exact enrols_enable hop hfound (.tail _ (.tail _ (.head _))) (.tail _ (.head _))
                (.head _)

theorem enrols_of_spares {α : Type} {p : Port α} (hp : p.Uses (Call.Spares userId))
    (ghost : History Tid) :
    Enrols env operations userId thread p ghost fun _ _ => True :=
  safe_mono (safe_of_quiet (fun _ => quiet_other) hp ghost) fun _ _ _ => trivial

theorem enrols_map {α β : Type} {p : Port α} {ghost : History Tid}
    (hp : Enrols env operations userId thread p ghost fun _ _ => True) (f : α → β) :
    Enrols env operations userId thread (f <$> p) ghost fun _ _ => True := by
  refine safe_bind (fun _ _ => True) (safe_mono hp fun result _ _ => ?_) fun _ _ _ => trivial
  cases result <;> trivial

theorem enrols_execute (thread : Tid) :
    Enrols env operations userId thread ((operations thread).execute env) [] fun _ _ => True := by
  have hreads {α : Type} {p : Port α} (hp : p.Uses (Call.OnlyPatches fun _ => False)) :
      Enrols env operations userId thread p [] fun _ _ => True :=
    enrols_of_spares (hp.mono fun _ => spares_of_onlyPatches) []
  have hwrites {allowed : MfaCredentialsPatch → Prop} {α : Type} {p : Port α}
      (hp : p.Uses (Call.OnlyPatches allowed)) (h : ∀ patch, allowed patch →
        QuietCall env operations userId thread (.updateMfa userId patch)) :
      Enrols env operations userId thread p [] fun _ _ => True :=
    safe_mono (enrols_of_uses hp h []) fun _ _ _ => trivial
  cases hop : operations thread with
  | LoginUser input => exact enrols_map (hreads (uses_loginUser input)) _
  | LoginWithGoogle input => exact enrols_map (hreads (uses_loginWithGoogle input)) _
  | LoginWithFacebook input => exact enrols_map (hreads (uses_loginWithFacebook input)) _
  | SetupMfa input => exact enrols_map (hwrites (uses_setupMfa input) (quiet_setup hop)) _
  | ConfirmMfa input =>
      by_cases hid : input.userId = userId
      · exact enrols_map (enrols_confirmMfa hop hid) _
      · exact enrols_map (enrols_of_spares (spares_confirmMfa hid) []) _
  | VerifyMfa input => exact enrols_map (hwrites (uses_verifyMfa input) (quiet_verify hop)) _
  | DisableMfa input => exact enrols_map (hwrites (uses_disableMfa input) (quiet_disable hop)) _

-- In the runs whose writes are undisturbed, the state of a user who starts
-- without the second factor is consistent at every moment.
theorem consistent_of_follows (env : Environment) (operations : Tid → Operation) (userId : Id)
    (world : World) (hworld : (credentials world.db userId).enabled = false)
    (schedule : List (Tid × Choice))
    (h : (Requests.start env world operations).Follows (serve env)
      (Undisturbed operations userId) schedule) :
    Consistent operations userId
      ((Requests.start env world operations).play (serve env) schedule).world.db
      ((Requests.start env world operations).play (serve env) schedule).history := by
  have hstart : Shared operations userId world [] fun _ => [] :=
    ⟨⟨fun henabled => absurd (henabled.symm.trans hworld) (by decide), nofun⟩,
      fun _ _ h => absurd h List.not_mem_nil⟩
  have hreach := Pool.reaches_of_follows .refl h
  obtain ⟨ghosts, hinv, -⟩ := hreach.invariant (Shared operations userId) (fun _ _ _ => True)
    hstart enrols_execute
  exact hinv.1

-- The setup and the confirmation of a user, one after the other.
theorem consistent_of_follows_setup :
    let operations : Fin 2 → Operation
      | 0 => .SetupMfa { userId := "u1" }
      | 1 => .ConfirmMfa { userId := "u1", code := "000000" }
    let pool := (Requests.start Demo.env (Demo.world Demo.user) operations).play (serve Demo.env)
      (List.replicate 4 (0, Demo.choice "iv") ++ List.replicate 20 (1, Demo.choice "iv"))
    Consistent operations "u1" pool.world.db pool.history :=
  consistent_of_follows Demo.env _ "u1" (Demo.world Demo.user) (by decide +kernel) _
    (by decide +kernel)

-- Two confirmations of one setup, and a DisableMfa between the writes of the two.
theorem consistent_fails :
    ¬∀ (env : Environment) (operations : Fin 4 → Operation) (userId : Id) (world : World)
      (schedule : List (Fin 4 × Choice)), (credentials world.db userId).enabled = false →
        Consistent operations userId
          ((Requests.start env world operations).play (serve env) schedule).world.db
          ((Requests.start env world operations).play (serve env) schedule).history := by
  intro h
  let operations : Fin 4 → Operation
    | 0 => .SetupMfa { userId := "u1" }
    | 1 | 2 => .ConfirmMfa { userId := "u1", code := "000000" }
    | 3 => .DisableMfa { userId := "u1", code := "000000" }
  let late : Choice := { Demo.choice "iv" with elapsed := 30000 }
  have hdb := (h Demo.env operations "u1" (Demo.world Demo.user)
    (List.replicate 4 (0, Demo.choice "iv") ++ List.replicate 3 (1, Demo.choice "iv") ++
      List.replicate 20 (2, Demo.choice "iv") ++ List.replicate 4 (3, late) ++
        List.replicate 20 (1, Demo.choice "iv")) (by decide +kernel)).producible
    (by decide +kernel)
  obtain ⟨totpSecretEnc, hstored, -⟩ := hdb
  refine absurd hstored (ne_of_eq_of_ne (b := none) ?_ nofun)
  decide +kernel

end SmartParking.Auth
