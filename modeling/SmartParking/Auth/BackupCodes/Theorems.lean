import SmartParking.Auth.BackupCodes
import SmartParking.Auth.Specs
import Mathlib.Data.List.Induction

namespace SmartParking.Auth

open Async Program

variable {Tid : Type} [DecidableEq Tid] {env : Environment} {userId : Id}
  {inputs : Tid → VerifyMfaInput} {codes : List String} {hashOf : String → String}
  {history : History Tid} {thread : Tid} {world : World} {ghosts : Tid → Option (List String)}

-- The position that compare finds is that of the code.
theorem IdealHasher.eraseIdx (h : IdealHasher env codes hashOf) {copy : List String}
    (hcopy : copy.Sublist codes) {code : String} {index : ℕ} {hash : String}
    (hindex : (copy.map hashOf)[index]? = some hash) (hequal : env.compare code hash = true) :
    code ∈ copy ∧ (copy.map hashOf).eraseIdx index = (copy.erase code).map hashOf := by
  rw [List.getElem?_map, Option.map_eq_some_iff] at hindex
  obtain ⟨found, hfound, rfl⟩ := hindex
  obtain ⟨hlt, hfound⟩ := List.getElem?_eq_some_iff.mp hfound
  have hm : found ∈ copy := hfound ▸ List.getElem_mem hlt
  obtain rfl : code = found := (h.compare found (hcopy.subset hm) code).mp hequal
  refine ⟨hm, ?_⟩
  have hnodup : copy.Nodup := h.distinct.sublist hcopy
  rw [← hfound, hnodup.erase_getElem index hlt, List.eraseIdx_map]

-- Events that neither read nor write the list.

theorem removal_cons {event : Event Tid Call Answer Fault}
    (h : access env userId inputs event = none) :
    removal env userId inputs codes (event :: history) = removal env userId inputs codes history := by
  rw [removal, h]

theorem removal_cons_some {event : Event Tid Call Answer Fault}
    {found : Removal.Access Tid String} (h : access env userId inputs event = some found) :
    removal env userId inputs codes (event :: history) =
      (removal env userId inputs codes history).step found := by
  rw [removal, h]

omit [DecidableEq Tid] in
theorem consumption_eq (event : Event Tid Call Answer Fault) :
    consumption env userId inputs event = (access env userId inputs event).bind fun found =>
      match found with
      | .read _ => none
      | .write _ code => some code := by
  obtain ⟨other, call, answer⟩ := event
  cases call with
  | findMfaCredentials id =>
      rcases answer with err | (_ | found)
      · rfl
      · rfl
      · simp only [consumption, access]
        split <;> rfl
  | updateMfa id patch =>
      cases answer with
      | error err => rfl
      | ok value =>
          simp only [consumption, access]
          split <;> rfl
  | _ => rfl

theorem lookupOf_of_access {event : Event Tid Call Answer Fault}
    (h : ∀ other, access env userId inputs event ≠ some (.read other)) (thread : Tid) :
    lookupOf userId thread event = none := by
  obtain ⟨other, call, answer⟩ := event
  cases call with
  | findMfaCredentials id =>
      rcases answer with err | (_ | found)
      · rfl
      · rfl
      · refine if_neg fun hid => h other ?_
        exact if_pos hid.2
  | _ => rfl

omit [DecidableEq Tid] in
theorem writesCodes_of_access {event : Event Tid Call Answer Fault} {code : String}
    (h : access env userId inputs event = some (.write thread code)) :
    event.call.WritesCodes userId := by
  obtain ⟨other, call, answer⟩ := event
  cases call with
  | findMfaCredentials id => rcases answer with err | (_ | found) <;> simp [access] at h
  | updateMfa id patch =>
      cases answer with
      | error err => cases h
      | ok value =>
          have hif : id = userId ∧ patch.backupCodeHashes.isSome = true :=
            (Option.ite_none_right_eq_some.mp h).1
          exact hif
  | _ => cases h

-- A call that does not concern the list keeps the invariant.
theorem Simulates.quiet (h : Simulates env userId inputs codes hashOf world history ghosts)
    {world' : World} {event : Event Tid Call Answer Fault}
    (hevent : access env userId inputs event = none) (hcall : ¬event.call.WritesCodes userId)
    (hhashes : (credentials world'.db userId).backupCodeHashes =
      (credentials world.db userId).backupCodeHashes)
    (hpresent : (world.db.users.lookup userId).isSome → (world'.db.users.lookup userId).isSome) :
    Simulates env userId inputs codes hashOf world' (event :: history) ghosts where
  stored := by rw [hhashes, removal_cons hevent, h.stored]
  seen thread := by
    have hlook : ∀ other, access env userId inputs event ≠ some (.read other) := by simp [hevent]
    rw [Auth.seen, lookupOf_of_access hlook, Option.none_or, removal_cons hevent]
    exact h.seen thread
  ghost := by
    rw [removal_cons hevent]
    exact h.ghost
  within := by
    rw [removal_cons hevent]
    exact h.within
  copied := by
    rw [removal_cons hevent]
    exact fun thread copy hc => (h.copied thread copy hc).imp_right hpresent
  possible := ⟨by simp [hevent], h.possible⟩
  written := List.forall_mem_cons.mpr ⟨fun hw => absurd hw hcall, h.written⟩
  removed := by
    have hnone : consumption env userId inputs event = none := by rw [consumption_eq, hevent]; rfl
    rw [removal_cons hevent, h.removed, consumed, consumed, List.filterMap_cons_none hnone]

-- A lookup is remembered.
theorem Simulates.read (h : Simulates env userId inputs codes hashOf world history ghosts)
    {world' : World} {event : Event Tid Call Answer Fault}
    (hevent : access env userId inputs event = some (.read thread))
    (hlook : ∀ other, lookupOf userId other event = if thread = other then
      some (credentials world.db userId).backupCodeHashes else none)
    (hdb : world'.db = world.db) (hpresent : (world.db.users.lookup userId).isSome) :
    Simulates env userId inputs codes hashOf world' (event :: history)
      (Function.update ghosts thread (some (removal env userId inputs codes history).stored)) where
  stored := by
    rw [hdb, removal_cons_some hevent]
    exact h.stored
  seen other := by
    rw [Auth.seen, hlook, removal_cons_some hevent]
    by_cases ho : thread = other
    · subst ho
      simp [Removal.step, h.stored]
    · simpa [Removal.step, ho, Ne.symm ho] using h.seen other
  ghost other copy hc := by
    rw [removal_cons_some hevent]
    by_cases ho : other = thread
    · subst ho
      simpa [Removal.step] using hc
    · rw [Function.update_of_ne ho] at hc
      simpa [Removal.step, ho] using h.ghost other copy hc
  within := by
    rw [removal_cons_some hevent]
    exact h.within
  copied other copy hc := by
    rw [removal_cons_some hevent] at hc
    rw [hdb]
    by_cases ho : other = thread
    · subst ho
      obtain rfl : (removal env userId inputs codes history).stored = copy := by
        simpa [Removal.step] using hc
      exact ⟨h.within, hpresent⟩
    · exact h.copied other copy (by simpa [Removal.step, ho] using hc)
  possible := ⟨by simp [hevent, Removal.Possible], h.possible⟩
  written := List.forall_mem_cons.mpr ⟨fun _ => by simp [hevent], h.written⟩
  removed := by
    have hnone : consumption env userId inputs event = none := by rw [consumption_eq, hevent]; rfl
    rw [removal_cons_some hevent, consumed, List.filterMap_cons_none hnone]
    exact h.removed

-- The write of the list without a code.
theorem Simulates.write (h : Simulates env userId inputs codes hashOf world history ghosts)
    {world' : World} {event : Event Tid Call Answer Fault} {code : String} {copy : List String}
    (hevent : access env userId inputs event = some (.write thread code))
    (hcopy : copy ∈ (removal env userId inputs codes history).copies thread) (hcode : code ∈ copy)
    (hhashes : (credentials world'.db userId).backupCodeHashes = (copy.erase code).map hashOf)
    (hpresent : (world.db.users.lookup userId).isSome → (world'.db.users.lookup userId).isSome) :
    Simulates env userId inputs codes hashOf world' (event :: history) ghosts where
  stored := by
    rw [hhashes, removal_cons_some hevent, Removal.step, Option.mem_def.mp hcopy, Option.getD_some]
  seen other := by
    have hlook : ∀ other, access env userId inputs event ≠ some (.read other) := by simp [hevent]
    rw [Auth.seen, lookupOf_of_access hlook, Option.none_or, removal_cons_some hevent]
    exact h.seen other
  ghost := by
    rw [removal_cons_some hevent]
    exact h.ghost
  within := by
    rw [removal_cons_some hevent, Removal.step, Option.mem_def.mp hcopy, Option.getD_some]
    exact List.erase_sublist.trans (h.copied thread copy hcopy).1
  copied := by
    rw [removal_cons_some hevent]
    exact fun other copy hc => (h.copied other copy hc).imp_right hpresent
  possible := by
    refine ⟨fun found hf => ?_, h.possible⟩
    obtain rfl : .write thread code = found := Option.some.inj (hevent.symm.trans hf)
    exact ⟨copy, hcopy, hcode⟩
  written := List.forall_mem_cons.mpr ⟨fun _ => by simp [hevent], h.written⟩
  removed := by
    have hsome : consumption env userId inputs event = some code := by
      rw [consumption_eq, hevent]
      rfl
    rw [removal_cons_some hevent, Removal.step, consumed, List.filterMap_cons_some hsome, h.removed,
      consumed]

-- The calls of an execution, and the execution.

theorem isSome_lookup_query {choice : Choice} {now : ℤ} {db : Database} (call : Call)
    (h : (db.users.lookup userId).isSome) :
    ((query env choice now db call).2.users.lookup userId).isSome := by
  cases call with
  | create data =>
      simp only [query, PrismaUserRepository.create]
      cases hi : db.users.insert (PrismaUserRepository.newRow db choice.uuid now data) with
      | none => exact h
      | some users =>
          obtain ⟨row, hrow⟩ := Option.isSome_iff_exists.mp h
          exact Option.isSome_of_eq_some (Table.lookup_insert_of_some hi hrow)
  | updateMfa id patch =>
      simp only [query, PrismaUserRepository.updateMfa]
      cases hl : db.users.lookup id with
      | none => exact h
      | some row =>
          simp only [committed, Table.lookup_modify]
          split
          · rw [hl]
            rfl
          · exact h
  | _ => exact h

theorem serve_updateMfa_of_isSome (env : Environment) (choice : Choice)
    (patch : MfaCredentialsPatch) (h : (world.db.users.lookup userId).isSome) :
    ∃ world', serve env choice world (.updateMfa userId patch) = (.ok (), world') ∧
      credentials world'.db userId = (credentials world.db userId).patch patch ∧
      (world'.db.users.lookup userId).isSome := by
  obtain ⟨row, hrow⟩ := Option.isSome_iff_exists.mp h
  have hlookup : (world.db.users.modify userId
      (PrismaUserRepository.withPatch patch)).lookup userId =
        some (PrismaUserRepository.withPatch patch row) := by simp [hrow]
  refine ⟨{ db := { users := world.db.users.modify userId (PrismaUserRepository.withPatch patch) },
            clock := world.clock + choice.elapsed }, ?_, ?_, Option.isSome_of_eq_some hlookup⟩
  · simp [serve, query, PrismaUserRepository.updateMfa, hrow, committed]
  · refine (credentials_of_lookup hlookup).trans ?_
    rw [credentials_of_lookup hrow]
    rfl

abbrev Consumes (env : Environment) (userId : Id) (inputs : Tid → VerifyMfaInput)
    (codes : List String) (hashOf : String → String) (thread : Tid) {α : Type} (p : Port α)
    (ghost : Option (List String)) : Prop :=
  Safe (serve env) Pool.unguarded (Simulates env userId inputs codes hashOf) thread p ghost
    fun _ _ => True

-- Neither the lookup nor a write of the list of the user.
def Call.Passes (userId : Id) : Call → Prop
  | .findMfaCredentials id => id ≠ userId
  | .updateMfa id patch => id = userId → patch.backupCodeHashes = none
  | _ => True

theorem not_writesCodes_of_passes {call : Call} (hcall : call.Passes userId) :
    ¬call.WritesCodes userId := by
  cases call with
  | updateMfa id patch =>
      rintro ⟨hid, hpatch⟩
      rw [hcall hid] at hpatch
      cases hpatch
  | _ => exact id

omit [DecidableEq Tid] in
theorem access_passes {call : Call} (hcall : call.Passes userId)
    (answer : Except Fault (Answer call)) :
    access env userId inputs ⟨thread, call, answer⟩ = none := by
  cases call with
  | findMfaCredentials id => rcases answer with err | (_ | found) <;> first | rfl | exact if_neg hcall
  | updateMfa id patch =>
      cases answer with
      | error err => rfl
      | ok value =>
          refine if_neg fun ⟨hid, hpatch⟩ => ?_
          rw [hcall hid] at hpatch
          cases hpatch
  | _ => rfl

theorem hashes_passes {call : Call} (hcall : call.Passes userId) (choice : Choice)
    (world : World) :
    (credentials (serve env choice world call).2.db userId).backupCodeHashes =
      (credentials world.db userId).backupCodeHashes := by
  by_cases hspares : call.Spares userId
  · exact congrArg MfaCredentials.backupCodeHashes (credentials_query hspares)
  · obtain ⟨patch, rfl⟩ : ∃ patch, call = .updateMfa userId patch := by
      simpa [Call.Spares] using hspares
    rcases serve_updateMfa_cases env choice world userId patch with
      ⟨world', hs, hdb⟩ | ⟨err, world', hs, hdb, -⟩
    · rw [hs, hdb, if_pos rfl, MfaCredentials.patch, hcall rfl]
      rfl
    · rw [hs, hdb]

theorem quiet_passes {call : Call} (hcall : call.Passes userId) :
    Quiet (serve env) Pool.unguarded (Simulates env userId inputs codes hashOf) thread call :=
  fun _ _ _ _ h _ => h.quiet (access_passes hcall _) (not_writesCodes_of_passes hcall)
    (hashes_passes hcall _ _) (isSome_lookup_query call)

theorem consumes_of_uses {α : Type} {p : Port α} (hp : p.Uses (Call.Passes userId))
    (ghost : Option (List String)) : Consumes env userId inputs codes hashOf thread p ghost :=
  safe_mono (safe_of_quiet (fun _ => quiet_passes) hp ghost) fun _ _ _ => trivial

theorem consumes_bind {α β : Type} {p : Port α} {f : α → Port β} {ghost : Option (List String)}
    (hp : Consumes env userId inputs codes hashOf thread p ghost)
    (hf : ∀ value ghost', Consumes env userId inputs codes hashOf thread (f value) ghost') :
    Consumes env userId inputs codes hashOf thread (p >>= f) ghost := by
  refine safe_bind (fun _ _ => True) (safe_mono hp fun result _ _ => ?_) fun value ghost' _ =>
    hf value ghost'
  cases result <;> trivial

omit [DecidableEq Tid] in
theorem access_write (thread : Tid) (backupCodeHashes : List String) :
    access env userId inputs
        ⟨thread, .updateMfa userId { backupCodeHashes := some backupCodeHashes }, .ok ()⟩ =
      some (.write thread (presented env (inputs thread))) := by
  simp [access]

-- The hashes that are compared are those of the copy, from the index on.
theorem consumes_tryHashes (hideal : IdealHasher env codes hashOf) {copy : List String}
    (index : ℕ) {rest : List String} (hrest : rest = (copy.map hashOf).drop index) :
    Consumes env userId inputs codes hashOf thread
      (VerifyMfaUseCase.tryHashes userId (copy.map hashOf) (presented env (inputs thread)) index rest)
      (some copy) := by
  induction rest generalizing index with
  | nil => trivial
  | cons hash rest ih =>
      have hindex : (copy.map hashOf)[index]? = some hash := by
        have hhead : ((copy.map hashOf).drop index)[0]? = some hash := by rw [← hrest]; rfl
        rwa [List.getElem?_drop, add_zero] at hhead
      have hcompare : (Call.compare (presented env (inputs thread)) hash).Passes userId := trivial
      have hnext : rest = (copy.map hashOf).drop (index + 1) := by
        rw [← List.drop_drop, ← hrest]
        rfl
      refine safe_quiet_bind (quiet_passes hcompare) fun choice world => ?_
      change Safe _ _ _ _ (if env.compare (presented env (inputs thread)) hash then _ else _) _ _
      split
      next hequal =>
        refine safe_perform_bind fun world history ghosts choice hghost h _ => ⟨some copy, ?_, ?_⟩
        · rw [← hghost, Function.update_eq_self]
          have hcopy := h.ghost thread copy hghost
          obtain ⟨hcode, herase⟩ := hideal.eraseIdx (h.copied thread copy hcopy).1 hindex hequal
          obtain ⟨world', hs, hdb, hpresent⟩ := serve_updateMfa_of_isSome env choice
            { backupCodeHashes := some ((copy.map hashOf).eraseIdx index) }
            (h.copied thread copy hcopy).2
          rw [hs]
          refine h.write (access_write thread _) hcopy hcode ?_ fun _ => hpresent
          rw [hdb, MfaCredentials.patch, herase]
          rfl
        · cases (serve env choice world _).1 <;> trivial
      next => exact ih (index + 1) hnext

-- What an execution that has looked up the user goes on with.
theorem consumes_withCredentials (hideal : IdealHasher env codes hashOf) (other : Id)
    (found : Option User × Option MfaCredentials) {ghost : Option (List String)}
    (hghost : other = userId → ∀ credentials, found.2 = some credentials →
      ∃ copy, ghost = some copy ∧ credentials.backupCodeHashes = copy.map hashOf) :
    Consumes env userId inputs codes hashOf thread
      (VerifyMfaUseCase.withCredentials env other (inputs thread).code found) ghost := by
  unfold VerifyMfaUseCase.withCredentials
  split
  next user credentials =>
    split
    next => trivial
    next totpSecretEnc _ =>
      refine consumes_bind ?_ fun accepted ghost' => ?_
      · unfold VerifyMfaUseCase.consume VerifyMfaUseCase.consumeBackupCode
        split
        · exact consumes_of_uses (uses_consumeTotp (fun _ => trivial) (fun _ _ => trivial)
            (fun _ _ => rfl) _ totpSecretEnc _) ghost
        · by_cases hid : other = userId
          · obtain ⟨copy, rfl, hcopy⟩ := hghost hid credentials rfl
            rw [hid, hcopy]
            exact consumes_tryHashes hideal 0 rfl
          · exact consumes_of_uses (uses_tryHashes (fun _ _ => trivial)
              (fun _ h => absurd h hid) _ _ 0 _) ghost
      · split
        · exact consumes_of_uses (uses_issueAccessSession (fun _ => trivial) user) ghost'
        · trivial
  next => trivial

-- The two lookups, of which the second one is remembered if it finds the user.
theorem consumes_lookups (hideal : IdealHasher env codes hashOf) (other : Id) :
    Consumes env userId inputs codes hashOf thread
      ((users.findById other).both (users.findMfaCredentials other) >>=
        VerifyMfaUseCase.withCredentials env other (inputs thread).code) none := by
  have hpasses : (Call.findById other).Passes userId := trivial
  refine safe_await_quiet (quiet_passes hpasses) fun choice world => ?_
  by_cases hid : other = userId
  · subst hid
    intro world' history ghosts choice' hghost h _
    cases hfound : PrismaUserRepository.findMfaCredentials world'.db other with
    | none =>
        have hanswer : (serve env choice' world' (.findMfaCredentials other)).1 = .ok none :=
          congrArg Except.ok hfound
        refine ⟨none, ?_, ?_⟩
        · rw [← hghost, Function.update_eq_self, hanswer]
          exact h.quiet rfl id rfl id
        · rw [hanswer]
          refine consumes_withCredentials hideal other
            (PrismaUserRepository.findById world.db other, none) fun _ _ h => ?_
          cases h
    | some found =>
        have hanswer : (serve env choice' world' (.findMfaCredentials other)).1 =
            .ok (some found) := congrArg Except.ok hfound
        have hhashes : (credentials world'.db other).backupCodeHashes = found.backupCodeHashes := by
          rw [credentials, hfound, Option.getD_some]
        refine ⟨some (removal env other inputs codes history).stored, ?_, ?_⟩
        · rw [hanswer]
          refine h.read (by simp [access]) (fun _ => ?_) rfl ?_
          · simp [lookupOf, hhashes]
          · obtain ⟨row, hrow, -⟩ := Option.map_eq_some_iff.mp hfound
            exact Option.isSome_of_eq_some hrow
        · rw [hanswer]
          refine consumes_withCredentials hideal other
            (PrismaUserRepository.findById world.db other, some found)
            fun _ found' hfound' => ⟨_, rfl, ?_⟩
          rw [← Option.some.inj hfound', ← hhashes, h.stored]
  · have hpasses' : (Call.findMfaCredentials other).Passes userId := hid
    refine safe_await_quiet (quiet_passes hpasses') fun choice' world' => ?_
    exact consumes_withCredentials hideal other (PrismaUserRepository.findById world.db other,
      PrismaUserRepository.findMfaCredentials world'.db other) fun h => absurd h hid

theorem consumes_execute (hideal : IdealHasher env codes hashOf) (thread : Tid) :
    Consumes env userId inputs codes hashOf thread
      (VerifyMfaUseCase.execute env (inputs thread)) none := by
  refine safe_bind (fun _ ghost => ghost = none) ?_ ?_
  · have huses : (VerifyMfaUseCase.challenge (inputs thread).mfaToken).Uses (Call.Passes userId) :=
      uses_tryCatch (uses_perform trivial) fun _ => trivial
    refine safe_mono (safe_of_quiet (fun _ => quiet_passes) huses none) ?_
    rintro (_ | _) ghost hghost
    · trivial
    · exact hghost
  · rintro other _ rfl
    exact consumes_lookups hideal other

-- The invariant along all runs.
theorem simulates_play (hideal : IdealHasher env codes hashOf)
    (hstored : (credentials world.db userId).backupCodeHashes = codes.map hashOf)
    (schedule : List (Tid × Choice)) :
    ∃ ghosts, Simulates env userId inputs codes hashOf
      ((Verifications.start env world inputs).play (serve env) schedule).world
      ((Verifications.start env world inputs).play (serve env) schedule).history ghosts := by
  have hstart : Simulates env userId inputs codes hashOf world [] fun _ => none := {
    stored := hstored
    seen := fun _ => rfl
    ghost := fun _ _ h => by cases h
    within := List.Sublist.refl _
    copied := fun _ _ h => by cases h
    possible := trivial
    written := fun _ h => absurd h List.not_mem_nil
    removed := rfl }
  have hsafe : ∀ thread, Consumes env userId inputs codes hashOf thread
      ((Verifications.start env world inputs).threads thread) none := consumes_execute hideal
  have hreaches : Pool.Reaches (serve env) Pool.unguarded (Verifications.start env world inputs)
      ((Verifications.start env world inputs).play (serve env) schedule) :=
    Pool.reaches_of_follows .refl (Pool.follows_unguarded schedule)
  obtain ⟨ghosts, hinv, -⟩ := hreaches.invariant
    (Simulates env userId inputs codes hashOf) (fun _ _ _ => True) hstart hsafe
  exact ⟨ghosts, hinv⟩

-- Hashes tell the lists of codes apart.
omit [DecidableEq Tid] in
theorem IdealHasher.map_inj (h : IdealHasher env codes hashOf) {left right : List String}
    (hleft : left.Sublist codes) (hright : right.Sublist codes) :
    left.map hashOf = right.map hashOf ↔ left = right := by
  refine ⟨fun heq => ?_, congrArg _⟩
  have hinj : ∀ code ∈ codes, ∀ other ∈ codes, hashOf code = hashOf other → code = other := by
    intro code hm other hother hsame
    refine (h.compare other hother code).mp ?_
    rw [← hsame]
    exact (h.compare code hm code).mpr rfl
  induction left generalizing right with
  | nil => exact (List.map_eq_nil_iff.mp heq.symm).symm
  | cons code left ih =>
      cases right with
      | nil => cases heq
      | cons other right =>
          rw [List.map_cons, List.map_cons, List.cons.injEq] at heq
          have hhead : code = other := hinj code (hleft.subset List.mem_cons_self) other
            (hright.subset List.mem_cons_self) heq.1
          rw [hhead, ih (List.sublist_of_cons_sublist hleft)
            (List.sublist_of_cons_sublist hright) heq.2]

-- What single use says of the run as the executions see the list.
theorem Simulates.singleUse_iff_exact (hideal : IdealHasher env codes hashOf)
    {pool : Verifications Tid}
    (h : Simulates env userId inputs codes hashOf pool.world pool.history ghosts) :
    SingleUse env userId inputs codes hashOf pool ↔
      Removal.Exact codes (removal env userId inputs codes pool.history) := by
  have hsame := hideal.map_inj h.within
    (List.filter_sublist (p := (· ∉ consumed env userId inputs pool.history)) (l := codes))
  constructor
  · rintro ⟨honce, hstored⟩
    refine ⟨h.removed ▸ honce, ?_⟩
    rw [Removal.without, h.removed]
    exact hsame.mp (h.stored.symm.trans hstored)
  · rintro ⟨honce, hstored⟩
    refine ⟨h.removed ▸ honce, ?_⟩
    rw [h.stored, hstored, Removal.without, h.removed]

theorem Simulates.seen_iff (hideal : IdealHasher env codes hashOf)
    (h : Simulates env userId inputs codes hashOf world history ghosts) (thread : Tid) :
    Auth.seen userId thread history = some (credentials world.db userId).backupCodeHashes ↔
      (removal env userId inputs codes history).copies thread =
        some (removal env userId inputs codes history).stored := by
  rw [h.seen, h.stored]
  cases hcopies : (removal env userId inputs codes history).copies thread with
  | none => simp
  | some copy =>
      rw [Option.map_some, Option.some.injEq, Option.some.injEq]
      exact hideal.map_inj (h.copied thread copy hcopies).1 h.within

-- The condition on a step, as the executions see the list.
theorem Simulates.upToDate_iff (hideal : IdealHasher env codes hashOf)
    (h : Simulates env userId inputs codes hashOf world history ghosts) {call : Call}
    {answer : Except Fault (Answer call)} {world' : World}
    {ghosts' : Tid → Option (List String)}
    (hnext : Simulates env userId inputs codes hashOf world' (⟨thread, call, answer⟩ :: history)
      ghosts') (choice : Choice) :
    UpToDate userId world history thread call choice ↔
      ∀ found ∈ access env userId inputs ⟨thread, call, answer⟩,
        (removal env userId inputs codes history).Current found := by
  by_cases hw : call.WritesCodes userId
  · have hsome := hnext.written _ List.mem_cons_self hw
    cases call with
    | updateMfa id patch =>
        cases answer with
        | error err => cases hsome
        | ok value =>
            have haccess : access env userId inputs ⟨thread, .updateMfa id patch, .ok value⟩ =
              some (.write thread (presented env (inputs thread))) := if_pos hw
            have huptodate := h.seen_iff hideal thread
            simpa [haccess, UpToDate, hw, Removal.Current] using huptodate
    | _ => cases hw
  · refine ⟨fun _ found hfound => ?_, fun _ hwrites => absurd hwrites hw⟩
    cases found with
    | read client => trivial
    | write client code => exact absurd (writesCodes_of_access hfound) hw

-- One turn after a run without stale writes.
theorem coherent_turn (hideal : IdealHasher env codes hashOf)
    (hstored : (credentials world.db userId).backupCodeHashes = codes.map hashOf)
    {past : List (Tid × Choice)}
    (h : Removal.Coherent codes (removalAfter env userId world inputs codes past))
    (turn : Tid × Choice) :
    (Removal.Exact codes (removalAfter env userId world inputs codes (past ++ [turn])) ↔
      (verified env world inputs past).Meets (UpToDate userId) turn.1 turn.2) ∧
    ((verified env world inputs past).Meets (UpToDate userId) turn.1 turn.2 →
      Removal.Coherent codes (removalAfter env userId world inputs codes (past ++ [turn]))) := by
  obtain ⟨ghosts, hpast⟩ := simulates_play hideal hstored past
  obtain ⟨ghosts', hnext⟩ := simulates_play hideal hstored (past ++ [turn])
  have hplay : verified env world inputs (past ++ [turn]) =
      (verified env world inputs past).step (serve env) turn.1 turn.2 := Pool.play_append _ _
  unfold removalAfter at *
  change Simulates env userId inputs codes hashOf (verified env world inputs _).world
    (verified env world inputs _).history _ at hpast hnext
  rw [hplay] at hnext ⊢
  cases hthread : (verified env world inputs past).threads turn.1 with
  | done result =>
      unfold Pool.Meets
      rw [Pool.step_done hthread, hthread]
      exact ⟨iff_of_true h.toExact trivial, fun _ => h⟩
  | await call next =>
      rw [Pool.meets_await hthread]
      rw [Pool.step_await hthread] at hnext ⊢
      rw [hpast.upToDate_iff hideal hnext]
      cases haccess : access env userId inputs
          ⟨turn.1, call, (serve env turn.2 (verified env world inputs past).world call).1⟩ with
      | none =>
          rw [removal_cons haccess]
          exact ⟨iff_of_true h.toExact (by simp), fun _ => h⟩
      | some found =>
          have hpossible := hnext.possible.1 found haccess
          rw [removal_cons_some haccess]
          simp only [Option.mem_some_iff, forall_eq']
          exact ⟨h.exact_step_iff hideal.distinct hpossible,
            h.step hideal.distinct hpossible⟩

theorem coherent_of_follows (hideal : IdealHasher env codes hashOf)
    (hstored : (credentials world.db userId).backupCodeHashes = codes.map hashOf)
    {schedule : List (Tid × Choice)}
    (h : (Verifications.start env world inputs).Follows (serve env) (UpToDate userId) schedule) :
    Removal.Coherent codes (removalAfter env userId world inputs codes schedule) := by
  induction schedule using List.reverseRecOn with
  | nil => exact Removal.coherent_start codes
  | append_singleton past turn ih =>
      obtain ⟨hpast, hturn, -⟩ := Pool.follows_append.mp h
      exact (coherent_turn hideal hstored (ih hpast) turn).2 hturn

theorem follows_of_singleUse (hideal : IdealHasher env codes hashOf)
    (hstored : (credentials world.db userId).backupCodeHashes = codes.map hashOf)
    {schedule : List (Tid × Choice)}
    (h : ∀ past, past <+: schedule →
      SingleUse env userId inputs codes hashOf (verified env world inputs past)) :
    (Verifications.start env world inputs).Follows (serve env) (UpToDate userId) schedule := by
  induction schedule using List.reverseRecOn with
  | nil => trivial
  | append_singleton past turn ih =>
      have hpast := ih fun before hp => h before (hp.trans (List.prefix_append _ _))
      refine Pool.follows_append.mpr ⟨hpast, ?_, trivial⟩
      obtain ⟨ghosts, hinv⟩ := simulates_play hideal hstored (past ++ [turn])
      have hexact := (hinv.singleUse_iff_exact hideal).mp (h _ (List.prefix_refl _))
      exact (coherent_turn hideal hstored (coherent_of_follows hideal hstored hpast) turn).1.mp hexact

-- Backup codes are single-use, with the rest of the list in place, in the runs
-- without stale writes, and in no others.
theorem singleUse_iff (env : Environment) (userId : Id) (world : World)
    (inputs : Tid → VerifyMfaInput) (codes : List String) (hashOf : String → String)
    (hideal : IdealHasher env codes hashOf)
    (hstored : (credentials world.db userId).backupCodeHashes = codes.map hashOf)
    (schedule : List (Tid × Choice)) :
    (∀ past, past <+: schedule →
      SingleUse env userId inputs codes hashOf (verified env world inputs past)) ↔
      (Verifications.start env world inputs).Follows (serve env) (UpToDate userId) schedule := by
  refine ⟨follows_of_singleUse hideal hstored, ?_⟩
  rintro h past ⟨rest, rfl⟩
  obtain ⟨ghosts, hinv⟩ := simulates_play hideal hstored past
  refine (hinv.singleUse_iff_exact hideal).mpr ?_
  exact (coherent_of_follows hideal hstored (Pool.follows_append.mp h).1).toExact

namespace Demo

-- A user with two backup codes.
def holder : UserRow :=
  { user with
    mfaEnabled := true
    totpSecretEnc := some "iv.AAAA"
    mfaBackupCodes := ["s.AAAA-AAAA", "s.BBBB-BBBB"] }

def backupCodes : List String := ["AAAA-AAAA", "BBBB-BBBB"]

theorem idealHasher : IdealHasher Demo.env backupCodes ("s." ++ ·) where
  distinct := by decide
  compare code hm plain := by
    rw [← String.toList_inj]
    rcases List.mem_cons.mp hm with rfl | hm
    · simp [Demo.env, eq_comm]
    · rw [List.mem_singleton.mp hm]
      simp [Demo.env, eq_comm]

def presents (code : Fin 2 → String) (thread : Fin 2) : VerifyMfaInput where
  mfaToken := "u1"
  code := code thread

end Demo

-- The two codes, one after the other.
theorem singleUse_sequential :
    SingleUse Demo.env "u1" (Demo.presents fun thread => Demo.backupCodes[thread])
      Demo.backupCodes ("s." ++ ·)
      (verified Demo.env (Demo.world Demo.holder)
        (Demo.presents fun thread => Demo.backupCodes[thread])
        (List.replicate 7 (0, Demo.choice "iv") ++ List.replicate 7 (1, Demo.choice "iv"))) :=
  (singleUse_iff Demo.env "u1" (Demo.world Demo.holder) _ Demo.backupCodes ("s." ++ ·)
    Demo.idealHasher (by decide +kernel) _).mpr (by decide +kernel) _ (List.prefix_refl _)

-- One code, presented twice at the same time.
theorem singleUse_fails :
    ¬∀ (env : Environment) (userId : Id) (world : World) (inputs : Fin 2 → VerifyMfaInput)
      (codes : List String) (hashOf : String → String) (schedule : List (Fin 2 × Choice)),
        IdealHasher env codes hashOf →
          (credentials world.db userId).backupCodeHashes = codes.map hashOf →
            SingleUse env userId inputs codes hashOf (verified env world inputs schedule) := by
  intro h
  have honce := (h Demo.env "u1" (Demo.world Demo.holder) (Demo.presents fun _ => "AAAA-AAAA")
    Demo.backupCodes ("s." ++ ·) (List.replicate 4 (0, Demo.choice "iv") ++
      List.replicate 6 (1, Demo.choice "iv") ++ List.replicate 2 (0, Demo.choice "iv"))
    Demo.idealHasher (by decide +kernel)).once
  exact absurd honce (by decide +kernel)

end SmartParking.Auth
