import Mathlib.Data.List.Count
import SmartParking.Auth.Gate.Effects

namespace SmartParking.Auth

open Async

variable {env : Environment} {initial : Database} {past : List Done} {done : Done}

-- What was accepted, as the effect of the request shows it.

theorem Done.user_eq_none (h : ∀ userId found, .looked userId found ∉ done.seen) :
    done.user = none := by
  refine List.findSome?_eq_none_iff.mpr fun visible hv => ?_
  split
  · exact absurd hv (h _ _)
  · rfl

theorem Done.acceptance_of_user (h : done.user = none) : done.acceptance = none := by
  simp [acceptance, h]

theorem Done.consumption_of_user (h : done.user = none) : done.consumption = none := by
  simp [consumption, h]

-- A step that is not used yet comes after all that are.
theorem lt_of_used {lastStep : Option ℤ} {step step' : ℤ} (h : used lastStep step' = true)
    (h' : used lastStep step = false) : step' < step := by
  cases lastStep with
  | none => cases h
  | some last =>
      have hle : step' ≤ last := by simpa [used] using h
      have hlt : last < step := by simpa [used] using h'
      exact hle.trans_lt hlt

theorem used_trans {lastStep : Option ℤ} {step step' : ℤ} (h : used lastStep step' = true)
    (h' : used lastStep step = false) : used (some step) step' = true := by
  simpa [used] using (lt_of_used h h').le

-- A step that is accepted comes after the last one, on the secret that is stored.
theorem acceptance_of_effect (h : done.Effect env) {userId : Id} {totpSecretEnc : String}
    {step : ℤ} (hacc : done.acceptance = some (userId, totpSecretEnc, step)) :
    (credentials done.before userId).totpSecretEnc = some totpSecretEnc ∧
      ((credentials done.before userId).enabled = false ∨
        used (credentials done.before userId).lastStep step = false) ∧
      (∃ secret, .decrypted totpSecretEnc secret ∈ done.seen ∧
        env.decrypt totpSecretEnc = .ok secret) ∧
      ((credentials done.after userId).totpSecretEnc = none ∨
        ((credentials done.after userId).enabled = true ∧
          (credentials done.after userId).lastStep = some step)) := by
  obtain ⟨operation, before, after, seen, result⟩ := done
  change Effect env before operation result after seen at h
  cases h with
  | refused => cases hacc
  | login hop hdb hsession hlooked =>
      rw [Done.acceptance_of_user (Done.user_eq_none hlooked)] at hacc
      cases hacc
  | setup => cases hacc
  | confirm hoff hsecret hdecrypt hdb =>
      cases hacc
      refine ⟨hsecret, .inl hoff, ⟨_, by simp, hdecrypt⟩, .inr ?_⟩
      simp only [hdb, if_true]
      exact ⟨rfl, rfl⟩
  | verify hclaims hsub hon hfactor =>
      cases hfactor with
      | totp hsecret hdecrypt hused hdb =>
          cases hacc
          refine ⟨hsecret, .inr hused, ⟨_, by simp, hdecrypt⟩, .inr ?_⟩
          simp only [hdb, if_true]
          exact ⟨hon, rfl⟩
      | backup => cases hacc
  | disable hsecret hon hdecrypt hused hdb =>
      cases hacc
      refine ⟨hsecret, .inr hused, ⟨_, by simp, hdecrypt⟩, .inl ?_⟩
      simp only [hdb, if_true]
      rfl

theorem change_of_effect (h : done.Effect env) (userId : Id) : Change env done userId := by
  obtain ⟨operation, before, after, seen, result⟩ := done
  change Effect env before operation result after seen at h
  cases h with
  | refused => exact .same rfl nofun
  | login hop hdb hsession hlooked =>
      refine .same (hdb userId) fun hash hc => ?_
      rw [Done.consumption_of_user (Done.user_eq_none hlooked)] at hc
      cases hc
  | @setup other secret iv _ _ hoff hdb =>
      by_cases hid : userId = other
      · subst hid
        exact .setup hoff (List.mem_singleton.mpr rfl) nofun ((hdb userId).trans (if_pos rfl))
      · exact .same ((hdb userId).trans (if_neg hid)) nofun
  | @confirm other code _ _ step hashes _ _ hoff hsecret hdecrypt hdb =>
      by_cases hid : userId = other
      · subst hid
        exact .confirm hoff rfl rfl nofun ((hdb userId).trans (if_pos rfl))
      · exact .same ((hdb userId).trans (if_neg hid)) nofun
  | @verify input now claims other _ _ _ hclaims hsub hon hfactor =>
      cases hfactor with
      | totp hsecret hdecrypt hused hdb =>
          by_cases hid : userId = other
          · subst hid
            exact .totp hon hused nofun ((hdb userId).trans (if_pos rfl))
          · exact .same ((hdb userId).trans (if_neg hid)) nofun
      | backup hhash hdb =>
          by_cases hid : userId = other
          · subst hid
            exact .backup hon hhash rfl ((hdb userId).trans (if_pos rfl))
          · refine .same ((hdb userId).trans (if_neg hid)) fun hash hc => hid ?_
            cases hc
            rfl
  | @disable other code totpSecretEnc secret step _ _ hsecret hon hdecrypt hused hdb =>
      by_cases hid : userId = other
      · subst hid
        exact .disable hsecret rfl rfl nofun ((hdb userId).trans (if_pos rfl))
      · exact .same ((hdb userId).trans (if_neg hid)) nofun

theorem perm_eraseIdx {hashes : List String} {index : ℕ} {hash : String}
    (h : hashes[index]? = some hash) : hashes.Perm (hash :: hashes.eraseIdx index) := by
  obtain ⟨hlt, rfl⟩ := List.getElem?_eq_some_iff.mp h
  exact (List.getElem_cons_eraseIdx_perm hlt).symm

namespace Change

variable {userId : Id}

-- A secret that is stored afterwards is new, or still there with its used steps.
theorem secret (h : Change env done userId) {totpSecretEnc : String}
    (hstored : (credentials done.after userId).totpSecretEnc = some totpSecretEnc) :
    (∃ secret iv, .generated secret ∈ done.seen ∧ totpSecretEnc = env.encrypt iv secret) ∨
      ((credentials done.before userId).totpSecretEnc = some totpSecretEnc ∧
        ((credentials done.before userId).enabled = true →
          (credentials done.after userId).enabled = true ∧
            ∀ step, used (credentials done.before userId).lastStep step = true →
              used (credentials done.after userId).lastStep step = true)) := by
  cases h with
  | same hsame =>
      rw [hsame] at hstored ⊢
      exact .inr ⟨hstored, fun hon => ⟨hon, fun _ h => h⟩⟩
  | @setup secret iv hoff hgenerated _ hafter =>
      rw [hafter] at hstored
      exact .inl ⟨secret, iv, hgenerated, (Option.some.inj hstored).symm⟩
  | confirm hoff _ _ _ hafter =>
      rw [hafter] at hstored
      exact .inr ⟨hstored, fun hon => absurd (hon.symm.trans hoff) (by decide)⟩
  | totp _ hused _ hafter =>
      rw [hafter] at hstored ⊢
      exact .inr ⟨hstored, fun hon => ⟨hon, fun step hstep => used_trans hstep hused⟩⟩
  | backup _ _ _ hafter =>
      rw [hafter] at hstored ⊢
      exact .inr ⟨hstored, fun hon => ⟨hon, fun _ h => h⟩⟩
  | disable _ _ _ _ hafter =>
      rw [hafter] at hstored
      cases hstored

theorem on (h : Change env done userId) (hbefore : (credentials done.before userId).enabled = false)
    (hafter : (credentials done.after userId).enabled = true) :
    ∃ code, done.operation = .ConfirmMfa { userId, code } := by
  cases h with
  | same hsame =>
      rw [hsame, hbefore] at hafter
      cases hafter
  | setup _ _ _ hpatch =>
      rw [hpatch] at hafter
      cases hafter
  | confirm _ hop => exact ⟨_, hop⟩
  | totp hon => exact absurd (hon.symm.trans hbefore) (by decide)
  | backup hon => exact absurd (hon.symm.trans hbefore) (by decide)
  | disable _ _ _ _ hpatch =>
      rw [hpatch] at hafter
      cases hafter

theorem off (h : Change env done userId) (hbefore : (credentials done.before userId).enabled = true)
    (hafter : (credentials done.after userId).enabled = false) :
    ∃ code totpSecretEnc step, done.operation = .DisableMfa { userId, code } ∧
      (credentials done.before userId).totpSecretEnc = some totpSecretEnc ∧
        done.acceptance = some (userId, totpSecretEnc, step) := by
  cases h with
  | same hsame =>
      rw [hsame, hbefore] at hafter
      cases hafter
  | setup hoff => exact absurd (hbefore.symm.trans hoff) (by decide)
  | confirm hoff => exact absurd (hbefore.symm.trans hoff) (by decide)
  | totp _ _ _ hpatch =>
      rw [hpatch] at hafter
      exact absurd (hbefore.symm.trans hafter) (by decide)
  | backup _ _ _ hpatch =>
      rw [hpatch] at hafter
      exact absurd (hbefore.symm.trans hafter) (by decide)
  | disable hsecret hop hacc => exact ⟨_, _, _, hop, hsecret, hacc⟩

-- A hash is consumed out of those that are stored.
theorem count (h : Change env done userId) (hash : String) :
    done.consumption.toList.count (userId, hash) +
        (credentials done.after userId).backupCodeHashes.count hash ≤
      (credentials done.before userId).backupCodeHashes.count hash +
        done.stored.count (userId, hash) := by
  have hzero (hconsume : ∀ hash, done.consumption ≠ some (userId, hash)) :
      done.consumption.toList.count (userId, hash) = 0 :=
    List.count_eq_zero.mpr fun h => hconsume hash (Option.mem_toList.mp h)
  cases h with
  | same hsame hconsume =>
      rw [hzero hconsume, hsame, zero_add]
      exact Nat.le_add_right _ _
  | setup _ _ hconsume hafter =>
      rw [hzero hconsume, hafter]
      exact Nat.zero_le _
  | @confirm code step hashes _ hop hok hconsume hafter =>
      have hstored : done.stored =
          (credentials done.after userId).backupCodeHashes.map fun hash => (userId, hash) := by
        simp [Done.stored, hop, hok]
      rw [hzero hconsume, zero_add, hstored,
        List.count_map_of_injective _ _ (Prod.mk_right_injective userId)]
      exact Nat.le_add_left _ _
  | totp _ _ hconsume hafter =>
      rw [hzero hconsume, hafter, zero_add]
      exact Nat.le_add_right _ _
  | @backup index used _ hhash hconsume hafter =>
      have hone : (some (userId, used)).toList.count (userId, hash) = [used].count hash := by
        by_cases heq : used = hash <;> simp [heq]
      have hcount : _ = ([used] ++ _).count hash := (perm_eraseIdx hhash).count_eq hash
      rw [List.count_append] at hcount
      rw [hconsume, hafter, hone, hcount]
      exact Nat.le_add_right _ _
  | disable _ _ _ hconsume hafter =>
      rw [hzero hconsume, hafter]
      exact Nat.zero_le _

end Change

-- What was shown, as the effect of the request shows it.

theorem challenge_of_effect (h : done.Effect env) {sub : Id} {token : String}
    (hseen : .challenge sub token ∈ done.seen) : done.operation.IsLogin := by
  obtain ⟨operation, before, after, seen, result⟩ := done
  change Effect env before operation result after seen at h
  cases h with
  | refused _ hchallenge => exact absurd hseen (hchallenge sub token)
  | login hop => exact hop
  | setup => simp at hseen
  | confirm => simp at hseen
  | verify hclaims hsub hon hfactor => cases hfactor <;> simp at hseen
  | disable => simp at hseen

theorem session_of_effect (h : done.Effect env) {sub : Id} (hseen : .session sub ∈ done.seen) :
    (done.operation.IsLogin ∧ (credentials done.before sub).enabled = false) ∨
      ∃ input now claims, done.operation = .VerifyMfa input ∧
        env.jwtVerify .mfaSecret now input.mfaToken = some claims ∧ claims.sub = some sub ∧
          done.Consumed sub := by
  obtain ⟨operation, before, after, seen, result⟩ := done
  change Effect env before operation result after seen at h
  cases h with
  | refused hsession => exact absurd hseen (hsession sub)
  | login hop hdb hsession => exact .inl ⟨hop, hsession sub hseen⟩
  | setup => simp at hseen
  | confirm => simp at hseen
  | @verify input now claims userId _ _ _ hclaims hsub hon hfactor =>
      refine .inr ⟨input, now, claims, rfl, hclaims, ?_⟩
      cases hfactor with
      | totp hsecret hdecrypt hused hdb =>
          obtain rfl : sub = userId := by simpa using hseen
          refine ⟨hsub, .inl ⟨_, _, rfl, ?_⟩⟩
          simp only [hdb, if_true]
          rfl
      | backup hhash hdb =>
          obtain rfl : sub = userId := by simpa using hseen
          refine ⟨hsub, .inr ⟨_, rfl, ?_⟩⟩
          simp only [hdb, if_true]
          exact perm_eraseIdx hhash
  | disable => simp at hseen

-- The counts, with one more request.

theorem consumedCount_cons (userId : Id) (hash : String) :
    consumedCount userId hash (done :: past) =
      done.consumption.toList.count (userId, hash) + consumedCount userId hash past := by
  unfold consumedCount
  cases hc : done.consumption with
  | none => simp [List.filterMap_cons_none hc]
  | some consumed =>
      rw [List.filterMap_cons_some hc, ← List.singleton_append, List.count_append]
      rfl

theorem storedCount_cons (userId : Id) (hash : String) :
    storedCount initial userId hash (done :: past) =
      storedCount initial userId hash past + done.stored.count (userId, hash) := by
  rw [storedCount, storedCount, List.flatMap_cons, List.count_append]
  omega

-- The invariant, from one request to the next.

theorem Kept.start : Kept env initial initial [] where
  accepted _ h := absurd h List.not_mem_nil
  opened _ h := absurd h List.not_mem_nil
  challenged _ h := absurd h List.not_mem_nil
  counted _ _ := by simp [consumedCount, storedCount]

theorem Kept.next (hcipher : ∀ iv plainText, env.decrypt (env.encrypt iv plainText) = .ok plainText)
    (h : Kept env initial done.before past) (hideal : Ideal env past done)
    (heffect : done.Effect env) : Kept env initial done.after (done :: past) where
  accepted earlier hearlier userId totpSecretEnc step hacc hstored := by
    rcases List.mem_cons.mp hearlier with rfl | hpast
    · obtain ⟨-, -, -, hnone | ⟨hon, hlast⟩⟩ := acceptance_of_effect heffect hacc
      · exact absurd (hnone.symm.trans hstored) nofun
      · exact ⟨hon, by simp [hlast, used]⟩
    · rcases (change_of_effect heffect userId).secret hstored with
        ⟨secret, iv, hgenerated, rfl⟩ | ⟨hbefore, hkeeps⟩
      · obtain ⟨secret', hdecrypted, hdecrypt⟩ := h.opened earlier hpast userId _ step hacc
        obtain rfl : secret = secret' := Except.ok.inj ((hcipher iv secret).symm.trans hdecrypt)
        exact absurd hdecrypted (hideal.fresh secret hgenerated earlier hpast _)
      · obtain ⟨hon, hused⟩ := h.accepted earlier hpast userId _ step hacc hbefore
        exact ⟨(hkeeps hon).1, (hkeeps hon).2 step hused⟩
  opened earlier hearlier userId totpSecretEnc step hacc := by
    rcases List.mem_cons.mp hearlier with rfl | hpast
    · exact (acceptance_of_effect heffect hacc).2.2.1
    · exact h.opened earlier hpast userId totpSecretEnc step hacc
  challenged earlier hearlier sub token hseen := by
    rcases List.mem_cons.mp hearlier with rfl | hpast
    · exact challenge_of_effect heffect hseen
    · exact h.challenged earlier hpast sub token hseen
  counted userId hash := by
    have hcount := (change_of_effect heffect userId).count hash
    have hkept := h.counted userId hash
    rw [consumedCount_cons, storedCount_cons]
    omega

-- The gate holds at a request, if the invariant does before it.
theorem Kept.gated (hcipher : ∀ iv plainText, env.decrypt (env.encrypt iv plainText) = .ok plainText)
    (h : Kept env initial done.before past) (hideal : Ideal env past done)
    (heffect : done.Effect env) : Gated initial past done := by
  have hincreasing : ∀ userId totpSecretEnc step,
      done.acceptance = some (userId, totpSecretEnc, step) → ∀ earlier ∈ past, ∀ step',
        earlier.acceptance = some (userId, totpSecretEnc, step') → step' < step := by
    intro userId totpSecretEnc step hacc earlier hpast step' hacc'
    obtain ⟨hstored, hnew, -, -⟩ := acceptance_of_effect heffect hacc
    obtain ⟨hon, hused⟩ := h.accepted earlier hpast userId totpSecretEnc step' hacc' hstored
    rcases hnew with hoff | hnew
    · exact absurd (hon.symm.trans hoff) (by decide)
    · exact lt_of_used hused hnew
  refine ⟨fun sub hseen => ?_, hincreasing, fun userId hash => ?_, fun userId => ?_,
    fun userId hbefore hafter => ?_⟩
  · rcases session_of_effect heffect hseen with
      hlogin | ⟨input, now, claims, hop, hjwt, hsub, hconsumed⟩
    · exact .inl hlogin
    · obtain ⟨earlier, hpast, userId, issuedAt, hchallenge, rfl⟩ :=
        hideal.unforgeable input now claims hop hjwt
      obtain rfl : userId = sub := Option.some.inj hsub
      have hlogin := h.challenged earlier hpast userId _ hchallenge
      exact .inr ⟨input, hop, hconsumed, earlier, hpast, hlogin, hchallenge⟩
  · have hnext := (h.next hcipher hideal heffect).counted userId hash
    exact (Nat.le_add_right _ _).trans hnext
  · exact (change_of_effect heffect userId).on
  · obtain ⟨code, totpSecretEnc, step, hop, hstored, hacc⟩ :=
      (change_of_effect heffect userId).off hbefore hafter
    refine ⟨code, totpSecretEnc, step, hop, hstored, hacc, fun earlier hpast hacc' => ?_⟩
    exact lt_irrefl step (hincreasing userId totpSecretEnc step hacc earlier hpast step hacc')

theorem gated_run (env : Environment)
    (hcipher : ∀ iv plainText, env.decrypt (env.encrypt iv plainText) = .ok plainText)
    (world : World) (turns : List Turn)
    (hideal : Machine.Always (Service.step env)
      (fun service turn => Ideal env service.past (service.done env turn).2)
      (Service.start world) turns) :
    Machine.Always (Service.step env)
      (fun service turn => Gated world.db service.past (service.done env turn).2)
      (Service.start world) turns := by
  refine Machine.always_imp (fun service => Kept env world.db service.world.db service.past)
    Kept.start (fun service turn hkept hideal => ?_) hideal
  have heffect : (service.done env turn).2.Effect env := effect_done env service turn
  exact ⟨hkept.next hcipher hideal heffect, hkept.gated hcipher hideal heffect⟩

-- The second factor of one user, from its setup until it is turned off.

theorem decrypt_sealed (iv plainText : String) :
    Demo.sealed.decrypt (Demo.sealed.encrypt iv plainText) = .ok plainText := by
  simp [Demo.sealed, Demo.env]

theorem not_generated (hseen : done.seen.all fun | .generated _ => false | _ => true)
    (secret : String) : .generated secret ∉ done.seen :=
  fun hgenerated => absurd (List.all_eq_true.mp hseen _ hgenerated) (by simp)

theorem ideal_of_quiet (hverify : ∀ input, done.operation ≠ .VerifyMfa input)
    (hseen : done.seen.all fun | .generated _ => false | _ => true) : Ideal env past done where
  unforgeable input _ _ hop := absurd hop (hverify input)
  fresh secret hgenerated := absurd hgenerated (not_generated hseen secret)

theorem gated_run_turns :
    Machine.Always (Service.step Demo.sealed)
      (fun service turn => Gated (Demo.world Demo.user).db service.past
        (service.done Demo.sealed turn).2)
      (Service.start (Demo.world Demo.user)) Demo.turns := by
  refine gated_run Demo.sealed decrypt_sealed _ _ ⟨⟨nofun, ?_⟩, ?_, ?_, ⟨?_, ?_⟩, ?_, trivial⟩
  · exact fun _ _ _ h => absurd h List.not_mem_nil
  · exact ideal_of_quiet nofun (by decide +kernel)
  · exact ideal_of_quiet nofun (by decide +kernel)
  · intro input now claims hop hjwt
    cases hop
    obtain ⟨-, rfl⟩ := (Option.ite_none_right_eq_some.mp hjwt).imp_right Option.some.inj
    exact ⟨_, List.mem_cons_self, "u1", 3000000, by decide +kernel, rfl⟩
  · exact fun secret hgenerated => absurd hgenerated (not_generated (by decide +kernel) secret)
  · exact ideal_of_quiet nofun (by decide +kernel)

end SmartParking.Auth
