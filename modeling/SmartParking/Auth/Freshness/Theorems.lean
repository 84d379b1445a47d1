import SmartParking.Auth.Freshness
import SmartParking.Auth.Hotp.Theorems

namespace SmartParking.Auth

open Async Program Rfc6238TotpAdapter

variable {env : Environment} {world : World} {choices : ℕ → Choice} {input : VerifyMfaInput}
  {userId : Id} {totpSecretEnc secret : String} {step : ℤ}

-- What the step that was found leads to.
def judge (user : User) (userId : Id) (lastStep found : Option ℤ) : Port LoginUserResult :=
  (match found with
    | none => pure false
    | some step =>
        if used lastStep step then pure false
        else users.updateMfa userId { lastStep := some (some step) } >>= fun _ => pure true) >>=
  fun accepted => if accepted then issueAccessSession user else throw (.domain .InvalidMfaCode)

-- What is left when the secret has been decrypted.
theorem Challenged.run_decrypted (h : Challenged env world choices input userId totpSecretEnc)
    (hdecrypt : env.decrypt totpSecretEnc = .ok secret)
    (hcode : isSixDigits (JsString.trim input.code) = true) :
    ∃ user, verifyMfa env world choices input =
      (Program.done (verify env.createHmac env.toUpperCase (clockAt world choices 4) secret
        (JsString.trim input.code)) >>= judge user userId (credentials world.db userId).lastStep).run
          (serve env) (fun n => choices (n + 5)) { world with clock := clockAt world choices 4 } := by
  obtain ⟨user, hrun⟩ := h.run
  refine ⟨user, hrun.trans ?_⟩
  rw [VerifyMfaUseCase.factor, VerifyMfaUseCase.consume, if_pos hcode]
  change Program.run (serve env) ((Program.done (env.decrypt totpSecretEnc) >>= _) >>= _) _ _ = _
  rw [hdecrypt]
  change Program.run (serve env) ((Program.done (verify env.createHmac env.toUpperCase
    (clockAt world choices 4) secret (JsString.trim input.code)) >>= _) >>= _) _ _ = _
  cases verify env.createHmac env.toUpperCase (clockAt world choices 4) secret
    (JsString.trim input.code) <;> rfl

theorem Challenged.run_totp (h : Challenged env world choices input userId totpSecretEnc)
    (hdecrypt : env.decrypt totpSecretEnc = .ok secret)
    (hcode : isSixDigits (JsString.trim input.code) = true) {found : Option ℤ}
    (hfound : verify env.createHmac env.toUpperCase (clockAt world choices 4) secret
      (JsString.trim input.code) = .ok found) :
    ∃ user, verifyMfa env world choices input =
      (judge user userId (credentials world.db userId).lastStep found).run (serve env)
        (fun n => choices (n + 5)) { world with clock := clockAt world choices 4 } := by
  obtain ⟨user, hrun⟩ := h.run_decrypted hdecrypt hcode
  rw [hfound] at hrun
  exact ⟨user, hrun⟩

-- Only the step that was found counts.
theorem Challenged.rejects (h : Challenged env world choices input userId totpSecretEnc)
    (hdecrypt : env.decrypt totpSecretEnc = .ok secret)
    (hcode : isSixDigits (JsString.trim input.code) = true) {found : Option ℤ}
    (hfound : verify env.createHmac env.toUpperCase (clockAt world choices 4) secret
      (JsString.trim input.code) = .ok found)
    (hused : ∀ step ∈ found, used (credentials world.db userId).lastStep step = true) :
    (verifyMfa env world choices input).1.isOk = false := by
  obtain ⟨user, hrun⟩ := h.run_totp hdecrypt hcode hfound
  rw [hrun]
  cases found with
  | none => rfl
  | some step =>
      rw [judge, if_pos (hused step rfl)]
      rfl

theorem Challenged.accepts (h : Challenged env world choices input userId totpSecretEnc)
    (hdecrypt : env.decrypt totpSecretEnc = .ok secret)
    (hcode : isSixDigits (JsString.trim input.code) = true)
    (hfound : verify env.createHmac env.toUpperCase (clockAt world choices 4) secret
      (JsString.trim input.code) = .ok (some step))
    (hfresh : used (credentials world.db userId).lastStep step = false) :
    (verifyMfa env world choices input).1.isOk = true ∧
      credentials (verifyMfa env world choices input).2.db userId =
        (credentials world.db userId).patch { lastStep := some (some step) } := by
  obtain ⟨user, hrun⟩ := h.run_totp hdecrypt hcode hfound
  rw [hrun, judge, if_neg (by simp [hfresh])]
  exact run_of_wp (wp_accept env { world with clock := clockAt world choices 4 } h.ne_empty user _) _

-- The first step that has the code, and whether it is fresh.
theorem isSmallest_cases {now : ℤ} {code : String} {found : Option ℤ}
    (h : IsSmallest (fun step => codeAt env.createHmac env.toUpperCase secret step = code)
      (window now) found) :
    (∃ step, found = some step ∧ HasCode env now secret code step ∧
      ∀ other, HasCode env now secret code other → step ≤ other) ∨
    found = none ∧ ∀ step, ¬HasCode env now secret code step := by
  cases found with
  | none => exact .inr ⟨rfl, fun step hstep => h step hstep.1 hstep.2⟩
  | some step => exact .inl ⟨step, rfl, ⟨h.1, h.2.1⟩, fun other hother => h.2.2 other hother.1 hother.2⟩

theorem used_of_le {lastStep : Option ℤ} {step other : ℤ} (hle : step ≤ other)
    (h : used lastStep other = true) : used lastStep step = true := by
  cases lastStep with
  | none => cases h
  | some last =>
      simp only [used, Option.any_some, decide_eq_true_eq] at h ⊢
      omega

theorem acceptsFresh_of_rejected {fresh : ℤ → Prop}
    (hrejects : (verifyMfa env world choices input).1.isOk = false) (hnone : ¬∃ step, fresh step) :
    AcceptsFresh env world choices input userId fresh where
  accepted := iff_of_false (by simp [hrejects]) hnone
  stored hok := by
    rw [hrejects] at hok
    cases hok

-- Every fresh code is accepted if and only if no used step of the window shares it.
theorem acceptsFresh_iff (env : Environment) (world : World) (choices : ℕ → Choice)
    (input : VerifyMfaInput) (userId : Id) (totpSecretEnc secret : String)
    (h : Challenged env world choices input userId totpSecretEnc)
    (hdecrypt : env.decrypt totpSecretEnc = .ok secret)
    (hnow : STEP_SECONDS * 1000 ≤ clockAt world choices 4)
    (hcode : isSixDigits (JsString.trim input.code) = true) :
    AcceptsFresh env world choices input userId
      (IsFresh env (clockAt world choices 4) secret (JsString.trim input.code)
        (credentials world.db userId).lastStep) ↔
      ¬Shadowed env (clockAt world choices 4) secret (JsString.trim input.code)
        (credentials world.db userId).lastStep := by
  obtain ⟨found, hfound, hsmallest⟩ :=
    (searches env.createHmac env.toUpperCase secret hnow hcode).smallest
  rcases isSmallest_cases hsmallest with ⟨step, rfl, hstep, hleast⟩ | ⟨rfl, hnone⟩
  · cases hused : used (credentials world.db userId).lastStep step with
    | false =>
        -- Then all steps that have the code are fresh.
        have hfresh : IsFresh env (clockAt world choices 4) secret (JsString.trim input.code)
            (credentials world.db userId).lastStep step := ⟨hstep, hused⟩
        have haccepts := h.accepts hdecrypt hcode hfound hused
        refine iff_of_true ⟨iff_of_true haccepts.1 ⟨step, hfresh⟩, fun _ => ⟨step, hfresh, haccepts.2⟩⟩ ?_
        rintro ⟨-, other, hother, hotherUsed⟩
        rw [used_of_le (hleast other hother) hotherUsed] at hused
        cases hused
    | true =>
        have hrejects := h.rejects hdecrypt hcode hfound fun _ h => Option.some.inj h ▸ hused
        refine ⟨fun haccepts hshadowed => ?_, fun hshadowed => ?_⟩
        · rw [haccepts.accepted.mpr hshadowed.1] at hrejects
          cases hrejects
        · exact acceptsFresh_of_rejected hrejects fun hfresh => hshadowed ⟨hfresh, step, hstep, hused⟩
  · have hrejects := h.rejects hdecrypt hcode hfound (by simp)
    have hfresh : ¬∃ step, IsFresh env (clockAt world choices 4) secret (JsString.trim input.code)
        (credentials world.db userId).lastStep step := fun ⟨step, hstep, _⟩ => hnone step hstep
    exact iff_of_true (acceptsFresh_of_rejected hrejects hfresh) fun hshadowed => hfresh hshadowed.1

-- The code of step 100, when step 99 was the last one.
theorem acceptsFresh_next :
    AcceptsFresh Demo.parity (Demo.since 99) (fun _ => Demo.choice "iv")
      { mfaToken := "u1", code := " 000000 " } "u1" (IsFresh Demo.parity 3000005 "AAAA" "000000"
        (some 99)) := by
  refine (acceptsFresh_iff Demo.parity (Demo.since 99) (fun _ => Demo.choice "iv")
    { mfaToken := "u1", code := " 000000 " } "u1" "iv.AAAA" "AAAA" ⟨rfl, rfl⟩ (by decide +kernel)
    (by decide +kernel) (by decide +kernel)).mpr ?_
  rintro ⟨-, step, ⟨hwindow, hcode⟩, hused⟩
  have hall : ∀ step ∈ window 3000005, used (some 99) step = true →
      codeAt Demo.parity.createHmac Demo.parity.toUpperCase "AAAA" step ≠ "000000" := by
    decide +kernel
  exact hall step hwindow hused hcode

-- Step 100 was used, and 99 and 101 have one code: it is refused, though 101 was not used.
theorem acceptsFresh_fails :
    ¬∀ (env : Environment) (world : World) (choices : ℕ → Choice) (input : VerifyMfaInput)
      (userId : Id) (totpSecretEnc secret : String),
        Challenged env world choices input userId totpSecretEnc →
          env.decrypt totpSecretEnc = .ok secret →
            STEP_SECONDS * 1000 ≤ clockAt world choices 4 →
              isSixDigits (JsString.trim input.code) = true →
                AcceptsFresh env world choices input userId
                  (IsFresh env (clockAt world choices 4) secret (JsString.trim input.code)
                    (credentials world.db userId).lastStep) := by
  intro h
  have haccepts := (h Demo.parity (Demo.since 100) (fun _ => Demo.choice "iv")
    { mfaToken := "u1", code := "000001" } "u1" "iv.AAAA" "AAAA" ⟨rfl, rfl⟩ (by decide +kernel)
    (by decide +kernel) (by decide +kernel)).accepted
  have hfresh : IsFresh Demo.parity 3000005 "AAAA" "000001" (some 100) 101 := by
    refine ⟨⟨?_, ?_⟩, ?_⟩ <;> decide +kernel
  exact absurd (haccepts.mpr ⟨101, hfresh⟩) (by decide +kernel)

end SmartParking.Auth
