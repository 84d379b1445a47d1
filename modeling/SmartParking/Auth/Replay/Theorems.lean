import SmartParking.Auth.Replay
import SmartParking.Auth.Specs
import Mathlib.Data.List.Induction

namespace SmartParking.Auth

open Async Program

variable {Tid : Type} {env : Environment} {userId : Id} {initial : Option ℤ} {history : History Tid}
  {thread : Tid} {world : World} {ghosts : Tid → Option (Option ℤ)}

theorem acceptance_of_ne {call : Call} (h : ∀ patch, call ≠ .updateMfa userId patch)
    (answer : Except Fault (Answer call)) :
    acceptance userId (⟨thread, call, answer⟩ : Event Tid Call Answer Fault) = none := by
  cases call with
  | updateMfa id patch =>
      cases answer with
      | ok value =>
          have hid : id ≠ userId := fun hid => h patch (hid ▸ rfl)
          exact if_neg hid
      | error err => rfl
  | _ => rfl

theorem acceptance_of_lastStep {id : Id} {patch : MfaCredentialsPatch} (h : patch.lastStep = none)
    (answer : Except Fault Unit) :
    acceptance userId (⟨thread, .updateMfa id patch, answer⟩ : Event Tid Call Answer Fault) =
      none := by
  cases answer with
  | ok value => simp [acceptance, h]
  | error err => rfl

theorem steps_cons {event : Event Tid Call Answer Fault} (h : acceptance userId event = none) :
    steps userId initial (event :: history) = steps userId initial history := by
  simp only [steps, accepted, List.filterMap_cons, h]

theorem steps_cons_some {event : Event Tid Call Answer Fault} {other : Tid} {step : ℤ}
    (h : acceptance userId event = some (other, step)) :
    steps userId initial (event :: history) = step :: steps userId initial history := by
  simp only [steps, accepted, List.filterMap_cons, h, List.map_cons, List.cons_append]

theorem overtaken_cons {event : Event Tid Call Answer Fault} {step : ℤ}
    (h : acceptance userId event = none) :
    Overtaken userId thread step (event :: history) ↔ Overtaken userId thread step history := by
  refine since_cons_iff ?_
  rintro ⟨other, later, hevent, -⟩
  rw [h] at hevent
  cases hevent

-- A call that neither accepts a code nor changes the last step keeps the invariant.
theorem Ordered.quiet (h : Ordered userId initial world history ghosts) {world' : World}
    {event : Event Tid Call Answer Fault} (hevent : acceptance userId event = none)
    (hworld : (credentials world'.db userId).lastStep = (credentials world.db userId).lastStep) :
    Ordered userId initial world' (event :: history) ghosts where
  stored := by rw [hworld, h.stored, steps_cons hevent]
  sorted := by rw [steps_cons hevent]; exact h.sorted
  looked := by
    intro thread found hf
    obtain ⟨look, hm, hlook⟩ := h.looked thread found hf
    exact ⟨look, List.mem_cons_of_mem _ hm, hlook⟩
  read := by
    intro thread found hf step hused hover
    rw [steps_cons hevent]
    exact h.read thread found hf step hused fun ho => hover ((overtaken_cons hevent).mpr ho)

-- What is stored is the greatest of the steps so far.
theorem Ordered.le_of_stored (h : Ordered userId initial world history ghosts) {step : ℤ}
    (hused : used (credentials world.db userId).lastStep step = false) :
    ∀ earlier ∈ steps userId initial history, earlier < step := by
  rw [h.stored] at hused
  have hsorted := h.sorted
  revert hused hsorted
  cases steps userId initial history with
  | nil => intro _ _ earlier he; cases he
  | cons last rest =>
      intro hused hsorted earlier he
      have hlast : last < step := by simpa [used] using hused
      rcases List.mem_cons.mp he with rfl | he
      · exact hlast
      · exact lt_trans ((List.pairwise_cons.mp hsorted).1 earlier he) hlast

variable [DecidableEq Tid]

-- A lookup is remembered.
theorem Ordered.lookup (h : Ordered userId initial world history ghosts) {world' : World}
    {event : Event Tid Call Answer Fault} (hevent : acceptance userId event = none)
    (hworld : (credentials world'.db userId).lastStep = (credentials world.db userId).lastStep)
    (hlook : LooksUp userId thread event) {found : Option ℤ}
    (hfound : found = (credentials world.db userId).lastStep) :
    Ordered userId initial world' (event :: history)
      (Function.update ghosts thread (some found)) where
  stored := (h.quiet hevent hworld).stored
  sorted := (h.quiet hevent hworld).sorted
  looked := by
    intro other ghost hg
    by_cases ho : other = thread
    · subst ho
      exact ⟨event, List.mem_cons_self, hlook⟩
    · rw [Function.update_of_ne ho] at hg
      exact (h.quiet hevent hworld).looked other ghost hg
  read := by
    intro other ghost hg step hused hover
    by_cases ho : other = thread
    · subst ho
      rw [Function.update_self] at hg
      cases hg
      rw [steps_cons hevent]
      exact h.le_of_stored (hfound ▸ hused)
    · rw [Function.update_of_ne ho] at hg
      exact (h.quiet hevent hworld).read other ghost hg step hused hover

-- The write of a step after all others.
theorem Ordered.accept (h : Ordered userId initial world history ghosts) {world' : World}
    {event : Event Tid Call Answer Fault} {step : ℤ}
    (hevent : acceptance userId event = some (thread, step))
    (hworld : (credentials world'.db userId).lastStep = some step)
    (hlast : ∀ earlier ∈ steps userId initial history, earlier < step) :
    Ordered userId initial world' (event :: history) (Function.update ghosts thread none) where
  stored := by rw [hworld, steps_cons_some hevent, List.head?_cons]
  sorted := by
    rw [steps_cons_some hevent, List.pairwise_cons]
    exact ⟨hlast, h.sorted⟩
  looked := by
    intro other ghost hg
    by_cases ho : other = thread
    · subst ho
      rw [Function.update_self] at hg
      cases hg
    · rw [Function.update_of_ne ho] at hg
      obtain ⟨look, hm, hlook⟩ := h.looked other ghost hg
      exact ⟨look, List.mem_cons_of_mem _ hm, hlook⟩
  read := by
    intro other ghost hg later hused hover
    by_cases ho : other = thread
    · subst ho
      rw [Function.update_self] at hg
      cases hg
    · rw [Function.update_of_ne ho] at hg
      obtain ⟨look, hm, hlook⟩ := h.looked other ghost hg
      have hstep : step < later := by
        by_contra hle
        exact hover (.inl ⟨⟨thread, step, hevent, Ne.symm ho, not_lt.mp hle⟩, look, hm, hlook⟩)
      rw [steps_cons_some hevent]
      rintro earlier (_ | ⟨_, he⟩)
      · exact hstep
      · exact h.read other ghost hg later hused (fun h => hover (.inr h)) earlier he

-- The calls of an execution, and the execution.

abbrev Replays (env : Environment) (userId : Id) (initial : Option ℤ) (thread : Tid) {α : Type}
    (p : Port α) (ghost : Option (Option ℤ)) (post : Except Fault α → Option (Option ℤ) → Prop) :
    Prop :=
  Safe (serve env) (InOrder userId) (Ordered userId initial) thread p ghost post

def Call.KeepsLastStep : Call → Prop := Call.OnlyPatches (·.lastStep = none)

omit [DecidableEq Tid] in
theorem acceptance_keeps {call : Call} (hcall : call.KeepsLastStep ∨ call.Spares userId)
    (answer : Except Fault (Answer call)) :
    acceptance userId (⟨thread, call, answer⟩ : Event Tid Call Answer Fault) = none := by
  rcases hcall with hcall | hcall
  · cases call with
    | updateMfa id patch => exact acceptance_of_lastStep hcall answer
    | _ => rfl
  · exact acceptance_of_ne hcall answer

theorem lastStep_keeps {call : Call} (hcall : call.KeepsLastStep ∨ call.Spares userId)
    (choice : Choice) (world : World) :
    (credentials (serve env choice world call).2.db userId).lastStep =
      (credentials world.db userId).lastStep := by
  by_cases hspares : call.Spares userId
  · exact congrArg MfaCredentials.lastStep (credentials_query hspares)
  · obtain ⟨patch, rfl⟩ : ∃ patch, call = .updateMfa userId patch := by
      simpa [Call.Spares] using hspares
    have hpatch : patch.lastStep = none := hcall.resolve_right hspares
    rcases serve_updateMfa_cases env choice world userId patch with
      ⟨world', hs, hdb⟩ | ⟨err, world', hs, hdb, -⟩
    · rw [hs, hdb, if_pos rfl, MfaCredentials.patch, hpatch]
      rfl
    · rw [hs, hdb]

omit [DecidableEq Tid] in
theorem quiet_keeps {call : Call} (hcall : call.KeepsLastStep ∨ call.Spares userId) :
    Quiet (serve env) (InOrder userId) (Ordered userId initial) thread call :=
  fun _ _ _ _ h _ => h.quiet (acceptance_keeps hcall _) (lastStep_keeps hcall _ _)

theorem replays_of_uses {α : Type} {p : Port α}
    (hp : p.Uses fun call => call.KeepsLastStep ∨ call.Spares userId) (ghost : Option (Option ℤ)) :
    Replays env userId initial thread p ghost fun _ _ => True :=
  safe_mono (safe_of_quiet (fun _ => quiet_keeps) hp ghost) fun _ _ _ => trivial

theorem replays_ask_bind {call : Call} {α : Type} {f : Answer call → Port α}
    {ghost : Option (Option ℤ)} (hcall : call.KeepsLastStep ∨ call.Spares userId)
    (hok : ∀ value, Replays env userId initial thread (f value) ghost fun _ _ => True) :
    Replays env userId initial thread (ask call >>= f) ghost fun _ _ => True := by
  refine safe_quiet_bind (quiet_keeps hcall) fun choice world => ?_
  cases (serve env choice world call).1 with
  | ok value => exact hok value
  | error err => trivial

theorem replays_consumeTotp (found : Option ℤ) (totpSecretEnc code : String) :
    Replays env userId initial thread
      (VerifyMfaUseCase.consumeTotp userId found totpSecretEnc code) (some found)
      fun _ _ => True := by
  refine replays_ask_bind (.inl trivial) fun secret => ?_
  refine replays_ask_bind (.inl trivial) fun step => ?_
  cases step with
  | none => trivial
  | some step =>
      dsimp only
      split
      next => trivial
      next hused =>
        refine safe_perform_bind fun world history ghosts choice hghost h hguard => ?_
        have hlast := h.read thread found hghost step (Bool.eq_false_of_not_eq_true hused)
          (hguard _ step rfl rfl)
        rcases serve_updateMfa_cases env choice world userId { lastStep := some (some step) } with
          ⟨world', hs, hdb⟩ | ⟨err, world', hs, hdb, -⟩
        · refine ⟨none, ?_, ?_⟩
          · rw [hs]
            exact h.accept (by simp [acceptance]) (by rw [hdb, if_pos rfl]; rfl) hlast
          · rw [hs]
            trivial
        · refine ⟨some found, ?_, ?_⟩
          · rw [hs, ← hghost, Function.update_eq_self]
            exact h.quiet rfl (by rw [hdb])
          · rw [hs]
            trivial

theorem replays_bind {α β : Type} {p : Port α} {f : α → Port β} {ghost : Option (Option ℤ)}
    (hp : Replays env userId initial thread p ghost fun _ _ => True)
    (hf : ∀ value ghost', Replays env userId initial thread (f value) ghost' fun _ _ => True) :
    Replays env userId initial thread (p >>= f) ghost fun _ _ => True := by
  refine safe_bind (fun _ _ => True) (safe_mono hp fun result _ _ => ?_) fun value ghost' _ =>
    hf value ghost'
  cases result <;> trivial

theorem replays_consume (other : Id) (found : MfaCredentials) (totpSecretEnc code : String)
    {ghost : Option (Option ℤ)} (hghost : other = userId → ghost = some found.lastStep) :
    Replays env userId initial thread
      (VerifyMfaUseCase.consume env other found totpSecretEnc code) ghost fun _ _ => True := by
  unfold VerifyMfaUseCase.consume VerifyMfaUseCase.consumeBackupCode
  split
  · by_cases hid : other = userId
    · rw [hghost hid, hid]
      exact replays_consumeTotp found.lastStep totpSecretEnc code
    · refine replays_of_uses (uses_consumeTotp (fun _ => .inl trivial) (fun _ _ => .inl trivial)
        (fun step => .inr fun patch heq => ?_) _ _ _) ghost
      exact hid (Call.updateMfa.inj heq).1
  · exact replays_of_uses (uses_tryHashes (fun _ _ => .inl trivial) (fun _ => .inl rfl) _ _ _ _)
      ghost

theorem replays_withCredentials (other : Id) (code : String)
    (found : Option User × Option MfaCredentials) {ghost : Option (Option ℤ)}
    (hghost : other = userId →
      ∀ credentials, found.2 = some credentials → ghost = some credentials.lastStep) :
    Replays env userId initial thread (VerifyMfaUseCase.withCredentials env other code found) ghost
      fun _ _ => True := by
  unfold VerifyMfaUseCase.withCredentials
  split
  next user credentials =>
    split
    next => trivial
    next totpSecretEnc _ =>
      refine replays_bind (replays_consume other credentials totpSecretEnc _
        fun hid => hghost hid credentials rfl) fun accepted ghost' => ?_
      split
      · exact replays_of_uses (uses_issueAccessSession (fun _ => .inl trivial) user) ghost'
      · trivial
  next => trivial

-- The two lookups, of which the second one is remembered.
theorem replays_lookups (other : Id) (code : String) :
    Replays env userId initial thread
      ((users.findById other).both (users.findMfaCredentials other) >>=
        VerifyMfaUseCase.withCredentials env other code) none fun _ _ => True := by
  have hkeeps : (Call.findById other).KeepsLastStep := trivial
  have hkeeps' : (Call.findMfaCredentials other).KeepsLastStep := trivial
  refine safe_await_quiet (quiet_keeps (.inl hkeeps)) fun choice world => ?_
  by_cases hid : other = userId
  · intro world' history ghosts choice' hghost h _
    refine ⟨some (credentials world'.db userId).lastStep, ?_, ?_⟩
    · exact h.lookup (acceptance_keeps (.inl hkeeps') _) (lastStep_keeps (.inl hkeeps') _ _)
        ⟨rfl, by rw [hid]⟩ rfl
    · refine replays_withCredentials other code (PrismaUserRepository.findById world.db other,
        PrismaUserRepository.findMfaCredentials world'.db other) fun _ found hfound => ?_
      rw [← hid, credentials, show PrismaUserRepository.findMfaCredentials world'.db other =
        some found from hfound, Option.getD_some]
  · refine safe_await_quiet (quiet_keeps (.inl hkeeps')) fun choice' world' => ?_
    exact replays_withCredentials other code (PrismaUserRepository.findById world.db other,
      PrismaUserRepository.findMfaCredentials world'.db other) fun h => absurd h hid

theorem replays_execute (input : VerifyMfaInput) :
    Replays env userId initial thread (VerifyMfaUseCase.execute env input) none
      fun _ _ => True := by
  refine safe_bind (fun _ ghost => ghost = none) ?_ ?_
  · have huses : (VerifyMfaUseCase.challenge input.mfaToken).Uses Call.KeepsLastStep :=
      uses_challenge input.mfaToken
    refine safe_mono (safe_of_quiet (fun _ h => quiet_keeps (.inl h)) huses none) ?_
    rintro (_ | _) ghost hghost
    · trivial
    · exact hghost
  · rintro other _ rfl
    exact replays_lookups other input.code

-- The invariant along the runs in order.
theorem ordered_of_follows (env : Environment) (userId : Id) (world : World)
    (inputs : Tid → VerifyMfaInput) {schedule : List (Tid × Choice)}
    (h : (Verifications.start env world inputs).Follows (serve env) (InOrder userId) schedule) :
    ∃ ghosts, Ordered userId (credentials world.db userId).lastStep
      ((Verifications.start env world inputs).play (serve env) schedule).world
      ((Verifications.start env world inputs).play (serve env) schedule).history ghosts := by
  have hstart : Ordered userId (credentials world.db userId).lastStep world []
      fun _ : Tid => none := by
    refine ⟨?_, ?_, nofun, nofun⟩
    · cases (credentials world.db userId).lastStep <;> rfl
    · cases (credentials world.db userId).lastStep <;> simp [steps, accepted]
  obtain ⟨ghosts, hinv, -⟩ := (Pool.reaches_of_follows .refl h).invariant
    (Ordered userId (credentials world.db userId).lastStep) (fun _ _ _ => True) hstart
    fun thread => replays_execute (inputs thread)
  exact ⟨ghosts, hinv⟩

omit [DecidableEq Tid] in
theorem mem_steps {other : Tid} {step : ℤ} (h : (other, step) ∈ accepted userId history) :
    step ∈ steps userId initial history :=
  List.mem_append_left _ (List.mem_map_of_mem h)

-- Steps that only grow are accepted once.
omit [DecidableEq Tid] in
theorem Ordered.once (h : Ordered userId initial world history ghosts) {step : ℤ}
    {thread thread' : Tid} (hm : (thread, step) ∈ accepted userId history)
    (hm' : (thread', step) ∈ accepted userId history) : thread = thread' := by
  have hnodup : ((accepted userId history).map Prod.snd).Nodup :=
    ((List.pairwise_append.mp h.sorted).1).imp fun hgt => ne_of_gt hgt
  exact congrArg Prod.fst (List.inj_on_of_nodup_map hnodup hm hm' rfl)

omit [DecidableEq Tid] in
theorem Ordered.le_head (h : Ordered userId initial world history ghosts) {step : ℤ}
    (hm : step ∈ steps userId initial history) :
    ∃ last ∈ (credentials world.db userId).lastStep, step ≤ last := by
  rw [h.stored]
  have hsorted := h.sorted
  revert hm hsorted
  cases steps userId initial history with
  | nil => intro hm; cases hm
  | cons last rest =>
      intro hm hsorted
      refine ⟨last, rfl, ?_⟩
      rcases List.mem_cons.mp hm with rfl | hm
      · exact le_refl _
      · exact le_of_lt ((List.pairwise_cons.mp hsorted).1 step hm)

-- Along a step of a run in order the last step grows.
omit [DecidableEq Tid] in
theorem Ordered.grows (h : Ordered userId initial world history ghosts) {world' : World}
    {history' : History Tid} {ghosts' : Tid → Option (Option ℤ)}
    (h' : Ordered userId initial world' history' ghosts') (hgrown : history <:+ history') {old : ℤ}
    (hold : old ∈ (credentials world.db userId).lastStep) :
    ∃ new ∈ (credentials world'.db userId).lastStep, old ≤ new := by
  refine h'.le_head ?_
  have hmem : old ∈ steps userId initial history := by
    rw [h.stored] at hold
    exact List.mem_of_mem_head? hold
  obtain ⟨recent, rfl⟩ := hgrown
  have hsteps : steps userId initial (recent ++ history) =
      (accepted userId recent).map Prod.snd ++ steps userId initial history := by
    simp [steps, accepted]
  exact hsteps ▸ List.mem_append_right _ hmem

theorem antiReplay_of_follows {inputs : Tid → VerifyMfaInput} {schedule : List (Tid × Choice)}
    (h : (Verifications.start env world inputs).Follows (serve env) (InOrder userId) schedule) :
    AntiReplay env userId (Verifications.start env world inputs) schedule where
  once step thread thread' hm hm' := by
    obtain ⟨ghosts, hordered⟩ := ordered_of_follows env userId world inputs h
    exact hordered.once hm hm'
  grows := by
    rintro past turn ⟨rest, rfl⟩ old hold
    have hnext := (Pool.follows_append.mp h).1
    obtain ⟨ghosts, hordered⟩ :=
      ordered_of_follows env userId world inputs (Pool.follows_append.mp hnext).1
    obtain ⟨ghosts', hordered'⟩ := ordered_of_follows env userId world inputs hnext
    refine hordered.grows hordered' ?_ hold
    rw [Pool.play_append]
    exact Pool.history_suffix_step turn.1 turn.2

-- A write out of order is accepted twice, or lowers the last step.
theorem not_antiReplay_of_overtaken {first : Verifications Tid} {past : List (Tid × Choice)}
    {turn : Tid × Choice} {patch : MfaCredentialsPatch} {step : ℤ}
    {next : Except Fault Unit → Port LoginUserResult}
    (hordered : Ordered userId initial (first.play (serve env) past).world
      (first.play (serve env) past).history ghosts)
    (hthread : (first.play (serve env) past).threads turn.1 =
      .await (.updateMfa userId patch) next)
    (hstep : patch.lastStep = some (some step))
    (hover : Overtaken userId turn.1 step (first.play (serve env) past).history) :
    ¬AntiReplay env userId first (past ++ [turn]) := by
  intro hanti
  obtain ⟨event, hm, other, later, hevent, hother, hle⟩ := exists_of_since hover
  have hearlier : (other, later) ∈ accepted userId (first.play (serve env) past).history :=
    List.mem_filterMap.mpr ⟨event, hm, hevent⟩
  obtain ⟨last, hlast, hlater⟩ := hordered.le_head (mem_steps hearlier)
  have hplay : first.play (serve env) (past ++ [turn]) =
      (first.play (serve env) past).step (serve env) turn.1 turn.2 := Pool.play_append _ _
  obtain ⟨new, hnew, hgrows⟩ := hanti.grows past turn (List.prefix_refl _) last hlast
  have honce := hanti.once step turn.1 other
  rw [hplay] at hnew honce
  unfold Pool.step lastStep at hnew
  unfold Pool.step at honce
  rw [hthread] at hnew honce
  rcases serve_updateMfa_cases env turn.2 (first.play (serve env) past).world userId patch with
    ⟨world', hs, hdb⟩ | ⟨err, world', hs, hdb, hempty⟩
  · have hpatched : (credentials world'.db userId).lastStep = some step := by
      rw [hdb, if_pos rfl, MfaCredentials.patch, hstep]
      rfl
    have haccepted : accepted userId (⟨turn.1, .updateMfa userId patch, .ok ()⟩ ::
        (first.play (serve env) past).history) =
          (turn.1, step) :: accepted userId (first.play (serve env) past).history := by
      simp [accepted, acceptance, hstep]
    simp only [hs, hpatched, Option.mem_def, Option.some.injEq] at hnew
    subst hnew
    obtain rfl : later = step := le_antisymm (hlater.trans hgrows) hle
    simp only [hs, haccepted] at honce
    exact hother (honce List.mem_cons_self (List.mem_cons_of_mem _ hearlier)).symm
  · rw [hempty] at hlast
    cases hlast

theorem follows_of_antiReplay {inputs : Tid → VerifyMfaInput} {schedule : List (Tid × Choice)}
    (h : AntiReplay env userId (Verifications.start env world inputs) schedule) :
    (Verifications.start env world inputs).Follows (serve env) (InOrder userId) schedule := by
  induction schedule using List.reverseRecOn with
  | nil => trivial
  | append_singleton past turn ih =>
      have hpast : AntiReplay env userId (Verifications.start env world inputs) past := by
        constructor
        · intro step thread thread' hm hm'
          have hgrown : accepted userId
              ((Verifications.start env world inputs).play (serve env) past).history ⊆
              accepted userId ((Verifications.start env world inputs).play (serve env)
                (past ++ [turn])).history := by
            rw [Pool.play_append]
            exact List.filterMap_subset _ (Pool.history_step turn.1 turn.2)
          exact h.once step thread thread' (hgrown hm) (hgrown hm')
        · exact fun before last hp => h.grows before last (hp.trans (List.prefix_append _ _))
      have hfollows := ih hpast
      obtain ⟨ghosts, hordered⟩ := ordered_of_follows env userId world inputs hfollows
      refine Pool.follows_append.mpr ⟨hfollows, ?_, trivial⟩
      unfold Pool.Meets
      split
      next => trivial
      next call next hthread =>
        rintro patch step rfl hstep hover
        exact not_antiReplay_of_overtaken hordered hthread hstep hover h

-- VerifyMfa resists replay in the runs in order, and in no others.
theorem antiReplay_iff (env : Environment) (userId : Id) (world : World)
    (inputs : Tid → VerifyMfaInput) (schedule : List (Tid × Choice)) :
    AntiReplay env userId (Verifications.start env world inputs) schedule ↔
      (Verifications.start env world inputs).Follows (serve env) (InOrder userId) schedule :=
  ⟨follows_of_antiReplay, antiReplay_of_follows⟩

-- A code that is sent twice at the same time.
theorem antiReplay_fails :
    ¬∀ (env : Environment) (userId : Id) (world : World) (inputs : Fin 2 → VerifyMfaInput)
      (schedule : List (Fin 2 × Choice)), (credentials world.db userId).active.isSome = true →
        (∀ thread, isSixDigits (JsString.trim (inputs thread).code) = true) →
          AntiReplay env userId (Verifications.start env world inputs) schedule := by
  intro h
  let user := { Demo.user with mfaEnabled := true, totpSecretEnc := some "iv.AAAA" }
  have hanti := h Demo.env "u1" (Demo.world user)
    (fun _ => { mfaToken := "u1", code := "000000" })
    (List.replicate 5 (0, Demo.choice "iv") ++ List.replicate 7 (1, Demo.choice "iv") ++
      List.replicate 2 (0, Demo.choice "iv")) (by decide +kernel) (by decide +kernel)
  exact absurd (hanti.once 99 0 1 (by decide +kernel) (by decide +kernel)) (by decide)

end SmartParking.Auth
