import SmartParking.Json.RoundTrip
import SmartParking.Notifications.Mailing
import Mathlib.Data.List.Flatten

namespace SmartParking.Notifications

open Async

variable {host : Host} {settings : Settings} {event : ReservationConfirmationEvent} {mail : Mail}

section Delivery

-- All the attempts of a delivery, from the one with so many left, and not before a time.
inductive Burst (mail : Mail) : (left : ℕ) → (earliest : ℤ) → List Attempt → Prop
  | accepted {left : ℕ} {earliest sentAt : ℤ} : earliest ≤ sentAt →
      Burst mail left earliest [⟨mail, sentAt, .accepted⟩]
  | last {earliest sentAt : ℤ} {smtp : Smtp} : earliest ≤ sentAt → smtp ≠ .accepted →
      Burst mail 0 earliest [⟨mail, sentAt, smtp⟩]
  | again {left : ℕ} {earliest sentAt : ℤ} {smtp : Smtp} {rest : List Attempt} :
      earliest ≤ sentAt → smtp ≠ .accepted →
      Burst mail left (sentAt + (RETRY_BASE_DELAY_MS * (MAX_SEND_ATTEMPTS - (left + 1)) : ℕ)) rest →
      Burst mail (left + 1) earliest (⟨mail, sentAt, smtp⟩ :: rest)

def sentOr (attempts : List Attempt) : Outcome :=
  if attempts.any (·.smtp = .accepted) then .sent else .failed

theorem send_enabled (hmail : buildEmail host settings event = some mail)
    (henabled : settings.enabled = true) :
    sendConfirmationEmail host settings event = Program.perform (Call.sendMail mail) := by
  simp only [sendConfirmationEmail, hmail, henabled, if_true]

-- What the mail server's record is after one more mail.
def World.after (world : World) (mail : Mail) (choice : Choice) : World where
  clock := world.clock + choice.elapsed
  attempts := world.attempts ++ [⟨mail, world.clock, choice.smtp⟩]

theorem wp_attempt {post : Except String Outcome → World → Prop} {world : World}
    {next : Except String Unit → Process Outcome}
    (hmail : buildEmail host settings event = some mail) (henabled : settings.enabled = true)
    (haccepted : ∀ choice, choice.smtp = .accepted →
      (next (.ok ())).wp serve (world.after mail choice) post)
    (hlost : ∀ choice error, choice.smtp ≠ .accepted →
      (next (.error error)).wp serve (world.after mail choice) post) :
    ((sendConfirmationEmail host settings event).settle >>= next).wp serve world post := by
  rw [send_enabled hmail henabled]
  intro choice
  by_cases h : choice.smtp = .accepted
  · have hserve : serve choice world (.sendMail mail) = (.ok (), world.after mail choice) := by
      simp only [serve, h, if_true, World.after]
    rw [hserve]
    exact haccepted choice h
  · have hserve : serve choice world (.sendMail mail) =
        (.error "Connection closed", world.after mail choice) := by
      simp only [serve, h, if_false, World.after]
    rw [hserve]
    exact hlost choice _ h

theorem wp_sendWithRetries (hmail : buildEmail host settings event = some mail)
    (henabled : settings.enabled = true) (left : ℕ) (earliest : ℤ) (world : World)
    (hclock : earliest ≤ world.clock) :
    (sendWithRetries host settings event left).wp serve world fun result world' =>
      ∃ attempts, Burst mail left earliest attempts ∧
        world'.attempts = world.attempts ++ attempts ∧ result = .ok (sentOr attempts) := by
  induction left generalizing earliest world with
  | zero =>
      refine wp_attempt hmail henabled (fun choice h => ?_) fun choice error h => ?_
      · rw [if_pos henabled]
        exact ⟨[⟨mail, world.clock, choice.smtp⟩], h ▸ .accepted hclock, rfl, by simp [sentOr, h]⟩
      · exact ⟨[⟨mail, world.clock, choice.smtp⟩], .last hclock h, rfl, by simp [sentOr, h]⟩
  | succ left ih =>
      refine wp_attempt hmail henabled (fun choice h => ?_) fun choice error h => ?_
      · rw [if_pos henabled]
        exact ⟨[⟨mail, world.clock, choice.smtp⟩], h ▸ .accepted hclock, rfl, by simp [sentOr, h]⟩
      · intro pause
        refine Program.wp_mono (ih (world.clock + (RETRY_BASE_DELAY_MS *
          (MAX_SEND_ATTEMPTS - (left + 1)) : ℕ)) _ ?_) ?_
        · have hlate := Int.natCast_nonneg choice.elapsed
          have hpause := Int.natCast_nonneg pause.elapsed
          simp only [serve, World.after]
          omega
        · rintro result world' ⟨attempts, hburst, hattempts, rfl⟩
          refine ⟨⟨mail, world.clock, choice.smtp⟩ :: attempts, .again hclock h hburst, ?_, ?_⟩
          · rw [hattempts]
            simp [World.after, serve]
          · simp [sentOr, h]

theorem wp_sendWithRetries_unmade (hmail : buildEmail host settings event = none) (left : ℕ)
    (world : World) : (sendWithRetries host settings event left).wp serve world
      fun result world' => world'.attempts = world.attempts ∧ result = .ok .failed := by
  have hsend : sendConfirmationEmail host settings event =
      throw "Cannot convert object to primitive value" := by
    simp only [sendConfirmationEmail, hmail]
  induction left generalizing world with
  | zero =>
      rw [sendWithRetries, hsend]
      exact ⟨rfl, rfl⟩
  | succ left ih =>
      rw [sendWithRetries, hsend]
      exact fun pause => ih _

theorem sendWithRetries_disabled (hmail : buildEmail host settings event = some mail)
    (hdisabled : settings.enabled = false) (left : ℕ) :
    sendWithRetries host settings event left = pure .skipped := by
  have hsend : sendConfirmationEmail host settings event = pure () := by
    simp [sendConfirmationEmail, hmail, hdisabled]
  cases left <;> rw [sendWithRetries, hsend] <;> simp [hdisabled] <;> rfl

variable {left : ℕ} {earliest : ℤ} {attempts : List Attempt}

theorem burst_same (h : Burst mail left earliest attempts) :
    ∀ attempt ∈ attempts, attempt.mail = mail := by
  induction h with
  | accepted _ => simp
  | last _ _ => simp
  | again _ _ _ ih => exact List.forall_mem_cons.mpr ⟨rfl, ih⟩

theorem burst_length (h : Burst mail left earliest attempts) :
    0 < attempts.length ∧ attempts.length ≤ left + 1 := by
  induction h with
  | accepted _ => simp
  | last _ _ => simp
  | again _ _ _ ih => simpa using ih.2

theorem burst_stops (h : Burst mail left earliest attempts) :
    ∀ attempt ∈ attempts.dropLast, attempt.smtp ≠ .accepted := by
  induction h with
  | accepted _ => simp
  | last _ _ => simp
  | again _ hsmtp hrest ih =>
      rw [List.dropLast_cons_of_ne_nil (List.ne_nil_of_length_pos (burst_length hrest).1)]
      exact List.forall_mem_cons.mpr ⟨hsmtp, ih⟩

theorem burst_finished (h : Burst mail left earliest attempts) :
    attempts.length = left + 1 ∨ ∃ attempt ∈ attempts, attempt.smtp = .accepted := by
  induction h with
  | accepted _ => exact .inr ⟨_, List.mem_singleton_self _, rfl⟩
  | last _ _ => exact .inl rfl
  | again _ _ _ ih =>
      rcases ih with hlength | ⟨attempt, hm, haccepted⟩
      · exact .inl (by simp [hlength])
      · exact .inr ⟨attempt, List.mem_cons_of_mem _ hm, haccepted⟩

theorem burst_earliest (h : Burst mail left earliest attempts) {first : Attempt}
    (hfirst : attempts[0]? = some first) : earliest ≤ first.sentAt := by
  cases h <;> cases hfirst <;> assumption

theorem burst_spaced (h : Burst mail left earliest attempts) (hleft : left < MAX_SEND_ATTEMPTS)
    (n : ℕ) (first second : Attempt) (hfirst : attempts[n]? = some first)
    (hsecond : attempts[n + 1]? = some second) :
    first.sentAt + (RETRY_BASE_DELAY_MS * (MAX_SEND_ATTEMPTS - left + n) : ℕ) ≤
      second.sentAt := by
  induction h generalizing n with
  | accepted _ => cases hsecond
  | last _ _ => cases hsecond
  | @again left _ _ _ _ _ _ hrest ih =>
      rw [List.getElem?_cons_succ] at hsecond
      cases n with
      | zero =>
          cases hfirst
          exact burst_earliest hrest hsecond
      | succ n =>
          have hnext := ih (Nat.lt_of_succ_lt hleft) n hfirst hsecond
          have hshift : MAX_SEND_ATTEMPTS - (left + 1) + (n + 1) = MAX_SEND_ATTEMPTS - left + n := by
            omega
          rwa [hshift]

theorem wellSent_of_burst (h : Burst mail (MAX_SEND_ATTEMPTS - 1) earliest attempts) :
    WellSent (some mail) attempts where
  same attempt hm := by rw [burst_same h attempt hm]
  few := (burst_length h).2
  stops := burst_stops h
  spaced n first second hfirst hsecond := by
    have hspaced := burst_spaced h (by decide) n first second hfirst hsecond
    rwa [show MAX_SEND_ATTEMPTS - (MAX_SEND_ATTEMPTS - 1) + n = n + 1 from Nat.add_comm 1 n]
      at hspaced

theorem wellSent_nil (mail : Option Mail) : WellSent mail [] where
  same := nofun
  few := Nat.zero_le _
  stops := nofun
  spaced := nofun

theorem wellSent_of_prefix {mail : Option Mail} {start rest : List Attempt}
    (h : WellSent mail (start ++ rest)) : WellSent mail start where
  same attempt hm := h.same attempt (List.mem_append_left _ hm)
  few := (List.prefix_append _ _).length_le.trans h.few
  stops attempt hm := by
    refine h.stops attempt ?_
    rw [List.dropLast_append]
    split
    · exact hm
    · exact List.mem_append_left _ (List.dropLast_subset _ hm)
  spaced n first second hfirst hsecond := by
    have hplace {n : ℕ} {attempt : Attempt} (h : start[n]? = some attempt) :
        (start ++ rest)[n]? = some attempt := by
      rw [List.getElem?_append_left (List.getElem?_eq_some_iff.mp h).1, h]
    exact h.spaced n first second (hplace hfirst) (hplace hsecond)

theorem verdict_of_mail {value : Option (List UInt8)} (hevent : event? value = some event)
    (hmail : buildEmail host settings event = some mail) (henabled : settings.enabled = true)
    (attempts : List Attempt) : verdict host settings value attempts = sentOr attempts := by
  simp only [verdict, hevent, hmail, henabled, if_true, sentOr]

-- What a delivery gives the mail server, and what it comes to.
theorem wp_processMessage (host : Host) (settings : Settings) (value : Option (List UInt8))
    (world : World) :
    (processMessage host settings value).wp serve world fun result world' =>
      ∃ attempts, world'.attempts = world.attempts ++ attempts ∧
        WellSent (mail? host settings value) attempts ∧
        Finished (mail? host settings value) attempts ∧
        result = .ok (verdict host settings value attempts) := by
  have hnothing {world' : World} {outcome : Outcome} (hno : mail? host settings value = none)
      (hworld : world'.attempts = world.attempts) (hverdict : verdict host settings value [] = outcome) :
      ∃ attempts, world'.attempts = world.attempts ++ attempts ∧
        WellSent (mail? host settings value) attempts ∧
        Finished (mail? host settings value) attempts ∧
        Except.ok outcome = (.ok (verdict host settings value attempts) : Except String Outcome) := by
    refine ⟨[], ?_, wellSent_nil _, fun h => ?_, by rw [hverdict]⟩
    · rw [hworld, List.append_nil]
    · rw [hno] at h
      cases h
  cases hevent : event? value with
  | none =>
      rw [processMessage, hevent]
      exact hnothing (by simp [mail?, hevent]) rfl (by simp only [verdict, hevent])
  | some event =>
      rw [processMessage, hevent]
      cases hmail : buildEmail host settings event with
      | none =>
          refine Program.wp_mono (wp_sendWithRetries_unmade hmail _ world) ?_
          rintro result world' ⟨hworld, rfl⟩
          exact hnothing (by simp [mail?, hevent, hmail]) hworld (by simp only [verdict, hevent, hmail])
      | some mail =>
          cases henabled : settings.enabled with
          | false =>
              dsimp only
              rw [sendWithRetries_disabled hmail henabled]
              exact hnothing (by simp [mail?, henabled]) rfl
                (by simp [verdict, hevent, hmail, henabled])
          | true =>
              have hasked : mail? host settings value = some mail := by
                simp [mail?, hevent, hmail, henabled]
              refine Program.wp_mono
                (wp_sendWithRetries hmail henabled _ world.clock world le_rfl) ?_
              rintro result world' ⟨attempts, hburst, hworld, rfl⟩
              rw [hasked]
              refine ⟨attempts, hworld, wellSent_of_burst hburst, fun _ => burst_finished hburst, ?_⟩
              rw [verdict_of_mail hevent hmail henabled]

-- The record only grows.
theorem serve_grows (choice : Choice) (world : World) (call : Call) :
    world.attempts <+: (serve choice world call).2.attempts := by
  cases call with
  | sendMail mail =>
      simp only [serve]
      split <;> exact List.prefix_append _ _
  | sleep ms => exact List.prefix_rfl

end Delivery

section Run

variable {messages : List (Option (List UInt8))} {consumer : Consumer} {delivery : Delivery}
  {value : Option (List UInt8)}

-- What one delivery of a message does.
structure Delivered (host : Host) (settings : Settings) (value : Option (List UInt8))
    (delivery : Delivery) (before after : Consumer) (attempts : List Attempt) : Prop where
  given : after.world.attempts = before.world.attempts ++ attempts
  wellSent : WellSent (mail? host settings value) attempts
  crashed : ∀ crash ∈ delivery.crash, after.offset = min crash.committed before.offset ∧
    after.outcomes = before.outcomes
  passed : delivery.crash = none → Finished (mail? host settings value) attempts ∧
    after.offset = before.offset + 1 ∧
    after.outcomes = before.outcomes ++ [(before.offset, verdict host settings value attempts)]

theorem run_of_message (host : Host) (settings : Settings) (delivery : Delivery)
    (h : messages[consumer.offset]? = some value) :
    ∃ attempts, Delivered host settings value delivery consumer
      (consumer.run host settings messages delivery) attempts := by
  let handler := processMessage host settings value
  obtain ⟨attempts, hgiven, hsent, hfinished, hresult⟩ :=
    Program.run_of_wp (wp_processMessage host settings value consumer.world) delivery.choices
  cases hcrash : delivery.crash with
  | none =>
      have hrun : consumer.run host settings messages delivery = {
          world := (handler.run serve delivery.choices consumer.world).2
          offset := consumer.offset + 1
          outcomes := consumer.outcomes ++
            [(consumer.offset, verdict host settings value attempts)] } := by
        have hpair : handler.run serve delivery.choices consumer.world =
            (.ok (verdict host settings value attempts),
              (handler.run serve delivery.choices consumer.world).2) := Prod.ext hresult rfl
        simp only [Consumer.run, h, hcrash]
        rw [hpair]
      rw [hrun]
      exact ⟨attempts, hgiven, hsent, by simp [hcrash], fun _ => ⟨hfinished, rfl, rfl⟩⟩
  | some crash =>
      have hrun : consumer.run host settings messages delivery = { consumer with
          world := handler.runFor serve crash.calls delivery.choices consumer.world
          offset := min crash.committed consumer.offset } := by
        simp only [Consumer.run, h, hcrash]
        rfl
      obtain ⟨⟨start, hstart⟩, rest, hrest⟩ := Program.runFor_rel
        (fun before after : World => before.attempts <+: after.attempts)
        (fun _ => List.prefix_rfl) (fun _ _ _ => List.IsPrefix.trans) serve_grows crash.calls handler
        delivery.choices consumer.world
      have hattempts : attempts = start ++ rest := by
        rw [← hstart, hgiven, List.append_assoc] at hrest
        exact (List.append_cancel_left hrest).symm
      rw [hrun]
      refine ⟨start, hstart.symm, wellSent_of_prefix (hattempts ▸ hsent), ?_, by simp [hcrash]⟩
      rintro other hother
      obtain rfl := Option.some.inj (hcrash.symm.trans hother)
      exact ⟨rfl, rfl⟩

variable {crashes : ℕ} {turns : List Turn} {clock : ℤ}

theorem mailed_start (host : Host) (settings : Settings) (messages : List (Option (List UInt8)))
    (clock : ℤ) : Mailed host settings messages 0 (.start clock) [] where
  record := rfl
  reported := rfl
  ordered := rfl
  wellSent := nofun
  ended := nofun
  passed _ hplace := absurd hplace (Nat.not_lt_zero _)
  crashed := rfl
  repeated _ := Nat.zero_le _

theorem visits_append {start stop next : ℕ} {turn : Turn} (h : Visits start turns stop)
    (hplace : turn.place = stop) (hnext : turn.Leads next) : Visits start (turns ++ [turn]) next := by
  induction turns generalizing start with
  | nil =>
      obtain rfl : start = stop := h
      exact ⟨hplace, next, hnext, rfl⟩
  | cons first rest ih =>
      obtain ⟨hfirst, middle, hmiddle, hrest⟩ := h
      exact ⟨hfirst, middle, hmiddle, ih hrest⟩

theorem mailAt_of (h : messages[consumer.offset]? = some value) :
    mailAt host settings messages consumer.offset = mail? host settings value := by
  rw [mailAt, h, Option.bind_some]

-- Another turn, at another place, is no matter.
theorem PassedAt.append {place : ℕ} {turn : Turn} (h : PassedAt turns place)
    (hturn : turn.place ≠ place) : PassedAt (turns ++ [turn]) place := by
  obtain ⟨earlier, last, later, rfl, hplace, houtcome, hlater⟩ := h
  refine ⟨earlier, last, later ++ [turn], by simp, hplace, houtcome, ?_⟩
  exact List.forall_mem_append.mpr ⟨hlater, List.forall_mem_singleton.mpr hturn⟩

theorem countP_place (turn : Turn) (place : ℕ) :
    (turns ++ [turn]).countP (·.place = place) =
      turns.countP (·.place = place) + if turn.place = place then 1 else 0 := by
  rw [List.countP_append, List.countP_singleton]
  simp only [decide_eq_true_eq]

-- A process that stops, within a handler or at the end of the log.
theorem mailed_crashed {after : Consumer} {attempts : List Attempt}
    (h : Mailed host settings messages crashes consumer turns)
    (hgiven : after.world.attempts = consumer.world.attempts ++ attempts)
    (hsent : WellSent (mailAt host settings messages consumer.offset) attempts)
    (hoffset : after.offset ≤ consumer.offset) (houtcomes : after.outcomes = consumer.outcomes) :
    Mailed host settings messages (crashes + 1) after
      (turns ++ [⟨consumer.offset, attempts, none⟩]) := by
  constructor
  case record => rw [hgiven, h.record, List.flatMap_append, List.flatMap_singleton]
  case reported => simp [houtcomes, h.reported]
  case ordered => exact visits_append h.ordered rfl hoffset
  case wellSent =>
    exact List.forall_mem_append.mpr ⟨h.wellSent, List.forall_mem_singleton.mpr hsent⟩
  case ended =>
    exact List.forall_mem_append.mpr ⟨h.ended, List.forall_mem_singleton.mpr nofun⟩
  case passed =>
    intro place hplace
    have hlt : place < consumer.offset := hplace.trans_le hoffset
    exact (h.passed place hlt).append hlt.ne'
  case crashed => simp [List.countP_append, h.crashed]
  case repeated =>
    intro place
    have hrepeated := h.repeated place
    rw [countP_place]
    dsimp only
    split_ifs at hrepeated ⊢ <;> omega

theorem mailed_passed {after : Consumer} {attempts : List Attempt}
    (h : Mailed host settings messages crashes consumer turns)
    (hvalue : messages[consumer.offset]? = some value)
    (hdelivered : Delivered host settings value delivery consumer after attempts)
    (hcrash : delivery.crash = none) : Mailed host settings messages crashes after
      (turns ++ [⟨consumer.offset, attempts, some (verdict host settings value attempts)⟩]) := by
  obtain ⟨hfinished, hoffset, houtcomes⟩ := hdelivered.passed hcrash
  constructor
  case record => rw [hdelivered.given, h.record, List.flatMap_append, List.flatMap_singleton]
  case reported => simp [houtcomes, h.reported]
  case ordered => exact visits_append h.ordered rfl hoffset
  case wellSent =>
    refine List.forall_mem_append.mpr ⟨h.wellSent, List.forall_mem_singleton.mpr ?_⟩
    rw [mailAt_of hvalue]
    exact hdelivered.wellSent
  case ended =>
    refine List.forall_mem_append.mpr ⟨h.ended, List.forall_mem_singleton.mpr ?_⟩
    exact fun outcome ho => ⟨value, hvalue, (Option.some.inj ho).symm, mailAt_of hvalue ▸ hfinished⟩
  case passed =>
    intro place hplace
    rw [hoffset] at hplace
    rcases Nat.lt_succ_iff_lt_or_eq.mp hplace with hlt | rfl
    · exact (h.passed place hlt).append hlt.ne'
    · exact ⟨turns, _, [], rfl, rfl, rfl, nofun⟩
  case crashed => simp [List.countP_append, h.crashed]
  case repeated =>
    intro place
    have hrepeated := h.repeated place
    rw [countP_place, hoffset]
    dsimp only
    split_ifs at hrepeated ⊢ <;> omega

theorem crashesIn_cons (delivery : Delivery) (deliveries : List Delivery) :
    crashesIn (delivery :: deliveries) =
      (if delivery.crash.isSome then 1 else 0) + crashesIn deliveries := by
  rw [crashesIn, List.filter_cons]
  split
  · exact Nat.add_comm _ _
  · exact (Nat.zero_add _).symm

theorem mailed_run (h : Mailed host settings messages crashes consumer turns)
    (delivery : Delivery) : ∃ turns', Mailed host settings messages
      (crashes + if delivery.crash.isSome then 1 else 0)
      (consumer.run host settings messages delivery) turns' := by
  cases hvalue : messages[consumer.offset]? with
  | none =>
      cases hcrash : delivery.crash with
      | none =>
          rw [Consumer.run, hvalue, hcrash]
          exact ⟨turns, h⟩
      | some crash =>
          rw [Consumer.run, hvalue, hcrash]
          exact ⟨_, mailed_crashed h (List.append_nil _).symm (wellSent_nil _)
            (Nat.min_le_right _ _) rfl⟩
  | some value =>
      obtain ⟨attempts, hdelivered⟩ := run_of_message host settings delivery hvalue
      cases hcrash : delivery.crash with
      | none => exact ⟨_, mailed_passed h hvalue hdelivered hcrash⟩
      | some crash =>
          obtain ⟨hoffset, houtcomes⟩ := hdelivered.crashed crash hcrash
          exact ⟨_, mailed_crashed h hdelivered.given (mailAt_of hvalue ▸ hdelivered.wellSent)
            (hoffset.trans_le (Nat.min_le_right _ _)) houtcomes⟩

theorem mailed_play (h : Mailed host settings messages crashes consumer turns)
    (deliveries : List Delivery) : ∃ turns', Mailed host settings messages
      (crashes + crashesIn deliveries)
      (Machine.play (Consumer.run host settings messages) consumer deliveries) turns' := by
  induction deliveries generalizing crashes consumer turns with
  | nil => exact ⟨turns, h⟩
  | cons delivery deliveries ih =>
      obtain ⟨turns', hrun⟩ := mailed_run h delivery
      rw [Machine.play, List.foldl_cons, crashesIn_cons, ← Nat.add_assoc]
      exact ih hrun

-- A delivery that is not cut short passes its message, if there is one.
theorem offset_run (host : Host) (settings : Settings)
    (hplace : consumer.offset ≤ messages.length) (hcrash : delivery.crash = none) :
    (consumer.run host settings messages delivery).offset =
      min messages.length (consumer.offset + 1) := by
  cases hvalue : messages[consumer.offset]? with
  | none =>
      have hend := List.getElem?_eq_none_iff.mp hvalue
      rw [Consumer.run, hvalue, hcrash]
      dsimp only
      omega
  | some value =>
      obtain ⟨attempts, hdelivered⟩ := run_of_message host settings delivery hvalue
      have hlt := (List.getElem?_eq_some_iff.mp hvalue).1
      rw [(hdelivered.passed hcrash).2.1]
      omega

theorem offset_le_run (hplace : consumer.offset ≤ messages.length) (delivery : Delivery) :
    (consumer.run host settings messages delivery).offset ≤ messages.length := by
  cases hcrash : delivery.crash with
  | none =>
      rw [offset_run host settings hplace hcrash]
      exact Nat.min_le_left _ _
  | some crash =>
      cases hvalue : messages[consumer.offset]? with
      | none =>
          rw [Consumer.run, hvalue, hcrash]
          exact (Nat.min_le_right _ _).trans hplace
      | some value =>
          obtain ⟨attempts, hdelivered⟩ := run_of_message host settings delivery hvalue
          rw [(hdelivered.crashed crash hcrash).1]
          exact (Nat.min_le_right _ _).trans hplace

theorem offset_le_play (hplace : consumer.offset ≤ messages.length) (deliveries : List Delivery) :
    (Machine.play (Consumer.run host settings messages) consumer deliveries).offset ≤
      messages.length :=
  Machine.play_invariant (fun consumer : Consumer => consumer.offset ≤ messages.length) hplace
    (fun _ delivery hplace _ => offset_le_run hplace delivery) Machine.always_true

-- Without a crash the places follow each other.
theorem offset_play (hplace : consumer.offset ≤ messages.length) {deliveries : List Delivery}
    (hcrashes : crashesIn deliveries = 0) :
    (Machine.play (Consumer.run host settings messages) consumer deliveries).offset =
      min messages.length (consumer.offset + deliveries.length) := by
  induction deliveries generalizing consumer with
  | nil => exact (Nat.min_eq_right hplace).symm
  | cons delivery deliveries ih =>
      rw [crashesIn_cons, Nat.add_eq_zero_iff] at hcrashes
      have hcrash : delivery.crash = none := by
        by_contra hsome
        simp [Option.isSome_iff_ne_none.mpr hsome] at hcrashes
      have hoffset := offset_run host settings hplace hcrash
      rw [Machine.play, List.foldl_cons, List.length_cons]
      refine (ih (offset_le_run hplace delivery) hcrashes.2).trans ?_
      rw [hoffset]
      omega

-- What holds of all that the mail server does holds of its record.
theorem kept_run {allowed : Smtp → Prop} (hchoices : ∀ n, allowed (delivery.choices n).smtp)
    (h : ∀ attempt ∈ consumer.world.attempts, allowed attempt.smtp) :
    ∀ attempt ∈ (consumer.run host settings messages delivery).world.attempts,
      allowed attempt.smtp := by
  cases hvalue : messages[consumer.offset]? with
  | none =>
      rw [Consumer.run, hvalue]
      cases delivery.crash <;> exact h
  | some value =>
      have hrun : ∀ attempt ∈ ((processMessage host settings value).run serve delivery.choices
          consumer.world).2.attempts, allowed attempt.smtp := by
        refine Program.run_rel_of (fun choice => allowed choice.smtp)
          (fun before after : World => (∀ attempt ∈ before.attempts, allowed attempt.smtp) →
            ∀ attempt ∈ after.attempts, allowed attempt.smtp)
          (fun _ h => h) (fun _ _ _ hab hbc h => hbc (hab h)) ?_ _ delivery.choices
          hchoices consumer.world h
        intro choice hchoice world call hworld
        cases call with
        | sendMail mail =>
            simp only [serve]
            split <;> exact List.forall_mem_append.mpr
              ⟨hworld, fun attempt hm => List.mem_singleton.mp hm ▸ hchoice⟩
        | sleep ms => exact hworld
      cases hcrash : delivery.crash with
      | none =>
          simp only [Consumer.run, hvalue, hcrash]
          split <;> rename_i heq <;> rw [heq] at hrun <;> exact hrun
      | some crash =>
          simp only [Consumer.run, hvalue, hcrash]
          have hstopped := (Program.runFor_rel
            (fun before after : World => before.attempts <+: after.attempts)
            (fun _ => List.prefix_rfl) (fun _ _ _ => List.IsPrefix.trans) serve_grows crash.calls
            (processMessage host settings value) delivery.choices consumer.world).2
          exact fun attempt hm => hrun attempt (hstopped.subset hm)

theorem kept_play (allowed : Smtp → Prop) {deliveries : List Delivery}
    (hchoices : ∀ delivery ∈ deliveries, ∀ n, allowed (delivery.choices n).smtp)
    (h : ∀ attempt ∈ consumer.world.attempts, allowed attempt.smtp) :
    ∀ attempt ∈ (Machine.play (Consumer.run host settings messages) consumer
      deliveries).world.attempts, allowed attempt.smtp :=
  Machine.play_invariant
    (fun consumer : Consumer => ∀ attempt ∈ consumer.world.attempts, allowed attempt.smtp) h
    (fun _ _ hconsumer hdelivery => kept_run hdelivery hconsumer)
    (Machine.always_of_forall hchoices)

end Run

section Outbox

variable {messages : List (Option (List UInt8))} {mail : Option Mail} {attempts : List Attempt}

def taken (attempts : List Attempt) : List Mail :=
  (attempts.filter (·.smtp ≠ .refused)).map Attempt.mail

theorem taken_append (attempts more : List Attempt) :
    taken (attempts ++ more) = taken attempts ++ taken more := by
  rw [taken, List.filter_append, List.map_append]
  rfl

theorem taken_flatMap {ι : Type} (places : List ι) (attempts : ι → List Attempt) :
    taken (places.flatMap attempts) = places.flatMap fun place => taken (attempts place) := by
  induction places with
  | nil => rfl
  | cons place places ih => rw [List.flatMap_cons, taken_append, ih, List.flatMap_cons]

-- All but the last attempt were refused.
theorem taken_of_heard (h : WellSent mail attempts)
    (hheard : ∀ attempt ∈ attempts, attempt.smtp ≠ .unheard) :
    (taken attempts).Sublist mail.toList := by
  rcases List.eq_nil_or_concat attempts with rfl | ⟨earlier, last, rfl⟩
  · exact List.nil_sublist _
  · rw [List.concat_eq_append] at h hheard ⊢
    have hearlier : taken earlier = [] := by
      rw [taken, List.filter_eq_nil_iff.mpr, List.map_nil]
      intro attempt hm
      have hstops := h.stops attempt (by rwa [List.dropLast_concat])
      have hheard := hheard attempt (List.mem_append_left _ hm)
      cases hsmtp : attempt.smtp <;> simp_all
    have hsame := h.same last (List.mem_append_right _ (List.mem_singleton_self _))
    rw [taken_append, hearlier, List.nil_append, hsame, Option.toList_some, ← List.map_singleton]
    exact List.Sublist.map _ List.filter_sublist

theorem taken_of_accepted (h : WellSent mail attempts) (hfinished : Finished mail attempts)
    (haccepted : ∀ attempt ∈ attempts, attempt.smtp = .accepted) : taken attempts = mail.toList := by
  rcases List.eq_nil_or_concat attempts with rfl | ⟨earlier, last, rfl⟩
  · cases mail with
    | none => rfl
    | some mail => rcases hfinished rfl with hlength | ⟨attempt, hm, -⟩ <;> contradiction
  · rw [List.concat_eq_append] at h haccepted ⊢
    have hearlier : earlier = [] := by
      refine List.eq_nil_iff_forall_not_mem.mpr fun attempt hm => ?_
      exact h.stops attempt (by rwa [List.dropLast_concat])
        (haccepted attempt (List.mem_append_left _ hm))
    have hlast := haccepted last (List.mem_append_right _ (List.mem_singleton_self _))
    have hsame := h.same last (List.mem_append_right _ (List.mem_singleton_self _))
    simp [hearlier, taken, hlast, hsame]

theorem filterMap_eq_flatMap (messages : List (Option (List UInt8))) :
    messages.filterMap (mail? host settings) =
      (List.range messages.length).flatMap fun place =>
        (mailAt host settings messages place).toList := by
  induction messages with
  | nil => rfl
  | cons value messages ih =>
      rw [List.length_cons, List.range_succ_eq_map, List.flatMap_cons, List.flatMap_map,
        List.filterMap_cons]
      have hrest : (fun place => (mailAt host settings (value :: messages) place.succ).toList) =
          fun place => (mailAt host settings messages place).toList := rfl
      have hfirst : mailAt host settings (value :: messages) 0 = mail? host settings value := rfl
      rw [hrest, ← ih, hfirst]
      cases mail? host settings value <;> rfl

theorem outbox_eq {crashes : ℕ} {consumer : Consumer} {turns : List Turn}
    (h : Mailed host settings messages crashes consumer turns) :
    consumer.world.outbox = turns.flatMap fun turn => taken turn.attempts := by
  have htaken : consumer.world.outbox = taken consumer.world.attempts := rfl
  rw [htaken, h.record, taken_flatMap]

theorem range_of_visits {turns : List Turn} {start stop : ℕ} (h : Visits start turns stop)
    (hended : ∀ turn ∈ turns, turn.outcome.isSome) :
    turns.map Turn.place = List.range' start turns.length ∧ stop = start + turns.length := by
  induction turns generalizing start with
  | nil => exact ⟨rfl, Eq.symm h⟩
  | cons turn rest ih =>
      obtain ⟨rfl, next, hnext, hrest⟩ := h
      obtain ⟨hturn, hended⟩ := List.forall_mem_cons.mp hended
      obtain ⟨outcome, houtcome⟩ := Option.isSome_iff_exists.mp hturn
      have hnext : next = turn.place + 1 := by
        rw [Turn.Leads, houtcome] at hnext
        exact hnext
      subst hnext
      obtain ⟨hplaces, hstop⟩ := ih hrest hended
      rw [List.map_cons, hplaces, hstop, List.length_cons, List.range'_succ]
      exact ⟨rfl, by omega⟩

theorem ended_of_mailed {consumer : Consumer} {turns : List Turn}
    (h : Mailed host settings messages 0 consumer turns) {turn : Turn} (hm : turn ∈ turns) :
    turn.outcome.isSome := by
  have hcrashed := List.countP_eq_zero.mp h.crashed turn hm
  simpa [Option.isNone_iff_eq_none, Option.isSome_iff_ne_none] using hcrashed

-- Without a crash every message that was passed has one turn, in the order of the log.
theorem places_of_mailed {consumer : Consumer} {turns : List Turn}
    (h : Mailed host settings messages 0 consumer turns) :
    turns.map Turn.place = List.range consumer.offset := by
  obtain ⟨hplaces, hoffset⟩ := range_of_visits h.ordered fun _ => ended_of_mailed h
  rw [hplaces, hoffset, Nat.zero_add, List.range_eq_range']

theorem outbox_sublist {consumer : Consumer} {turns : List Turn}
    (h : Mailed host settings messages 0 consumer turns)
    (hoffset : consumer.offset ≤ messages.length)
    (hheard : ∀ attempt ∈ consumer.world.attempts, attempt.smtp ≠ .unheard) :
    consumer.world.outbox.Sublist (messages.filterMap (mail? host settings)) := by
  have hturn : ∀ turn ∈ turns, (taken turn.attempts).Sublist
      (mailAt host settings messages turn.place).toList := by
    refine fun turn hm => taken_of_heard (h.wellSent turn hm) fun attempt ha => hheard attempt ?_
    rw [h.record]
    exact List.mem_flatMap.mpr ⟨turn, hm, ha⟩
  have hmails : (turns.flatMap fun turn => (mailAt host settings messages turn.place).toList) =
      (List.range consumer.offset).flatMap fun place =>
        (mailAt host settings messages place).toList := by
    rw [← places_of_mailed h, List.flatMap_map]
  have hlog : (List.range consumer.offset).Sublist (List.range messages.length) :=
    List.range_sublist.mpr hoffset
  rw [outbox_eq h, filterMap_eq_flatMap]
  refine (List.Sublist.flatMap_right _ hturn).trans ?_
  rw [hmails]
  exact hlog.flatMap _

theorem outbox_all {consumer : Consumer} {turns : List Turn}
    (h : Mailed host settings messages 0 consumer turns)
    (hoffset : consumer.offset = messages.length)
    (haccepted : ∀ attempt ∈ consumer.world.attempts, attempt.smtp = .accepted) :
    consumer.world.outbox = messages.filterMap (mail? host settings) := by
  have hturn : ∀ turn ∈ turns, taken turn.attempts =
      (mailAt host settings messages turn.place).toList := by
    intro turn hm
    obtain ⟨outcome, houtcome⟩ := Option.isSome_iff_exists.mp (ended_of_mailed h hm)
    obtain ⟨value, -, -, hfinished⟩ := h.ended turn hm outcome houtcome
    refine taken_of_accepted (h.wellSent turn hm) hfinished fun attempt ha => haccepted attempt ?_
    rw [h.record]
    exact List.mem_flatMap.mpr ⟨turn, hm, ha⟩
  rw [outbox_eq h, filterMap_eq_flatMap, List.flatMap_congr hturn, ← hoffset,
    ← places_of_mailed h, List.flatMap_map]

end Outbox

section Consumed

variable {messages : List (Option (List UInt8))} {clock : ℤ} {deliveries : List Delivery}

theorem offset_consumed_le :
    (consumed host settings messages clock deliveries).offset ≤ messages.length :=
  offset_le_play (Nat.zero_le _) deliveries

theorem mailed_consumed : ∃ turns, Mailed host settings messages (crashesIn deliveries)
    (consumed host settings messages clock deliveries) turns := by
  obtain ⟨turns, hmailed⟩ := mailed_play (mailed_start host settings messages clock) deliveries
  rw [Nat.zero_add] at hmailed
  exact ⟨turns, hmailed⟩

theorem outbox_consumed_sublist (hcrashes : crashesIn deliveries = 0) (hheard : Heard deliveries) :
    (consumed host settings messages clock deliveries).world.outbox.Sublist
      (messages.filterMap (mail? host settings)) := by
  obtain ⟨turns, hmailed⟩ := @mailed_consumed host settings messages clock deliveries
  rw [hcrashes] at hmailed
  refine outbox_sublist hmailed offset_consumed_le ?_
  exact kept_play (· ≠ .unheard) hheard fun _ hm => absurd hm List.not_mem_nil

theorem outbox_consumed_all (hcrashes : crashesIn deliveries = 0)
    (hreachable : Reachable deliveries) (hlength : messages.length ≤ deliveries.length) :
    (consumed host settings messages clock deliveries).world.outbox =
      messages.filterMap (mail? host settings) := by
  obtain ⟨turns, hmailed⟩ := @mailed_consumed host settings messages clock deliveries
  rw [hcrashes] at hmailed
  refine outbox_all hmailed ?_ ?_
  · rw [consumed, offset_play (Nat.zero_le _) hcrashes, Consumer.start, Nat.zero_add,
      Nat.min_eq_left hlength]
  · exact kept_play (· = .accepted) hreachable fun _ hm => absurd hm List.not_mem_nil

end Consumed

theorem event?_encode (value : Json) :
    event? (some (Utf8.encode (Json.stringify value))) = confirmation? value := by
  have hne := Json.stringify_ne_empty value
  simp only [event?, Utf8.decode_encode, hne, if_false, Json.parse_stringify, Option.bind_eq_bind,
    Option.bind_some]

-- A process that stops while it mails the third message is followed by one that mails the
-- first again.
example :
    let consumer := consumed Demo.host Demo.settings [Demo.message, some [], Demo.message] 0
      [Demo.delivery, Demo.delivery, Demo.restart, Demo.delivery]
    consumer.offset = 1 ∧ consumer.world.outbox.length = 3 ∧
      consumer.outcomes = [(0, .sent), (1, .invalid), (0, .sent)] := by
  decide +kernel

end SmartParking.Notifications
