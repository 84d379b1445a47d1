import SmartParking.Announcement.Once
import SmartParking.Confirmation
import SmartParking.Notifications.Mailing.Theorems

namespace SmartParking

open Async Notifications KafkaNotificationPublisherAdapter

variable {host : Host} {settings : Settings}

-- What the notifications service makes of a message of the backend.
section Wire

theorem formatDate_toJSON (ms : ℤ) :
    formatDate host (some (JsDate.toJSON ms)) = some (.string (Confirmation.dateText host ms)) := by
  unfold JsDate.toJSON Confirmation.dateText
  cases h : JsDate.ofMs ms with
  | none => rfl
  | some time =>
      have hparse := JsDate.parse_toISOString host.dateOfText time
      simp [formatDate, Host.newDate, Host.text, hparse]

theorem confirmation?_toJson (reservation : Reservation) (user : UserLookupResult)
    (branch : Branch) (eventId : Id) (occurredAt : ℤ) :
    confirmation? (toJson (confirmationOf reservation user branch eventId occurredAt)) = some {
      reservationId := reservation.id
      userEmail := user.email
      userFullName := some (.string user.fullName)
      branchName := some (.string branch.name)
      branchAddress := some (.string branch.address)
      slotId := some (.string reservation.slotId)
      startAt := some (JsDate.toJSON reservation.startAt)
      expiresAt := some (JsDate.toJSON reservation.expiresAt) } := by
  rfl

variable {confirmation : Confirmation} {reservation : Reservation} {eventId : Id} {occurredAt : ℤ}

theorem buildEmail_toJson :
    (confirmation? (toJson (confirmationOf confirmation.reservation confirmation.user
      confirmation.branch eventId occurredAt))).bind (buildEmail host settings) =
        some (confirmation.mail host settings) := by
  rw [confirmation?_toJson]
  simp only [Option.bind_some, buildEmail, details, Host.memberText, Host.text, formatDate_toJSON,
    Option.bind_eq_bind]
  rfl

-- A message of the topic that confirms a reservation, as its row was when it was stored.
def Confirmation.In (confirmation : Confirmation) (message : Option (List UInt8)) : Prop :=
  ∃ stored eventId occurredAt, SameReservation confirmation.reservation stored ∧
    message = some (publishReservationConfirmation
      (confirmationOf stored confirmation.user confirmation.branch eventId occurredAt))

theorem event?_of_in {message : Option (List UInt8)} (h : confirmation.In message) :
    (event? message).isSome ∧
      (event? message).bind (buildEmail host settings) = some (confirmation.mail host settings) := by
  obtain ⟨stored, eventId, occurredAt, hsame, rfl⟩ := h
  have hstored : confirmationOf stored confirmation.user confirmation.branch eventId occurredAt =
      confirmationOf confirmation.reservation confirmation.user confirmation.branch eventId
        occurredAt := by
    simp only [confirmationOf, hsame.id, hsame.slotId, hsame.startAt, hsame.expiresAt]
  rw [hstored, publishReservationConfirmation, event?_encode]
  exact ⟨rfl, buildEmail_toJson⟩

theorem mail?_of_in {message : Option (List UInt8)} (h : confirmation.In message) :
    mail? host settings message =
      if settings.enabled then some (confirmation.mail host settings) else none := by
  rw [mail?, (event?_of_in h).2]

theorem filterMap_mail {told : List Confirmation} {messages : List (Option (List UInt8))}
    (h : List.Forall₂ Confirmation.In told messages) (henabled : settings.enabled = true) :
    messages.filterMap (mail? host settings) = told.map (Confirmation.mail host settings) := by
  induction h with
  | nil => rfl
  | cons hfirst _ ih =>
      rw [List.filterMap_cons, mail?_of_in hfirst, if_pos henabled, ih, List.map_cons]

theorem filterMap_mail_disabled {told : List Confirmation} {messages : List (Option (List UInt8))}
    (h : List.Forall₂ Confirmation.In told messages) (hdisabled : ¬settings.enabled = true) :
    messages.filterMap (mail? host settings) = [] := by
  induction h with
  | nil => rfl
  | cons hfirst _ ih => rw [List.filterMap_cons, mail?_of_in hfirst, if_neg hdisabled, ih]

theorem exists_in {told : List Confirmation} {messages : List (Option (List UInt8))}
    (h : List.Forall₂ Confirmation.In told messages) {message : Option (List UInt8)}
    (hm : message ∈ messages) : ∃ confirmation ∈ told, confirmation.In message := by
  induction h with
  | nil => cases hm
  | @cons confirmation first told messages hfirst _ ih =>
      rcases List.mem_cons.mp hm with rfl | hrest
      · exact ⟨confirmation, List.mem_cons_self .., hfirst⟩
      · obtain ⟨other, ho, hin⟩ := ih hrest
        exact ⟨other, List.mem_cons_of_mem _ ho, hin⟩

end Wire

section Mailbox

variable {clock : ℤ} {topic messages : List (Option (List UInt8))} {deliveries : List Delivery}
  {told : List Confirmation}

theorem understood_of_in (h : ∀ message ∈ messages, ∃ confirmation : Confirmation,
      confirmation.In message) :
    .invalid ∉ (consumed host settings messages clock deliveries).outcomes.map Prod.snd := by
  obtain ⟨turns, hmailed⟩ := @mailed_consumed host settings messages clock deliveries
  rw [hmailed.reported, List.mem_map]
  rintro ⟨⟨place, outcome⟩, hreport, rfl⟩
  obtain ⟨turn, hm, hturn⟩ := List.mem_filterMap.mp hreport
  obtain ⟨_, houtcome, hpair⟩ := Option.map_eq_some_iff.mp hturn
  obtain ⟨-, rfl⟩ := Prod.mk.inj hpair
  obtain ⟨value, hvalue, hverdict, -⟩ := hmailed.ended turn hm _ houtcome
  obtain ⟨confirmation, hin⟩ := h value (List.mem_of_getElem? hvalue)
  obtain ⟨event, hevent⟩ := Option.isSome_iff_exists.mp
    (@event?_of_in host settings _ _ hin).1
  revert hverdict
  unfold verdict
  rw [hevent]
  dsimp only
  split
  · exact fun h => nomatch h
  · split_ifs <;> exact fun h => nomatch h

theorem truthful_of_in (h : ∀ message ∈ messages, ∃ confirmation ∈ told, confirmation.In message)
    {attempt : Notifications.Attempt}
    (hattempt : attempt ∈ (consumed host settings messages clock deliveries).world.attempts) :
    ∃ confirmation ∈ told, attempt.mail = confirmation.mail host settings := by
  obtain ⟨turns, hmailed⟩ := @mailed_consumed host settings messages clock deliveries
  rw [hmailed.record] at hattempt
  obtain ⟨turn, hm, hattempt⟩ := List.mem_flatMap.mp hattempt
  obtain ⟨message, hmessage, hmail⟩ :=
    Option.bind_eq_some_iff.mp ((hmailed.wellSent turn hm).same attempt hattempt)
  obtain ⟨confirmation, htold, hin⟩ := h message (List.mem_of_getElem? hmessage)
  refine ⟨confirmation, htold, ?_⟩
  rw [mail?_of_in hin] at hmail
  split_ifs at hmail
  exact (Option.some.inj hmail).symm

theorem delivered_of_in (h : List.Forall₂ Confirmation.In told topic) :
    Delivered host settings clock topic told where
  understood messages hsub deliveries := understood_of_in fun message hm =>
    (exists_in h (hsub hm)).imp fun _ hin => hin.2
  truthful messages hsub deliveries attempt hattempt :=
    truthful_of_in (fun message hm => exists_in h (hsub hm)) hattempt
  once messages hsub deliveries hcrashes hheard := by
    obtain ⟨inOrder, hperm, hsub⟩ := hsub
    have houtbox := @outbox_consumed_sublist host settings messages clock deliveries hcrashes hheard
    have hmails := houtbox.subperm.trans
      ((hperm.symm.filterMap (mail? host settings)).subperm.trans (hsub.filterMap _).subperm)
    by_cases henabled : settings.enabled = true
    · rwa [filterMap_mail h henabled] at hmails
    · rw [filterMap_mail_disabled h henabled, List.subperm_nil] at hmails
      rw [hmails]
      exact List.nil_subperm
  all messages hperm deliveries hcrashes hreachable hlength henabled := by
    rw [outbox_consumed_all hcrashes hreachable (hperm.length_eq.trans_le hlength),
      ← filterMap_mail h henabled]
    exact hperm.filterMap _

end Mailbox

section Published

variable {Tid : Type} [DecidableEq Tid] {config : Config} {world : World} {tasks : Tid → Task}
  {pool : Workers Tid}

theorem exists_forall₂ {α β : Type} {rel : α → β → Prop} {items : List β}
    (h : ∀ item ∈ items, ∃ other, rel other item) : ∃ others, List.Forall₂ rel others items := by
  induction items with
  | nil => exact ⟨[], .nil⟩
  | cons item items ih =>
      obtain ⟨other, hother⟩ := h item (List.mem_cons_self ..)
      obtain ⟨others, hothers⟩ := ih fun item hm => h item (List.mem_cons_of_mem _ hm)
      exact ⟨other :: others, .cons hother hothers⟩

omit [DecidableEq Tid] in
theorem mem_confirmations {event : ReservationConfirmationEvent} {history : History Tid} :
    event ∈ confirmations history ↔
      ∃ thread answer, ⟨thread, .publishReservationConfirmation event, answer⟩ ∈ history := by
  unfold confirmations
  rw [List.mem_filterMap]
  constructor
  · rintro ⟨⟨thread, call, answer⟩, hm, hcall⟩
    cases call <;> cases hcall
    exact ⟨thread, answer, List.mem_reverse.mp hm⟩
  · rintro ⟨thread, answer, hm⟩
    exact ⟨_, List.mem_reverse.mpr hm, rfl⟩

-- A confirmation that was published is of a reservation that stands.
theorem exists_confirmation
    (h : Pool.Reaches (unreliable serve) Pool.unguarded (Workers.start config world tasks) pool)
    {event : ReservationConfirmationEvent} (hevent : event ∈ confirmations pool.history) :
    ∃ confirmation : Confirmation, confirmation.Stands pool ∧
      confirmation.reservation.id = event.reservationId ∧
      confirmation.In (some (publishReservationConfirmation event)) := by
  obtain ⟨thread, answer, hm⟩ := mem_confirmations.mp hevent
  obtain ⟨later, earlier, hsplit, hpermits⟩ := (backed_of_reaches h).mem hm
  have htrue := trueIn_of_taught h hsplit
  obtain ⟨hcreated, huser, hbranch, hid⟩ := hpermits
  rename_i stored user branch eventId occurredAt
  obtain ⟨row, hrow, hsame⟩ := htrue _ hcreated
  obtain ⟨⟨asker, call, answer⟩, hasked, -, hteaches⟩ := huser
  refine ⟨⟨row, user, branch⟩, ?_, hsame.id, stored, eventId, occurredAt, hsame, rfl⟩
  constructor
  case reservation => exact hrow
  case branch => exact htrue _ hbranch
  case place => exact hid.trans hsame.branchId.symm
  case user =>
    cases shows_of_teaches hteaches
    rw [hsplit, ← hsame.userId.symm]
    exact ⟨asker, List.mem_append_right _ (List.mem_cons_of_mem _ hasked)⟩

omit [DecidableEq Tid] in
theorem count_confirmations (history : History Tid) (id : Id) :
    ((confirmations history).map (·.reservationId)).count id =
      history.countP fun event => madeKnown .mail event.call = some id := by
  unfold confirmations
  rw [List.count, List.countP_map, List.countP_filterMap, List.countP_reverse]
  refine List.countP_congr fun event _ => ?_
  obtain ⟨thread, call, answer⟩ := event
  cases call <;> simp [confirmationCall?, madeKnown]

-- Every mail that goes out is of a reservation that stands, to the address of its user,
-- and each reservation has one at most.
theorem confirmations_delivered (config : Config) (world : World) (tasks : Tid → Task)
    (h : Pool.Reaches (unreliable serve) Pool.unguarded (Workers.start config world tasks) pool)
    (host : Host) (settings : Settings) (clock : ℤ) :
    ∃ told : List Confirmation,
      told.map (·.reservation.id) = (confirmations pool.history).map (·.reservationId) ∧
      (told.map (·.reservation.id)).Nodup ∧
      (∀ confirmation ∈ told, confirmation.Stands pool) ∧
      Delivered host settings clock (confirmationTopic pool.history) told := by
  obtain ⟨told, htold⟩ := exists_forall₂ fun _ hevent => exists_confirmation h hevent
  obtain ⟨hstands, htold⟩ := (List.forall₂_and_left _ _).mp htold
  have hids : told.map (·.reservation.id) =
      (confirmations pool.history).map (·.reservationId) := by
    rw [← List.forall₂_eq_eq_eq, List.forall₂_map_left_iff, List.forall₂_map_right_iff]
    exact htold.imp fun _ _ hc => hc.1
  refine ⟨told, hids, ?_, hstands, ?_⟩
  · rw [hids, List.nodup_iff_count_le_one]
    intro id
    rw [count_confirmations]
    exact madeKnown_once h .mail id
  · refine delivered_of_in ?_
    rw [confirmationTopic, List.forall₂_map_right_iff]
    exact htold.imp fun _ _ hc => hc.2

end Published

-- The reservation that was cancelled meanwhile has its mail.
theorem confirmations_delivered_demo : ∃ confirmation : Confirmation,
    confirmation.reservation.id = "r1" ∧ confirmation.Stands Demo.announced ∧
    (consumed Notifications.Demo.host Notifications.Demo.settings
      (confirmationTopic Demo.announced.history) 0 [Notifications.Demo.delivery]).world.outbox =
        [confirmation.mail Notifications.Demo.host Notifications.Demo.settings] := by
  obtain ⟨told, hids, -, hstands, hdelivered⟩ := confirmations_delivered Demo.config
    ⟨.opening Demo.branches Demo.twoSlots, 0⟩ Demo.tasks
    (Pool.reaches_of_follows .refl (Pool.follows_unguarded _)) Notifications.Demo.host
    Notifications.Demo.settings 0
  have hone : (confirmations Demo.announced.history).map (·.reservationId) = ["r1"] := by decide
  obtain ⟨confirmation, rfl, hid⟩ := List.map_eq_singleton_iff.mp (hids.trans hone)
  refine ⟨confirmation, hid, hstands _ (List.mem_singleton_self _), ?_⟩
  refine List.perm_singleton.mp (hdelivered.all _ (.refl _) [Notifications.Demo.delivery] rfl ?_ ?_ rfl)
  · simp [Reachable, Notifications.Demo.delivery]
  · have hlength := congrArg List.length hone
    rw [List.length_map] at hlength
    rw [confirmationTopic, List.length_map]
    exact hlength.le

end SmartParking
