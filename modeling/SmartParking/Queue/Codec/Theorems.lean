import SmartParking.Queue.Codec

namespace SmartParking.Queue

open SmartParking.Queue.RabbitMqReservationQueueAdapter
open SmartParking.Queue.ReservationRequestConsumer

variable {env : Environment} {validators : Validators} {message : ReservationRequestMessage}

-- The members of the object that is sent.

section

variable (message : ReservationRequestMessage)

theorem get_requestId : (toJson message).get? "requestId" = some (.string message.requestId) := by
  obtain ⟨requestId, userId, branchId, _ | slotType, _ | startAt, requestedAt⟩ := message <;> rfl

theorem get_userId : (toJson message).get? "userId" = some (.string message.userId) := by
  obtain ⟨requestId, userId, branchId, _ | slotType, _ | startAt, requestedAt⟩ := message <;> rfl

theorem get_branchId : (toJson message).get? "branchId" = some (.string message.branchId) := by
  obtain ⟨requestId, userId, branchId, _ | slotType, _ | startAt, requestedAt⟩ := message <;> rfl

theorem get_slotType : (toJson message).get? "slotType" = message.slotType.map slotTypeJson := by
  obtain ⟨requestId, userId, branchId, _ | slotType, _ | startAt, requestedAt⟩ := message <;> rfl

theorem get_startAt : (toJson message).get? "startAt" = message.startAt.map dateJson := by
  obtain ⟨requestId, userId, branchId, _ | slotType, _ | startAt, requestedAt⟩ := message <;> rfl

theorem get_requestedAt :
    (toJson message).get? "requestedAt" = some (dateJson message.requestedAt) := by
  obtain ⟨requestId, userId, branchId, _ | slotType, _ | startAt, requestedAt⟩ := message <;> rfl

end

theorem filter_truthy_string (text : String) :
    (some (Json.string text)).filter Json.truthy = if text = "" then none else some (.string text) := by
  by_cases h : text = "" <;> simp [h]

theorem toISOString_ne_empty (time : JsDate.Time) : JsDate.toISOString time ≠ "" := by
  intro h
  have hempty : (JsDate.fields time.ms).text = [] := String.ofList_eq_empty_iff.mp h
  cases (List.append_eq_nil_iff.mp hempty).2

theorem dateOf_dateJson (time : JsDate.Time) : dateOf env (dateJson (some time)) = .ok (some time) := by
  simp [dateOf, dateJson, Json.hasText, newDate, JsDate.parse_toISOString]

-- The text of a time is not empty, and what is null counts as absent.
theorem startAtOf_toJson :
    startAtOf env (toJson message) = .ok (message.startAt.filter Option.isSome) := by
  rw [startAtOf, field, get_startAt]
  rcases message.startAt with _ | (_ | time)
  · rfl
  · rfl
  · rw [Option.map_some, dateJson, filter_truthy_string, if_neg (toISOString_ne_empty time)]
    exact congrArg (some <$> ·) (dateOf_dateJson time)

theorem requestedAtOf_toJson {now : JsDate.Time} (h : message.requestedAt = some now) :
    requestedAtOf env (toJson message) = .ok message.requestedAt := by
  rw [requestedAtOf, get_requestedAt, h]
  exact dateOf_dateJson now

theorem parse_content (hrequest : message.requestId ≠ "") (hbranch : message.branchId ≠ "")
    (hrequested : message.requestedAt.isSome) : parse env (content message) =
      if message.userId = "" then .error .missingFields else .ok message.received := by
  obtain ⟨now, hnow⟩ := Option.isSome_iff_exists.mp hrequested
  have hparse : parse env (content message) = revive env (toJson message) := by
    rw [parse, content, Utf8.decode_encode, Json.parse_stringify]
    rfl
  have hrequestId : field (toJson message) "requestId" = some (.string message.requestId) := by
    rw [field, get_requestId, filter_truthy_string, if_neg hrequest]
  have hbranchId : field (toJson message) "branchId" = some (.string message.branchId) := by
    rw [field, get_branchId, filter_truthy_string, if_neg hbranch]
  have huserId : field (toJson message) "userId" =
      if message.userId = "" then none else some (.string message.userId) := by
    rw [field, get_userId, filter_truthy_string]
  rw [hparse, revive, hrequestId, hbranchId, huserId]
  split_ifs with huser
  · rfl
  · dsimp only
    rw [startAtOf_toJson, requestedAtOf_toJson hnow, get_slotType]
    rfl

-- Dates that are valid, or absent.
theorem received_eq_payload : message.received = message.payload ↔ message.startAt ≠ some none := by
  rw [ReservationRequestMessage.received]
  rcases hdate : message.startAt with _ | (_ | time) <;>
    simp [ReservationRequestMessage.payload, hdate]

theorem Built.fields (hlawful : validators.Lawful) (h : Built env validators message) :
    message.requestId ≠ "" ∧ message.branchId ≠ "" ∧ message.requestedAt.isSome := by
  cases h with
  | create randomUUID sub now dto hrequest h =>
      exact ⟨hrequest, hlawful.isUUID _ (Bool.and_eq_true_iff.mp h).1, rfl⟩
  | confirmSuggestion randomUUID sub now dto hrequest h =>
      exact ⟨hrequest, hlawful.isUUID _ (Bool.and_eq_true_iff.mp h).1, rfl⟩

-- The worker gets the message that was sent, as long as it has a user, and no date that
-- is invalid.
theorem roundTrips_iff (env : Environment) (validators : Validators) (hlawful : validators.Lawful)
    {message : ReservationRequestMessage} (h : Built env validators message) :
    RoundTrips env message ↔ message.userId ≠ "" ∧ message.startAt ≠ some none := by
  obtain ⟨hrequest, hbranch, hrequested⟩ := h.fields hlawful
  have hparse : parse env (content message) = _ := parse_content hrequest hbranch hrequested
  constructor
  · rintro ⟨hfields, -⟩
    rw [hparse] at hfields
    split_ifs at hfields with huser
    exact ⟨huser, received_eq_payload.mp (Except.ok.inj hfields)⟩
  · rintro ⟨huser, hdate⟩
    rw [if_neg huser, received_eq_payload.mpr hdate] at hparse
    refine ⟨hparse, fun hsome payload hpayload => ?_⟩
    obtain rfl : message.payload = payload := Except.ok.inj (hparse.symm.trans hpayload)
    exact hsome

theorem roundTrips_valid : RoundTrips Demo.env (Demo.message "2026-03-09T10:00:00.000Z") :=
  (roundTrips_iff Demo.env Demo.validators Demo.lawful (Demo.built _ (by decide))).mpr
    ⟨by decide, by decide +kernel⟩

-- A week is a date to the validator, and none to the language.
theorem roundTrips_fails : ¬∀ (env : Environment) (validators : Validators), validators.Lawful →
    ∀ message, message.userId ≠ "" → Built env validators message → RoundTrips env message := by
  intro h
  have htrips := h Demo.env Demo.validators Demo.lawful (Demo.message "2026-W10") (by decide)
    (Demo.built _ (by decide))
  have hparse : parse Demo.env (content (Demo.message "2026-W10")) = _ :=
    parse_content (by decide) (by decide) (by decide)
  rw [htrips.fields, if_neg (by decide)] at hparse
  exact received_eq_payload.mp (Except.ok.inj hparse).symm (by decide +kernel)

end SmartParking.Queue
