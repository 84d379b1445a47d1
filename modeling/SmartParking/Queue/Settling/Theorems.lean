import SmartParking.Queue.Settling

namespace SmartParking.Queue

open SmartParking.Queue.ReservationRequestConsumer

variable {env : Environment} {content : List UInt8} {payload : Payload} {outcome : Outcome}
  {resolution : Resolution}

-- The call of CreateReservation for a message.
def Payload.creation (payload : Payload) : Call :=
  .createReservation {
    userId := payload.userId
    branchId := payload.branchId
    slotType := payload.slotType
    startAt := payload.startAt }

-- The calls in each case.

theorem calls_unreadable {err : ParseError} (h : parse env content = .error err) :
    calls env outcome content = [.nack false] := by
  rw [calls, handle, h]
  rfl

-- Whether the log throws after the acknowledgement makes no difference to the calls.
theorem calls_concluded (h : parse env content = .ok payload)
    (hresolution : outcome.resolution = some resolution) :
    calls env outcome content = [payload.creation,
      .notifyReservationRequestResolved ⟨payload.requestId, payload.userId, resolution⟩, .ack] := by
  rw [calls, handle, h]
  rcases outcome with (error | text) | result
  · obtain rfl := Option.some.inj hresolution
    cases htext : payload.requestId.hasText <;> simp only [log, htext] <;> rfl
  · cases hresolution
  · obtain rfl := Option.some.inj hresolution
    cases htext : payload.requestId.hasText <;> simp only [log, htext] <;> rfl

theorem calls_failed {text : String} (h : parse env content = .ok payload) :
    calls env (.error (.infrastructure text)) content =
      payload.creation :: if payload.requestId.hasText then [.nack false] else [] := by
  rw [calls, handle, h]
  cases htext : payload.requestId.hasText <;> simp only [log, htext] <;> rfl

theorem exists_of_bind_eq_ok {ε α β : Type} {x : Except ε α} {f : α → Except ε β} {b : β}
    (h : (x >>= f) = .ok b) : ∃ a, x = .ok a ∧ f a = .ok b := by
  cases x with
  | error err => cases h
  | ok a => exact ⟨a, rfl, h⟩

-- What a message that parses carries.

theorem carries_of_parse (h : parse env content = .ok payload) :
    Carries content payload.requestId payload.userId payload.branchId := by
  unfold parse at h
  split at h
  · cases h
  · cases h
  · rename_i raw _ hraw
    unfold revive at h
    split at h
    · rename_i requestId userId branchId hrequest huser hbranch
      obtain ⟨startAt, -, h⟩ := exists_of_bind_eq_ok h
      obtain ⟨requestedAt, -, h⟩ := exists_of_bind_eq_ok h
      cases h
      exact ⟨raw, hraw, hrequest, huser, hbranch⟩
    · cases h

theorem Carries.unique {requestId userId branchId requestId' userId' branchId' : Json}
    (h : Carries content requestId userId branchId)
    (h' : Carries content requestId' userId' branchId') :
    requestId = requestId' ∧ userId = userId' ∧ branchId = branchId' := by
  obtain ⟨raw, hraw, hrequest, huser, hbranch⟩ := h
  obtain ⟨raw', hraw', hrequest', huser', hbranch'⟩ := h'
  obtain rfl : raw = raw' := Option.some.inj (hraw.symm.trans hraw')
  exact ⟨Option.some.inj (hrequest.symm.trans hrequest'),
    Option.some.inj (huser.symm.trans huser'), Option.some.inj (hbranch.symm.trans hbranch')⟩

-- A rejected message.
theorem settled_of_nack {calls : List Call} (hfilter : calls.filter Call.settles = [.nack false])
    (hpublished : calls.filterMap Call.published = [])
    (hopen : ∀ resolution, ¬Concluded outcome calls resolution) : Settled content outcome calls := by
  have hack : .ack ∉ calls := fun hm => by
    have hfound : Call.ack ∈ calls.filter Call.settles := List.mem_filter.mpr ⟨hm, rfl⟩
    rw [hfilter] at hfound
    cases hfound with
    | tail _ h => cases h
  exact {
    once := .inr hfilter
    acked := iff_of_false hack fun ⟨_, _, _, resolution, _, h⟩ => hopen resolution h
    answered := fun _ _ _ resolution _ h => absurd h (hopen resolution)
    silent := fun _ => hpublished }

theorem settled_concluded (h : parse env content = .ok payload)
    (hresolution : outcome.resolution = some resolution) :
    Settled content outcome (calls env outcome content) := by
  have hcarries := carries_of_parse h
  rw [calls_concluded h hresolution]
  have hack : Call.ack ∈ [payload.creation,
      .notifyReservationRequestResolved ⟨payload.requestId, payload.userId, resolution⟩, .ack] := by
    simp
  have hconcluded : Concluded outcome [payload.creation,
      .notifyReservationRequestResolved ⟨payload.requestId, payload.userId, resolution⟩, .ack]
      resolution := ⟨⟨_, List.mem_cons_self⟩, hresolution⟩
  refine ⟨.inl rfl, iff_of_true hack ⟨_, _, _, resolution, hcarries, hconcluded⟩, ?_,
    fun hno => absurd hack hno⟩
  intro requestId userId branchId other hother hsame
  obtain ⟨rfl, rfl, -⟩ := hcarries.unique hother
  obtain rfl : resolution = other := Option.some.inj (hresolution.symm.trans hsame.2)
  exact ⟨[payload.creation, .notifyReservationRequestResolved _], [], rfl, rfl, rfl⟩

theorem settled_unreadable {err : ParseError} (h : parse env content = .error err) :
    Settled content outcome (calls env outcome content) := by
  rw [calls_unreadable h]
  refine settled_of_nack rfl rfl fun resolution ⟨⟨input, hm⟩, _⟩ => ?_
  cases hm with
  | tail _ hm => cases hm

theorem exists_of_resolution_eq_none (h : outcome.resolution = none) :
    ∃ text, outcome = .error (.infrastructure text) := by
  rcases outcome with (error | text) | result
  · cases h
  · exact ⟨text, rfl⟩
  · cases h

-- Each message is settled once and answered, if the request has a name for the log or
-- CreateReservation does not fail, and not otherwise.
theorem settled_iff (env : Environment) (content : List UInt8) (outcome : Outcome) :
    Settled content outcome (calls env outcome content) ↔
      (outcome.resolution = none → Nameable env content) := by
  cases hparse : parse env content with
  | error err =>
      exact iff_of_true (settled_unreadable hparse) fun _ payload hp => by
        rw [hparse] at hp
        cases hp
  | ok payload =>
      cases hresolution : outcome.resolution with
      | some resolution => exact iff_of_true (settled_concluded hparse hresolution) nofun
      | none =>
          obtain ⟨text, rfl⟩ := exists_of_resolution_eq_none hresolution
          have hname : Nameable env content ↔ payload.requestId.hasText = true :=
            ⟨fun h => h payload hparse, fun h other ho => Except.ok.inj (hparse.symm.trans ho) ▸ h⟩
          rw [calls_failed hparse, forall_prop_of_true rfl, hname]
          cases htext : payload.requestId.hasText with
          | true => exact iff_of_true (settled_of_nack rfl rfl fun _ h => by cases h.2) rfl
          | false => exact iff_of_false (fun h => by rcases h.once with h | h <;> cases h) nofun

-- An object that hides its toString, while the database is down.
theorem settled_fails : ¬∀ (env : Environment) (content : List UInt8) (outcome : Outcome),
    Settled content outcome (calls env outcome content) := by
  intro h
  have honce := (h ⟨fun _ => none, fun _ => none⟩ (Utf8.encode
    "\x7b\"requestId\":\x7b\"toString\":1\x7d,\"userId\":\"u\",\"branchId\":\"b\"\x7d")
    (.error (.infrastructure ""))).once
  have hlength := honce.elim (congrArg List.length) (congrArg List.length)
  exact absurd hlength (by decide +kernel)

end SmartParking.Queue
