import SmartParking.Announcement.Conduct
import SmartParking.Backend.Footprints
import SmartParking.Reentry.Theorems

namespace SmartParking

open Async

variable {db after : Database} {now : ℤ} {known : Set Fact}

-- What every call answers, and leaves in the database.
section Answers

theorem branchId_of_available {branchId : Id} {type : Option SlotType} {slot : ParkingSlot}
    (h : PrismaParkingSlotRepository.available branchId type slot = true) :
    slot.branchId = branchId := by
  simp only [PrismaParkingSlotRepository.available, Bool.and_eq_true, decide_eq_true_eq] at h
  exact h.1.1

theorem located_of_mem {slot : ParkingSlot} (h : slot ∈ db.slots) :
    Located db slot.id slot.branchId := by
  rw [Located, Table.lookup_key h, Option.map_some]

theorem possible_query (db : Database) (choice : Choice) (now : ℤ) (call : Call) :
    reporting.possible call (query choice now db call).1 := by
  cases call with
  | slotsClaimAvailableSlot branchId type =>
      simp only [query, PrismaParkingSlotRepository.claimAvailableSlot, Prod.map_fst]
      rcases PrismaParkingSlotRepository.claim_cases PrismaParkingSlotRepository.byCode db now
        choice.locked branchId type with ⟨slot, -, havailable, he⟩ | he <;> rw [he]
      · have hbranch : slot.branchId = branchId := branchId_of_available havailable
        exact hbranch
      · trivial
  | slotsClaimLeastRecentlyUsedSlot branchId type =>
      simp only [query, PrismaParkingSlotRepository.claimLeastRecentlyUsedSlot, Prod.map_fst]
      rcases PrismaParkingSlotRepository.claim_cases PrismaParkingSlotRepository.byUpdatedAt db now
        choice.locked branchId type with ⟨slot, -, havailable, he⟩ | he <;> rw [he]
      · have hbranch : slot.branchId = branchId := branchId_of_available havailable
        exact hbranch
      · trivial
  | branchesFindById id =>
      change reporting.possible (.branchesFindById id) (.ok (db.branches.lookup id))
      cases h : db.branches.lookup id with
      | none => trivial
      | some branch => exact (Table.lookup_eq_some.mp h).2
  | reservationsFindById id =>
      change reporting.possible (.reservationsFindById id) (.ok (db.reservations.lookup id))
      cases h : db.reservations.lookup id with
      | none => trivial
      | some reservation => exact (Table.lookup_eq_some.mp h).2
  | sessionsFindById id =>
      change reporting.possible (.sessionsFindById id) (.ok (db.sessions.lookup id))
      cases h : db.sessions.lookup id with
      | none => trivial
      | some session => exact (Table.lookup_eq_some.mp h).2
  | reservationsCreate data =>
      obtain ⟨bigger, -, hq⟩ := query_reservationsCreate db choice now data
      rw [hq]
      exact ⟨rfl, rfl, rfl, rfl, rfl⟩
  | sessionsCreate data =>
      rcases query_sessionsCreate db choice now data with ⟨bigger, -, hq⟩ | ⟨-, text, hq⟩ <;> rw [hq]
      · exact ⟨rfl, rfl, rfl⟩
      · trivial
  | _ => trivial

theorem SameReservation.refl (reservation : Reservation) :
    SameReservation reservation reservation :=
  ⟨rfl, rfl, rfl, rfl, rfl, rfl⟩

theorem SameSession.refl (session : ParkingSession) : SameSession session session :=
  ⟨rfl, rfl, rfl, rfl⟩

-- Rows stay, with what they said from the beginning, and a completed session stays so.
structure Preserves (db after : Database) : Prop where
  branches : after.branches = db.branches
  slots : ∀ slotId branchId, Located db slotId branchId → Located after slotId branchId
  reservations : ∀ row ∈ db.reservations, ∃ row' ∈ after.reservations, SameReservation row' row
  sessions : ∀ row ∈ db.sessions, ∃ row' ∈ after.sessions, SameSession row' row ∧
    (row.status = .COMPLETED → row'.status = .COMPLETED)

theorem Preserves.refl (db : Database) : Preserves db db where
  branches := rfl
  slots _ _ h := h
  reservations row hm := ⟨row, hm, .refl row⟩
  sessions row hm := ⟨row, hm, .refl row, id⟩

theorem preserves_slots (slotId : Id) (status : SlotStatus) :
    Preserves db (PrismaParkingSlotRepository.setStatus db slotId status now) :=
  { Preserves.refl db with
    slots := fun _ _ h => h.setStatus slotId status now }

theorem preserves_claim (order : ParkingSlot → ParkingSlot → Prop) [DecidableRel order]
    (locked : Id → Bool) (branchId : Id) (type : Option SlotType) :
    Preserves db (PrismaParkingSlotRepository.claim order db now locked branchId type).2 := by
  rcases PrismaParkingSlotRepository.claim_cases order db now locked branchId type with
    ⟨slot, -, -, he⟩ | he <;> rw [he]
  · exact preserves_slots slot.id .RESERVADA
  · exact .refl db

theorem preserves_query (db : Database) (choice : Choice) (now : ℤ) (call : Call) :
    Preserves db (query choice now db call).2 := by
  cases call with
  | slotsClaimAvailableSlot branchId type => exact preserves_claim _ _ _ _
  | slotsClaimLeastRecentlyUsedSlot branchId type => exact preserves_claim _ _ _ _
  | slotsUpdateStatus slotId status =>
      rw [query_slotsUpdateStatus]
      exact preserves_slots slotId status
  | reservationsCreate data =>
      obtain ⟨bigger, hb, hq⟩ := query_reservationsCreate db choice now data
      rw [hq]
      exact { Preserves.refl db with
        reservations := fun row hm => ⟨row, (Table.mem_insert hb).mpr (.inl hm), .refl row⟩ }
  | reservationsUpdateStatus id status confirmedAt =>
      rw [query_reservationsUpdateStatus]
      refine { Preserves.refl db with reservations := fun row hm => ?_ }
      refine ⟨_, Table.mem_modify.mpr ⟨row, hm, rfl⟩, ?_⟩
      split <;> exact ⟨rfl, rfl, rfl, rfl, rfl, rfl⟩
  | sessionsCreate data =>
      rcases query_sessionsCreate db choice now data with ⟨bigger, hb, hq⟩ | ⟨-, text, hq⟩ <;> rw [hq]
      · exact { Preserves.refl db with
          sessions := fun row hm => ⟨row, (Table.mem_insert hb).mpr (.inl hm), .refl row, id⟩ }
      · exact .refl db
  | sessionsMarkCompleted id exitAt =>
      rw [query_sessionsMarkCompleted]
      refine { Preserves.refl db with sessions := fun row hm => ?_ }
      refine ⟨_, Table.mem_modify.mpr ⟨row, hm, rfl⟩, ?_⟩
      split
      · exact ⟨⟨rfl, rfl, rfl, rfl⟩, fun _ => rfl⟩
      · exact ⟨.refl row, fun h => h⟩
  | _ => exact .refl db

theorem SameReservation.trans {a b c : Reservation} (h : SameReservation a b)
    (h' : SameReservation b c) : SameReservation a c :=
  ⟨h.id.trans h'.id, h.userId.trans h'.userId, h.branchId.trans h'.branchId,
    h.slotId.trans h'.slotId, h.startAt.trans h'.startAt, h.expiresAt.trans h'.expiresAt⟩

theorem SameSession.trans {a b c : ParkingSession} (h : SameSession a b) (h' : SameSession b c) :
    SameSession a c :=
  ⟨h.id.trans h'.id, h.reservationId.trans h'.reservationId, h.userId.trans h'.userId,
    h.slotId.trans h'.slotId⟩

-- What was so stays so.
theorem holds_preserved (h : Preserves db after) {fact : Fact} (hfact : fact.Holds db) :
    fact.Holds after := by
  cases fact with
  | claimed slot => exact h.slots _ _ hfact
  | created reservation | found reservation =>
      obtain ⟨row, hm, hsame⟩ := hfact
      obtain ⟨row', hm', hsame'⟩ := h.reservations row hm
      exact ⟨row', hm', hsame'.trans hsame⟩
  | entered session | seen session =>
      obtain ⟨row, hm, hsame⟩ := hfact
      obtain ⟨row', hm', hsame', -⟩ := h.sessions row hm
      exact ⟨row', hm', hsame'.trans hsame⟩
  | completed sessionId =>
      obtain ⟨row, hm, hid, hstatus⟩ := hfact
      obtain ⟨row', hm', hsame', hcompleted⟩ := h.sessions row hm
      exact ⟨row', hm', hsame'.id.trans hid, hcompleted hstatus⟩
  | branch branch =>
      change branch ∈ after.branches
      rw [h.branches]
      exact hfact
  | _ => trivial

-- What an answer tells is so.
theorem holds_query (db : Database) (choice : Choice) (now : ℤ) (call : Call) :
    ∀ fact ∈ reporting.teaches call (query choice now db call).1,
      fact.Holds (query choice now db call).2 := by
  cases call with
  | slotsClaimAvailableSlot branchId type =>
      simp only [query, PrismaParkingSlotRepository.claimAvailableSlot, Prod.map_fst, Prod.map_snd,
        id_eq]
      rcases PrismaParkingSlotRepository.claim_cases PrismaParkingSlotRepository.byCode db now
        choice.locked branchId type with ⟨slot, hm, -, he⟩ | he <;> rw [he]
      · rintro _ rfl
        exact (located_of_mem hm).setStatus _ _ _
      · exact fun _ hfact => (Set.notMem_empty _ hfact).elim
  | slotsClaimLeastRecentlyUsedSlot branchId type =>
      simp only [query, PrismaParkingSlotRepository.claimLeastRecentlyUsedSlot, Prod.map_fst,
        Prod.map_snd, id_eq]
      rcases PrismaParkingSlotRepository.claim_cases PrismaParkingSlotRepository.byUpdatedAt db now
        choice.locked branchId type with ⟨slot, hm, -, he⟩ | he <;> rw [he]
      · rintro _ rfl
        exact (located_of_mem hm).setStatus _ _ _
      · exact fun _ hfact => (Set.notMem_empty _ hfact).elim
  | slotsUpdateStatus slotId status =>
      intro fact hfact
      rw [query_slotsUpdateStatus] at hfact
      unfold updated at hfact
      split at hfact
      · obtain rfl := hfact
        trivial
      · exact (Set.notMem_empty _ hfact).elim
  | reservationsFindById id =>
      change ∀ fact ∈ reporting.teaches (.reservationsFindById id) (.ok (db.reservations.lookup id)),
        fact.Holds db
      cases h : db.reservations.lookup id with
      | none => exact fun _ hfact => (Set.notMem_empty _ hfact).elim
      | some reservation =>
          rintro _ rfl
          exact ⟨reservation, (Table.lookup_eq_some.mp h).1, .refl reservation⟩
  | reservationsFindExpiredPending time =>
      change ∀ fact : Fact, (∃ reservation ∈ PrismaReservationRepository.findExpiredPending db time,
        fact = .found reservation) → fact.Holds db
      rintro _ ⟨reservation, hm, rfl⟩
      exact ⟨reservation, List.mem_of_mem_filter hm, .refl reservation⟩
  | reservationsCreate data =>
      obtain ⟨bigger, hb, hq⟩ := query_reservationsCreate db choice now data
      rw [hq]
      rintro _ rfl
      exact ⟨_, (Table.mem_insert hb).mpr (.inr rfl), .refl _⟩
  | reservationsUpdateStatus id status confirmedAt =>
      intro fact hfact
      rw [query_reservationsUpdateStatus] at hfact
      unfold updated at hfact
      split at hfact
      · obtain rfl := hfact
        trivial
      · exact (Set.notMem_empty _ hfact).elim
  | sessionsFindById id =>
      change ∀ fact ∈ reporting.teaches (.sessionsFindById id) (.ok (db.sessions.lookup id)),
        fact.Holds db
      cases h : db.sessions.lookup id with
      | none => exact fun _ hfact => (Set.notMem_empty _ hfact).elim
      | some session =>
          rintro _ rfl
          exact ⟨session, (Table.lookup_eq_some.mp h).1, .refl session⟩
  | sessionsCreate data =>
      rcases query_sessionsCreate db choice now data with ⟨bigger, hb, hq⟩ | ⟨-, text, hq⟩ <;> rw [hq]
      · rintro _ rfl
        exact ⟨_, (Table.mem_insert hb).mpr (.inr rfl), .refl _⟩
      · exact fun _ hfact => (Set.notMem_empty _ hfact).elim
  | sessionsMarkCompleted id exitAt =>
      rw [query_sessionsMarkCompleted]
      cases h : db.sessions.lookup id with
      | none => exact fun _ hfact => (Set.notMem_empty _ hfact).elim
      | some session =>
          rintro _ rfl
          obtain ⟨hm, hid⟩ := Table.lookup_eq_some.mp h
          refine ⟨_, Table.mem_modify.mpr ⟨session, hm, rfl⟩, ?_⟩
          rw [if_pos hid]
          exact ⟨hid, rfl⟩
  | branchesFindById id =>
      change ∀ fact ∈ reporting.teaches (.branchesFindById id) (.ok (db.branches.lookup id)),
        fact.Holds db
      cases h : db.branches.lookup id with
      | none => exact fun _ hfact => (Set.notMem_empty _ hfact).elim
      | some branch =>
          rintro _ rfl
          exact (Table.lookup_eq_some.mp h).1
  | usersFindById userId =>
      change ∀ fact ∈ reporting.teaches (.usersFindById userId) (.ok (choice.user userId)),
        fact.Holds db
      cases choice.user userId with
      | none => exact fun _ hfact => (Set.notMem_empty _ hfact).elim
      | some user =>
          rintro _ rfl
          trivial
  | _ => exact fun _ hfact => (Set.notMem_empty _ hfact).elim

end Answers

section Linked

theorem Linked.preserved (h : Linked db) (hpreserves : Preserves db after)
    (hreservations : ∀ row ∈ after.reservations, Located after row.slotId row.branchId)
    (hsessions : ∀ row ∈ after.sessions, (∃ old ∈ db.sessions, SameSession row old) ∨
      ∃ reservation ∈ db.reservations, reservation.id = row.reservationId ∧
        reservation.userId = row.userId ∧ reservation.slotId = row.slotId) : Linked after where
  housed := hreservations
  seated row hm := by
    have hseat : ∃ reservation ∈ db.reservations, reservation.id = row.reservationId ∧
        reservation.userId = row.userId ∧ reservation.slotId = row.slotId := by
      rcases hsessions row hm with ⟨old, hold, hsame⟩ | hseat
      · obtain ⟨reservation, hr, hid, huser, hslot⟩ := h.seated old hold
        exact ⟨reservation, hr, hid.trans hsame.reservationId.symm, huser.trans hsame.userId.symm,
          hslot.trans hsame.slotId.symm⟩
      · exact hseat
    obtain ⟨reservation, hr, hid, huser, hslot⟩ := hseat
    obtain ⟨row', hr', hsame⟩ := hpreserves.reservations reservation hr
    exact ⟨row', hr', hsame.id.trans hid, hsame.userId.trans huser, hsame.slotId.trans hslot⟩

-- The calls that leave the sessions as they are.
def Call.Seats : Call → Prop
  | .sessionsCreate _ | .sessionsMarkCompleted _ _ => False
  | _ => True

theorem sessions_claim (order : ParkingSlot → ParkingSlot → Prop) [DecidableRel order]
    (locked : Id → Bool) (branchId : Id) (type : Option SlotType) :
    (PrismaParkingSlotRepository.claim order db now locked branchId type).2.sessions =
      db.sessions := by
  rcases PrismaParkingSlotRepository.claim_cases order db now locked branchId type with
    ⟨slot, -, -, he⟩ | he <;> rw [he]
  rfl

theorem sessions_query {choice : Choice} {call : Call} (h : call.Seats) :
    (query choice now db call).2.sessions = db.sessions := by
  cases call with
  | sessionsCreate data => exact h.elim
  | sessionsMarkCompleted id exitAt => exact h.elim
  | slotsClaimAvailableSlot branchId type => exact sessions_claim _ _ _ _
  | slotsClaimLeastRecentlyUsedSlot branchId type => exact sessions_claim _ _ _ _
  | slotsUpdateStatus slotId status =>
      rw [query_slotsUpdateStatus]
      rfl
  | reservationsUpdateStatus id status confirmedAt =>
      rw [query_reservationsUpdateStatus]
      rfl
  | reservationsCreate data =>
      obtain ⟨bigger, -, hq⟩ := query_reservationsCreate db choice now data
      rw [hq]
  | _ => rfl

theorem linked_of_seats {choice : Choice} {call : Call} (hstores : call.Stores)
    (hseats : call.Seats) (h : Linked db) : Linked (query choice now db call).2 := by
  refine h.preserved (preserves_query db choice now call) (housed_query hstores h.housed choice) ?_
  intro row hm
  rw [sessions_query hseats] at hm
  exact .inl ⟨row, hm, .refl row⟩

-- A new reservation is for a claimed slot, and a new session for a stored reservation.
theorem linked_query {choice : Choice} {call : Call} (h : Linked db)
    (hpermits : reporting.permits known call) (hknown : ∀ fact ∈ known, fact.Holds db) :
    Linked (query choice now db call).2 := by
  have hpreserves := preserves_query db choice now call
  cases call with
  | reservationsCreate data =>
      obtain ⟨slot, hslot, hid, hbranch⟩ := hpermits
      obtain ⟨bigger, hb, hq⟩ := query_reservationsCreate db choice now data
      rw [hq] at hpreserves ⊢
      refine h.preserved hpreserves (h.housed.insert hb ?_) fun row hm => .inl ⟨row, hm, .refl row⟩
      have hlocated := hknown _ hslot
      change Located db data.slotId data.branchId
      rw [← hid, ← hbranch]
      exact hlocated
  | sessionsCreate data =>
      obtain ⟨reservation, hr, hid, huser, hslot⟩ := hpermits
      have hhoused := @housed_query db now (.sessionsCreate data) trivial h.housed choice
      rcases query_sessionsCreate db choice now data with ⟨bigger, hb, hq⟩ | ⟨-, text, hq⟩
      · rw [hq] at hpreserves hhoused ⊢
        refine h.preserved hpreserves hhoused fun row hm => ?_
        rcases (Table.mem_insert hb).mp hm with hm | rfl
        · exact .inl ⟨row, hm, .refl row⟩
        · obtain ⟨stored, hm, hstored⟩ := hknown _ hr
          exact .inr ⟨stored, hm, hstored.id.trans hid, hstored.userId.trans huser,
            hstored.slotId.trans hslot⟩
      · rwa [hq]
  | sessionsMarkCompleted id exitAt =>
      have hhoused := @housed_query db now (.sessionsMarkCompleted id exitAt) trivial h.housed choice
      rw [query_sessionsMarkCompleted] at hpreserves hhoused ⊢
      refine h.preserved hpreserves hhoused fun row hm => ?_
      obtain ⟨old, hold, rfl⟩ := Table.mem_modify.mp hm
      refine .inl ⟨old, hold, ?_⟩
      split <;> exact ⟨rfl, rfl, rfl, rfl⟩
  | _ => exact linked_of_seats trivial trivial h

end Linked

section Accurate

theorem located_of_found (h : Linked db) {reservation row : Reservation}
    (hm : row ∈ db.reservations) (hsame : SameReservation row reservation) :
    Located db reservation.slotId reservation.branchId := by
  rw [← hsame.slotId, ← hsame.branchId]
  exact h.housed row hm

-- The slot of a session is in the branch of its reservation.
theorem located_of_seen (h : Linked db) {session row : ParkingSession} {reservation : Reservation}
    (hm : row ∈ db.sessions) (hsame : SameSession row session)
    (hfound : Fact.Holds db (.found reservation)) (hid : reservation.id = session.reservationId) :
    Located db session.slotId reservation.branchId := by
  obtain ⟨stored, hstored, hreservation⟩ := hfound
  obtain ⟨seat, hseat, hseatId, -, hslot⟩ := h.seated row hm
  obtain rfl : seat = stored := Table.eq_of_key_eq hseat hstored
    (hseatId.trans (hsame.reservationId.trans (hid.symm.trans hreservation.id.symm)))
  rw [← hsame.slotId, ← hslot, ← hreservation.branchId]
  exact h.housed seat hseat

theorem accurate_told (h : Linked db) (hknown : ∀ fact ∈ known, fact.Holds db)
    {message : Notification} (htold : Told known message) : AccurateNotification db message := by
  -- the two readings of a session by its exit are of one row
  have hsame {session before : ParkingSession} (hsession : .seen session ∈ known)
      (hbefore : .seen before ∈ known) (hid : session.id = before.id) :
      ∃ row ∈ db.sessions, SameSession row session ∧ SameSession row before := by
    obtain ⟨row, hm, hrow⟩ := hknown _ hsession
    obtain ⟨other, ho, hother⟩ := hknown _ hbefore
    obtain rfl : row = other :=
      Table.eq_of_key_eq hm ho (hrow.id.trans (hid.trans hother.id.symm))
    exact ⟨row, hm, hrow, hother⟩
  cases htold with
  | created hr =>
      obtain ⟨row, hm, hrow⟩ := hknown _ hr
      exact ⟨row, hm, hrow.id, hrow.branchId, hrow.slotId, hrow.userId, hrow.expiresAt⟩
  | reserved hr _ _ =>
      obtain ⟨row, hm, hrow⟩ := hknown _ hr
      exact located_of_found h hm hrow
  | filled hr =>
      obtain ⟨row, hm, hrow⟩ := hknown _ hr
      exact ⟨row, hm, hrow.branchId⟩
  | cancelled hr _ | expired hr _ =>
      obtain ⟨row, hm, hrow⟩ := hknown _ hr
      exact ⟨row, hm, hrow.id, hrow.branchId, hrow.slotId⟩
  | released hr _ =>
      obtain ⟨row, hm, hrow⟩ := hknown _ hr
      exact located_of_found h hm hrow
  | emptied hr _ =>
      obtain ⟨row, hm, hrow⟩ := hknown _ hr
      exact ⟨row, hm, hrow.branchId⟩
  | entered hs hr hid =>
      obtain ⟨row, hm, hrow⟩ := hknown _ hs
      exact ⟨located_of_seen h hm hrow (hknown _ hr) hid, row, hm, hrow.id, hrow.slotId,
        hrow.userId⟩
  | occupied hs hr hid _ =>
      obtain ⟨row, hm, hrow⟩ := hknown _ hs
      exact located_of_seen h hm hrow (hknown _ hr) hid
  | taken _ hr _ | freed _ _ _ hr _ _ =>
      obtain ⟨row, hm, hrow⟩ := hknown _ hr
      exact ⟨row, hm, hrow.branchId⟩
  | exited hs hbefore hsession hr hid hcompleted =>
      obtain ⟨row, hm, hrow, hother⟩ := hsame hs hbefore hsession
      obtain ⟨done, hdone, hdoneId, hstatus⟩ := hknown _ hcompleted
      obtain rfl : row = done := Table.eq_of_key_eq hm hdone (hrow.id.trans hdoneId.symm)
      have hlocated := located_of_seen h hm hother (hknown _ hr) hid
      rw [← hother.slotId, hrow.slotId] at hlocated
      exact ⟨hlocated, row, hm, hrow.id, hrow.slotId, hstatus⟩
  | vacated hs hbefore hsession hr hid _ _ _ _ =>
      obtain ⟨row, hm, hrow, hother⟩ := hsame hs hbefore hsession
      have hlocated := located_of_seen h hm hother (hknown _ hr) hid
      rw [← hother.slotId, hrow.slotId] at hlocated
      exact hlocated

theorem accurate_of_permits (h : Linked db) (hknown : ∀ fact ∈ known, fact.Holds db) {call : Call}
    (hpermits : reporting.permits known call) : Accurate db call := by
  cases call with
  | notify message => exact accurate_told h hknown hpermits
  | publishAuditEvent event =>
      cases hpermits with
      | created hr | cancelled hr _ =>
          obtain ⟨row, hm, hrow⟩ := hknown _ hr
          exact ⟨row, hm, hrow.id, hrow.userId, hrow.id, hrow.branchId, hrow.slotId⟩
  | publishReservationConfirmation event =>
      obtain ⟨hr, -, hbranch, hid⟩ := hpermits
      obtain ⟨row, hm, hrow⟩ := hknown _ hr
      exact ⟨⟨row, hm, hrow.id, hrow.branchId.trans hid.symm, hrow.slotId, hrow.startAt,
        hrow.expiresAt⟩, _, hknown _ hbranch, rfl, rfl, rfl⟩
  | notifyReservationRequestResolved payload =>
      obtain ⟨requestId, userId, resolution⟩ := payload
      cases resolution with
      | CREATED id branchId slotId startAt expiresAt =>
          obtain ⟨reservation, hr, rfl, rfl, rfl, rfl, rfl, huser⟩ := hpermits
          obtain ⟨row, hm, hrow⟩ := hknown _ hr
          exact ⟨row, hm, hrow.id, hrow.branchId, hrow.slotId, hrow.startAt, hrow.expiresAt,
            hrow.userId.trans huser⟩
      | SUGGEST_OTHER_BRANCH id name address distanceKm => trivial
      | REJECTED code message => trivial
  | _ => trivial

end Accurate

end SmartParking
