import SmartParking.Occupancy
import SmartParking.Reentry.Theorems

namespace SmartParking.Occupancy

open Async

variable {db db' db'' : Database} {branchId slotId : Id} {touched : Option Id} {now : ℤ}

-- The rows that are still there, with the references they had.
structure Lasts (db db' : Database) : Prop where
  reservations : ∀ reservation ∈ db.reservations, ∃ later ∈ db'.reservations,
    later.id = reservation.id ∧ later.slotId = reservation.slotId ∧
      later.branchId = reservation.branchId
  sessions : ∀ session ∈ db.sessions, ∃ later ∈ db'.sessions,
    later.id = session.id ∧ later.reservationId = session.reservationId ∧
      later.slotId = session.slotId
  located : ∀ {slotId branchId : Id}, Located db slotId branchId → Located db' slotId branchId

-- Every reservation has its slot in its branch, and every session the slot of its
-- reservation.
structure Placed (db : Database) : Prop where
  housed : Housed db
  lodged : ∀ session ∈ db.sessions, ∃ reservation ∈ db.reservations,
    reservation.id = session.reservationId ∧ reservation.slotId = session.slotId

-- What a write can do: it changes the occupancy of the touched branch at most.
structure Writes (touched : Option Id) (db db' : Database) : Prop extends Lasts db db' where
  placed : Placed db → Placed db'
  total : ∀ branchId, totalSlots db' branchId = totalSlots db branchId
  occupied : ∀ branchId, touched ≠ some branchId →
    occupiedSlots db' branchId = occupiedSlots db branchId

theorem placed_opening (branches : Table Branch.id Branch.id)
    (slots : Table ParkingSlot.id fun slot => (slot.branchId, slot.code)) :
    Placed (.opening branches slots) where
  housed := housed_opening branches slots
  lodged session hs := (Table.not_mem_empty session hs).elim

theorem Writes.refl (db : Database) : Writes touched db db where
  reservations reservation hr := ⟨reservation, hr, rfl, rfl, rfl⟩
  sessions session hs := ⟨session, hs, rfl, rfl, rfl⟩
  located h := h
  placed h := h
  total _ := rfl
  occupied _ _ := rfl

theorem Writes.trans (h : Writes touched db db') (h' : Writes touched db' db'') :
    Writes touched db db'' where
  reservations reservation hr := by
    obtain ⟨middle, hm, hid, hslot, hbranch⟩ := h.reservations reservation hr
    obtain ⟨later, hl, hid', hslot', hbranch'⟩ := h'.reservations middle hm
    exact ⟨later, hl, hid'.trans hid, hslot'.trans hslot, hbranch'.trans hbranch⟩
  sessions session hs := by
    obtain ⟨middle, hm, hid, hres, hslot⟩ := h.sessions session hs
    obtain ⟨later, hl, hid', hres', hslot'⟩ := h'.sessions middle hm
    exact ⟨later, hl, hid'.trans hid, hres'.trans hres, hslot'.trans hslot⟩
  located hl := h'.located (h.located hl)
  placed hp := h'.placed (h.placed hp)
  total branchId := (h'.total branchId).trans (h.total branchId)
  occupied branchId hb := (h'.occupied branchId hb).trans (h.occupied branchId hb)

section Counts

theorem branchId_of_located (h : Located db slotId branchId) {slot : ParkingSlot}
    (hm : slot ∈ db.slots) (hid : slot.id = slotId) : slot.branchId = branchId := by
  rw [Located, ← hid, Table.lookup_key hm, Option.map_some] at h
  exact Option.some.inj h

theorem located_of_mem {slot : ParkingSlot} (hm : slot ∈ db.slots) :
    Located db slot.id slot.branchId := by
  rw [Located, Table.lookup_key hm, Option.map_some]

theorem totalSlots_setStatus (slotId : Id) (status : SlotStatus) (now : ℤ) (branchId : Id) :
    totalSlots (PrismaParkingSlotRepository.setStatus db slotId status now) branchId =
      totalSlots db branchId := by
  unfold totalSlots PrismaParkingSlotRepository.setStatus Table.modify
  rw [← List.countP_eq_length_filter, ← List.countP_eq_length_filter, List.countP_map]
  refine List.countP_congr fun slot _ => ?_
  simp only [Function.comp_apply]
  split <;> rfl

-- A slot counts in its own branch only.
theorem occupiedSlots_setStatus (h : Located db slotId branchId) (status : SlotStatus) (now : ℤ)
    {other : Id} (hne : branchId ≠ other) :
    occupiedSlots (PrismaParkingSlotRepository.setStatus db slotId status now) other =
      occupiedSlots db other := by
  unfold occupiedSlots PrismaParkingSlotRepository.setStatus Table.modify
  rw [← List.countP_eq_length_filter, ← List.countP_eq_length_filter, List.countP_map]
  refine List.countP_congr fun slot hm => ?_
  simp only [Function.comp_apply]
  split
  · rename_i hid
    have hbranch : slot.branchId ≠ other := branchId_of_located h hm hid ▸ hne
    simp [PrismaParkingSlotRepository.withStatus, hbranch]
  · rfl

end Counts

-- What each write of the use cases touches.
section Rows

theorem writes_setSlotStatus (h : Located db slotId branchId) (status : SlotStatus) (now : ℤ) :
    Writes (some branchId) db (PrismaParkingSlotRepository.setStatus db slotId status now) where
  reservations reservation hr := ⟨reservation, hr, rfl, rfl, rfl⟩
  sessions session hs := ⟨session, hs, rfl, rfl, rfl⟩
  located hl := hl.setStatus slotId status now
  placed hp := ⟨hp.housed.setSlotStatus slotId status now, hp.lodged⟩
  total := totalSlots_setStatus slotId status now
  occupied _ hne := occupiedSlots_setStatus h status now fun he => hne (congrArg some he)

theorem writes_setReservationStatus (id : Id) (status : ReservationStatus)
    (confirmedAt : Option ℤ) :
    Writes touched db (PrismaReservationRepository.setStatus db id status confirmedAt) := by
  have hlasts : ∀ reservation ∈ db.reservations,
      ∃ later ∈ (PrismaReservationRepository.setStatus db id status confirmedAt).reservations,
        later.id = reservation.id ∧ later.slotId = reservation.slotId ∧
          later.branchId = reservation.branchId := by
    intro reservation hr
    refine ⟨_, Table.mem_modify.mpr ⟨reservation, hr, rfl⟩, ?_⟩
    split <;> exact ⟨rfl, rfl, rfl⟩
  refine {
    reservations := hlasts
    sessions := fun session hs => ⟨session, hs, rfl, rfl, rfl⟩
    located := fun hl => hl
    placed := fun hp => ⟨hp.housed.setReservationStatus id status confirmedAt, ?_⟩
    total := fun _ => rfl
    occupied := fun _ _ => rfl }
  intro session hs
  obtain ⟨reservation, hr, hid, hslot⟩ := hp.lodged session hs
  obtain ⟨later, hl, hid', hslot', -⟩ := hlasts reservation hr
  exact ⟨later, hl, hid'.trans hid, hslot'.trans hslot⟩

theorem writes_insertReservation {row : Reservation} {bigger : Table Reservation.id Reservation.id}
    (hb : db.reservations.insert row = some bigger) (hrow : Located db row.slotId row.branchId) :
    Writes touched db { db with reservations := bigger } where
  reservations reservation hr := ⟨reservation, (Table.mem_insert hb).mpr (.inl hr), rfl, rfl, rfl⟩
  sessions session hs := ⟨session, hs, rfl, rfl, rfl⟩
  located hl := hl
  placed hp := by
    refine ⟨hp.housed.insert hb hrow, fun session hs => ?_⟩
    obtain ⟨reservation, hr, hrest⟩ := hp.lodged session hs
    exact ⟨reservation, (Table.mem_insert hb).mpr (.inl hr), hrest⟩
  total _ := rfl
  occupied _ _ := rfl

theorem writes_insertSession {row : ParkingSession}
    {bigger : Table ParkingSession.id ParkingSession.reservationId}
    (hb : db.sessions.insert row = some bigger)
    (hrow : ∃ reservation ∈ db.reservations, reservation.id = row.reservationId ∧
      reservation.slotId = row.slotId) :
    Writes touched db { db with sessions := bigger } where
  reservations reservation hr := ⟨reservation, hr, rfl, rfl, rfl⟩
  sessions session hs := ⟨session, (Table.mem_insert hb).mpr (.inl hs), rfl, rfl, rfl⟩
  located hl := hl
  placed hp := by
    refine ⟨hp.housed, fun session hs => ?_⟩
    rcases (Table.mem_insert hb).mp hs with hs | rfl
    · exact hp.lodged session hs
    · exact hrow
  total _ := rfl
  occupied _ _ := rfl

theorem writes_setCompleted (id : Id) (exitAt : ℤ) :
    Writes touched db (PrismaParkingSessionRepository.setCompleted db id exitAt) where
  reservations reservation hr := ⟨reservation, hr, rfl, rfl, rfl⟩
  sessions session hs := by
    refine ⟨_, Table.mem_modify.mpr ⟨session, hs, rfl⟩, ?_⟩
    split <;> exact ⟨rfl, rfl, rfl⟩
  located hl := hl
  placed hp := by
    refine ⟨hp.housed, fun session hs => ?_⟩
    rcases Table.mem_modify_cases hs with ⟨old, hold, -, rfl⟩ | ⟨hold, -⟩
    · exact hp.lodged old hold
    · exact hp.lodged session hold
  total _ := rfl
  occupied _ _ := rfl

-- The simulation occupies slots of its branch, one after the other.
theorem writes_markAllOccupied (db : Database) (now : ℤ) (branchId : Id) :
    Writes (some branchId) db (PrismaParkingSlotRepository.markAllOccupied db now branchId) := by
  have hfold : ∀ (slotIds : List Id) (db : Database),
      (∀ slotId ∈ slotIds, Located db slotId branchId) → Writes (some branchId) db
        (slotIds.foldl (fun db slotId =>
          PrismaParkingSlotRepository.setStatus db slotId .OCUPADA now) db) := by
    intro slotIds
    induction slotIds with
    | nil => exact fun db _ => .refl db
    | cons slotId rest ih =>
        intro db hlocated
        have hwrites := writes_setSlotStatus (hlocated slotId List.mem_cons_self) .OCUPADA now
        refine hwrites.trans (ih _ fun other ho => ?_)
        exact hwrites.located (hlocated other (List.mem_cons_of_mem _ ho))
  refine hfold _ db fun slotId hm => ?_
  obtain ⟨slot, hs, rfl⟩ := List.mem_map.mp hm
  obtain ⟨hslot, havailable⟩ := List.mem_filter.mp hs
  simp only [PrismaParkingSlotRepository.available, Bool.and_eq_true, decide_eq_true_eq]
    at havailable
  exact havailable.1.1 ▸ located_of_mem hslot

end Rows

end SmartParking.Occupancy
