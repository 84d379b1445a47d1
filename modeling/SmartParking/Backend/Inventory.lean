import SmartParking.Backend.Effects
import SmartParking.Holding

namespace SmartParking

-- The inventory as the reservations see it: the status of each slot, and the
-- slot each live reservation holds.
def slotStatus (db : Database) (slotId : Id) : Option SlotStatus :=
  (db.slots.lookup slotId).map ParkingSlot.status

def statusOf (db : Database) (reservationId : Id) : Option ReservationStatus :=
  (db.reservations.lookup reservationId).map Reservation.status

def Vacant (db : Database) (slotId : Id) : Prop := slotStatus db slotId = some .DISPONIBLE

instance (db : Database) (slotId : Id) : Decidable (Vacant db slotId) :=
  inferInstanceAs (Decidable (_ = _))

theorem isSome_of_slotStatus {db : Database} {slotId : Id} {status : SlotStatus}
    (h : slotStatus db slotId = some status) : (db.slots.lookup slotId).isSome := by
  obtain ⟨slot, hl, -⟩ := Option.map_eq_some_iff.mp h
  rw [hl]
  rfl

def slotIfLive (reservation : Reservation) : Option Id :=
  if reservation.status.Live then some reservation.slotId else none

def heldSlot (db : Database) (reservationId : Id) : Option Id :=
  (db.reservations.lookup reservationId).bind slotIfLive

variable {db : Database}

theorem heldSlot_eq_some {reservationId slotId : Id} :
    heldSlot db reservationId = some slotId ↔
      ∃ reservation ∈ db.reservations, reservation.id = reservationId ∧ reservation.status.Live ∧
        reservation.slotId = slotId := by
  unfold heldSlot slotIfLive
  constructor
  · intro h
    obtain ⟨reservation, hl, hs⟩ := Option.bind_eq_some_iff.mp h
    obtain ⟨hm, hid⟩ := Table.lookup_eq_some.mp hl
    split at hs
    · rename_i hlive
      exact ⟨reservation, hm, hid, hlive, Option.some.inj hs⟩
    · cases hs
  · rintro ⟨reservation, hm, rfl, hlive, rfl⟩
    rw [Table.lookup_key hm, Option.bind_some, if_pos hlive]

theorem heldSlot_of_mem {reservation : Reservation} (hm : reservation ∈ db.reservations)
    (hlive : reservation.status.Live) : heldSlot db reservation.id = some reservation.slotId :=
  heldSlot_eq_some.mpr ⟨reservation, hm, rfl, hlive, rfl⟩

section Writes

@[simp] theorem slotStatus_slots_setStatus (id other : Id) (status : SlotStatus) (now : ℤ) :
    slotStatus (PrismaParkingSlotRepository.setStatus db id status now) other =
      if other = id then (slotStatus db id).map fun _ => status else slotStatus db other := by
  unfold slotStatus
  rw [lookup_slots_setStatus]
  split
  · rw [Option.map_map, Option.map_map]
    rfl
  · rfl

@[simp] theorem heldSlot_slots_setStatus (id : Id) (status : SlotStatus) (now : ℤ) :
    heldSlot (PrismaParkingSlotRepository.setStatus db id status now) = heldSlot db := rfl

@[simp] theorem slotStatus_reservations_setStatus (id : Id) (status : ReservationStatus)
    (confirmedAt : Option ℤ) :
    slotStatus (PrismaReservationRepository.setStatus db id status confirmedAt) = slotStatus db :=
  rfl

theorem heldSlot_reservations_setStatus (id : Id) (status : ReservationStatus)
    (confirmedAt : Option ℤ) :
    heldSlot (PrismaReservationRepository.setStatus db id status confirmedAt) =
      Function.update (heldSlot db) id
        (if status.Live then (db.reservations.lookup id).map Reservation.slotId else none) := by
  funext other
  unfold heldSlot
  rw [lookup_reservations_setStatus]
  by_cases ho : other = id
  · subst other
    rw [if_pos rfl, Function.update_self]
    cases db.reservations.lookup id with
    | none => simp
    | some reservation =>
        by_cases hs : status.Live <;>
          simp [slotIfLive, PrismaReservationRepository.withStatus, hs]
  · rw [if_neg ho, Function.update_of_ne ho]

-- A new PENDING reservation holds its slot.
theorem heldSlot_insert {row : Reservation} {bigger : Table Reservation.id Reservation.id}
    (h : db.reservations.insert row = some bigger) (hs : row.status = .PENDING) :
    heldSlot { db with reservations := bigger } =
      Function.update (heldSlot db) row.id (some row.slotId) := by
  funext other
  unfold heldSlot
  rw [Table.lookup_insert h]
  by_cases ho : other = row.id
  · subst other
    have hlive : row.status.Live := .inl hs
    rw [if_pos rfl, Function.update_self, Option.bind_some, slotIfLive, if_pos hlive]
  · rw [if_neg ho, Function.update_of_ne ho]

end Writes

-- A claim takes a vacant slot of the branch and type, or nothing.
theorem vacant_of_available {branchId : Id} {type : Option SlotType} {slot : ParkingSlot}
    (hm : slot ∈ db.slots)
    (ha : PrismaParkingSlotRepository.available branchId type slot = true) :
    Vacant db slot.id := by
  have hs : slot.status = .DISPONIBLE := by
    simp only [PrismaParkingSlotRepository.available, Bool.and_eq_true, decide_eq_true_eq] at ha
    exact ha.1.2
  rw [Vacant, slotStatus, Table.lookup_key hm, Option.map_some, hs]

-- A slot that is still vacant after a claim was vacant before, and is another.
theorem vacant_reserve {slotId other : Id} {now : ℤ}
    (h : Vacant (PrismaParkingSlotRepository.setStatus db slotId .RESERVADA now) other) :
    Vacant db other ∧ other ≠ slotId := by
  unfold Vacant at *
  rw [slotStatus_slots_setStatus] at h
  by_cases ho : other = slotId
  · rw [if_pos ho] at h
    obtain ⟨_, -, he⟩ := Option.map_eq_some_iff.mp h
    cases he
  · rw [if_neg ho] at h
    exact ⟨h, ho⟩

-- A slot that is vacant after a release was vacant before, or is the released one.
theorem vacant_release {slotId other : Id} {now : ℤ}
    (h : Vacant (PrismaParkingSlotRepository.setStatus db slotId .DISPONIBLE now) other) :
    Vacant db other ∨ other = slotId := by
  unfold Vacant at *
  rw [slotStatus_slots_setStatus] at h
  by_cases ho : other = slotId
  · exact .inr ho
  · rw [if_neg ho] at h
    exact .inl h

end SmartParking
