import SmartParking.EntryWindow

namespace SmartParking

open Async

-- A sweep with its answer.
def Sweep.run (sweep : Sweep) (db : Database) : Except Fault ℕ × World :=
  ExpireOverdueReservationsUseCase.execute.run serve sweep.choices ⟨db, sweep.clock⟩

-- The reservation was not entered in its window.
def Reservation.Due (now : ℤ) (reservation : Reservation) : Prop :=
  reservation.status = .PENDING ∧ reservation.expiresAt < now

instance (now : ℤ) : DecidablePred (Reservation.Due now) :=
  fun _ => inferInstanceAs (Decidable (_ ∧ _))

-- Every open reservation is for a slot of the database.
def Slotted (db : Database) : Prop :=
  ∀ reservation ∈ db.reservations, reservation.status = .PENDING →
    ∃ slot ∈ db.slots, slot.id = reservation.slotId

-- The due reservations are EXPIRED and their slots DISPONIBLE, and nothing else
-- has changed.
structure ExpiresDue (now : ℤ) (before after : Database) : Prop where
  expired : ∀ reservation ∈ before.reservations, reservation.Due now →
    { reservation with status := .EXPIRED } ∈ after.reservations
  released : ∀ reservation ∈ before.reservations, reservation.Due now →
    ∃ slot ∈ before.slots, slot.id = reservation.slotId ∧
      ∃ updatedAt, { slot with status := .DISPONIBLE, updatedAt } ∈ after.slots
  reservations : ∀ id, (∀ reservation ∈ before.reservations, reservation.Due now →
    reservation.id ≠ id) → after.reservations.lookup id = before.reservations.lookup id
  slots : ∀ id, (∀ reservation ∈ before.reservations, reservation.Due now →
    reservation.slotId ≠ id) → after.slots.lookup id = before.slots.lookup id
  sessions : after.sessions = before.sessions
  branches : after.branches = before.branches

def countDue (now : ℤ) (db : Database) : ℕ :=
  (db.reservations.rows.filter fun reservation => reservation.Due now).length

end SmartParking
