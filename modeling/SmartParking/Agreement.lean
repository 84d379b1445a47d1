import SmartParking.Backend.Inventory
import SmartParking.Backend.Operations

namespace SmartParking

-- PENDING, CONFIRMED or with an ACTIVE session.
def Holds (db : Database) (reservation : Reservation) : Prop :=
  reservation.status.Live ∨
    ∃ session ∈ db.sessions, session.reservationId = reservation.id ∧ session.status = .ACTIVE

-- The slot table tells the same as the reservations and the sessions.
structure Agreement (db : Database) : Prop where
  occupied : ∀ session ∈ db.sessions, session.status = .ACTIVE → ∀ slot ∈ db.slots,
    slot.id = session.slotId → slot.status = .OCUPADA
  reserved : ∀ reservation ∈ db.reservations, reservation.status = .PENDING → ∀ slot ∈ db.slots,
    slot.id = reservation.slotId → slot.status = .RESERVADA
  taken : ∀ slot ∈ db.slots, slot.status = .DISPONIBLE →
    (∀ reservation ∈ db.reservations, reservation.status.Live → reservation.slotId ≠ slot.id) ∧
    ∀ session ∈ db.sessions, session.status = .ACTIVE → session.slotId ≠ slot.id
  exclusive : ∀ reservation ∈ db.reservations, ∀ other ∈ db.reservations,
    Holds db reservation → Holds db other → reservation.slotId = other.slotId → reservation = other

-- The request cancels, as its owner, a reservation that is CONFIRMED.
def CancelsConfirmed (db : Database) (operation : Operation) : Prop :=
  ∃ reservation ∈ db.reservations, reservation.status = .CONFIRMED ∧
    operation = .CancelReservation { reservationId := reservation.id, userId := reservation.userId }

-- The status that a slot has while a reservation of the given status holds it,
-- and DISPONIBLE after that.
def ReservationStatus.slotStatus : ReservationStatus → SlotStatus
  | .PENDING => .RESERVADA
  | .CONFIRMED => .OCUPADA
  | .EXPIRED | .CANCELLED | .COMPLETED => .DISPONIBLE

structure Allotted (db : Database) : Prop where
  exclusive : Holding.Exclusive (heldSlot db)
  allotted : ∀ reservation ∈ db.reservations, reservation.status.Live →
    slotStatus db reservation.slotId = some reservation.status.slotStatus

structure Attended (db : Database) : Prop where
  attended : ∀ reservation ∈ db.reservations, reservation.status = .CONFIRMED →
    ∃ session ∈ db.sessions, session.reservationId = reservation.id ∧ session.status = .ACTIVE
  session : ∀ session ∈ db.sessions, ∃ reservation ∈ db.reservations,
    reservation.id = session.reservationId ∧ reservation.slotId = session.slotId ∧
      reservation.status ≠ .PENDING ∧ (session.status = .ACTIVE → reservation.status = .CONFIRMED)

-- What the requests keep, unless a CONFIRMED reservation is cancelled.
structure Consistent (db : Database) : Prop extends Allotted db, Attended db

end SmartParking
