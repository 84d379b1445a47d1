import SmartParking.Backend.Modular
import SmartParking.Backend.Operations

namespace SmartParking

open Async

variable {Tid : Type}

-- The requests that reserve and release slots without a car.
inductive ReservationOperation where
  | CreateReservation (input : CreateReservationInput)
  | CancelReservation (input : CancelReservationInput)
  | ExpireOverdueReservations
  deriving DecidableEq

def ReservationOperation.toOperation : ReservationOperation → Operation
  | .CreateReservation input => .CreateReservation input
  | .CancelReservation input => .CancelReservation input
  | .ExpireOverdueReservations => .ExpireOverdueReservations

-- The reservation whose status an execution wrote last.
def onBehalfOf [DecidableEq Tid] (history : History Tid) (thread : Tid) : Option Id :=
  history.findSome? fun event =>
    match event.call with
    | .reservationsUpdateStatus id _ _ => if event.thread = thread then some id else none
    | _ => none

-- No execution is about to free a slot that a live reservation refers to, other
-- than the reservation it acts for.
def ReleaseSafe [DecidableEq Tid] (pool : Requests Tid) : Prop :=
  ∀ thread slotId, (pool.threads thread).awaited = some (.slotsUpdateStatus slotId .DISPONIBLE) →
    ∀ slot ∈ pool.world.db.slots, slot.id = slotId →
      ∀ reservation ∈ pool.world.db.reservations, reservation.status.Live →
        reservation.slotId = slotId → onBehalfOf pool.history thread = some reservation.id

def DistinctSlots (db : Database) : Prop :=
  ∀ reservation ∈ db.reservations, ∀ other ∈ db.reservations, reservation.status.Live →
    other.status.Live → reservation.slotId = other.slotId → reservation = other

instance (db : Database) : Decidable (DistinctSlots db) :=
  inferInstanceAs (Decidable (∀ reservation ∈ db.reservations, ∀ other ∈ db.reservations,
    reservation.status.Live → other.status.Live → reservation.slotId = other.slotId →
      reservation = other))

-- A status is only written over a reservation that is still live.
def StillLive : CallGuard Tid := fun world _ _ call _ =>
  match call with
  | .reservationsUpdateStatus id _ _ =>
      ∃ reservation ∈ world.db.reservations, reservation.id = id ∧ reservation.status.Live
  | _ => True

instance (world : World) (history : History Tid) (thread : Tid) (call : Call) (choice : Choice) :
    Decidable (StillLive world history thread call choice) := by
  unfold StillLive
  split <;> infer_instance

-- A slot an execution holds, after its claim or before its release, and the
-- copies of reservations it has read.
structure Errand where
  slotId : Option Id
  seen : List Reservation

-- Live reservations and executions hold distinct slots, none of them vacant.
-- A reservation keeps the slot that any copy of it shows.
structure Releasing (db : Database) (errands : Tid → Errand) : Prop where
  sound : Holding.Sound (Vacant db) (Sum.elim (heldSlot db) (Errand.slotId ∘ errands))
  current : ∀ thread, ∀ copy ∈ (errands thread).seen,
    ∃ reservation ∈ db.reservations, reservation.id = copy.id ∧ reservation.slotId = copy.slotId

end SmartParking
