import SmartParking.Async.Script
import SmartParking.Backend.Inventory
import SmartParking.Backend.Operations
import Mathlib.Tactic.MkIffOfInductiveProp

namespace SmartParking

open Async

def Call.writes : Call → Bool
  | .slotsClaimAvailableSlot _ _ | .slotsClaimLeastRecentlyUsedSlot _ _ | .slotsUpdateStatus _ _ => true
  | .reservationsCreate _ | .reservationsUpdateStatus _ _ _ => true
  | .sessionsCreate _ | .sessionsMarkCompleted _ _ => true
  | _ => false

-- The operations that write more than once. The exit is of one session, with a
-- new exit code for each execution.
inductive Retriable where
  | CancelReservation (input : CancelReservationInput)
  | RegisterExit (sessionId : Id)
  | ExpireOverdueReservations
  deriving DecidableEq

-- One execution: its exit code, if it needs one, and the answers of its calls.
structure Try where
  token : String
  expiresAt : ℤ
  choices : ℕ → Choice

namespace Retriable

def toOperation (token : String) : Retriable → Operation
  | .CancelReservation input => .CancelReservation input
  | .RegisterExit _ => .RegisterExit token
  | .ExpireOverdueReservations => .ExpireOverdueReservations

-- The code of an exit verifies, and is of its session.
def choices (once : Try) : Retriable → ℕ → Choice
  | .RegisterExit sessionId, n => { once.choices n with
      qr := .ok {
        type := .EXIT
        reservationId := none
        sessionId := some sessionId
        expiresAt := once.expiresAt } }
  | _, n => once.choices n

-- An execution in which no write is lost.
def execute (config : Config) (operation : Retriable) (once : Try) (world : World) :
    Except Fault Outcome × World :=
  ((operation.toOperation once.token).execute config).run serve (operation.choices once) world

-- An execution whose write of the given number is lost. The counter it leaves is
-- gone if it came to that write.
def attempt (config : Config) (operation : Retriable) (lost : ℕ) (once : Try) (world : World) :
    World × Option ℕ :=
  (((operation.toOperation once.token).execute config).run
    (losing serve Call.writes (.infrastructure "Connection lost.")) (operation.choices once)
    (world, some lost)).2

end Retriable

def sessionStatus (db : Database) (sessionId : Id) : Option SessionStatus :=
  (db.sessions.lookup sessionId).map ParkingSession.status

@[mk_iff] structure SameStatuses (db db' : Database) : Prop where
  reservations : ∀ id, statusOf db id = statusOf db' id
  sessions : ∀ id, sessionStatus db id = sessionStatus db' id
  slots : ∀ id, slotStatus db id = slotStatus db' id

-- There is nothing to release.
def Freed (db : Database) (slotId : Id) : Prop :=
  ∀ status, slotStatus db slotId = some status → status = .DISPONIBLE

-- There is nothing to complete.
def Finished (db : Database) (reservationId : Id) : Prop :=
  ∀ status, statusOf db reservationId = some status → status = .COMPLETED

-- What the retry does not do again, from the lost write on, was so before: the
-- first write is the one that the retry looks at. In the sweep every reservation
-- has its first write, and another overdue reservation can free the same slot.
def Recovers (db : Database) (lost : ℕ) (sweptAt retriedAt : ℤ) : Retriable → Prop
  | .CancelReservation input =>
      lost = 0 ∨ ∀ reservation ∈ db.reservations, reservation.id = input.reservationId →
        Freed db reservation.slotId
  | .RegisterExit sessionId =>
      lost = 0 ∨ ∀ session ∈ db.sessions, session.id = sessionId →
        Finished db session.reservationId ∧ (lost = 1 → Freed db session.slotId)
  | .ExpireOverdueReservations =>
      lost % 2 = 0 ∨
        ∀ reservation ∈ (PrismaReservationRepository.findExpiredPending db sweptAt)[lost / 2]?,
          Freed db reservation.slotId ∨
            ∃ other ∈ PrismaReservationRepository.findExpiredPending db retriedAt,
              other ≠ reservation ∧ other.slotId = reservation.slotId

end SmartParking
