import SmartParking.Reentry

namespace SmartParking

open Async

-- One execution of the sweep, from the time that its clock shows at first.
structure Sweep where
  clock : ℤ
  choices : ℕ → Choice

namespace Sweep

-- The time that the sweep reads.
def time (sweep : Sweep) : ℤ := sweep.clock + (sweep.choices 0).elapsed

def play (db : Database) (sweep : Sweep) : Database :=
  (ExpireOverdueReservationsUseCase.execute.run serve sweep.choices ⟨db, sweep.clock⟩).2.db

def playAll (db : Database) (sweeps : List Sweep) : Database := sweeps.foldl Sweep.play db

end Sweep

-- The entry is accepted, rather than refused.
def Accepts (db : Database) (reservationId : Id) (now : ℤ) (choices : ℕ → Choice) (clock : ℤ) :
    Prop :=
  ∃ session,
    ((DefaultParkingPolicy.registerEntry reservationId now).run serve choices ⟨db, clock⟩).1 =
      .ok session

def Unvisited (db : Database) (reservation : Reservation) : Prop :=
  ∀ session ∈ db.sessions, session.reservationId ≠ reservation.id

-- The decision of the entry at the given time is that of the window of the reservation.
structure Punctual (db : Database) (reservation : Reservation) (now : ℤ) : Prop where
  sweeps : ∀ sweeps : List Sweep,
    (∀ sweep ∈ sweeps, reservation.expiresAt < sweep.time ∧ sweep.time ≤ now) →
      ∀ choices clock choices' clock', Accepts (Sweep.playAll db sweeps) reservation.id now choices clock ↔
        Accepts db reservation.id now choices' clock'
  overdue : reservation.status = .PENDING → reservation.expiresAt < now →
    ∀ choices clock, ¬Accepts db reservation.id now choices clock
  inTime : reservation.status = .PENDING → reservation.startAt ≤ now →
    now ≤ reservation.expiresAt → Unvisited db reservation →
      ∀ choices clock, Accepts db reservation.id now choices clock

-- The window has passed, and no sweep has said so.
def Lapsed (db : Database) (reservation : Reservation) (now : ℤ) : Prop :=
  reservation.status = .PENDING ∧ reservation.startAt ≤ now ∧ reservation.expiresAt < now ∧
    Unvisited db reservation

end SmartParking
