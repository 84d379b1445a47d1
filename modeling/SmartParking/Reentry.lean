import SmartParking.Retry

namespace SmartParking

open Async

-- A request in which any write can be lost, with the error it is lost with.
structure LossyTurn where
  operation : Operation
  choices : ℕ → Option Fault × Choice

def LossyTurn.play (config : Config) (world : World) (turn : LossyTurn) : World :=
  ((turn.operation.execute config).run (faulty serve Call.writes) turn.choices world).2

def LossyTurn.playAll (config : Config) (world : World) (turns : List LossyTurn) : World :=
  turns.foldl (LossyTurn.play config) world

-- The entry has a new ACTIVE session, its reservation is CONFIRMED and its slot
-- is OCUPADA.
structure Entered (before after : Database) (reservationId : Id) (session : ParkingSession) :
    Prop where
  stored : session ∈ after.sessions
  fresh : ∀ old ∈ before.sessions, old.id ≠ session.id
  active : session.status = .ACTIVE
  ofReservation : session.reservationId = reservationId
  confirmed : ∃ reservation ∈ after.reservations, reservation.id = reservationId ∧
    reservation.status = .CONFIRMED ∧ slotStatus after reservation.slotId = some .OCUPADA

-- What an entry may end with. An error of the infrastructure is no answer.
def Clean (before : Database) (reservationId : Id) (after : Except Fault ParkingSession × World) :
    Prop :=
  match after.1 with
  | .ok session => Entered before after.2.db reservationId session
  | .error (.domain _) => after.2.db.reservations = before.reservations ∧
      after.2.db.sessions = before.sessions ∧ after.2.db.slots = before.slots
  | .error (.infrastructure _) => False

-- The reservation is still open for an entry, and has had its session.
def Spent (db : Database) (reservationId : Id) (now : ℤ) : Prop :=
  ∃ reservation ∈ db.reservations, reservation.id = reservationId ∧ reservation.status.Live ∧
    reservation.startAt ≤ now ∧ ∃ session ∈ db.sessions,
      session.reservationId = reservation.id ∧ session.status = .COMPLETED

-- The reservation is open for an entry, and has had no session.
def Admissible (db : Database) (reservationId : Id) (now : ℤ) : Prop :=
  ∃ reservation ∈ db.reservations, reservation.id = reservationId ∧ reservation.status.Live ∧
    reservation.startAt ≤ now ∧ ∀ session ∈ db.sessions, session.reservationId ≠ reservation.id

-- What registerEntry does: it enters, it refuses, or the database refuses its insert.
inductive Answers (before : Database) (reservationId : Id) (now : ℤ) :
    Except Fault ParkingSession → Database → Prop
  | entered {session : ParkingSession} {after : Database}
      (hopen : Admissible before reservationId now)
      (hentered : Entered before after reservationId session) :
      Answers before reservationId now (.ok session) after
  | refused {error : DomainError} (hopen : ¬Admissible before reservationId now)
      (hspent : ¬Spent before reservationId now) :
      Answers before reservationId now (.error (.domain error)) before
  | broken {text : String} {after : Database} (hspent : Spent before reservationId now) :
      Answers before reservationId now (.error (.infrastructure text)) after

def Located (db : Database) (slotId branchId : Id) : Prop :=
  (db.slots.lookup slotId).map ParkingSlot.branchId = some branchId

-- Every reservation has its slot in the inventory of its branch.
def Housed (db : Database) : Prop :=
  ∀ reservation ∈ db.reservations, Located db reservation.slotId reservation.branchId

-- The exit of the session that the entry of the reservation has opened, paid.
def Demo.leaving : Choice where
  elapsed := 1
  uuid := "x1"
  locked _ := false
  qr := .ok { type := .EXIT, reservationId := none, sessionId := some "r1", expiresAt := 1000 }
  payment sessionId := some {
    id := "p1"
    sessionId
    userId := "u1"
    amount := ⟨500⟩
    status := .APPROVED
    externalReference := none
    paidAt := none
    createdAt := 0 }
  user _ := none

-- Reserve, enter, and leave: the exit completes the session, and its release of the
-- slot is lost.
def Demo.interrupted : List LossyTurn := [
  ⟨.CreateReservation (request "u1"), fun _ => (none, choice "r1")⟩,
  ⟨.RegisterEntry "", fun _ => (none, choice "r1")⟩,
  ⟨.RegisterExit "", fun n =>
    (if n = 9 then some (.infrastructure "Connection lost.") else none, leaving)⟩]

end SmartParking
