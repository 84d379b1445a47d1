import SmartParking.Backend.Modular
import SmartParking.Backend.Operations

namespace SmartParking

open Async

variable {Tid : Type}

-- What can happen to a reservation at the gate: its car enters, or the sweep
-- finds it overdue.
inductive GateOperation where
  | registerEntry
  | expireOverdueReservations
  deriving DecidableEq

def GateOperation.execute (reservationId : Id) : GateOperation → Port Outcome
  | .registerEntry => do
      let now ← clock.now
      let session ← DefaultParkingPolicy.registerEntry reservationId now
      pure (.Entered session)
  | .expireOverdueReservations => do
      let count ← ExpireOverdueReservationsUseCase.execute
      pure (.Expired count)

def Requests.atGate (world : World) (reservationId : Id) (operations : Tid → GateOperation) :
    Requests Tid :=
  Pool.start world fun thread => (operations thread).execute reservationId

-- A status changes once, from PENDING.
def Moves (before after : Option ReservationStatus) : Prop :=
  after = before ∨ before = some .PENDING ∧ (after = some .CONFIRMED ∨ after = some .EXPIRED)

instance (before after : Option ReservationStatus) : Decidable (Moves before after) :=
  inferInstanceAs (Decidable (_ ∨ _))

-- Every execution that has begun has ended.
def Ended (pool : Requests Tid) : Prop :=
  ∀ event ∈ pool.history, (pool.threads event.thread).awaited = none

def Occupied (reservation : Reservation) (db : Database) : Prop :=
  ∀ slot ∈ db.slots, slot.id = reservation.slotId → slot.status = .OCUPADA

def Parked (reservation : Reservation) (session : ParkingSession) : Prop :=
  session.reservationId = reservation.id ∧ session.status = .ACTIVE

instance (reservation : Reservation) (session : ParkingSession) :
    Decidable (Parked reservation session) :=
  inferInstanceAs (Decidable (_ ∧ _))

-- A car inside has a CONFIRMED reservation and an OCUPADA slot.
def Admitted (reservation : Reservation) (db : Database) : Prop :=
  ∀ session ∈ db.sessions, Parked reservation session →
    statusOf db reservation.id = some .CONFIRMED ∧ Occupied reservation db

variable [DecidableEq Tid]

structure Orderly (reservation : Reservation) (first : Requests Tid)
    (schedule : List (Tid × Choice)) : Prop where
  moves : ∀ past turn, past ++ [turn] <+: schedule →
    Moves (statusOf (first.play serve past).world.db reservation.id)
      (statusOf (first.play serve (past ++ [turn])).world.db reservation.id)
  admitted : ∀ past, past <+: schedule → Ended (first.play serve past) →
    Admitted reservation (first.play serve past).world.db

section Guard

omit [DecidableEq Tid]

-- The status that a call writes over a reservation.
def statusWritten (reservationId : Id) : Call → Option ReservationStatus
  | .reservationsUpdateStatus id status _ => if id = reservationId then some status else none
  | _ => none

def Writes (reservationId : Id) (status : ReservationStatus) (event : Event Tid Call Answer Fault) :
    Prop :=
  statusWritten reservationId event.call = some status

def WritesOther (reservationId : Id) (status : ReservationStatus)
    (event : Event Tid Call Answer Fault) : Prop :=
  ∃ other ∈ statusWritten reservationId event.call, other ≠ status

-- An execution reads the reservation by its id, or among the overdue ones.
def LooksAt (reservationId : Id) (thread : Tid) (event : Event Tid Call Answer Fault) : Prop :=
  event.thread = thread ∧
    match event.call with
    | .reservationsFindById id => id = reservationId
    | .reservationsFindExpiredPending _ => True
    | _ => False

-- No execution writes a status after another status was written since its own
-- look at the reservation.
def Unbroken (reservationId : Id) : CallGuard Tid := fun _ history thread call _ =>
  ∀ status ∈ statusWritten reservationId call,
    ¬Since (LooksAt reservationId thread) (WritesOther reservationId status) history

end Guard

section Decidable

instance (reservationId : Id) (status : ReservationStatus) :
    DecidablePred (WritesOther reservationId status : Event Tid Call Answer Fault → Prop) :=
  fun _ => inferInstanceAs (Decidable (∃ other ∈ _, _))

instance (reservationId : Id) (thread : Tid) : DecidablePred (LooksAt reservationId thread) := by
  intro event
  unfold LooksAt
  split <;> infer_instance

instance (reservationId : Id) (world : World) (history : History Tid) (thread : Tid) (call : Call)
    (choice : Choice) : Decidable (Unbroken reservationId world history thread call choice) :=
  inferInstanceAs (Decidable (∀ status ∈ _, _))

end Decidable

-- How far an execution has come: it has not seen the reservation PENDING, it
-- has, it found or made it CONFIRMED, it created the session and is to occupy
-- the slot, or it made it EXPIRED and is to release the slot.
inductive Visit where
  | outside
  | saw
  | inside
  | parked
  | leaving

-- After a look at a reservation that admits a car.
def Visit.after (status : ReservationStatus) : Visit :=
  if status = .PENDING then .saw else .inside

-- The status is the one that was written, if any was.
structure Traced (reservationId : Id) (status : ReservationStatus) (history : History Tid) :
    Prop where
  agrees : ∀ event ∈ history, ∀ other, Writes reservationId other event → other = status
  real : ∀ event ∈ history, ∀ other, Writes reservationId other event →
    other = .CONFIRMED ∨ other = .EXPIRED
  made : status ≠ .PENDING → ∃ event ∈ history, Writes reservationId status event

-- The execution has looked, and nothing had been written before.
structure Seen (reservationId : Id) (thread : Tid) (history : History Tid) : Prop where
  looked : ∃ event ∈ history, LooksAt reservationId thread event
  first : ∀ event ∈ history, ∀ status, Writes reservationId status event →
    Since (LooksAt reservationId thread) (Writes reservationId status) history

-- What an execution may rely on.
def Knows (reservationId : Id) (status : ReservationStatus) (history : History Tid)
    (thread : Tid) : Visit → Prop
  | .outside => True
  | .saw => Seen reservationId thread history
  | .leaving => Seen reservationId thread history ∧ status = .EXPIRED
  | .inside => status = .CONFIRMED
  | .parked => status = .CONFIRMED ∧ ∃ event ∈ history, event.thread = thread

structure AtGate (reservation : Reservation) (status : ReservationStatus) (db : Database)
    (history : History Tid) (visits : Tid → Visit) : Prop where
  row : ∃ row ∈ db.reservations, row.id = reservation.id ∧ row.slotId = reservation.slotId ∧
    row.status = status
  alone : ∀ other ∈ db.reservations, other.slotId = reservation.slotId → other.status = .PENDING →
    other.id = reservation.id
  traced : Traced reservation.id status history
  knows : ∀ thread, Knows reservation.id status history thread (visits thread)
  entered : ∀ session ∈ db.sessions, Parked reservation session →
    status = .CONFIRMED ∧ (Occupied reservation db ∨ ∃ thread, visits thread = .parked)

def atGate (reservation : Reservation) (db : Database) (history : History Tid)
    (visits : Tid → Visit) : Prop :=
  ∃ status, AtGate reservation status db history visits

end SmartParking
