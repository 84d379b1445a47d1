import SmartParking.Handout

namespace SmartParking

open Async

variable {Tid : Type}

-- Concurrent requests of one user.
def Creations.ofUser (config : Config) (world : World) (userId : Id)
    (inputs : Tid → CreateReservationInput) : Creations Tid :=
  Creations.start config world fun thread => { inputs thread with userId }

def LiveOf (userId : Id) (reservation : Reservation) : Prop :=
  reservation.userId = userId ∧ reservation.status.Live

instance (userId : Id) : DecidablePred (LiveOf userId) :=
  fun _ => inferInstanceAs (Decidable (_ ∧ _))

def AtMostOneLive (userId : Id) (db : Database) : Prop :=
  ∀ reservation ∈ db.reservations, ∀ other ∈ db.reservations,
    LiveOf userId reservation → LiveOf userId other → reservation = other

instance (userId : Id) (db : Database) : Decidable (AtMostOneLive userId db) :=
  inferInstanceAs (Decidable (∀ reservation ∈ db.reservations, ∀ other ∈ db.reservations,
    LiveOf userId reservation → LiveOf userId other → reservation = other))

-- The user whose reservation a call inserts.
def insertedUser : Call → Option Id
  | .reservationsCreate data => some data.userId
  | _ => none

def InsertFor (userId : Id) (event : Event Tid Call Answer Fault) : Prop :=
  insertedUser event.call = some userId

def LookFor (userId : Id) (thread : Tid) (event : Event Tid Call Answer Fault) : Prop :=
  event.thread = thread ∧ event.call = .reservationsFindActiveByUser userId

-- A reservation of the user was inserted after the thread had looked for one.
def InsertedSince (userId : Id) (thread : Tid) (history : History Tid) : Prop :=
  Since (LookFor userId thread) (InsertFor userId) history

-- An insert is only made when none came since the look of the same execution.
def Unraced (userId : Id) : CallGuard Tid := fun _ history thread call _ =>
  insertedUser call = some userId → ¬InsertedSince userId thread history

section Decidable

variable [DecidableEq Tid]

instance (userId : Id) (event : Event Tid Call Answer Fault) : Decidable (InsertFor userId event) :=
  inferInstanceAs (Decidable (_ = _))

instance (userId : Id) (thread : Tid) (event : Event Tid Call Answer Fault) :
    Decidable (LookFor userId thread event) :=
  inferInstanceAs (Decidable (_ ∧ _))

instance (userId : Id) (thread : Tid) (history : History Tid) :
    Decidable (InsertedSince userId thread history) :=
  inferInstanceAs (Decidable (Since _ _ history))

instance (userId : Id) (world : World) (history : History Tid) (thread : Tid) (call : Call)
    (choice : Choice) : Decidable (Unraced userId world history thread call choice) :=
  inferInstanceAs (Decidable (_ → ¬_))

end Decidable

-- Whether an execution has looked for a live reservation and found none, and
-- has not inserted its own.
inductive Look where
  | pending
  | clear
  | over

-- What the requests of the user keep together.
structure Alone (userId : Id) (db : Database) (history : History Tid) (looks : Tid → Look) :
    Prop where
  single : AtMostOneLive userId db
  clear : ∀ thread, looks thread = .clear →
    (∃ event ∈ history, LookFor userId thread event) ∧
      (¬InsertedSince userId thread history → ∀ reservation ∈ db.reservations,
        ¬LiveOf userId reservation)
  inserted : (∃ event ∈ history, InsertFor userId event) →
    ∃ reservation ∈ db.reservations, LiveOf userId reservation

end SmartParking
