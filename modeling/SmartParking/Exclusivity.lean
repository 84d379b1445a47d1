import SmartParking.Backend.Operations

namespace SmartParking

-- What a user can have at one time.
structure Exclusivity (db : Database) : Prop where
  active : ∀ session ∈ db.sessions, ∀ other ∈ db.sessions, session.status = .ACTIVE →
    other.status = .ACTIVE → session.userId = other.userId → session = other
  covered : ∀ session ∈ db.sessions, session.status = .ACTIVE → ∀ reservation ∈ db.reservations,
    reservation.status.Live → reservation.userId = session.userId →
      reservation.id = session.reservationId
  sole : ∀ session ∈ db.sessions, ∀ other ∈ db.sessions,
    session.reservationId = other.reservationId → session = other
  owned : ∀ session ∈ db.sessions, ∃ reservation ∈ db.reservations,
    reservation.id = session.reservationId ∧ reservation.userId = session.userId ∧
      reservation.slotId = session.slotId

-- A COMPLETED session of before is still there.
def StaysCompleted (db db' : Database) : Prop :=
  ∀ session ∈ db.sessions, session.status = .COMPLETED →
    ∃ later ∈ db'.sessions, later.id = session.id ∧ later.reservationId = session.reservationId ∧
      later.status = .COMPLETED

-- No entry that is registered from here on is of the reservation.
def NoEntry (config : Config) (world : World) (reservationId : Id) : Prop :=
  ∀ token choices session,
    (((Operation.RegisterEntry token).execute config).run serve choices world).1 =
      .ok (.Entered session) → session.reservationId ≠ reservationId

-- The invariant: a user has at most one live reservation, also after the end of
-- the session of another.
structure Guarded (db : Database) : Prop extends Exclusivity db where
  live : ∀ reservation ∈ db.reservations, ∀ other ∈ db.reservations, reservation.status.Live →
    other.status.Live → reservation.userId = other.userId → reservation = other

-- The writes that only end things.
def Call.Ends : Call → Prop
  | .reservationsCreate _ | .sessionsCreate _ => False
  | .reservationsUpdateStatus _ status _ => ¬status.Live
  | _ => True

end SmartParking
