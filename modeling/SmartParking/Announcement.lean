import SmartParking.Async.Bounded
import SmartParking.Async.Discipline
import SmartParking.Async.Interrupted
import SmartParking.Redelivery
import SmartParking.Reentry

namespace SmartParking

open Async

-- What an execution has done or been shown.
inductive Fact where
  | claimed (slot : ParkingSlot)
  | created (reservation : Reservation)
  | found (reservation : Reservation)
  | marked (reservationId : Id) (status : ReservationStatus)
  | slotMarked (slotId : Id) (status : SlotStatus)
  | entered (session : ParkingSession)
  | seen (session : ParkingSession)
  | completed (sessionId : Id)
  | user (userId : Id) (user : UserLookupResult)
  | branch (branch : Branch)

variable {known more : Set Fact}

-- A message to the realtime notifier says what its execution has done.
inductive Told (known : Set Fact) : Notification → Prop
  | created {reservation : Reservation} (h : .created reservation ∈ known) :
      Told known (.ReservationCreated reservation.id reservation.branchId reservation.slotId
        reservation.userId reservation.expiresAt)
  | reserved {reservation : Reservation} {slot : ParkingSlot}
      (h : .created reservation ∈ known) (hslot : .claimed slot ∈ known)
      (hid : slot.id = reservation.slotId) :
      Told known (.SlotStatusChanged reservation.branchId reservation.slotId .RESERVADA)
  | filled {reservation : Reservation} (h : .created reservation ∈ known) :
      Told known (.OccupancyUpdated reservation.branchId)
  | cancelled {reservation : Reservation} (h : .found reservation ∈ known)
      (hmarked : .marked reservation.id .CANCELLED ∈ known) :
      Told known (.ReservationCancelled reservation.id reservation.branchId reservation.slotId)
  | expired {reservation : Reservation} (h : .found reservation ∈ known)
      (hmarked : .marked reservation.id .EXPIRED ∈ known) :
      Told known (.ReservationExpired reservation.id reservation.branchId reservation.slotId)
  | released {reservation : Reservation} (h : .found reservation ∈ known)
      (hslot : .slotMarked reservation.slotId .DISPONIBLE ∈ known) :
      Told known (.SlotStatusChanged reservation.branchId reservation.slotId .DISPONIBLE)
  | emptied {reservation : Reservation} (h : .found reservation ∈ known)
      (hslot : .slotMarked reservation.slotId .DISPONIBLE ∈ known) :
      Told known (.OccupancyUpdated reservation.branchId)
  | entered {session : ParkingSession} {reservation : Reservation}
      (h : .entered session ∈ known) (hfound : .found reservation ∈ known)
      (hid : reservation.id = session.reservationId) :
      Told known (.EntryRegistered session.id reservation.branchId session.slotId session.userId)
  | occupied {session : ParkingSession} {reservation : Reservation}
      (h : .entered session ∈ known) (hfound : .found reservation ∈ known)
      (hid : reservation.id = session.reservationId)
      (hslot : .slotMarked session.slotId .OCUPADA ∈ known) :
      Told known (.SlotStatusChanged reservation.branchId session.slotId .OCUPADA)
  | taken {session : ParkingSession} {reservation : Reservation}
      (h : .entered session ∈ known) (hfound : .found reservation ∈ known)
      (hid : reservation.id = session.reservationId) :
      Told known (.OccupancyUpdated reservation.branchId)
  | exited {session before : ParkingSession} {reservation : Reservation}
      (h : .seen session ∈ known) (hbefore : .seen before ∈ known)
      (hsession : session.id = before.id) (hfound : .found reservation ∈ known)
      (hid : reservation.id = before.reservationId) (hcompleted : .completed session.id ∈ known) :
      Told known (.ExitRegistered session.id reservation.branchId session.slotId)
  | vacated {session before left : ParkingSession} {reservation : Reservation}
      (h : .seen session ∈ known) (hbefore : .seen before ∈ known)
      (hsession : session.id = before.id) (hfound : .found reservation ∈ known)
      (hid : reservation.id = before.reservationId) (hcompleted : .completed session.id ∈ known)
      (hleft : .seen left ∈ known) (hsame : left.id = session.id)
      (hslot : .slotMarked left.slotId .DISPONIBLE ∈ known) :
      Told known (.SlotStatusChanged reservation.branchId session.slotId .DISPONIBLE)
  | freed {session before : ParkingSession} {reservation : Reservation}
      (h : .seen session ∈ known) (hbefore : .seen before ∈ known)
      (hsession : session.id = before.id) (hfound : .found reservation ∈ known)
      (hid : reservation.id = before.reservationId) (hcompleted : .completed session.id ∈ known) :
      Told known (.OccupancyUpdated reservation.branchId)

-- An audit event is of a reservation that was created, or cancelled for its owner.
def auditOf (eventType : String) (reservation : Reservation) (status : ReservationStatus)
    (eventId : Id) (occurredAt : ℤ) : AuditEvent where
  eventId
  eventType
  occurredAt
  aggregateId := reservation.id
  actorUserId := reservation.userId
  payload := {
    reservationId := reservation.id
    branchId := reservation.branchId
    slotId := reservation.slotId
    status }

inductive Logged (known : Set Fact) : AuditEvent → Prop
  | created {reservation : Reservation} {eventId : Id} {occurredAt : ℤ}
      (h : .created reservation ∈ known) :
      Logged known (auditOf "reservation.created" reservation reservation.status eventId occurredAt)
  | cancelled {reservation : Reservation} {eventId : Id} {occurredAt : ℤ}
      (h : .found reservation ∈ known) (hmarked : .marked reservation.id .CANCELLED ∈ known) :
      Logged known (auditOf "reservation.cancelled" reservation .CANCELLED eventId occurredAt)

-- A confirmation is of a reservation that was created, for the user that was found.
def confirmationOf (reservation : Reservation) (user : UserLookupResult) (branch : Branch)
    (eventId : Id) (occurredAt : ℤ) : ReservationConfirmationEvent where
  eventId
  eventType := "reservation.confirmation.email"
  occurredAt
  reservationId := reservation.id
  userId := user.id
  userEmail := user.email
  userFullName := user.fullName
  branchId := branch.id
  branchName := branch.name
  branchAddress := branch.address
  slotId := reservation.slotId
  startAt := reservation.startAt
  expiresAt := reservation.expiresAt

inductive Confirmed (known : Set Fact) : ReservationConfirmationEvent → Prop
  | created {reservation : Reservation} {user : UserLookupResult} {branch : Branch} {eventId : Id}
      {occurredAt : ℤ} (h : .created reservation ∈ known)
      (huser : .user reservation.userId user ∈ known) (hbranch : .branch branch ∈ known)
      (hid : branch.id = reservation.branchId) :
      Confirmed known (confirmationOf reservation user branch eventId occurredAt)

-- A reservation is only promised to the user it was created for.
def Promised (known : Set Fact) (payload : ReservationRequestResolvedPayload) : Prop :=
  match payload.resolution with
  | .CREATED id branchId slotId startAt expiresAt => ∃ reservation, .created reservation ∈ known ∧
      reservation.id = id ∧ reservation.branchId = branchId ∧ reservation.slotId = slotId ∧
      reservation.startAt = startAt ∧ reservation.expiresAt = expiresAt ∧
      reservation.userId = payload.userId
  | _ => True

theorem Told.mono {message : Notification} (h : Told known message) (hmore : known ⊆ more) :
    Told more message := by
  cases h with
  | created h => exact .created (hmore h)
  | reserved h hslot hid => exact .reserved (hmore h) (hmore hslot) hid
  | filled h => exact .filled (hmore h)
  | cancelled h hmarked => exact .cancelled (hmore h) (hmore hmarked)
  | expired h hmarked => exact .expired (hmore h) (hmore hmarked)
  | released h hslot => exact .released (hmore h) (hmore hslot)
  | emptied h hslot => exact .emptied (hmore h) (hmore hslot)
  | entered h hfound hid => exact .entered (hmore h) (hmore hfound) hid
  | occupied h hfound hid hslot => exact .occupied (hmore h) (hmore hfound) hid (hmore hslot)
  | taken h hfound hid => exact .taken (hmore h) (hmore hfound) hid
  | exited h hbefore hsession hfound hid hcompleted =>
      exact .exited (hmore h) (hmore hbefore) hsession (hmore hfound) hid (hmore hcompleted)
  | vacated h hbefore hsession hfound hid hcompleted hleft hsame hslot =>
      exact .vacated (hmore h) (hmore hbefore) hsession (hmore hfound) hid (hmore hcompleted)
        (hmore hleft) hsame (hmore hslot)
  | freed h hbefore hsession hfound hid hcompleted =>
      exact .freed (hmore h) (hmore hbefore) hsession (hmore hfound) hid (hmore hcompleted)

theorem Promised.mono {payload : ReservationRequestResolvedPayload} (h : Promised known payload)
    (hmore : known ⊆ more) : Promised more payload := by
  obtain ⟨requestId, userId, resolution⟩ := payload
  cases resolution with
  | CREATED id branchId slotId startAt expiresAt =>
      exact Exists.imp (fun _ h => ⟨hmore h.1, h.2⟩) h
  | SUGGEST_OTHER_BRANCH id name address distanceKm => trivial
  | REJECTED code message => trivial

-- What a row says from its insertion on.
structure SameReservation (a b : Reservation) : Prop where
  id : a.id = b.id
  userId : a.userId = b.userId
  branchId : a.branchId = b.branchId
  slotId : a.slotId = b.slotId
  startAt : a.startAt = b.startAt
  expiresAt : a.expiresAt = b.expiresAt

structure SameSession (a b : ParkingSession) : Prop where
  id : a.id = b.id
  reservationId : a.reservationId = b.reservationId
  userId : a.userId = b.userId
  slotId : a.slotId = b.slotId

def CreateReservationData.Describes (data : CreateReservationData) (reservation : Reservation) :
    Prop :=
  reservation.userId = data.userId ∧ reservation.branchId = data.branchId ∧
    reservation.slotId = data.slotId ∧ reservation.startAt = data.startAt ∧
      reservation.expiresAt = data.expiresAt

def CreateParkingSessionData.Describes (data : CreateParkingSessionData)
    (session : ParkingSession) : Prop :=
  session.reservationId = data.reservationId ∧ session.userId = data.userId ∧
    session.slotId = data.slotId

-- Reservations are stored for a claimed slot, sessions for a reservation that was read,
-- and messages say what was done.
def reporting : Discipline Fact Call Answer Fault where
  permits known
    | .reservationsCreate data => ∃ slot, .claimed slot ∈ known ∧ slot.id = data.slotId ∧
        slot.branchId = data.branchId
    | .sessionsCreate data => ∃ reservation, .found reservation ∈ known ∧
        reservation.id = data.reservationId ∧ reservation.userId = data.userId ∧
        reservation.slotId = data.slotId
    | .notify message => Told known message
    | .publishAuditEvent event => Logged known event
    | .publishReservationConfirmation event => Confirmed known event
    | .notifyReservationRequestResolved payload => Promised known payload
    | _ => True
  teaches
    | .slotsClaimAvailableSlot _ _, .ok (some slot) => {.claimed slot}
    | .slotsClaimLeastRecentlyUsedSlot _ _, .ok (some slot) => {.claimed slot}
    | .slotsUpdateStatus slotId status, .ok _ => {.slotMarked slotId status}
    | .reservationsFindById _, .ok (some reservation) => {.found reservation}
    | .reservationsFindExpiredPending _, .ok reservations => {fact | ∃ reservation ∈ reservations,
        fact = .found reservation}
    | .reservationsCreate _, .ok reservation => {.created reservation}
    | .reservationsUpdateStatus id status _, .ok _ => {.marked id status}
    | .sessionsFindById _, .ok (some session) => {.seen session}
    | .sessionsCreate _, .ok session => {.entered session}
    | .sessionsMarkCompleted id _, .ok _ => {.completed id}
    | .usersFindById userId, .ok (some user) => {.user userId user}
    | .branchesFindById _, .ok (some branch) => {.branch branch}
    | _, _ => ∅
  possible
    | .slotsClaimAvailableSlot branchId _, .ok (some slot) => slot.branchId = branchId
    | .slotsClaimLeastRecentlyUsedSlot branchId _, .ok (some slot) => slot.branchId = branchId
    | .reservationsFindById id, .ok (some reservation) => reservation.id = id
    | .reservationsCreate data, .ok reservation => data.Describes reservation
    | .sessionsFindById id, .ok (some session) => session.id = id
    | .sessionsCreate data, .ok session => data.Describes session
    | .branchesFindById id, .ok (some branch) => branch.id = id
    | _, _ => True
  permits_mono {known more call} h hp := by
    cases call with
    | reservationsCreate data => exact hp.imp fun _ hp => ⟨h hp.1, hp.2⟩
    | sessionsCreate data => exact hp.imp fun _ hp => ⟨h hp.1, hp.2⟩
    | notify message => exact Told.mono hp h
    | notifyReservationRequestResolved payload => exact Promised.mono hp h
    | publishAuditEvent event =>
        cases hp with
        | created hr => exact .created (h hr)
        | cancelled hr hmarked => exact .cancelled (h hr) (h hmarked)
    | publishReservationConfirmation event =>
        obtain ⟨hr, huser, hbranch, hid⟩ := hp
        exact .created (h hr) (h huser) (h hbranch) hid
    | _ => exact hp

-- The answers that facts are learned by.
inductive Shows : (call : Call) → Except Fault (Answer call) → Fact → Prop
  | claimed {branchId : Id} {type : Option SlotType} {slot : ParkingSlot} :
      Shows (.slotsClaimAvailableSlot branchId type) (.ok (some slot)) (.claimed slot)
  | claimedInTurn {branchId : Id} {type : Option SlotType} {slot : ParkingSlot} :
      Shows (.slotsClaimLeastRecentlyUsedSlot branchId type) (.ok (some slot)) (.claimed slot)
  | slotMarked {slotId : Id} {status : SlotStatus} :
      Shows (.slotsUpdateStatus slotId status) (.ok ()) (.slotMarked slotId status)
  | found {id : Id} {reservation : Reservation} :
      Shows (.reservationsFindById id) (.ok (some reservation)) (.found reservation)
  | foundExpired {time : ℤ} {rows : List Reservation} {reservation : Reservation}
      (h : reservation ∈ rows) :
      Shows (.reservationsFindExpiredPending time) (.ok rows) (.found reservation)
  | created {data : CreateReservationData} {reservation : Reservation} :
      Shows (.reservationsCreate data) (.ok reservation) (.created reservation)
  | marked {id : Id} {status : ReservationStatus} {confirmedAt : Option ℤ} :
      Shows (.reservationsUpdateStatus id status confirmedAt) (.ok ()) (.marked id status)
  | seen {id : Id} {session : ParkingSession} :
      Shows (.sessionsFindById id) (.ok (some session)) (.seen session)
  | entered {data : CreateParkingSessionData} {session : ParkingSession} :
      Shows (.sessionsCreate data) (.ok session) (.entered session)
  | completed {id : Id} {exitAt : ℤ} :
      Shows (.sessionsMarkCompleted id exitAt) (.ok ()) (.completed id)
  | user {userId : Id} {user : UserLookupResult} :
      Shows (.usersFindById userId) (.ok (some user)) (.user userId user)
  | branch {id : Id} {branch : Branch} :
      Shows (.branchesFindById id) (.ok (some branch)) (.branch branch)

theorem shows_of_teaches {call : Call} {answer : Except Fault (Answer call)} {fact : Fact}
    (h : fact ∈ reporting.teaches call answer) : Shows call answer fact := by
  cases call with
  | slotsClaimAvailableSlot branchId type =>
      rcases answer with err | (_ | slot) <;> cases h
      exact .claimed
  | slotsClaimLeastRecentlyUsedSlot branchId type =>
      rcases answer with err | (_ | slot) <;> cases h
      exact .claimedInTurn
  | slotsUpdateStatus slotId status =>
      rcases answer with err | _ <;> cases h
      exact .slotMarked
  | reservationsFindById id =>
      rcases answer with err | (_ | row) <;> cases h
      exact .found
  | reservationsFindExpiredPending time =>
      rcases answer with err | rows
      · cases h
      · obtain ⟨row, hm, rfl⟩ := h
        exact .foundExpired hm
  | reservationsCreate data =>
      rcases answer with err | row <;> cases h
      exact .created
  | reservationsUpdateStatus id status confirmedAt =>
      rcases answer with err | _ <;> cases h
      exact .marked
  | sessionsFindById id =>
      rcases answer with err | (_ | row) <;> cases h
      exact .seen
  | sessionsCreate data =>
      rcases answer with err | row <;> cases h
      exact .entered
  | sessionsMarkCompleted id exitAt =>
      rcases answer with err | _ <;> cases h
      exact .completed
  | usersFindById userId =>
      rcases answer with err | (_ | row) <;> cases h
      exact .user
  | branchesFindById id =>
      rcases answer with err | (_ | row) <;> cases h
      exact .branch
  | _ => rcases answer with err | row <;> cases h

-- What is still so of the database.
def Fact.Holds (db : Database) : Fact → Prop
  | .claimed slot => Located db slot.id slot.branchId
  | .created reservation | .found reservation => ∃ row ∈ db.reservations,
      SameReservation row reservation
  | .entered session | .seen session => ∃ row ∈ db.sessions, SameSession row session
  | .completed sessionId => ∃ row ∈ db.sessions, row.id = sessionId ∧ row.status = .COMPLETED
  | .branch row => row ∈ db.branches
  | .marked _ _ | .slotMarked _ _ | .user _ _ => True

-- The slot of a reservation is in the inventory of its branch, and the slot and the user
-- of a session are those of its reservation.
structure Linked (db : Database) : Prop where
  housed : Housed db
  seated : ∀ session ∈ db.sessions, ∃ reservation ∈ db.reservations,
    reservation.id = session.reservationId ∧ reservation.userId = session.userId ∧
      reservation.slotId = session.slotId

def AccurateNotification (db : Database) : Notification → Prop
  | .ReservationCreated id branchId slotId userId expiresAt => ∃ reservation ∈ db.reservations,
      reservation.id = id ∧ reservation.branchId = branchId ∧ reservation.slotId = slotId ∧
        reservation.userId = userId ∧ reservation.expiresAt = expiresAt
  | .ReservationExpired id branchId slotId | .ReservationCancelled id branchId slotId =>
      ∃ reservation ∈ db.reservations,
        reservation.id = id ∧ reservation.branchId = branchId ∧ reservation.slotId = slotId
  | .SlotStatusChanged branchId slotId _ => Located db slotId branchId
  | .OccupancyUpdated branchId => ∃ reservation ∈ db.reservations, reservation.branchId = branchId
  | .EntryRegistered id branchId slotId userId => Located db slotId branchId ∧
      ∃ session ∈ db.sessions, session.id = id ∧ session.slotId = slotId ∧ session.userId = userId
  | .ExitRegistered id branchId slotId => Located db slotId branchId ∧
      ∃ session ∈ db.sessions, session.id = id ∧ session.slotId = slotId ∧
        session.status = .COMPLETED

-- What a call says is what the database says.
def Accurate (db : Database) : Call → Prop
  | .notify message => AccurateNotification db message
  | .publishAuditEvent event => ∃ reservation ∈ db.reservations,
      reservation.id = event.aggregateId ∧ reservation.userId = event.actorUserId ∧
        reservation.id = event.payload.reservationId ∧
        reservation.branchId = event.payload.branchId ∧ reservation.slotId = event.payload.slotId
  | .publishReservationConfirmation event => (∃ reservation ∈ db.reservations,
      reservation.id = event.reservationId ∧ reservation.branchId = event.branchId ∧
        reservation.slotId = event.slotId ∧ reservation.startAt = event.startAt ∧
        reservation.expiresAt = event.expiresAt) ∧
      ∃ branch ∈ db.branches, branch.id = event.branchId ∧ branch.name = event.branchName ∧
        branch.address = event.branchAddress
  | .notifyReservationRequestResolved payload =>
      match payload.resolution with
      | .CREATED id branchId slotId startAt expiresAt => ∃ reservation ∈ db.reservations,
          reservation.id = id ∧ reservation.branchId = branchId ∧ reservation.slotId = slotId ∧
            reservation.startAt = startAt ∧ reservation.expiresAt = expiresAt ∧
            reservation.userId = payload.userId
      | _ => True
  | _ => True

-- The ways a new reservation is made known.
inductive Channel where
  | realtime | audit | mail | reply
  deriving DecidableEq

def madeKnown : Channel → Call → Option Id
  | .realtime, .notify (.ReservationCreated id _ _ _ _) => some id
  | .audit, .publishAuditEvent event =>
      if event.eventType = "reservation.created" then some event.aggregateId else none
  | .mail, .publishReservationConfirmation event => some event.reservationId
  | .reply, .notifyReservationRequestResolved payload =>
      match payload.resolution with
      | .CREATED id _ _ _ _ => some id
      | _ => none
  | _, _ => none

-- In every state what was said was done before by who says it, it is so, and a new
-- reservation is made known at most once on each way.
structure Announced {Tid : Type} (pool : Workers Tid) : Prop where
  backed : Along (fun event earlier =>
    reporting.permits (reporting.taught earlier event.thread) event.call) pool.history
  linked : Linked pool.world.db
  accurate : ∀ event ∈ pool.history, Accurate pool.world.db event.call
  once : ∀ channel id, pool.history.countP (fun event => madeKnown channel event.call = some id) ≤ 1

end SmartParking
