import SmartParking.Async.Pool
import SmartParking.Backend.Repositories

namespace SmartParking

open Async

-- What the signed QR token says. An absent id and an empty one are the same to
-- the checks of the use cases.
inductive QrType where
  | ENTRY | EXIT
  deriving DecidableEq

structure QrPayload where
  type : QrType
  reservationId : Option Id
  sessionId : Option Id
  expiresAt : ℤ
  deriving DecidableEq

structure UserLookupResult where
  id : Id
  email : String
  fullName : String
  deriving DecidableEq

structure AuditEventPayload where
  reservationId : Id
  branchId : Id
  slotId : Id
  status : ReservationStatus
  deriving DecidableEq

structure AuditEvent where
  eventId : Id
  eventType : String
  occurredAt : ℤ
  aggregateId : Id
  actorUserId : Id
  payload : AuditEventPayload
  deriving DecidableEq

structure ReservationConfirmationEvent where
  eventId : Id
  eventType : String
  occurredAt : ℤ
  reservationId : Id
  userId : Id
  userEmail : String
  userFullName : String
  branchId : Id
  branchName : String
  branchAddress : String
  slotId : Id
  startAt : ℤ
  expiresAt : ℤ
  deriving DecidableEq

-- The part of the resolved payload that depends on its status.
inductive Resolution where
  | CREATED (id branchId slotId : Id) (startAt expiresAt : ℤ)
  | SUGGEST_OTHER_BRANCH (id : Id) (name address : String) (distanceKm : ℚ)
  | REJECTED (code message : String)
  deriving DecidableEq

structure ReservationRequestResolvedPayload where
  requestId : Id
  userId : Id
  resolution : Resolution
  deriving DecidableEq

-- The messages of the realtime notifier, but for the answer to a request.
inductive Notification where
  | ReservationCreated (reservationId branchId slotId userId : Id) (expiresAt : ℤ)
  | ReservationExpired (reservationId branchId slotId : Id)
  | ReservationCancelled (reservationId branchId slotId : Id)
  | SlotStatusChanged (branchId slotId : Id) (status : SlotStatus)
  | OccupancyUpdated (branchId : Id)
  | EntryRegistered (sessionId branchId slotId userId : Id)
  | ExitRegistered (sessionId branchId slotId : Id)
  deriving DecidableEq

-- One constructor for each call of the use cases on their ports out, and for
-- the answer of the queue consumer to its channel.
inductive Call where
  | branchesFindById (id : Id)
  | branchesFindAllExcept (excludeBranchId : Id)
  | slotsHasAvailability (branchId : Id) (type : Option SlotType)
  | slotsClaimAvailableSlot (branchId : Id) (type : Option SlotType)
  | slotsClaimLeastRecentlyUsedSlot (branchId : Id) (type : Option SlotType)
  | slotsUpdateStatus (slotId : Id) (status : SlotStatus)
  | slotsGetOccupancySummary (branchIds : List Id)
  | reservationsFindById (id : Id)
  | reservationsFindActiveByUser (userId : Id)
  | reservationsFindExpiredPending (now : ℤ)
  | reservationsCreate (data : CreateReservationData)
  | reservationsUpdateStatus (id : Id) (status : ReservationStatus) (confirmedAt : Option ℤ)
  | sessionsFindById (id : Id)
  | sessionsFindActiveByUser (userId : Id)
  | sessionsFindByReservationId (reservationId : Id)
  | sessionsCreate (data : CreateParkingSessionData)
  | sessionsMarkCompleted (id : Id) (exitAt : ℤ)
  | paymentsFindBySessionId (sessionId : Id)
  | usersFindById (userId : Id)
  | clockNow
  | randomUUID
  | qrCodeVerify (token : String)
  | notify (notification : Notification)
  | notifyReservationRequestResolved (payload : ReservationRequestResolvedPayload)
  | publishAuditEvent (event : AuditEvent)
  | publishReservationConfirmation (event : ReservationConfirmationEvent)
  | channelAck
  | channelNack (requeue : Bool)
  deriving DecidableEq

@[reducible] def Answer : Call → Type
  | .branchesFindById _ => Option Branch
  | .branchesFindAllExcept _ => List Branch
  | .slotsHasAvailability _ _ => Bool
  | .slotsClaimAvailableSlot _ _ => Option ParkingSlot
  | .slotsClaimLeastRecentlyUsedSlot _ _ => Option ParkingSlot
  | .slotsUpdateStatus _ _ => Unit
  | .slotsGetOccupancySummary _ => List BranchOccupancySummary
  | .reservationsFindById _ => Option Reservation
  | .reservationsFindActiveByUser _ => Option Reservation
  | .reservationsFindExpiredPending _ => List Reservation
  | .reservationsCreate _ => Reservation
  | .reservationsUpdateStatus _ _ _ => Unit
  | .sessionsFindById _ => Option ParkingSession
  | .sessionsFindActiveByUser _ => Option ParkingSession
  | .sessionsFindByReservationId _ => Option ParkingSession
  | .sessionsCreate _ => ParkingSession
  | .sessionsMarkCompleted _ _ => Unit
  | .paymentsFindBySessionId _ => Option Payment
  | .usersFindById _ => Option UserLookupResult
  | .clockNow => ℤ
  | .randomUUID => Id
  | .qrCodeVerify _ => QrPayload
  | .notify _ => Unit
  | .notifyReservationRequestResolved _ => Unit
  | .publishAuditEvent _ => Unit
  | .publishReservationConfirmation _ => Unit
  | .channelAck => Unit
  | .channelNack _ => Unit

abbrev Port (α : Type) := Program Call Answer Fault α

abbrev ask (call : Call) : Port (Answer call) := Program.perform call

-- The ports under the names the use cases give them.
abbrev branches.findById (id : Id) : Port (Option Branch) := ask (.branchesFindById id)
abbrev branches.findAllExcept (id : Id) : Port (List Branch) := ask (.branchesFindAllExcept id)
abbrev slots.hasAvailability (branchId : Id) (type : Option SlotType) : Port Bool :=
  ask (.slotsHasAvailability branchId type)
abbrev slots.claimAvailableSlot (branchId : Id) (type : Option SlotType) :
    Port (Option ParkingSlot) :=
  ask (.slotsClaimAvailableSlot branchId type)
abbrev slots.claimLeastRecentlyUsedSlot (branchId : Id) (type : Option SlotType) :
    Port (Option ParkingSlot) :=
  ask (.slotsClaimLeastRecentlyUsedSlot branchId type)
abbrev slots.updateStatus (slotId : Id) (status : SlotStatus) : Port Unit :=
  ask (.slotsUpdateStatus slotId status)
abbrev slots.getOccupancySummary (branchIds : List Id) : Port (List BranchOccupancySummary) :=
  ask (.slotsGetOccupancySummary branchIds)
abbrev reservations.findById (id : Id) : Port (Option Reservation) :=
  ask (.reservationsFindById id)
abbrev reservations.findActiveByUser (userId : Id) : Port (Option Reservation) :=
  ask (.reservationsFindActiveByUser userId)
abbrev reservations.findExpiredPending (now : ℤ) : Port (List Reservation) :=
  ask (.reservationsFindExpiredPending now)
abbrev reservations.create (data : CreateReservationData) : Port Reservation :=
  ask (.reservationsCreate data)
abbrev reservations.updateStatus (id : Id) (status : ReservationStatus)
    (confirmedAt : Option ℤ) : Port Unit :=
  ask (.reservationsUpdateStatus id status confirmedAt)
abbrev sessions.findById (id : Id) : Port (Option ParkingSession) := ask (.sessionsFindById id)
abbrev sessions.findActiveByUser (userId : Id) : Port (Option ParkingSession) :=
  ask (.sessionsFindActiveByUser userId)
abbrev sessions.findByReservationId (reservationId : Id) : Port (Option ParkingSession) :=
  ask (.sessionsFindByReservationId reservationId)
abbrev sessions.create (data : CreateParkingSessionData) : Port ParkingSession :=
  ask (.sessionsCreate data)
abbrev sessions.markCompleted (id : Id) (exitAt : ℤ) : Port Unit :=
  ask (.sessionsMarkCompleted id exitAt)
abbrev payments.findBySessionId (sessionId : Id) : Port (Option Payment) :=
  ask (.paymentsFindBySessionId sessionId)
abbrev users.findById (userId : Id) : Port (Option UserLookupResult) :=
  ask (.usersFindById userId)
abbrev clock.now : Port ℤ := ask .clockNow
abbrev randomUUID : Port Id := ask .randomUUID
abbrev qrCode.verify (token : String) : Port QrPayload := ask (.qrCodeVerify token)
abbrev notifier.notify (notification : Notification) : Port Unit := ask (.notify notification)
abbrev notifier.notifyReservationRequestResolved (payload : ReservationRequestResolvedPayload) :
    Port Unit :=
  ask (.notifyReservationRequestResolved payload)
abbrev auditEvents.publishAuditEvent (event : AuditEvent) : Port Unit :=
  ask (.publishAuditEvent event)
abbrev notifications.publishReservationConfirmation (event : ReservationConfirmationEvent) :
    Port Unit :=
  ask (.publishReservationConfirmation event)
abbrev channel.ack : Port Unit := ask .channelAck
abbrev channel.nack (requeue : Bool) : Port Unit := ask (.channelNack requeue)

structure World where
  db : Database
  clock : ℤ

-- What one call does not decide by itself: the time it takes, the uuid it
-- draws, the rows locked by others, and the answers of the other services.
structure Choice where
  elapsed : ℕ
  uuid : Id
  locked : Id → Bool
  qr : Except Fault QrPayload
  payment : Id → Option Payment
  user : Id → Option UserLookupResult

-- A write is all or nothing.
def committed {α : Type} (db : Database) : Except Fault (α × Database) →
    Except Fault α × Database
  | .ok (value, db') => (.ok value, db')
  | .error err => (.error err, db)

def written (result : Except Fault Database) : Except Fault (Unit × Database) :=
  result.map fun db => ((), db)

def query (choice : Choice) (now : ℤ) (db : Database) :
    (call : Call) → Except Fault (Answer call) × Database
  | .branchesFindById id => (.ok (PrismaBranchRepository.findById db id), db)
  | .branchesFindAllExcept id => (.ok (PrismaBranchRepository.findAllExcept db id), db)
  | .slotsHasAvailability branchId type =>
      (.ok (PrismaParkingSlotRepository.hasAvailability db branchId type), db)
  | .slotsClaimAvailableSlot branchId type =>
      (PrismaParkingSlotRepository.claimAvailableSlot db now choice.locked branchId type).map
        .ok id
  | .slotsClaimLeastRecentlyUsedSlot branchId type =>
      (PrismaParkingSlotRepository.claimLeastRecentlyUsedSlot db now choice.locked branchId type).map
        .ok id
  | .slotsUpdateStatus slotId status =>
      committed db (written (PrismaParkingSlotRepository.updateStatus db now slotId status))
  | .slotsGetOccupancySummary branchIds =>
      (.ok (PrismaParkingSlotRepository.getOccupancySummary db branchIds), db)
  | .reservationsFindById id => (.ok (PrismaReservationRepository.findById db id), db)
  | .reservationsFindActiveByUser userId =>
      (.ok (PrismaReservationRepository.findActiveByUser db userId), db)
  | .reservationsFindExpiredPending time =>
      (.ok (PrismaReservationRepository.findExpiredPending db time), db)
  | .reservationsCreate data =>
      committed db (PrismaReservationRepository.create db choice.uuid now data)
  | .reservationsUpdateStatus id status confirmedAt =>
      committed db (written (PrismaReservationRepository.updateStatus db id status confirmedAt))
  | .sessionsFindById id => (.ok (PrismaParkingSessionRepository.findById db id), db)
  | .sessionsFindActiveByUser userId =>
      (.ok (PrismaParkingSessionRepository.findActiveByUser db userId), db)
  | .sessionsFindByReservationId id =>
      (.ok (PrismaParkingSessionRepository.findByReservationId db id), db)
  | .sessionsCreate data =>
      committed db (PrismaParkingSessionRepository.create db choice.uuid data)
  | .sessionsMarkCompleted id exitAt =>
      committed db (written (PrismaParkingSessionRepository.markCompleted db id exitAt))
  | .paymentsFindBySessionId sessionId => (.ok (choice.payment sessionId), db)
  | .usersFindById userId => (.ok (choice.user userId), db)
  | .clockNow => (.ok now, db)
  | .randomUUID => (.ok choice.uuid, db)
  | .qrCodeVerify _ => (choice.qr, db)
  | .notify _ => (.ok (), db)
  | .notifyReservationRequestResolved _ => (.ok (), db)
  | .publishAuditEvent _ => (.ok (), db)
  | .publishReservationConfirmation _ => (.ok (), db)
  | .channelAck => (.ok (), db)
  | .channelNack _ => (.ok (), db)

-- Time passes before each call, and never goes back.
def serve : Server Choice World Call Answer Fault := fun choice world call =>
  let now := world.clock + choice.elapsed
  let (answer, db) := query choice now world.db call
  (answer, { db, clock := now })

end SmartParking
