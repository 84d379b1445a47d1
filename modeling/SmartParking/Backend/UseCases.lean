import SmartParking.Backend.Policies

namespace SmartParking

open Async

structure CreateReservationInput where
  userId : Id
  branchId : Id
  slotType : Option SlotType
  startAt : Option ℤ
  deriving DecidableEq

inductive CreateReservationResult where
  | CREATED (reservation : Reservation)
  | SUGGEST_OTHER_BRANCH (suggestedBranch : Branch) (distanceKm : ℚ)
  deriving DecidableEq

-- Several messages to the realtime notifier, one after another.
def notifier.notifyAll : List Notification → Port Unit
  | [] => pure ()
  | notification :: rest => do
      notifier.notify notification
      notifyAll rest

namespace CreateReservationUseCase

-- Errors of the lookups and of the publish are logged, never thrown.
def publishConfirmationEmail (reservation : Reservation) : Port Unit :=
  tryCatch (do
    let (user, branch) ← (users.findById reservation.userId).both
      (branches.findById reservation.branchId)
    match user, branch with
    | some user, some branch =>
        let eventId ← randomUUID
        let occurredAt ← clock.now
        notifications.publishReservationConfirmation {
          eventId
          eventType := "reservation.confirmation.email"
          occurredAt
          reservationId := reservation.id
          userId := user.id
          userEmail := user.email
          userFullName := user.fullName
          branchId := branch.id
          branchName := branch.name
          branchAddress := branch.address
          slotId := reservation.slotId
          startAt := reservation.startAt
          expiresAt := reservation.expiresAt }
    | _, _ => pure ()) fun _ => pure ()

def publishAudit (reservation : Reservation) : Port Unit := do
  let eventId ← randomUUID
  let occurredAt ← clock.now
  auditEvents.publishAuditEvent {
    eventId
    eventType := "reservation.created"
    occurredAt
    aggregateId := reservation.id
    actorUserId := reservation.userId
    payload := {
      reservationId := reservation.id
      branchId := reservation.branchId
      slotId := reservation.slotId
      status := reservation.status } }

-- What follows the insert.
def announce (reservation : Reservation) : Port Unit := do
  publishAudit reservation
  notifier.notifyAll [
    .ReservationCreated reservation.id reservation.branchId reservation.slotId reservation.userId
      reservation.expiresAt,
    .SlotStatusChanged reservation.branchId reservation.slotId .RESERVADA,
    .OccupancyUpdated reservation.branchId]
  publishConfirmationEmail reservation

-- What follows the claim of a slot.
def store (config : Config) (input : CreateReservationInput) (slot : ParkingSlot) :
    Port CreateReservationResult := do
  let now ← clock.now
  let startAt := input.startAt.getD now
  let reservation ← reservations.create {
    userId := input.userId
    branchId := input.branchId
    slotId := slot.id
    requestedType := input.slotType.getD slot.type
    startAt
    expiresAt := DefaultReservationPolicy.calculateExpiresAt config startAt }
  announce reservation
  pure (.CREATED reservation)

def conclude (config : Config) (input : CreateReservationInput) :
    SlotAssignmentResult → Port CreateReservationResult
  | .NO_AVAILABILITY => throw (.domain .NoAvailability)
  | .SUGGEST_OTHER_BRANCH suggestedBranch distanceKm =>
      pure (.SUGGEST_OTHER_BRANCH suggestedBranch distanceKm)
  | .ASSIGNED slot => store config input slot

-- What follows the eligibility check.
def reserve (config : Config) (input : CreateReservationInput) :
    Port CreateReservationResult := do
  let assignment ← slotAssignmentPolicy.assign config
    { branchId := input.branchId, slotType := input.slotType }
  conclude config input assignment

def execute (config : Config) (input : CreateReservationInput) :
    Port CreateReservationResult := do
  let eligibility ← DefaultReservationPolicy.canCreateReservation input.userId
  if !eligibility.allowed then throw (.domain .ReservationAlreadyActive)
  else reserve config input

end CreateReservationUseCase

structure CancelReservationInput where
  reservationId : Id
  userId : Id
  deriving DecidableEq

namespace CancelReservationUseCase

def publishAudit (reservation : Reservation) (userId : Id) : Port Unit := do
  let eventId ← randomUUID
  let occurredAt ← clock.now
  auditEvents.publishAuditEvent {
    eventId
    eventType := "reservation.cancelled"
    occurredAt
    aggregateId := reservation.id
    actorUserId := userId
    payload := {
      reservationId := reservation.id
      branchId := reservation.branchId
      slotId := reservation.slotId
      status := .CANCELLED } }

def cancel (reservation : Reservation) (userId : Id) : Port Unit := do
  reservations.updateStatus reservation.id .CANCELLED none
  DefaultParkingPolicy.releaseSlot reservation.slotId
  publishAudit reservation userId
  notifier.notifyAll [
    .ReservationCancelled reservation.id reservation.branchId reservation.slotId,
    .SlotStatusChanged reservation.branchId reservation.slotId .DISPONIBLE,
    .OccupancyUpdated reservation.branchId]

def execute (input : CancelReservationInput) : Port Unit := do
  let reservation ← reservations.findById input.reservationId
  match reservation.filter fun reservation => reservation.userId = input.userId with
  | none => throw (.domain (.NotFound "Reservation" input.reservationId))
  | some reservation =>
      if reservation.status ≠ .PENDING ∧ reservation.status ≠ .CONFIRMED then
        throw (.domain (.ReservationExpired "La reserva no se puede cancelar en su estado actual."))
      else cancel reservation input.userId

end CancelReservationUseCase

namespace ExpireOverdueReservationsUseCase

def expire (reservation : Reservation) : Port Unit := do
  reservations.updateStatus reservation.id .EXPIRED none
  DefaultParkingPolicy.releaseSlot reservation.slotId
  notifier.notifyAll [
    .ReservationExpired reservation.id reservation.branchId reservation.slotId,
    .SlotStatusChanged reservation.branchId reservation.slotId .DISPONIBLE,
    .OccupancyUpdated reservation.branchId]

-- The candidates are the copies that were read at the start of the sweep.
def sweep (now : ℤ) : List Reservation → ℕ → Port ℕ
  | [], expiredCount => pure expiredCount
  | reservation :: rest, expiredCount =>
      if !DefaultReservationPolicy.isExpired reservation now then sweep now rest expiredCount
      else do
        expire reservation
        sweep now rest (expiredCount + 1)

def execute : Port ℕ := do
  let now ← clock.now
  let candidates ← reservations.findExpiredPending now
  sweep now candidates 0

end ExpireOverdueReservationsUseCase

namespace RegisterEntryUseCase

def announce (session : ParkingSession) (reservationId : Id) : Port Unit := do
  let reservation ← reservations.findById reservationId
  match reservation with
  | some reservation => notifier.notifyAll [
      .EntryRegistered session.id reservation.branchId session.slotId session.userId,
      .SlotStatusChanged reservation.branchId session.slotId .OCUPADA,
      .OccupancyUpdated reservation.branchId]
  | none => pure ()

def execute (token : String) : Port ParkingSession := do
  let payload ← qrCode.verify token
  match payload.reservationId with
  | none => throw (.domain .invalidQrCode)
  | some reservationId =>
      if payload.type ≠ .ENTRY ∨ reservationId = "" then throw (.domain .invalidQrCode)
      else
        let now ← clock.now
        let session ← DefaultParkingPolicy.registerEntry reservationId now
        announce session reservationId
        pure session

end RegisterEntryUseCase

namespace RegisterExitUseCase

def OVERSTAY_TOLERANCE : ℚ := 1 / 100

-- What is left to pay at the price, to the cent.
def missingAmount (pricing : PricingResult) (payment : Payment) : Soles :=
  Decimal.toFixed 2 (pricing.amount.value - payment.amount.value)

def announce (session : ParkingSession) (reservation : Reservation) : Port Unit :=
  notifier.notifyAll [
    .ExitRegistered session.id reservation.branchId session.slotId,
    .SlotStatusChanged reservation.branchId session.slotId .DISPONIBLE,
    .OccupancyUpdated reservation.branchId]

def finish (sessionId : Id) (now : ℤ) (reservation : Reservation) : Port ParkingSession := do
  let result ← DefaultParkingPolicy.registerExit sessionId now
  match result with
  | .REJECTED .NO_ACTIVE_SESSION => throw (.domain .SessionNotActive)
  | .REJECTED .PAYMENT_NOT_APPROVED => throw (.domain .PaymentNotApproved)
  | .RELEASED none => throw (.infrastructure "Cannot read properties of null (reading 'id')")
  | .RELEASED (some session) =>
      announce session reservation
      pure session

def checkPayment (sessionId : Id) (session : ParkingSession) (now : ℤ)
    (reservation : Reservation) : Port ParkingSession := do
  let payment ← payments.findBySessionId session.id
  match payment.filter Payment.isApproved with
  | none => throw (.domain .PaymentNotApproved)
  | some payment =>
      let pricing ← HourlyPricingPolicy.calculate {
        branchId := reservation.branchId
        slotType := reservation.requestedType
        entryAt := session.entryAt
        exitAt := now
        userId := session.userId }
      if OVERSTAY_TOLERANCE < (missingAmount pricing payment).value then
        throw (.domain (.OverstayPaymentInsufficient (missingAmount pricing payment)))
      else finish sessionId now reservation

def execute (token : String) : Port ParkingSession := do
  let payload ← qrCode.verify token
  match payload.sessionId with
  | none => throw (.domain .invalidQrCode)
  | some sessionId =>
      if payload.type ≠ .EXIT ∨ sessionId = "" then throw (.domain .invalidQrCode)
      else
        let now ← clock.now
        let session ← sessions.findById sessionId
        match session.filter ParkingSession.isActive with
        | none => throw (.domain .SessionNotActive)
        | some session =>
            let reservation ← reservations.findById session.reservationId
            match reservation with
            | none => throw (.domain (.NotFound "Reservation" session.reservationId))
            | some reservation => checkPayment sessionId session now reservation

end RegisterExitUseCase

structure SessionQuote where
  sessionId : Id
  userId : Id
  branchId : Id
  active : Bool
  pricing : PricingResult
  deriving DecidableEq

-- The clock is only read when the session has no exit.
def exitAtOrNow (session : ParkingSession) : Port ℤ :=
  match session.exitAt with
  | some exitAt => pure exitAt
  | none => clock.now

def priceOf (session : ParkingSession) (reservation : Reservation) : Port PricingResult := do
  let exitAt ← exitAtOrNow session
  HourlyPricingPolicy.calculate {
    branchId := reservation.branchId
    slotType := reservation.requestedType
    entryAt := session.entryAt
    exitAt
    userId := session.userId }

namespace GetSessionQuoteUseCase

def execute (sessionId : Id) : Port SessionQuote := do
  let session ← sessions.findById sessionId
  match session with
  | none => throw (.domain (.NotFound "ParkingSession" sessionId))
  | some session =>
      let reservation ← reservations.findById session.reservationId
      match reservation with
      | none => throw (.domain (.NotFound "Reservation" session.reservationId))
      | some reservation =>
          let pricing ← priceOf session reservation
          pure {
            sessionId := session.id
            userId := session.userId
            branchId := reservation.branchId
            active := session.isActive
            pricing }

end GetSessionQuoteUseCase

structure CalculateAmountInput where
  sessionId : Id
  userId : Id
  deriving DecidableEq

namespace CalculateAmountUseCase

def execute (input : CalculateAmountInput) : Port PricingResult := do
  let session ← sessions.findById input.sessionId
  match session.filter fun session => session.userId = input.userId with
  | none => throw (.domain (.NotFound "ParkingSession" input.sessionId))
  | some session =>
      let reservation ← reservations.findById session.reservationId
      match reservation with
      | none => throw (.domain (.NotFound "Reservation" session.reservationId))
      | some reservation => priceOf session reservation

end CalculateAmountUseCase

structure ReservationRequestMessage where
  requestId : Id
  userId : Id
  branchId : Id
  slotType : Option SlotType
  startAt : Option ℤ
  requestedAt : ℤ
  deriving DecidableEq

namespace ProcessReservationRequestUseCase

def resolution : CreateReservationResult → Resolution
  | .CREATED reservation =>
      .CREATED reservation.id reservation.branchId reservation.slotId reservation.startAt
        reservation.expiresAt
  | .SUGGEST_OTHER_BRANCH suggestedBranch distanceKm =>
      .SUGGEST_OTHER_BRANCH suggestedBranch.id suggestedBranch.name suggestedBranch.address
        distanceKm

-- Answers of the domain are a result; other errors go on to the consumer.
def resolve (config : Config) (message : ReservationRequestMessage) : Port Resolution :=
  tryCatch (do
    let result ← CreateReservationUseCase.execute config {
      userId := message.userId
      branchId := message.branchId
      slotType := message.slotType
      startAt := message.startAt }
    pure (resolution result)) fun
    | .domain error => pure (.REJECTED error.code error.message)
    | .infrastructure text => throw (.infrastructure text)

def execute (config : Config) (message : ReservationRequestMessage) : Port Unit := do
  let resolution ← resolve config message
  notifier.notifyReservationRequestResolved {
    requestId := message.requestId
    userId := message.userId
    resolution }

end ProcessReservationRequestUseCase

namespace ReservationRequestConsumer

-- A message without its required fields is unreadable.
def readable (message : ReservationRequestMessage) : Bool :=
  message.requestId ≠ "" && message.userId ≠ "" && message.branchId ≠ ""

def handle (config : Config) (message : ReservationRequestMessage) : Port Unit :=
  if !readable message then channel.nack false
  else
    tryCatch (do
      ProcessReservationRequestUseCase.execute config message
      channel.ack) fun _ => channel.nack false

end ReservationRequestConsumer

end SmartParking
