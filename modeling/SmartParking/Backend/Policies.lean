import SmartParking.Backend.Ports

namespace SmartParking

open Async

inductive SlotAssignmentStrategy where
  | default | balanced
  deriving DecidableEq

-- What the deployment sets. The distance is the Haversine formula of the branch
-- entity, which no property depends on.
structure Config where
  toleranceMinutes : ℤ
  strategy : SlotAssignmentStrategy
  distanceKmTo : Branch → Branch → ℚ

inductive IneligibilityReason where
  | ACTIVE_RESERVATION_EXISTS | ACTIVE_SESSION_EXISTS
  deriving DecidableEq

structure ReservationEligibility where
  allowed : Bool
  reason : Option IneligibilityReason
  deriving DecidableEq

namespace DefaultReservationPolicy

def canCreateReservation (userId : Id) : Port ReservationEligibility := do
  let activeReservation ← reservations.findActiveByUser userId
  match activeReservation with
  | some _ => pure { allowed := false, reason := some .ACTIVE_RESERVATION_EXISTS }
  | none =>
      let activeSession ← sessions.findActiveByUser userId
      match activeSession with
      | some _ => pure { allowed := false, reason := some .ACTIVE_SESSION_EXISTS }
      | none => pure { allowed := true, reason := none }

def isExpired (reservation : Reservation) (now : ℤ) : Bool :=
  reservation.isPending && now > reservation.expiresAt

def calculateExpiresAt (config : Config) (createdAt : ℤ) : ℤ :=
  createdAt + config.toleranceMinutes * 60000

end DefaultReservationPolicy

structure SlotAssignmentInput where
  branchId : Id
  slotType : Option SlotType
  deriving DecidableEq

inductive SlotAssignmentResult where
  | ASSIGNED (slot : ParkingSlot)
  | SUGGEST_OTHER_BRANCH (suggestedBranch : Branch) (distanceKm : ℚ)
  | NO_AVAILABILITY
  deriving DecidableEq

structure Candidate where
  branch : Branch
  distanceKm : ℚ

namespace DefaultSlotAssignmentPolicy

def nearer (a b : Candidate) : Prop := a.distanceKm ≤ b.distanceKm

instance : DecidableRel nearer := fun a b => inferInstanceAs (Decidable (a.distanceKm ≤ b.distanceKm))

-- Array.prototype.sort keeps the order of equal elements.
def rank (config : Config) (currentBranch : Branch) (otherBranches : List Branch) :
    List Candidate :=
  (otherBranches.map fun branch =>
    { branch, distanceKm := config.distanceKmTo currentBranch branch : Candidate }).insertionSort
      nearer

def firstAvailable (slotType : Option SlotType) : List Candidate → Port SlotAssignmentResult
  | [] => pure .NO_AVAILABILITY
  | candidate :: rest => do
      let hasAvailability ← slots.hasAvailability candidate.branch.id slotType
      if hasAvailability then
        pure (.SUGGEST_OTHER_BRANCH candidate.branch candidate.distanceKm)
      else firstAvailable slotType rest

def assign (config : Config) (input : SlotAssignmentInput) : Port SlotAssignmentResult := do
  let claimed ← slots.claimAvailableSlot input.branchId input.slotType
  match claimed with
  | some slot => pure (.ASSIGNED slot)
  | none =>
      let currentBranch ← branches.findById input.branchId
      match currentBranch with
      | none => pure .NO_AVAILABILITY
      | some currentBranch =>
          let otherBranches ← branches.findAllExcept input.branchId
          firstAvailable input.slotType (rank config currentBranch otherBranches)

end DefaultSlotAssignmentPolicy

namespace BalancedSlotAssignmentPolicy

def OCCUPANCY_PENALTY_KM : ℚ := 5

structure Scored where
  branch : Branch
  distanceKm : ℚ
  score : ℚ

def score (config : Config) (occupancy : List BranchOccupancySummary) (currentBranch : Branch)
    (branch : Branch) : Scored :=
  let distanceKm := config.distanceKmTo currentBranch branch
  let occupancyRatio : ℚ :=
    match occupancy.find? fun summary => summary.branchId = branch.id with
    | some summary =>
        if 0 < summary.totalSlots then summary.occupiedOrReserved / summary.totalSlots else 0
    | none => 0
  { branch, distanceKm, score := distanceKm + occupancyRatio * OCCUPANCY_PENALTY_KM }

def better (a b : Scored) : Prop := a.score ≤ b.score

instance : DecidableRel better := fun a b => inferInstanceAs (Decidable (a.score ≤ b.score))

def suggest (config : Config) (input : SlotAssignmentInput) (currentBranch : Branch) :
    Port SlotAssignmentResult := do
  let otherBranches ← branches.findAllExcept input.branchId
  let availabilityFlags ← Program.all
    (otherBranches.map fun branch => slots.hasAvailability branch.id input.slotType)
  let candidates := ((otherBranches.zip availabilityFlags).filter Prod.snd).map Prod.fst
  if candidates.isEmpty then pure .NO_AVAILABILITY
  else
    let summaries ← slots.getOccupancySummary (candidates.map Branch.id)
    match (candidates.map (score config summaries currentBranch)).insertionSort better with
    | [] => pure .NO_AVAILABILITY
    | best :: _ => pure (.SUGGEST_OTHER_BRANCH best.branch best.distanceKm)

def assign (config : Config) (input : SlotAssignmentInput) : Port SlotAssignmentResult := do
  let claimed ← slots.claimLeastRecentlyUsedSlot input.branchId input.slotType
  match claimed with
  | some slot => pure (.ASSIGNED slot)
  | none =>
      let currentBranch ← branches.findById input.branchId
      match currentBranch with
      | none => pure .NO_AVAILABILITY
      | some currentBranch => suggest config input currentBranch

end BalancedSlotAssignmentPolicy

-- The policy that SLOT_ASSIGNMENT_STRATEGY selects.
def slotAssignmentPolicy.assign (config : Config) (input : SlotAssignmentInput) :
    Port SlotAssignmentResult :=
  match config.strategy with
  | .default => DefaultSlotAssignmentPolicy.assign config input
  | .balanced => BalancedSlotAssignmentPolicy.assign config input

inductive ExitRejection where
  | NO_ACTIVE_SESSION | PAYMENT_NOT_APPROVED
  deriving DecidableEq

inductive ExitResult where
  | RELEASED (session : Option ParkingSession)
  | REJECTED (reason : ExitRejection)
  deriving DecidableEq

namespace DefaultParkingPolicy

-- The statuses whose entry is refused as expired.
def closed (reservation : Reservation) : Bool :=
  reservation.status = .EXPIRED || reservation.status = .CANCELLED ||
    reservation.status = .COMPLETED

def confirmIfPending (reservation : Reservation) (now : ℤ) : Port Unit :=
  if reservation.status = .PENDING then
    reservations.updateStatus reservation.id .CONFIRMED (some now)
  else pure ()

def enter (reservation : Reservation) (now : ℤ) : Port ParkingSession := do
  confirmIfPending reservation now
  let session ← sessions.create {
    reservationId := reservation.id
    userId := reservation.userId
    slotId := reservation.slotId
    entryAt := now }
  slots.updateStatus reservation.slotId .OCUPADA
  pure session

def registerEntry (reservationId : Id) (now : ℤ) : Port ParkingSession := do
  let reservation ← reservations.findById reservationId
  match reservation with
  | none => throw (.domain (.NotFound "Reservation" reservationId))
  | some reservation =>
      if closed reservation then throw (.domain .reservationExpired)
      else if now < reservation.startAt then throw (.domain .ReservationNotStarted)
      else
        let existing ← sessions.findByReservationId reservation.id
        if existing.any ParkingSession.isActive then throw (.domain .SessionAlreadyActive)
        else enter reservation now

def releaseSlot (slotId : Id) : Port Unit := slots.updateStatus slotId .DISPONIBLE

def leave (session : ParkingSession) (now : ℤ) : Port ExitResult := do
  sessions.markCompleted session.id now
  releaseSlot session.slotId
  reservations.updateStatus session.reservationId .COMPLETED none
  let updatedSession ← sessions.findById session.id
  pure (.RELEASED updatedSession)

def registerExit (sessionId : Id) (now : ℤ) : Port ExitResult := do
  let session ← sessions.findById sessionId
  match session.filter ParkingSession.isActive with
  | none => pure (.REJECTED .NO_ACTIVE_SESSION)
  | some session =>
      let payment ← payments.findBySessionId session.id
      if payment.any Payment.isApproved then leave session now
      else pure (.REJECTED .PAYMENT_NOT_APPROVED)

end DefaultParkingPolicy

structure PricingInput where
  branchId : Id
  slotType : SlotType
  entryAt : ℤ
  exitAt : ℤ
  userId : Id
  deriving DecidableEq

structure PricingBreakdownItem where
  label : String
  amount : Soles
  deriving DecidableEq

structure PricingResult where
  amount : Soles
  currency : String
  breakdown : List PricingBreakdownItem
  deriving DecidableEq

namespace HourlyPricingPolicy

def MS_PER_HOUR : ℤ := 60 * 60 * 1000

def billableHours (entryAt exitAt : ℤ) : ℤ :=
  let durationMs := max (exitAt - entryAt) 0
  max ⌈(durationMs : ℚ) / MS_PER_HOUR⌉ 1

def price (branch : Branch) (entryAt exitAt : ℤ) : PricingResult :=
  let hours := billableHours entryAt exitAt
  let amount := Decimal.toFixed 2 (hours * branch.pricePerHour.value)
  { amount
    currency := "PEN"
    breakdown := [{
      label := toString hours ++ "h x S/ " ++ Soles.text branch.pricePerHour ++ " (tarifa por hora)"
      amount }] }

def calculate (input : PricingInput) : Port PricingResult := do
  let branch ← branches.findById input.branchId
  match branch with
  | none => throw (.domain (.NotFound "Branch" input.branchId))
  | some branch => pure (price branch input.entryAt input.exitAt)

end HourlyPricingPolicy

end SmartParking
