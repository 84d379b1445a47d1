import SmartParking.Backend.Operations

namespace SmartParking

open Async

inductive AssignmentOutcome where
  | ASSIGNED | SUGGEST_OTHER_BRANCH | NO_AVAILABILITY
  deriving DecidableEq

def SlotAssignmentResult.outcome : SlotAssignmentResult → AssignmentOutcome
  | ASSIGNED _ => .ASSIGNED
  | SUGGEST_OTHER_BRANCH _ _ => .SUGGEST_OTHER_BRANCH
  | NO_AVAILABILITY => .NO_AVAILABILITY

-- The ports with nothing else running: no row is locked by another.
def alone : Server Choice World Call Answer Fault := fun choice =>
  serve { choice with locked := fun _ => false }

-- The assignment of one of the two policies.
def assignBy (config : Config) (strategy : SlotAssignmentStrategy) (input : SlotAssignmentInput)
    (choices : ℕ → Choice) (world : World) : Except Fault SlotAssignmentResult × World :=
  (slotAssignmentPolicy.assign { config with strategy } input).run alone choices world

def OfType (type : Option SlotType) (slot : ParkingSlot) : Prop :=
  ∀ wanted, type = some wanted → slot.type = wanted

-- The branch has a slot of the type for either policy.
def CanAssign (config : Config) (branchId : Id) (type : Option SlotType) (world : World) : Prop :=
  ∀ strategy choices, ∃ slot,
    (assignBy config strategy { branchId, slotType := type } choices world).1 =
      .ok (.ASSIGNED slot) ∧ slot.branchId = branchId ∧ OfType type slot

-- What an assignment tells, and leaves.
structure Honours (config : Config) (input : SlotAssignmentInput) (world : World)
    (outcome : AssignmentOutcome) (assignment : SlotAssignmentResult) (world' : World) :
    Prop where
  same : assignment.outcome = outcome
  unchanged : outcome ≠ .ASSIGNED → world'.db = world.db
  confirmable : ∀ branch distanceKm, assignment = .SUGGEST_OTHER_BRANCH branch distanceKm →
    CanAssign config branch.id input.slotType world'

-- What the inventory decides, whatever the policy.
def inventoryOutcome (db : Database) (input : SlotAssignmentInput) : AssignmentOutcome :=
  if PrismaParkingSlotRepository.hasAvailability db input.branchId input.slotType then .ASSIGNED
  else if (PrismaBranchRepository.findById db input.branchId).isNone then .NO_AVAILABILITY
  else if (PrismaBranchRepository.findAllExcept db input.branchId).any fun branch =>
      PrismaParkingSlotRepository.hasAvailability db branch.id input.slotType then
    .SUGGEST_OTHER_BRANCH
  else .NO_AVAILABILITY

end SmartParking
