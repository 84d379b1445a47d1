import SmartParking.Suggestion

namespace SmartParking

-- Another branch with a free slot of the type.
structure Offers (db : Database) (input : SlotAssignmentInput) (branch : Branch) : Prop where
  known : branch ∈ db.branches
  other : branch.id ≠ input.branchId
  free : ∃ slot ∈ db.slots, slot.branchId = branch.id ∧ slot.status = .DISPONIBLE ∧
    OfType input.slotType slot

def slotsOf (db : Database) (branchId : Id) : List ParkingSlot :=
  db.slots.rows.filter fun slot => slot.branchId = branchId

def takenOf (db : Database) (branchId : Id) : List ParkingSlot :=
  (slotsOf db branchId).filter fun slot => slot.status = .OCUPADA ∨ slot.status = .RESERVADA

-- What a policy minimises: the distance, or the distance and up to five kilometres
-- for the slots that are taken.
def cost (config : Config) (db : Database) (currentBranch branch : Branch) :
    SlotAssignmentStrategy → ℚ
  | .default => config.distanceKmTo currentBranch branch
  | .balanced => config.distanceKmTo currentBranch branch +
      5 * ((takenOf db branch.id).length / (slotsOf db branch.id).length)

-- The branch costs least, and is the first by name of those that do.
structure Best (config : Config) (strategy : SlotAssignmentStrategy) (db : Database)
    (input : SlotAssignmentInput) (currentBranch branch : Branch) : Prop where
  offers : Offers db input branch
  least : ∀ other, Offers db input other →
    cost config db currentBranch branch strategy ≤ cost config db currentBranch other strategy
  first : ∀ other, Offers db input other →
    cost config db currentBranch other strategy = cost config db currentBranch branch strategy →
      branch.name ≤ other.name

structure Optimal (config : Config) (strategy : SlotAssignmentStrategy) (db : Database)
    (input : SlotAssignmentInput) (currentBranch : Branch)
    (result : Except Fault SlotAssignmentResult) : Prop where
  suggests : (∃ other, Offers db input other) → ∃ branch,
    result = .ok (.SUGGEST_OTHER_BRANCH branch (config.distanceKmTo currentBranch branch)) ∧
      Best config strategy db input currentBranch branch
  refuses : result = .ok .NO_AVAILABILITY ↔ ∀ other, ¬Offers db input other

-- A full branch, and three others with a free slot. In `Miraflores` another slot is
-- taken, which makes up for the longer way to `Barranco`.
namespace Demo

def ancon : Branch := { branch with id := "b2", name := "Ancon" }

def barranco : Branch := { branch with id := "b3", name := "Barranco" }

def miraflores : Branch := { branch with id := "b4", name := "Miraflores" }

def fourBranches : Database where
  branches := ⟨[branch, miraflores, barranco, ancon], by decide, by decide⟩
  slots := ⟨[{ slot with status := .OCUPADA }, { slot with id := "s2", branchId := "b2" },
    { slot with id := "s3", branchId := "b3" }, { slot with id := "s4", branchId := "b4" },
    { slot with id := "s5", branchId := "b4", code := "A2", status := .RESERVADA }],
    by decide, by decide⟩
  reservations := .empty
  sessions := .empty

def distances : Config := { config with
  distanceKmTo _ other :=
    if other.id = "b4" then 1 else if other.id = "b3" then 7 / 2 else 30 }

end Demo

end SmartParking
