import SmartParking.Backend.Ports

namespace SmartParking

-- The claims on one branch, and the status writes. Time passes before each of them.
inductive SlotEvent where
  | claimLeastRecentlyUsedSlot (elapsed : ℕ) (type : Option SlotType)
  | updateStatus (elapsed : ℕ) (slotId : Id) (status : SlotStatus)
  deriving DecidableEq

namespace SlotEvent

def claim (branchId : Id) (world : World) (elapsed : ℕ) (type : Option SlotType) :
    Option ParkingSlot × Database :=
  PrismaParkingSlotRepository.claimLeastRecentlyUsedSlot world.db (world.clock + elapsed + 1)
    (fun _ => false) branchId type

-- A write that finds no row changes nothing.
def step (branchId : Id) (world : World) : SlotEvent → World
  | claimLeastRecentlyUsedSlot elapsed type =>
      ⟨(claim branchId world elapsed type).2, world.clock + elapsed + 1⟩
  | updateStatus elapsed slotId status =>
      let now := world.clock + elapsed + 1
      match PrismaParkingSlotRepository.updateStatus world.db now slotId status with
      | .ok db => ⟨db, now⟩
      | .error _ => ⟨world.db, now⟩

-- What a claim whose filter the slot satisfies returns.
def answer (branchId : Id) (slot : ParkingSlot) (world : World) : SlotEvent → Option (Option Id)
  | claimLeastRecentlyUsedSlot elapsed type =>
      if PrismaParkingSlotRepository.ofType type slot then
        some ((claim branchId world elapsed type).1.map ParkingSlot.id)
      else none
  | updateStatus _ _ _ => none

-- What these claims return along a run.
def answers (branchId : Id) (slot : ParkingSlot) : World → List SlotEvent → List (Option Id)
  | _, [] => []
  | world, event :: rest =>
      (event.answer branchId slot world).toList ++ answers branchId slot (event.step branchId world) rest

end SlotEvent

def slotsIn (db : Database) (branchId : Id) : List ParkingSlot :=
  db.slots.rows.filter fun slot => slot.branchId = branchId

-- The slot is free, and no write was stamped later than now.
structure Waits (branchId : Id) (slot : ParkingSlot) (world : World) : Prop where
  stored : slot ∈ world.db.slots
  branch : slot.branchId = branchId
  free : slot.status = .DISPONIBLE
  past : ∀ row ∈ world.db.slots, row.updatedAt ≤ world.clock

-- While the slot is not returned, no other one is returned twice. It is returned
-- before there were more claims than the branch has slots.
structure Rotates (branchId : Id) (slot : ParkingSlot) (world : World) (events : List SlotEvent) :
    Prop where
  once : some slot.id ∉ SlotEvent.answers branchId slot world events → ∀ other,
    (SlotEvent.answers branchId slot world events).count (some other) ≤ 1
  served : (slotsIn world.db branchId).length ≤
      (SlotEvent.answers branchId slot world events).length →
    some slot.id ∈ (SlotEvent.answers branchId slot world events).take
      (slotsIn world.db branchId).length

end SmartParking
