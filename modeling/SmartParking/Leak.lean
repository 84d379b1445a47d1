import SmartParking.Backend.Inventory
import SmartParking.Backend.Specs

namespace SmartParking

open Async

abbrev Log := List (Record Call Answer Fault)

-- Each call comes with the fault it is lost with, if any.
abbrev lossy : Server (Option Fault × Choice) (World × Log) Call Answer Fault :=
  logged (faulty serve Call.fallible)

-- A reservation request in which any awaited call can be lost.
def attempt (config : Config) (input : CreateReservationInput)
    (faults : ℕ → Option Fault × Choice) (world : World) :
    Except Fault CreateReservationResult × World × Log :=
  (CreateReservationUseCase.execute config input).run lossy faults (world, [])

-- Without a reservation no slot has changed, and an inserted reservation is the
-- result.
structure NoTrace (before : Database)
    (after : Except Fault CreateReservationResult × World × Log) : Prop where
  untouched : (∀ reservation, after.1 ≠ .ok (.CREATED reservation)) →
    ∀ slotId, slotStatus after.2.1.db slotId = slotStatus before slotId
  truthful : ∀ data reservation, ⟨.reservationsCreate data, .ok reservation⟩ ∈ after.2.2 →
    after.1 = .ok (.CREATED reservation)

-- The slot that the claim of the configured policy takes.
def firstFree (config : Config) (db : Database) (locked : Id → Bool)
    (input : CreateReservationInput) : Option ParkingSlot :=
  match config.strategy with
  | .default => PrismaParkingSlotRepository.select PrismaParkingSlotRepository.byCode db locked
      input.branchId input.slotType
  | .balanced => PrismaParkingSlotRepository.select PrismaParkingSlotRepository.byUpdatedAt db
      locked input.branchId input.slotType

-- The user is eligible, the two lookups and the claim are answered, the claim
-- finds a slot, and the insert is lost. The calls are numbered in their order:
-- the fourth one reads the clock.
def InsertLost (config : Config) (input : CreateReservationInput)
    (faults : ℕ → Option Fault × Choice) (db : Database) : Prop :=
  (faults 0).1 = none ∧ PrismaReservationRepository.findActiveByUser db input.userId = none ∧
  (faults 1).1 = none ∧ PrismaParkingSessionRepository.findActiveByUser db input.userId = none ∧
  (faults 2).1 = none ∧ (firstFree config db (faults 2).2.locked input).isSome ∧
  (faults 4).1.isSome

end SmartParking
