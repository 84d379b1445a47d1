import SmartParking.Backend.Inventory
import SmartParking.Backend.Operations

namespace SmartParking.Blocking

open Async

-- The calls of the other use cases, and the lookup of a slot.
inductive Call where
  | backend (call : SmartParking.Call)
  | slotsFindById (id : Id)
  deriving DecidableEq

@[reducible] def Answer : Call → Type
  | .backend call => SmartParking.Answer call
  | .slotsFindById _ => Option ParkingSlot

abbrev Port (α : Type) := Program Call Answer Fault α

abbrev lift {α : Type} (p : SmartParking.Port α) : Port α := p.lift Call.backend fun _ => id

abbrev slots.findById (id : Id) : Port (Option ParkingSlot) :=
  Program.perform (Call.slotsFindById id)

def serve : Server Choice World Call Answer Fault := fun choice world call =>
  match call with
  | .backend call => SmartParking.serve choice world call
  | .slotsFindById id =>
      (.ok (PrismaParkingSlotRepository.findById world.db id),
        { world with clock := world.clock + choice.elapsed })

namespace ReportSlotBlockedUseCase

-- What follows the lookup.
def block (slot : ParkingSlot) (slotId : Id) : SmartParking.Port Unit := do
  slots.updateStatus slotId .NO_DISPONIBLE
  notifier.notifyAll [
    .SlotStatusChanged slot.branchId slotId .NO_DISPONIBLE,
    .OccupancyUpdated slot.branchId]

def execute (slotId : Id) : Port Unit := do
  let slot ← slots.findById slotId
  match slot with
  | none => throw (.domain (.NotFound "ParkingSlot" slotId))
  | some slot => lift (block slot slotId)

end ReportSlotBlockedUseCase

inductive Task where
  | Backend (operation : Operation)
  | ReportSlotBlocked (slotId : Id)
  deriving DecidableEq

def Task.execute (config : Config) : Task → Port Unit
  | .Backend operation => (fun _ => ()) <$> lift (operation.execute config)
  | .ReportSlotBlocked slotId => ReportSlotBlockedUseCase.execute slotId

-- A request with what its port calls do not decide by themselves.
structure Turn where
  task : Task
  choices : ℕ → Choice

def playTurn (config : Config) (world : World) (turn : Turn) : World :=
  ((turn.task.execute config).run serve turn.choices world).2

def playAll (config : Config) (world : World) (turns : List Turn) : World :=
  turns.foldl (playTurn config) world

-- Nobody has a claim on the slot: no reservation is open for it, and nobody is parked.
structure Unowned (db : Database) (slotId : Id) : Prop where
  reservations : ∀ reservation ∈ db.reservations, reservation.slotId = slotId →
    ¬reservation.status.Live
  sessions : ∀ session ∈ db.sessions, session.slotId = slotId → session.status ≠ .ACTIVE

-- The slot cannot be claimed, and no reservation has got it since.
structure OutOfService (slotId : Id) (reported db : Database) : Prop where
  notVacant : ¬Vacant db slotId
  notAssigned : ∀ reservation ∈ db.reservations, reservation.slotId = slotId →
    ∃ old ∈ reported.reservations, old.id = reservation.id

end SmartParking.Blocking
