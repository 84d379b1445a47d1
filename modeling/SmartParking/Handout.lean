import SmartParking.Backend.Modular
import Mathlib.Data.Finset.Card

namespace SmartParking

open Async

variable {Tid : Type}

-- Any number of concurrent reservation requests.
abbrev Creations (Tid : Type) := Pool Tid World Call Answer Fault CreateReservationResult

def Creations.start (config : Config) (world : World) (inputs : Tid → CreateReservationInput) :
    Creations Tid :=
  Pool.start world fun thread => CreateReservationUseCase.execute config (inputs thread)

-- A claim of the run was answered with the slot.
def Assigned (history : History Tid) (slotId : Id) : Prop :=
  ∃ event ∈ history, ∃ slot, claimed event = some slot ∧ slot.id = slotId

-- A slot the request may be given: of its branch, of its type, and free.
def Suits (start : Database) (input : CreateReservationInput) (slotId : Id) : Prop :=
  ∃ slot ∈ start.slots, slot.id = slotId ∧ slot.branchId = input.branchId ∧
    slot.status = .DISPONIBLE ∧ ∀ type, input.slotType = some type → slot.type = type

-- What a state of the run has handed out since the start.
structure Handout (start : Database) (inputs : Tid → CreateReservationInput)
    (pool : Creations Tid) : Prop where
  distinct : ∀ reservation ∈ pool.world.db.reservations, ∀ other ∈ pool.world.db.reservations,
    reservation ∉ start.reservations → other ∉ start.reservations →
    reservation.slotId = other.slotId → reservation = other
  suits : ∀ reservation ∈ pool.world.db.reservations, reservation ∉ start.reservations →
    ∃ thread, reservation.userId = (inputs thread).userId ∧
      reservation.branchId = (inputs thread).branchId ∧
      Suits start (inputs thread) reservation.slotId
  outcome : ∀ thread reservation, pool.threads thread = .done (.ok (.CREATED reservation)) →
    reservation ∈ pool.world.db.reservations ∧ reservation ∉ start.reservations ∧
      reservation.branchId = (inputs thread).branchId ∧
      Suits start (inputs thread) reservation.slotId
  unassigned : ∀ slot ∈ pool.world.db.slots, ¬Assigned pool.history slot.id →
    ∃ before ∈ start.slots, before.id = slot.id ∧ before.status = slot.status
  -- when every request has ended, an assigned slot has its reservation
  ended : (∀ thread, ∃ result, pool.threads thread = .done result) →
    ∀ slot ∈ pool.world.db.slots,
      (∀ reservation ∈ pool.world.db.reservations, reservation ∉ start.reservations →
        reservation.slotId ≠ slot.id) →
      ∃ before ∈ start.slots, before.id = slot.id ∧ before.status = slot.status
  count : ∀ (branchId : Id) (created : Finset Tid),
    (∀ thread ∈ created, (inputs thread).branchId = branchId ∧
      ∃ reservation, pool.threads thread = .done (.ok (.CREATED reservation))) →
    created.card ≤ (start.slots.rows.filter fun slot =>
      slot.branchId = branchId ∧ slot.status = .DISPONIBLE).length

-- How far an execution is: a claim without its reservation still holds a slot.
inductive Stage where
  | before
  | claimed (slotId : Id)
  | stored (reservation : Reservation)

def Stage.slotId : Stage → Option Id
  | .before => none
  | .claimed slotId => some slotId
  | .stored reservation => some reservation.slotId

-- What the executions keep together.
structure Handing (start : Database) (inputs : Tid → CreateReservationInput) (db : Database)
    (history : History Tid) (stages : Tid → Stage) : Prop where
  sound : Holding.Sound (Vacant db) (Stage.slotId ∘ stages)
  suits : ∀ thread slotId, (stages thread).slotId = some slotId →
    Suits start (inputs thread) slotId
  kept : ∀ reservation ∈ start.reservations, reservation ∈ db.reservations
  stored : ∀ thread reservation, stages thread = .stored reservation →
    reservation ∈ db.reservations ∧ reservation ∉ start.reservations ∧
      reservation.userId = (inputs thread).userId ∧ reservation.branchId = (inputs thread).branchId
  source : ∀ reservation ∈ db.reservations,
    reservation ∈ start.reservations ∨ ∃ thread, stages thread = .stored reservation
  slots : ∀ slot ∈ db.slots, ∃ before ∈ start.slots,
    before.id = slot.id ∧ before.branchId = slot.branchId ∧ before.type = slot.type ∧
      (before.status = slot.status ∨
        Assigned history slot.id ∧ ∃ thread, (stages thread).slotId = some slot.id)

-- Where an execution ends: with its reservation stored, or with nothing held.
def Ends (result : Except Fault CreateReservationResult) (stage : Stage) : Prop :=
  (∀ reservation, result = .ok (.CREATED reservation) → stage = .stored reservation) ∧
    ((∀ reservation, result ≠ .ok (.CREATED reservation)) → stage = .before)

end SmartParking
