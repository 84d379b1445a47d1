import SmartParking.Backend.Domain
import SmartParking.Table
import Mathlib.Algebra.Order.BigOperators.Group.List
import Mathlib.Data.List.Dedup
import Mathlib.Data.List.Sort

namespace SmartParking

open Table

-- The backend database of prisma/schema.prisma. Foreign keys are not checked
-- again here: every referenced row was read before, and no row is deleted.
structure Database where
  branches : Table Branch.id Branch.id
  slots : Table ParkingSlot.id fun slot => (slot.branchId, slot.code)
  reservations : Table Reservation.id Reservation.id
  sessions : Table ParkingSession.id ParkingSession.reservationId

-- A new uuid: the wanted one, unless a row already has it.
def newId (wanted : Id) (used : List Id) : Id :=
  if wanted ∈ used then
    String.ofList (List.replicate ((used.map String.length).sum + 1) 'x')
  else wanted

theorem newId_not_mem (wanted : Id) (used : List Id) : newId wanted used ∉ used := by
  unfold newId
  split
  · intro hm
    have hl := List.le_sum_of_mem (List.mem_map_of_mem (f := String.length) hm)
    simp at hl
  · assumption

-- The error of an update whose row does not exist.
def recordNotFound : Fault := .infrastructure "Record to update not found."

namespace PrismaBranchRepository

def findById (db : Database) (id : Id) : Option Branch := db.branches.lookup id

def byName (a b : Branch) : Prop := a.name ≤ b.name

instance : DecidableRel byName := fun a b => inferInstanceAs (Decidable (a.name ≤ b.name))

def findAllExcept (db : Database) (excludeBranchId : Id) : List Branch :=
  (db.branches.rows.filter fun branch => branch.id ≠ excludeBranchId).insertionSort byName

end PrismaBranchRepository

structure BranchOccupancySummary where
  branchId : Id
  totalSlots : ℕ
  occupiedOrReserved : ℕ

namespace PrismaParkingSlotRepository

def findById (db : Database) (id : Id) : Option ParkingSlot := db.slots.lookup id

-- The optional filter on the type.
def ofType (type : Option SlotType) (slot : ParkingSlot) : Bool :=
  match type with
  | none => true
  | some wanted => slot.type = wanted

-- branchId, status = DISPONIBLE and the optional type.
def available (branchId : Id) (type : Option SlotType) (slot : ParkingSlot) : Bool :=
  slot.branchId = branchId && slot.status = .DISPONIBLE && ofType type slot

def hasAvailability (db : Database) (branchId : Id) (type : Option SlotType) : Bool :=
  0 < (db.slots.rows.filter (available branchId type)).length

def byCode (a b : ParkingSlot) : Prop := a.code ≤ b.code

instance : DecidableRel byCode := fun a b => inferInstanceAs (Decidable (a.code ≤ b.code))

def byUpdatedAt (a b : ParkingSlot) : Prop := a.updatedAt ≤ b.updatedAt

instance : DecidableRel byUpdatedAt :=
  fun a b => inferInstanceAs (Decidable (a.updatedAt ≤ b.updatedAt))

-- SELECT ... ORDER BY ... FOR UPDATE SKIP LOCKED LIMIT 1. The rows that other
-- transactions have locked are passed over.
def select (order : ParkingSlot → ParkingSlot → Prop) [DecidableRel order] (db : Database)
    (locked : Id → Bool) (branchId : Id) (type : Option SlotType) : Option ParkingSlot :=
  ((db.slots.rows.filter fun slot => available branchId type slot && !locked slot.id).insertionSort
    order).head?

-- The row after UPDATE ... SET status, updatedAt.
def withStatus (status : SlotStatus) (now : ℤ) :
    Change ParkingSlot.id fun slot => (slot.branchId, slot.code) where
  apply slot := { slot with status, updatedAt := now }
  key_apply _ := rfl
  mark_apply _ := rfl

def setStatus (db : Database) (id : Id) (status : SlotStatus) (now : ℤ) : Database :=
  { db with slots := db.slots.modify id (withStatus status now) }

-- UPDATE ... WHERE id = (SELECT ...) RETURNING *, one statement.
def claim (order : ParkingSlot → ParkingSlot → Prop) [DecidableRel order] (db : Database)
    (now : ℤ) (locked : Id → Bool) (branchId : Id) (type : Option SlotType) :
    Option ParkingSlot × Database :=
  match select order db locked branchId type with
  | some slot => (some (withStatus .RESERVADA now slot), setStatus db slot.id .RESERVADA now)
  | none => (none, db)

def claimAvailableSlot (db : Database) (now : ℤ) (locked : Id → Bool) (branchId : Id)
    (type : Option SlotType) : Option ParkingSlot × Database :=
  claim byCode db now locked branchId type

def claimLeastRecentlyUsedSlot (db : Database) (now : ℤ) (locked : Id → Bool) (branchId : Id)
    (type : Option SlotType) : Option ParkingSlot × Database :=
  claim byUpdatedAt db now locked branchId type

def updateStatus (db : Database) (now : ℤ) (slotId : Id) (status : SlotStatus) :
    Except Fault Database :=
  match db.slots.lookup slotId with
  | some _ => .ok (setStatus db slotId status now)
  | none => .error recordNotFound

def occupiedOrReserved (slot : ParkingSlot) : Bool :=
  slot.status = .OCUPADA || slot.status = .RESERVADA

-- GROUP BY branchId: one row for each branch that has slots.
def getOccupancySummary (db : Database) (branchIds : List Id) : List BranchOccupancySummary :=
  branchIds.dedup.filterMap fun branchId =>
    let slots := db.slots.rows.filter fun slot => slot.branchId = branchId
    if slots = [] then none
    else some {
      branchId
      totalSlots := slots.length
      occupiedOrReserved := (slots.filter occupiedOrReserved).length }

end PrismaParkingSlotRepository

structure CreateReservationData where
  userId : Id
  branchId : Id
  slotId : Id
  requestedType : SlotType
  startAt : ℤ
  expiresAt : ℤ
  deriving DecidableEq

namespace PrismaReservationRepository

def findById (db : Database) (id : Id) : Option Reservation := db.reservations.lookup id

def findActiveByUser (db : Database) (userId : Id) : Option Reservation :=
  db.reservations.rows.find? fun reservation => reservation.userId = userId ∧ reservation.status.Live

def findExpiredPending (db : Database) (now : ℤ) : List Reservation :=
  db.reservations.rows.filter fun reservation =>
    reservation.status = .PENDING ∧ reservation.expiresAt < now

-- The row that INSERT adds: a new uuid, status PENDING, createdAt now.
def newRow (db : Database) (uuid : Id) (now : ℤ) (data : CreateReservationData) : Reservation where
  id := newId uuid (db.reservations.rows.map Reservation.id)
  userId := data.userId
  branchId := data.branchId
  slotId := data.slotId
  requestedType := data.requestedType
  status := .PENDING
  createdAt := now
  startAt := data.startAt
  expiresAt := data.expiresAt
  confirmedAt := none

def create (db : Database) (uuid : Id) (now : ℤ) (data : CreateReservationData) :
    Except Fault (Reservation × Database) :=
  match db.reservations.insert (newRow db uuid now data) with
  | some reservations => .ok (newRow db uuid now data, { db with reservations })
  | none => .error (.infrastructure "Unique constraint failed")

-- The row after UPDATE: confirmedAt only changes when one is given.
def withStatus (status : ReservationStatus) (confirmedAt : Option ℤ) :
    Change Reservation.id Reservation.id where
  apply reservation :=
    { reservation with status, confirmedAt := confirmedAt.or reservation.confirmedAt }
  key_apply _ := rfl
  mark_apply _ := rfl

def setStatus (db : Database) (id : Id) (status : ReservationStatus) (confirmedAt : Option ℤ) :
    Database :=
  { db with reservations := db.reservations.modify id (withStatus status confirmedAt) }

def updateStatus (db : Database) (id : Id) (status : ReservationStatus)
    (confirmedAt : Option ℤ) : Except Fault Database :=
  match db.reservations.lookup id with
  | some _ => .ok (setStatus db id status confirmedAt)
  | none => .error recordNotFound

end PrismaReservationRepository

structure CreateParkingSessionData where
  reservationId : Id
  userId : Id
  slotId : Id
  entryAt : ℤ
  deriving DecidableEq

namespace PrismaParkingSessionRepository

def findById (db : Database) (id : Id) : Option ParkingSession := db.sessions.lookup id

def findActiveByUser (db : Database) (userId : Id) : Option ParkingSession :=
  db.sessions.rows.find? fun session => session.userId = userId ∧ session.status = .ACTIVE

-- findUnique on the @unique column.
def findByReservationId (db : Database) (reservationId : Id) : Option ParkingSession :=
  db.sessions.lookupBy reservationId

-- The row that INSERT adds: a new uuid, status ACTIVE, no exit.
def newRow (db : Database) (uuid : Id) (data : CreateParkingSessionData) : ParkingSession where
  id := newId uuid (db.sessions.rows.map ParkingSession.id)
  reservationId := data.reservationId
  userId := data.userId
  slotId := data.slotId
  status := .ACTIVE
  entryAt := data.entryAt
  exitAt := none

-- Refused when the reservation already has a session, of any status.
def create (db : Database) (uuid : Id) (data : CreateParkingSessionData) :
    Except Fault (ParkingSession × Database) :=
  match db.sessions.insert (newRow db uuid data) with
  | some sessions => .ok (newRow db uuid data, { db with sessions })
  | none => .error (.infrastructure "Unique constraint failed on the fields: (`reservationId`)")

def completed (exitAt : ℤ) : Change ParkingSession.id ParkingSession.reservationId where
  apply session := { session with status := .COMPLETED, exitAt := some exitAt }
  key_apply _ := rfl
  mark_apply _ := rfl

def setCompleted (db : Database) (id : Id) (exitAt : ℤ) : Database :=
  { db with sessions := db.sessions.modify id (completed exitAt) }

def markCompleted (db : Database) (id : Id) (exitAt : ℤ) : Except Fault Database :=
  match db.sessions.lookup id with
  | some _ => .ok (setCompleted db id exitAt)
  | none => .error recordNotFound

end PrismaParkingSessionRepository

end SmartParking
