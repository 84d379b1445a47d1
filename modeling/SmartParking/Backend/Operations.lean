import SmartParking.Backend.UseCases

namespace SmartParking

open Async

-- One request to the backend, as a value.
inductive Operation where
  | CreateReservation (input : CreateReservationInput)
  | CancelReservation (input : CancelReservationInput)
  | ExpireOverdueReservations
  | RegisterEntry (token : String)
  | RegisterExit (token : String)
  deriving DecidableEq

inductive Outcome where
  | Created (result : CreateReservationResult)
  | Cancelled
  | Expired (count : ℕ)
  | Entered (session : ParkingSession)
  | Exited (session : ParkingSession)
  deriving DecidableEq

def Operation.execute (config : Config) : Operation → Port Outcome
  | .CreateReservation input => do
      let result ← CreateReservationUseCase.execute config input
      pure (.Created result)
  | .CancelReservation input => do
      CancelReservationUseCase.execute input
      pure .Cancelled
  | .ExpireOverdueReservations => do
      let count ← ExpireOverdueReservationsUseCase.execute
      pure (.Expired count)
  | .RegisterEntry token => do
      let session ← RegisterEntryUseCase.execute token
      pure (.Entered session)
  | .RegisterExit token => do
      let session ← RegisterExitUseCase.execute token
      pure (.Exited session)

-- A request with what its port calls do not decide by themselves.
structure Turn where
  operation : Operation
  choices : ℕ → Choice

-- Requests executed to completion, one after another.
def playTurn (config : Config) (world : World) (turn : Turn) : World :=
  ((turn.operation.execute config).run serve turn.choices world).2

def playAll (config : Config) (world : World) (turns : List Turn) : World :=
  turns.foldl (playTurn config) world

-- Requests executed at the same time.
abbrev Requests (Tid : Type) := Pool Tid World Call Answer Fault Outcome

def Requests.start {Tid : Type} (config : Config) (world : World) (operations : Tid → Operation) :
    Requests Tid :=
  Pool.start world fun thread => (operations thread).execute config

-- A state with no reservations and no sessions yet.
def Database.opening (branches : Table Branch.id Branch.id)
    (slots : Table ParkingSlot.id fun slot => (slot.branchId, slot.code)) : Database where
  branches
  slots
  reservations := .empty
  sessions := .empty

-- One branch with one slot, for concrete runs.
namespace Demo

def branch : Branch where
  id := "b1"
  name := "Centro"
  address := "Av. Arequipa 100"
  lat := 0
  lng := 0
  pricePerHour := ⟨500⟩

def slot : ParkingSlot where
  id := "s1"
  branchId := "b1"
  code := "A1"
  type := .REGULAR
  status := .DISPONIBLE
  updatedAt := 0

def branches : Table Branch.id Branch.id := ⟨[branch], by simp, by simp⟩

def slots : Table ParkingSlot.id fun slot => (slot.branchId, slot.code) := ⟨[slot], by simp, by simp⟩

def config : Config where
  toleranceMinutes := 20
  strategy := .default
  distanceKmTo _ _ := 1

def twoSlots : Table ParkingSlot.id fun slot => (slot.branchId, slot.code) :=
  ⟨[slot, { slot with id := "s2", code := "A2" }], by simp [slot], by simp [slot]⟩

-- Each call takes a millisecond. The next row gets the given uuid, and a
-- scanned code admits the reservation of that id.
def choice (uuid : Id) : Choice where
  elapsed := 1
  uuid
  locked _ := false
  qr := .ok { type := .ENTRY, reservationId := some uuid, sessionId := none, expiresAt := 10 }
  payment _ := none
  user _ := none

def request (userId : Id) : CreateReservationInput where
  userId
  branchId := "b1"
  slotType := none
  startAt := none

-- A PENDING reservation of the user u1 on the slot, until the time 50.
def reservation : Reservation where
  id := "r1"
  userId := "u1"
  branchId := "b1"
  slotId := "s1"
  requestedType := .REGULAR
  status := .PENDING
  createdAt := 0
  startAt := 0
  expiresAt := 50
  confirmedAt := none

def reserved : Database where
  branches
  slots := ⟨[{ slot with status := .RESERVADA }], by simp, by simp⟩
  reservations := ⟨[reservation], by simp, by simp⟩
  sessions := .empty

-- A second slot is reserved as well, for the user u2 until the time 500.
def twoReserved : Database where
  branches
  slots := ⟨[{ slot with status := .RESERVADA },
    { slot with id := "s2", code := "A2", status := .RESERVADA }], by simp [slot], by simp [slot]⟩
  reservations := ⟨[reservation,
    { reservation with id := "r2", userId := "u2", slotId := "s2", expiresAt := 500 }],
    by simp [reservation], by simp [reservation]⟩
  sessions := .empty

end Demo

end SmartParking
