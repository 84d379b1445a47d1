import SmartParking.Frontend.ReservationModal
import SmartParking.Live

namespace SmartParking

open Async

namespace Frontend

def textOf (name : String) (value : Json) : Option String :=
  match value.get? name with
  | some (.string text) => some text
  | _ => none

def statusOf (text : String) : Option ResolvedStatus :=
  if text = "CREATED" then some .CREATED
  else if text = "SUGGEST_OTHER_BRANCH" then some .SUGGEST_OTHER_BRANCH
  else if text = "REJECTED" then some .REJECTED
  else none

def suggestedBranchOf (value : Json) : Option SuggestedBranch := do
  let id ← textOf "id" value
  let name ← textOf "name" value
  let address ← textOf "address" value
  return { id, name, address }

-- The payload of an event as the page reads it. The language gives the number of a numeral.
def resolvedOf (number : ℤ → ℤ → ℚ) (payload : Json) : Option ReservationRequestResolved := do
  let requestId ← textOf "requestId" payload
  let status ← (textOf "status" payload).bind statusOf
  return {
    requestId
    status
    suggestedBranch := (payload.get? "suggestedBranch").bind suggestedBranchOf
    distanceKm :=
      match payload.get? "distanceKm" with
      | some (.number mantissa exponent) => some (number mantissa exponent)
      | _ => none
    message := textOf "message" payload }

end Frontend

-- The replies of a page come over sockets that were opened with its token.
def Overhears (jwtVerify : String → Except String Realtime.JwtPayload) (number : ℤ → ℤ → ℚ)
    (events : List (Realtime.RealtimeEvent (Option Json))) (token : String)
    (page : List Frontend.ModalEvent) : Prop :=
  ∀ payload, .resolved payload ∈ page →
    ∃ delivery ∈ Realtime.Nsp.deliveries jwtVerify events,
      delivery.event = "reservation.request.resolved" ∧
        delivery.payload.bind (Frontend.resolvedOf number) = some payload ∧
          ∀ offered, .connect delivery.id offered ∈ events → offered = some token

variable {Tid : Type}

-- A request of the user, whose number the page was given, has got a reservation in the
-- branch it was for.
structure Fulfilled (tasks : Tid → Task) (db : Database) (user : Realtime.AuthenticatedUser)
    (page : List Frontend.ModalEvent) (message : ReservationRequestMessage) : Prop where
  delivered : ∃ thread, tasks thread = .deliver message
  own : message.userId = user.sub ∨ user.role = .ADMIN
  accepted : ∃ call, .accepted call message.requestId ∈ page
  reserved : ∃ reservation ∈ db.reservations, reservation.userId = message.userId ∧
    reservation.branchId = message.branchId

end SmartParking
