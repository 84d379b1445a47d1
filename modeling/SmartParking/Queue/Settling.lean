import SmartParking.Queue.ReservationRequests

namespace SmartParking.Queue

open Async

abbrev Outcome := Except Fault CreateReservationResult

-- CreateReservation has one outcome; the notifier and the channel do not throw.
def serve (outcome : Outcome) : Server Unit Unit Call Answer Fault := fun _ _ call =>
  match call with
  | .createReservation _ => (outcome, ())
  | .notifyReservationRequestResolved _ => (.ok (), ())
  | .ack => (.ok (), ())
  | .nack _ => (.ok (), ())

-- The calls of handling one message, in order.
def calls (env : Environment) (outcome : Outcome) (content : List UInt8) : List Call :=
  ((((ReservationRequestConsumer.handle env (some content)).run (logged (serve outcome))
    (fun _ => ()) ((), [])).2.2).map Record.call).reverse

def Call.settles : Call → Bool
  | .ack | .nack _ => true
  | _ => false

def Call.published : Call → Option ResolvedPayload
  | .notifyReservationRequestResolved payload => some payload
  | _ => none

-- What is answered to the user. Other errors are no answer.
def Outcome.resolution : Outcome → Option Resolution
  | .ok result => some (ProcessReservationRequestUseCase.resolution result)
  | .error (.domain error) => some (.REJECTED error.code error.message)
  | .error (.infrastructure _) => none

-- The body parses with its three fields.
def Carries (content : List UInt8) (requestId userId branchId : Json) : Prop :=
  ∃ raw, Json.parse (Utf8.decode content) = some raw ∧
    ReservationRequestConsumer.field raw "requestId" = some requestId ∧
    ReservationRequestConsumer.field raw "userId" = some userId ∧
    ReservationRequestConsumer.field raw "branchId" = some branchId

-- CreateReservation was called, and returned or threw an error of the domain.
def Concluded (outcome : Outcome) (calls : List Call) (resolution : Resolution) : Prop :=
  (∃ input, .createReservation input ∈ calls) ∧ outcome.resolution = some resolution

-- The request is settled once, and answered before it is acknowledged.
structure Settled (content : List UInt8) (outcome : Outcome) (calls : List Call) : Prop where
  once : calls.filter Call.settles = [.ack] ∨ calls.filter Call.settles = [.nack false]
  acked : .ack ∈ calls ↔ ∃ requestId userId branchId resolution,
    Carries content requestId userId branchId ∧ Concluded outcome calls resolution
  answered : ∀ requestId userId branchId resolution, Carries content requestId userId branchId →
    Concluded outcome calls resolution → ∃ before after, calls = before ++ .ack :: after ∧
      before.filterMap Call.published = [⟨requestId, userId, resolution⟩] ∧
      after.filterMap Call.published = []
  silent : .ack ∉ calls → calls.filterMap Call.published = []

-- The log can name the request of the message.
def Nameable (env : Environment) (content : List UInt8) : Prop :=
  ∀ payload, ReservationRequestConsumer.parse env content = .ok payload →
    payload.requestId.hasText = true

end SmartParking.Queue
