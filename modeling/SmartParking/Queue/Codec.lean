import SmartParking.Queue.ReservationRequests
import SmartParking.Json.RoundTrip

namespace SmartParking.Queue

-- What the validators of the third party promise.
structure Validators.Lawful (validators : Validators) : Prop where
  isUUID : ∀ text, validators.isUUID text = true → text ≠ ""

-- The messages that the two endpoints build from bodies that their validators accept.
inductive Built (env : Environment) (validators : Validators) : ReservationRequestMessage → Prop
  | create (randomUUID sub : String) (now : JsDate.Time) (dto : CreateReservationDto)
      (hrequest : randomUUID ≠ "") (h : dto.accepted validators = true) :
      Built env validators (RequestReservationUseCase.message randomUUID now
        (ReservationsController.create env sub dto))
  | confirmSuggestion (randomUUID sub : String) (now : JsDate.Time) (dto : ConfirmSuggestionDto)
      (hrequest : randomUUID ≠ "") (h : dto.accepted validators = true) :
      Built env validators (RequestReservationUseCase.message randomUUID now
        (ReservationsController.confirmSuggestion env sub dto))

-- The message as the worker has it, with every field as it was.
def ReservationRequestMessage.payload (message : ReservationRequestMessage) : Payload where
  requestId := .string message.requestId
  userId := .string message.userId
  branchId := .string message.branchId
  slotType := message.slotType.map RabbitMqReservationQueueAdapter.slotTypeJson
  startAt := message.startAt
  requestedAt := message.requestedAt

-- The message without a date that is none.
def ReservationRequestMessage.received (message : ReservationRequestMessage) : Payload :=
  { message.payload with startAt := message.startAt.filter Option.isSome }

-- Decoding gives the message, and the date of a message that has one is there.
structure RoundTrips (env : Environment) (message : ReservationRequestMessage) : Prop where
  fields : ReservationRequestConsumer.parse env (RabbitMqReservationQueueAdapter.content message) =
    .ok message.payload
  startAt : message.startAt.isSome → ∀ payload,
    ReservationRequestConsumer.parse env (RabbitMqReservationQueueAdapter.content message) =
      .ok payload → payload.startAt.isSome

namespace Demo

-- A host that knows no other texts of dates.
def env : Environment where
  dateOfText _ := none
  dateOfValue _ := none

def validators : Validators where
  isUUID text := text.length = 36
  isDateString text := text ≠ ""

theorem lawful : validators.Lawful where
  isUUID text h := by
    rintro rfl
    exact absurd h (by decide)

def branchId : String := "6f9619ff-8b86-4d01-b42d-00c04fc964ff"

def dto (startAt : String) : CreateReservationDto where
  branchId
  slotType := some (some .MOTO)
  startAt := some startAt

def now : JsDate.Time where
  ms := 1773000000000
  lower := by decide
  upper := by decide

def message (startAt : String) : ReservationRequestMessage :=
  RequestReservationUseCase.message "3b241101-e2bb-4255-8caf-4136c566a962" now
    (ReservationsController.create env "u1" (dto startAt))

theorem built (startAt : String) (h : startAt ≠ "") : Built env validators (message startAt) := by
  have hbranch : validators.isUUID branchId = true := by decide
  have hdate : (dto startAt).startAt.all validators.isDateString = true := by
    simpa [dto, validators] using h
  exact .create _ _ _ _ (by decide) (Bool.and_eq_true_iff.mpr ⟨hbranch, hdate⟩)

end Demo

end SmartParking.Queue
