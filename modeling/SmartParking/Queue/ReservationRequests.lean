import SmartParking.Backend.UseCases
import SmartParking.JsDate
import SmartParking.Json.Values
import SmartParking.Utf8

namespace SmartParking.Queue

open Async

-- What the language leaves to its host, or to its numbers: the dates of texts that are
-- not the ISO text of a time, and of values that are no texts.
structure Environment where
  dateOfText : String → Option JsDate.Time
  dateOfValue : Json → Option JsDate.Time

-- An invalid date is one without a time.
abbrev Date := Option JsDate.Time

def newDate (env : Environment) (text : String) : Date := JsDate.parse env.dateOfText text

-- The side of the queue that answers HTTP requests.

-- The decorators of the third party that look at a text.
structure Validators where
  isUUID : String → Bool
  isDateString : String → Bool

-- An optional type is absent, or null, or one of the types.
structure CreateReservationDto where
  branchId : String
  slotType : Option (Option SlotType)
  startAt : Option String

def CreateReservationDto.accepted (validators : Validators) (dto : CreateReservationDto) : Bool :=
  validators.isUUID dto.branchId && dto.startAt.all validators.isDateString

structure ConfirmSuggestionDto where
  suggestedBranchId : String
  slotType : Option (Option SlotType)
  startAt : Option String

def ConfirmSuggestionDto.accepted (validators : Validators) (dto : ConfirmSuggestionDto) : Bool :=
  validators.isUUID dto.suggestedBranchId && dto.startAt.all validators.isDateString

structure RequestReservationInput where
  userId : String
  branchId : String
  slotType : Option (Option SlotType)
  startAt : Option Date

namespace ReservationsController

def startAt (env : Environment) (startAt : Option String) : Option Date :=
  (startAt.filter (· ≠ "")).map (newDate env)

def create (env : Environment) (sub : String) (dto : CreateReservationDto) :
    RequestReservationInput where
  userId := sub
  branchId := dto.branchId
  slotType := dto.slotType
  startAt := startAt env dto.startAt

def confirmSuggestion (env : Environment) (sub : String) (dto : ConfirmSuggestionDto) :
    RequestReservationInput where
  userId := sub
  branchId := dto.suggestedBranchId
  slotType := dto.slotType
  startAt := startAt env dto.startAt

end ReservationsController

structure ReservationRequestMessage where
  requestId : String
  userId : String
  branchId : String
  slotType : Option (Option SlotType)
  startAt : Option Date
  requestedAt : Date

-- What RequestReservation puts into the queue.
def RequestReservationUseCase.message (randomUUID : String) (now : JsDate.Time)
    (input : RequestReservationInput) : ReservationRequestMessage where
  requestId := randomUUID
  userId := input.userId
  branchId := input.branchId
  slotType := input.slotType
  startAt := input.startAt
  requestedAt := some now

namespace RabbitMqReservationQueueAdapter

def slotTypeText : SlotType → String
  | .REGULAR => "REGULAR"
  | .MOTO => "MOTO"
  | .ELECTRICO => "ELECTRICO"
  | .DISCAPACITADOS => "DISCAPACITADOS"

def slotTypeJson : Option SlotType → Json
  | some type => .string (slotTypeText type)
  | none => .null

def dateJson : Date → Json
  | some time => .string (JsDate.toISOString time)
  | none => .null

-- Absent fields are left out.
def toJson (message : ReservationRequestMessage) : Json :=
  .object ([("requestId", .string message.requestId), ("userId", .string message.userId),
      ("branchId", .string message.branchId)] ++
    (message.slotType.map fun type => ("slotType", slotTypeJson type)).toList ++
    (message.startAt.map fun date => ("startAt", dateJson date)).toList ++
    [("requestedAt", dateJson message.requestedAt)])

-- The content that is published.
def content (message : ReservationRequestMessage) : List UInt8 :=
  Utf8.encode (Json.stringify (toJson message))

end RabbitMqReservationQueueAdapter

-- The side of the worker. What it has read is of any type.

structure Payload where
  requestId : Json
  userId : Json
  branchId : Json
  slotType : Option Json
  startAt : Option Date
  requestedAt : Date

inductive ParseError where
  | syntaxError
  | typeError
  | missingFields

structure CreateReservationInput where
  userId : Json
  branchId : Json
  slotType : Option Json
  startAt : Option Date

structure ResolvedPayload where
  requestId : Json
  userId : Json
  resolution : Resolution

inductive Call where
  | createReservation (input : CreateReservationInput)
  | notifyReservationRequestResolved (payload : ResolvedPayload)
  | ack
  | nack (requeue : Bool)

@[reducible] def Answer : Call → Type
  | .createReservation _ => CreateReservationResult
  | .notifyReservationRequestResolved _ => Unit
  | .ack => Unit
  | .nack _ => Unit

abbrev Port := Program Call Answer Fault

def createReservation.execute (input : CreateReservationInput) : Port CreateReservationResult :=
  Program.perform (Call.createReservation input)

def notifier.notifyReservationRequestResolved (payload : ResolvedPayload) : Port Unit :=
  Program.perform (Call.notifyReservationRequestResolved payload)

def channel.ack : Port Unit := Program.perform Call.ack

def channel.nack (requeue : Bool) : Port Unit := Program.perform (Call.nack requeue)

-- Answers of the domain are a result; other errors go on to the consumer.
def ProcessReservationRequestUseCase.resolve (payload : Payload) : Port Resolution :=
  tryCatch (do
    let result ← createReservation.execute {
      userId := payload.userId
      branchId := payload.branchId
      slotType := payload.slotType
      startAt := payload.startAt }
    pure (ProcessReservationRequestUseCase.resolution result)) fun
    | .domain error => pure (.REJECTED error.code error.message)
    | .infrastructure text => throw (.infrastructure text)

def ProcessReservationRequestUseCase.execute (payload : Payload) : Port Unit := do
  let resolution ← resolve payload
  notifier.notifyReservationRequestResolved {
    requestId := payload.requestId
    userId := payload.userId
    resolution }

namespace ReservationRequestConsumer

def dateOf (env : Environment) (value : Json) : Except ParseError Date :=
  if value.hasText then
    match value with
    | .string text => .ok (newDate env text)
    | value => .ok (env.dateOfValue value)
  else .error .typeError

def field (raw : Json) (name : String) : Option Json := (raw.get? name).filter Json.truthy

-- The dates are dates again. A missing requestedAt gives an invalid one.

def startAtOf (env : Environment) (raw : Json) : Except ParseError (Option Date) :=
  match field raw "startAt" with
  | some value => some <$> dateOf env value
  | none => .ok none

def requestedAtOf (env : Environment) (raw : Json) : Except ParseError Date :=
  match raw.get? "requestedAt" with
  | some value => dateOf env value
  | none => .ok none

def revive (env : Environment) (raw : Json) : Except ParseError Payload :=
  match field raw "requestId", field raw "userId", field raw "branchId" with
  | some requestId, some userId, some branchId => do
      let startAt ← startAtOf env raw
      let requestedAt ← requestedAtOf env raw
      return { requestId, userId, branchId, slotType := raw.get? "slotType", startAt, requestedAt }
  | _, _, _ => .error .missingFields

def parse (env : Environment) (content : List UInt8) : Except ParseError Payload :=
  match Json.parse (Utf8.decode content) with
  | none => .error .syntaxError
  | some .null => .error .typeError
  | some raw => revive env raw

-- The log names the request, which not every value of JSON has a text for.
def log (requestId : Json) : Port Unit :=
  if requestId.hasText then pure ()
  else throw (.infrastructure "Cannot convert object to primitive value")

def handle (env : Environment) : Option (List UInt8) → Port Unit
  | none => pure ()
  | some content =>
      match parse env content with
      | .error _ => channel.nack false
      | .ok payload =>
          tryCatch (do
            ProcessReservationRequestUseCase.execute payload
            channel.ack
            log payload.requestId) fun _ => do
              log payload.requestId
              channel.nack false

end ReservationRequestConsumer

end SmartParking.Queue
