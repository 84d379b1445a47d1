import SmartParking.JsDate
import SmartParking.Json
import SmartParking.Table
import SmartParking.Utf8
import Mathlib.Data.List.Sort

namespace SmartParking.Audit

inductive AuditEventType where
  | reservationCreated | reservationCancelled | paymentRegistered
  deriving DecidableEq

def AuditEventType.text : AuditEventType → String
  | reservationCreated => "reservation.created"
  | reservationCancelled => "reservation.cancelled"
  | paymentRegistered => "payment.registered"

def AuditEventType.ofText (text : String) : Option AuditEventType :=
  [reservationCreated, reservationCancelled, paymentRegistered].find? (·.text = text)

structure AuditEvent where
  eventId : String
  eventType : AuditEventType
  occurredAt : String
  aggregateId : String
  actorUserId : String
  payload : List (String × Json)

-- What the host makes of dates that are no ISO text, and what PostgreSQL makes of the
-- texts it is given: whether a TEXT can hold it, and the instant or the document it is.
structure Environment (Jsonb : Type) where
  dateOfText : String → Option JsDate.Time
  holdsText : String → Bool
  timestamptz : String → Option ℤ
  jsonb : Json → Option Jsonb

variable {Jsonb : Type}

-- The event that a value is.
def auditEvent? (env : Environment Jsonb) (value : Json) : Option AuditEvent :=
  match value.get? "eventId", value.get? "eventType", value.get? "occurredAt",
      value.get? "aggregateId", value.get? "actorUserId", value.get? "payload" with
  | some (.string eventId), some (.string eventType), some (.string occurredAt),
      some (.string aggregateId), some (.string actorUserId), some (.object payload) => do
      let eventType ← AuditEventType.ofText eventType
      let _ ← JsDate.parse env.dateOfText occurredAt
      return { eventId, eventType, occurredAt, aggregateId, actorUserId, payload }
  | _, _, _, _, _, _ => none

def isAuditEvent (env : Environment Jsonb) (value : Json) : Bool := (auditEvent? env value).isSome

structure AuditRecord (Jsonb : Type) where
  eventId : String
  eventType : AuditEventType
  occurredAt : ℤ
  aggregateId : String
  actorUserId : String
  payload : Jsonb
  deriving DecidableEq

structure AuditRow (Jsonb : Type) where
  record : AuditRecord Jsonb
  recordedAt : ℤ

def AuditRow.eventId (row : AuditRow Jsonb) : String := row.record.eventId

abbrev AuditEvents (Jsonb : Type) :=
  Table (AuditRow.eventId : AuditRow Jsonb → String) (AuditRow.eventId : AuditRow Jsonb → String)

namespace AuditStore

-- The columns of an event, if PostgreSQL takes them.
def columns (env : Environment Jsonb) (event : AuditEvent) : Option (AuditRecord Jsonb) :=
  if env.holdsText event.eventId && env.holdsText event.aggregateId &&
      env.holdsText event.actorUserId then do
    let occurredAt ← env.timestamptz event.occurredAt
    let payload ← env.jsonb (.object event.payload)
    return {
      eventId := event.eventId
      eventType := event.eventType
      occurredAt
      aggregateId := event.aggregateId
      actorUserId := event.actorUserId
      payload }
  else none

-- INSERT ... ON CONFLICT (event_id) DO NOTHING
def append (env : Environment Jsonb) (table : AuditEvents Jsonb) (now : ℤ) (event : AuditEvent) :
    Except String (AuditEvents Jsonb) :=
  match columns env event with
  | some record => .ok ((table.insert { record, recordedAt := now }).getD table)
  | none => .error "invalid input"

-- An empty filter is none.
def asked (eventType : Option String) (record : AuditRecord Jsonb) : Bool :=
  match eventType with
  | some eventType => eventType = "" || record.eventType.text = eventType
  | none => true

def newest (a b : AuditRecord Jsonb) : Prop := b.occurredAt ≤ a.occurredAt

instance : DecidableRel (newest : AuditRecord Jsonb → AuditRecord Jsonb → Prop) :=
  fun a b => inferInstanceAs (Decidable (b.occurredAt ≤ a.occurredAt))

-- SELECT ... ORDER BY occurred_at DESC LIMIT, on the rows as the database comes upon them.
def list (scan : List (AuditRow Jsonb)) (limit : ℕ) (eventType : Option String) :
    List (AuditRecord Jsonb) :=
  (((scan.map AuditRow.record).filter (asked eventType)).insertionSort newest).take limit

end AuditStore

-- A message without a value, or an empty one, is an error. What is no event is dropped.
def eachMessage (env : Environment Jsonb) (table : AuditEvents Jsonb) (now : ℤ)
    (value : Option (List UInt8)) : Except String (AuditEvents Jsonb) :=
  match value.map Utf8.decode with
  | none => .error "Evento de auditoria sin contenido."
  | some raw =>
      if raw = "" then .error "Evento de auditoria sin contenido."
      else
        match Json.parse raw with
        | none => .ok table
        | some parsed =>
            match auditEvent? env parsed with
            | none => .ok table
            | some event => AuditStore.append env table now event

-- A message as it was delivered at a time.
structure Delivery where
  now : ℤ
  value : Option (List UInt8)

-- An error leaves the message to a later delivery.
def consume (env : Environment Jsonb) (table : AuditEvents Jsonb) (delivery : Delivery) :
    AuditEvents Jsonb :=
  match eachMessage env table delivery.now delivery.value with
  | .ok table => table
  | .error _ => table

def consumeAll (env : Environment Jsonb) (deliveries : List Delivery) : AuditEvents Jsonb :=
  deliveries.foldl (consume env) .empty

end SmartParking.Audit
