import SmartParking.Audit.Consumer

namespace SmartParking.Audit

variable {Jsonb : Type}

-- The event that a message carries.
def event? (env : Environment Jsonb) (value : Option (List UInt8)) : Option AuditEvent := do
  let bytes ← value
  let parsed ← Json.parse (Utf8.decode bytes)
  auditEvent? env parsed

def Carried (env : Environment Jsonb) (messages : List (Option (List UInt8))) (event : AuditEvent) :
    Prop :=
  ∃ value ∈ messages, event? env value = some event

-- Every message is delivered at least once, and no other.
def Delivers (messages : List (Option (List UInt8))) (deliveries : List Delivery) : Prop :=
  ∀ value, value ∈ deliveries.map Delivery.value ↔ value ∈ messages

-- One row for each event, with its columns, and no other row.
structure Complete (env : Environment Jsonb) (messages : List (Option (List UInt8)))
    (table : AuditEvents Jsonb) : Prop where
  stored : ∀ event, Carried env messages event →
    ∃ row ∈ table, AuditStore.columns env event = some row.record
  once : ∀ row ∈ table, ∀ other ∈ table, row.eventId = other.eventId → row = other
  carried : ∀ row ∈ table, ∃ event, Carried env messages event ∧
    AuditStore.columns env event = some row.record

-- Some of the events of a type that occurred last: all of them, or as many as asked for.
structure MostRecent (env : Environment Jsonb) (messages : List (Option (List UInt8)))
    (limit : ℕ) (eventType : Option String) (result : List (AuditRecord Jsonb)) : Prop where
  listed : ∀ record ∈ result, AuditStore.asked eventType record = true ∧
    ∃ event, Carried env messages event ∧ AuditStore.columns env event = some record
  once : (result.map AuditRecord.eventId).Nodup
  ordered : result.Pairwise AuditStore.newest
  bounded : result.length ≤ limit
  recent : ∀ event record, Carried env messages event →
    AuditStore.columns env event = some record → AuditStore.asked eventType record = true →
      record ∈ result ∨
        result.length = limit ∧ ∀ shown ∈ result, record.occurredAt ≤ shown.occurredAt

-- A database that reads ISO texts, in microseconds, and keeps documents as they are.
namespace Demo

def env : Environment Json where
  dateOfText _ := none
  holdsText text := '\x00' ∉ text.toList
  timestamptz text := (JsDate.parse (fun _ => none) text).map fun time => 1000 * time.ms
  jsonb := some

def event : AuditEvent where
  eventId := "e1"
  eventType := .reservationCreated
  occurredAt := "2026-03-09T10:00:00.000Z"
  aggregateId := "r1"
  actorUserId := "u1"
  payload := []

def json : Json :=
  .object [("eventId", .string "e1"), ("eventType", .string "reservation.created"),
    ("occurredAt", .string "2026-03-09T10:00:00.000Z"), ("aggregateId", .string "r1"),
    ("actorUserId", .string "u1"), ("payload", .object [])]

-- The event, a value of another shape, and no JSON.
def valid : Option (List UInt8) := some (Utf8.encode (Json.stringify json))
def shapeless : Option (List UInt8) := some (Utf8.encode (Json.stringify (.array [])))
def broken : Option (List UInt8) := some (Utf8.encode "x")

end Demo

end SmartParking.Audit
