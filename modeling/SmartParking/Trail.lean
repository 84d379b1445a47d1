import SmartParking.Announcement
import SmartParking.Audit.Http

namespace SmartParking

open Async

namespace KafkaAuditEventPublisherAdapter

def statusText : ReservationStatus → String
  | .PENDING => "PENDING"
  | .CONFIRMED => "CONFIRMED"
  | .EXPIRED => "EXPIRED"
  | .CANCELLED => "CANCELLED"
  | .COMPLETED => "COMPLETED"

def payload (payload : AuditEventPayload) : List (String × Json) :=
  [("reservationId", .string payload.reservationId), ("branchId", .string payload.branchId),
    ("slotId", .string payload.slotId), ("status", .string (statusText payload.status))]

-- The value of the message. The use case has already written the time.
def publishAuditEvent (event : AuditEvent) (occurredAt : String) : List UInt8 :=
  Utf8.encode (Json.stringify (.object [
    ("eventId", .string event.eventId),
    ("eventType", .string event.eventType),
    ("occurredAt", .string occurredAt),
    ("aggregateId", .string event.aggregateId),
    ("actorUserId", .string event.actorUserId),
    ("payload", .object (payload event.payload))]))

end KafkaAuditEventPublisherAdapter

variable {Tid : Type}

def auditCall? : Call → Option AuditEvent
  | .publishAuditEvent event => some event
  | _ => none

-- All messages that the executions can have put on the topic. A time out of range has no
-- text, which is an error.
def auditTopic (history : History Tid) : List (Option (List UInt8)) :=
  history.reverse.filterMap fun event => do
    let audit ← auditCall? event.call
    let time ← JsDate.ofMs audit.occurredAt
    return some (KafkaAuditEventPublisherAdapter.publishAuditEvent audit (JsDate.toISOString time))

-- A request for just what an audit event of this type says was done with the reservation.
def Task.AsksFor (task : Task) (eventType : Audit.AuditEventType) (reservation : Reservation) :
    Prop :=
  match eventType, task with
  | .reservationCreated, .deliver message =>
      message.userId = reservation.userId ∧ message.branchId = reservation.branchId
  | .reservationCreated, .operate (.CreateReservation input) =>
      input.userId = reservation.userId ∧ input.branchId = reservation.branchId
  | .reservationCancelled, .operate (.CancelReservation input) =>
      input.reservationId = reservation.id ∧ input.userId = reservation.userId
  | _, _ => False

-- The execution has done it itself.
def Done (history : History Tid) (thread : Tid) (eventType : Audit.AuditEventType)
    (reservation : Reservation) : Prop :=
  match eventType with
  | .reservationCreated => ∃ data created, ⟨thread, .reservationsCreate data, .ok created⟩ ∈ history ∧
      SameReservation reservation created
  | .reservationCancelled => ∃ confirmedAt,
      ⟨thread, .reservationsUpdateStatus reservation.id .CANCELLED confirmedAt, .ok ()⟩ ∈ history
  | .paymentRegistered => False

section

variable {Jsonb : Type}

-- The record is of this reservation, and of the request by which it came to it.
structure Recorded (env : Audit.Environment Jsonb) (tasks : Tid → Task) (history : History Tid)
    (record : Audit.AuditRecord Jsonb) (reservation : Reservation) : Prop where
  id : reservation.id = record.aggregateId
  actor : reservation.userId = record.actorUserId
  payload : ∃ status, (record.eventType = .reservationCancelled → status = .CANCELLED) ∧
    env.jsonb (.object (KafkaAuditEventPublisherAdapter.payload {
      reservationId := reservation.id
      branchId := reservation.branchId
      slotId := reservation.slotId
      status })) = some record.payload
  asked : ∃ thread, (tasks thread).AsksFor record.eventType reservation ∧
    Done history thread record.eventType reservation

-- The history as an administrator is shown it. Payments are of another service.
structure Shown (env : Audit.Environment Jsonb) (tasks : Tid → Task) (history : History Tid)
    (db : Database) (eventType : Option String) (items : List (Audit.AuditRecord Jsonb)) :
    Prop where
  asked : ∀ record ∈ items, Audit.AuditStore.asked eventType record = true
  bounded : items.length ≤ 100
  ordered : items.Pairwise Audit.AuditStore.newest
  once : (items.map Audit.AuditRecord.eventId).Nodup
  recorded : ∀ record ∈ items, record.eventType ≠ .paymentRegistered →
    ∃ reservation ∈ db.reservations, Recorded env tasks history record reservation
  created : ∀ record ∈ items, ∀ other ∈ items, record.eventType = .reservationCreated →
    other.eventType = .reservationCreated → record.aggregateId = other.aggregateId →
      record = other

end

end SmartParking
