import SmartParking.Audit.History
import SmartParking.Machine
import SmartParking.Publication

namespace SmartParking

namespace Payments

namespace KafkaAuditEventPublisherAdapter

def statusText : PaymentStatus → String
  | .PENDING => "PENDING"
  | .APPROVED => "APPROVED"
  | .REJECTED => "REJECTED"

-- A whole number has no fraction.
def amountJson (amount : Soles) : Json :=
  if amount.units % 100 = 0 then .number (amount.units / 100) 0 else .number amount.units (-2)

def payload (event : PaymentRegisteredAudit) : List (String × Json) :=
  [("paymentId", .string event.paymentId), ("sessionId", .string event.sessionId),
    ("branchId", .string event.branchId), ("amount", amountJson event.amount),
    ("status", .string (statusText event.status))]

-- The value of the message. The use case has already written the time.
def publishPaymentRegistered (randomUUID : String) (event : PaymentRegisteredAudit)
    (occurredAt : String) : List UInt8 :=
  Utf8.encode (Json.stringify (.object [
    ("eventId", .string randomUUID),
    ("eventType", .string "payment.registered"),
    ("occurredAt", .string occurredAt),
    ("aggregateId", .string event.paymentId),
    ("actorUserId", .string event.userId),
    ("payload", .object (payload event))]))

end KafkaAuditEventPublisherAdapter

-- Requests for any sessions, one after the other.
def playOne (state : World × Log) (turn : Id × Turn) : World × Log := playTurn turn.1 state turn.2

-- A payment that is topped up was created after all whose events have been published.
def NewestTopUps (state : World × Log) (turn : Id × Turn) : Prop :=
  ∀ payment missing, TopsUp turn.1 state.1.db turn.2 payment missing →
    ∀ event ∈ published state.2, ∀ earlier ∈ state.1.db.payments, earlier.id = event.paymentId →
      earlier.createdAt < payment.createdAt

-- Two sessions pay, and then the first one again.
def Demo.payers (amount : Soles) : List (Id × Turn) :=
  [("x1", Demo.turn ⟨500⟩ .APPROVED), ("x2", Demo.turn ⟨500⟩ .APPROVED),
    ("x1", Demo.turn amount .APPROVED)]

end Payments

namespace Audit

open Payments Payments.KafkaAuditEventPublisherAdapter

variable {Jsonb : Type}

-- The event of audit-service for one of payments-service.
def registered (uuid : String) (event : PaymentRegisteredAudit) (time : JsDate.Time) :
    AuditEvent where
  eventId := uuid
  eventType := .paymentRegistered
  occurredAt := JsDate.toISOString time
  aggregateId := event.paymentId
  actorUserId := event.userId
  payload := payload event

-- The messages of the events, each with a uuid of its own.
def messagesOf (uuids : ℕ → String) (events : List PaymentRegisteredAudit) :
    List (Option (List UInt8)) :=
  events.zipIdx.filterMap fun (event, n) => (JsDate.ofMs event.occurredAt).map fun time =>
    some (publishPaymentRegistered (uuids n) event (JsDate.toISOString time))

-- Their columns, in the order of their publication.
def recordsOf (env : Environment Jsonb) (uuids : ℕ → String)
    (events : List PaymentRegisteredAudit) : List (AuditRecord Jsonb) :=
  events.zipIdx.filterMap fun (event, n) => (JsDate.ofMs event.occurredAt).bind fun time =>
    AuditStore.columns env (registered (uuids n) event time)

-- The events reach audit-service, which keeps the order of their times, among others
-- of other types and with other ids.
structure Reaches (env : Environment Jsonb) (uuids : ℕ → String)
    (others : List (Option (List UInt8))) (events : List PaymentRegisteredAudit) : Prop where
  distinct : Function.Injective uuids
  taken : ∀ n event, events[n]? = some event → ∃ time, JsDate.ofMs event.occurredAt = some time ∧
    (AuditStore.columns env (registered (uuids n) event time)).isSome = true
  instants : ∀ (time later : JsDate.Time) (instant other : ℤ),
    env.timestamptz (JsDate.toISOString time) = some instant →
      env.timestamptz (JsDate.toISOString later) = some other →
        (instant < other ↔ time.ms < later.ms)
  foreign : ∀ value ∈ others, ∀ event ∈ event? env value,
    event.eventType ≠ .paymentRegistered ∧ ∀ n, event.eventId ≠ uuids n

def AuditRecord.isPayment (record : AuditRecord Jsonb) : Bool :=
  record.eventType = .paymentRegistered

-- The history lists the events latest first, alone or among others.
def InOrder (env : Environment Jsonb) (uuids : ℕ → String) (others : List (Option (List UInt8)))
    (events : List PaymentRegisteredAudit) : Prop :=
  ∀ deliveries, Delivers (messagesOf uuids events ++ others) deliveries →
    ∀ scan, scan.Perm (consumeAll env deliveries).rows → ∀ limit,
      AuditStore.list scan limit (some "payment.registered") =
          (recordsOf env uuids events).reverse.take limit ∧
        ∀ eventType, (AuditStore.list scan limit eventType).filter AuditRecord.isPayment <+:
          (recordsOf env uuids events).reverse

def Demo.uuids (n : ℕ) : String := String.ofList (List.replicate n 'u')

end Audit

end SmartParking
