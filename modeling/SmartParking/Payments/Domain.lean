import SmartParking.Backend.Repositories
import SmartParking.Json

namespace SmartParking.Payments

-- payments-service, with an entity and a database of its own.
inductive PaymentMethodType where
  | CASH | CARD | YAPE | PLIN
  deriving DecidableEq

structure Payment where
  id : Id
  sessionId : Id
  userId : Id
  branchId : Id
  amount : Soles
  status : PaymentStatus
  externalReference : Option String
  paidAt : Option ℤ
  createdAt : ℤ
  deriving DecidableEq

def Payment.isApproved (payment : Payment) : Bool := payment.status = .APPROVED

-- core/domain/errors. A remote error is an answer of another service, with the code and
-- the message that it sent.
inductive DomainError where
  | NotFound (entity id : String)
  | ParkingServiceUnavailable
  | RemoteDomain (code message : Json)

namespace DomainError

def code : DomainError → Json
  | NotFound _ _ => .string "NOT_FOUND"
  | ParkingServiceUnavailable => .string "PARKING_SERVICE_UNAVAILABLE"
  | RemoteDomain code _ => code

def message : DomainError → Json
  | NotFound entity id => .string (entity ++ " con id \"" ++ id ++ "\" no fue encontrado.")
  | ParkingServiceUnavailable =>
      .string "No se pudo obtener el monto de la sesion. Intenta nuevamente en unos segundos."
  | RemoteDomain _ message => message

end DomainError

inductive Fault where
  | domain (error : DomainError)
  | infrastructure (message : String)

-- prisma/schema.prisma: one payment for each session.
structure Database where
  payments : Table Payment.id Payment.sessionId

structure CreatePaymentData where
  sessionId : Id
  userId : Id
  branchId : Id
  amount : Soles
  status : PaymentStatus
  externalReference : Option String
  paidAt : Option ℤ
  deriving DecidableEq

structure UpdatePaymentData where
  amount : Soles
  status : PaymentStatus
  externalReference : String
  paidAt : ℤ
  deriving DecidableEq

namespace PrismaPaymentRepository

open Table

def findBySessionId (db : Database) (sessionId : Id) : Option Payment :=
  db.payments.lookupBy sessionId

def newRow (db : Database) (uuid : Id) (now : ℤ) (data : CreatePaymentData) : Payment where
  id := newId uuid (db.payments.rows.map Payment.id)
  sessionId := data.sessionId
  userId := data.userId
  branchId := data.branchId
  amount := data.amount
  status := data.status
  externalReference := data.externalReference
  paidAt := data.paidAt
  createdAt := now

-- Refused when the session already has a payment.
def create (db : Database) (uuid : Id) (now : ℤ) (data : CreatePaymentData) :
    Except Fault (Payment × Database) :=
  match db.payments.insert (newRow db uuid now data) with
  | some payments => .ok (newRow db uuid now data, { payments })
  | none => .error (.infrastructure "Unique constraint failed on the fields: (`sessionId`)")

def findUniqueOrThrow (db : Database) (id : Id) : Except Fault Payment :=
  match db.payments.lookup id with
  | some payment => .ok payment
  | none => .error (.infrastructure "No Payment found")

def withData (data : UpdatePaymentData) : Change Payment.id Payment.sessionId where
  apply payment := { payment with
    amount := data.amount
    status := data.status
    externalReference := some data.externalReference
    paidAt := some data.paidAt }
  key_apply _ := rfl
  mark_apply _ := rfl

def update (db : Database) (id : Id) (data : UpdatePaymentData) :
    Except Fault (Payment × Database) :=
  match db.payments.lookup id with
  | some payment => .ok (withData data payment, { payments := db.payments.modify id (withData data) })
  | none => .error (.infrastructure "Record to update not found.")

end PrismaPaymentRepository

end SmartParking.Payments
