import SmartParking.Async.Pool
import SmartParking.Payments.Domain

namespace SmartParking.Payments

open Async

structure QuoteItem where
  label : String
  amount : Soles
  deriving DecidableEq

structure SessionQuote where
  sessionId : Id
  userId : Id
  branchId : Id
  active : Bool
  amount : Soles
  currency : String
  breakdown : List QuoteItem
  deriving DecidableEq

structure ChargeInput where
  sessionId : Id
  amount : Soles
  currency : String
  method : PaymentMethodType
  deriving DecidableEq

inductive ChargeStatus where
  | APPROVED | REJECTED
  deriving DecidableEq

structure ChargeResult where
  status : ChargeStatus
  externalReference : String
  deriving DecidableEq

structure PaymentRegistered where
  paymentId : Id
  sessionId : Id
  branchId : Id
  amount : Soles
  status : PaymentStatus
  deriving DecidableEq

structure PaymentRegisteredAudit extends PaymentRegistered where
  userId : Id
  occurredAt : ℤ
  deriving DecidableEq

-- The calls of the use case on its ports. The two queries of `increaseAmount`
-- are two calls.
inductive Call where
  | getQuote (sessionId : Id)
  | clockNow
  | findBySessionId (sessionId : Id)
  | charge (input : ChargeInput)
  | create (data : CreatePaymentData)
  | findUniqueOrThrow (id : Id)
  | update (id : Id) (data : UpdatePaymentData)
  | paymentRegistered (payload : PaymentRegistered)
  | publishPaymentRegistered (event : PaymentRegisteredAudit)
  deriving DecidableEq

@[reducible] def Answer : Call → Type
  | .getQuote _ => SessionQuote
  | .clockNow => ℤ
  | .findBySessionId _ => Option Payment
  | .charge _ => ChargeResult
  | .create _ => Payment
  | .findUniqueOrThrow _ => Payment
  | .update _ _ => Payment
  | .paymentRegistered _ => Unit
  | .publishPaymentRegistered _ => Unit

abbrev Port (α : Type) := Program Call Answer Fault α

abbrev ask (call : Call) : Port (Answer call) := Program.perform call

abbrev billing.getQuote (sessionId : Id) : Port SessionQuote := ask (.getQuote sessionId)
abbrev clock.now : Port ℤ := ask .clockNow
abbrev payments.findBySessionId (sessionId : Id) : Port (Option Payment) :=
  ask (.findBySessionId sessionId)
abbrev paymentMethod.charge (input : ChargeInput) : Port ChargeResult := ask (.charge input)
abbrev payments.create (data : CreatePaymentData) : Port Payment := ask (.create data)
abbrev events.paymentRegistered (payload : PaymentRegistered) : Port Unit :=
  ask (.paymentRegistered payload)
abbrev auditEvents.publishPaymentRegistered (event : PaymentRegisteredAudit) : Port Unit :=
  ask (.publishPaymentRegistered event)

-- The reference of a charge is added to those of the charges before.
def joinReference (existing : Option String) (externalReference : String) : String :=
  match existing with
  | some earlier =>
      if earlier = "" then externalReference else earlier ++ "," ++ externalReference
  | none => externalReference

def payments.increaseAmount (id : Id) (additionalAmount : Soles) (externalReference : String)
    (paidAt : ℤ) : Port Payment := do
  let existing ← ask (.findUniqueOrThrow id)
  ask (.update id {
    amount := existing.amount + additionalAmount
    status := .APPROVED
    externalReference := joinReference existing.externalReference externalReference
    paidAt })

structure World where
  db : Database
  clock : ℤ

-- The time a call takes, the uuid it draws, and the answers of backend and of
-- the payment method.
structure Choice where
  elapsed : ℕ
  uuid : Id
  quote : Except Fault SessionQuote
  charge : ChargeResult

def committed (db : Database) : Except Fault (Payment × Database) → Except Fault Payment × Database
  | .ok (payment, db') => (.ok payment, db')
  | .error err => (.error err, db)

-- A quote is about the session it was asked for.
def query (choice : Choice) (now : ℤ) (db : Database) :
    (call : Call) → Except Fault (Answer call) × Database
  | .getQuote sessionId => (choice.quote.map fun quote => { quote with sessionId }, db)
  | .clockNow => (.ok now, db)
  | .findBySessionId sessionId =>
      (.ok (PrismaPaymentRepository.findBySessionId db sessionId), db)
  | .charge _ => (.ok choice.charge, db)
  | .create data => committed db (PrismaPaymentRepository.create db choice.uuid now data)
  | .findUniqueOrThrow id => (PrismaPaymentRepository.findUniqueOrThrow db id, db)
  | .update id data => committed db (PrismaPaymentRepository.update db id data)
  | .paymentRegistered _ => (.ok (), db)
  | .publishPaymentRegistered _ => (.ok (), db)

def serve : Server Choice World Call Answer Fault := fun choice world call =>
  let now := world.clock + choice.elapsed
  let (answer, db) := query choice now world.db call
  (answer, { db, clock := now })

structure RegisterPaymentInput where
  sessionId : Id
  userId : Id
  method : PaymentMethodType
  deriving DecidableEq

namespace RegisterPaymentUseCase

def TOLERANCE : ℚ := 1 / 100

def publish (payment : Payment) : Port Unit := do
  let payload : PaymentRegistered := {
    paymentId := payment.id
    sessionId := payment.sessionId
    branchId := payment.branchId
    amount := payment.amount
    status := payment.status }
  events.paymentRegistered payload
  auditEvents.publishPaymentRegistered {
    payload with userId := payment.userId, occurredAt := payment.createdAt }

def missingAmount (requiredAmount : Soles) (existingPayment : Payment) : Soles :=
  Decimal.toFixed 2 (requiredAmount.value - existingPayment.amount.value)

def topUpIfInsufficient (existingPayment : Payment) (requiredAmount : Soles) (currency : String)
    (sessionId : Id) (now : ℤ) (method : PaymentMethodType) : Port Payment :=
  if (missingAmount requiredAmount existingPayment).value ≤ TOLERANCE then pure existingPayment
  else do
    let charge ← paymentMethod.charge {
      sessionId
      amount := missingAmount requiredAmount existingPayment
      currency
      method }
    if charge.status ≠ .APPROVED then pure existingPayment
    else
      let toppedUp ← payments.increaseAmount existingPayment.id
        (missingAmount requiredAmount existingPayment) charge.externalReference now
      publish toppedUp
      pure toppedUp

def paymentData (quote : SessionQuote) (charge : ChargeResult) (now : ℤ) : CreatePaymentData where
  sessionId := quote.sessionId
  userId := quote.userId
  branchId := quote.branchId
  amount := quote.amount
  status := if charge.status = .APPROVED then .APPROVED else .REJECTED
  externalReference := some charge.externalReference
  paidAt := if charge.status = .APPROVED then some now else none

-- The first payment of a session.
def pay (quote : SessionQuote) (now : ℤ) (method : PaymentMethodType) : Port Payment := do
  let charge ← paymentMethod.charge {
    sessionId := quote.sessionId
    amount := quote.amount
    currency := quote.currency
    method }
  let payment ← payments.create (paymentData quote charge now)
  publish payment
  pure payment

def execute (input : RegisterPaymentInput) : Port Payment := do
  let quote ← billing.getQuote input.sessionId
  if quote.userId ≠ input.userId then
    throw (.domain (.NotFound "ParkingSession" input.sessionId))
  else
    let now ← clock.now
    let existingPayment ← payments.findBySessionId quote.sessionId
    match existingPayment with
    | some existingPayment =>
        topUpIfInsufficient existingPayment quote.amount quote.currency quote.sessionId now
          input.method
    | none => pay quote now input.method

end RegisterPaymentUseCase

-- A session of the user u1, for concrete runs. Each call takes a millisecond.
def Demo.choice (amount : Soles) (status : ChargeStatus) : Choice where
  elapsed := 1
  uuid := "p1"
  quote := .ok {
    sessionId := "x1"
    userId := "u1"
    branchId := "b1"
    active := true
    amount
    currency := "PEN"
    breakdown := [] }
  charge := { status, externalReference := "CARD-1" }

def Demo.world : World := ⟨⟨.empty⟩, 0⟩

end SmartParking.Payments
