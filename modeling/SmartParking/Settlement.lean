import SmartParking.Backend.Operations
import SmartParking.Payments.Ledger

namespace SmartParking

open Async

-- payments-service asks backend for quotes.
namespace ParkingGrpcAdapter

-- A domain error arrives with its code and message.
def translate : Fault → Payments.Fault
  | .domain error => .domain (.RemoteDomain (.string error.code) (.string error.message))
  | .infrastructure _ => .domain .ParkingServiceUnavailable

def toQuote (reply : SessionQuote) : Payments.SessionQuote where
  sessionId := reply.sessionId
  userId := reply.userId
  branchId := reply.branchId
  active := reply.active
  amount := reply.pricing.amount
  currency := "PEN"
  breakdown := reply.pricing.breakdown.map fun item => { label := item.label, amount := item.amount }

def getQuote (choices : ℕ → Choice) (world : World) (sessionId : Id) :
    Except Payments.Fault Payments.SessionQuote × World :=
  match (GetSessionQuoteUseCase.execute sessionId).run serve choices world with
  | (.ok reply, world') => (.ok (toQuote reply), world')
  | (.error err, world') => (.error (translate err), world')

end ParkingGrpcAdapter

-- backend asks payments-service for payments.
namespace PaymentsServiceGrpcAdapter

-- An absent reference travels as an empty text.
def toDomain (reply : Payments.Payment) : Payment where
  id := reply.id
  sessionId := reply.sessionId
  userId := reply.userId
  amount := reply.amount
  status := reply.status
  externalReference := reply.externalReference.filter (· ≠ "")
  paidAt := reply.paidAt
  createdAt := reply.createdAt

def findBySessionId (db : Payments.Database) (sessionId : Id) : Option Payment :=
  (Payments.PrismaPaymentRepository.findBySessionId db sessionId).map toDomain

end PaymentsServiceGrpcAdapter

-- The two services with their databases, on one clock.
structure Platform where
  backend : Database
  payments : Payments.Database
  clock : ℤ

namespace Platform

def ofBackend (payments : Payments.Database) (world : World) : Platform :=
  ⟨world.db, payments, world.clock⟩

def ofPayments (backend : Database) (world : Payments.World) : Platform :=
  ⟨backend, world.db, world.clock⟩

end Platform

-- A call of payments-service, with the calls that backend makes to answer it.
structure RemoteChoice where
  own : Payments.Choice
  remote : ℕ → Choice

def paymentsServe :
    Server RemoteChoice Platform Payments.Call Payments.Answer Payments.Fault :=
  fun choice platform call =>
    match call with
    | .getQuote sessionId =>
        let (quote, world) := ParkingGrpcAdapter.getQuote choice.remote
          ⟨platform.backend, platform.clock⟩ sessionId
        let (answer, world') := Payments.serve { choice.own with quote }
          ⟨platform.payments, world.clock⟩ (.getQuote sessionId)
        (answer, .ofPayments world.db world')
    | call =>
        let (answer, world') := Payments.serve choice.own ⟨platform.payments, platform.clock⟩ call
        (answer, .ofPayments platform.backend world')

def backendServe : Server Choice Platform Call Answer Fault := fun choice platform call =>
  let payment := PaymentsServiceGrpcAdapter.findBySessionId platform.payments
  let (answer, world) := serve { choice with payment } ⟨platform.backend, platform.clock⟩ call
  (answer, .ofBackend platform.payments world)

-- One request of a user to pay for the session.
structure PaymentTurn where
  userId : Id
  method : Payments.PaymentMethodType
  choices : ℕ → RemoteChoice

def PaymentTurn.Approved (turn : PaymentTurn) : Prop :=
  ∀ n, (turn.choices n).own.charge.status = .APPROVED

-- One scan of the exit code of the session.
structure ExitTurn where
  token : String
  expiresAt : ℤ
  choices : ℕ → Choice

inductive Step where
  | pay (turn : PaymentTurn)
  | exit (turn : ExitTurn)

def Step.Approved : Step → Prop
  | .pay turn => turn.Approved
  | .exit _ => True

-- The first use cases read the clock in their third call, the exit in its second.
def pricedAt (now : ℤ) (choices : ℕ → Choice) : ℤ :=
  now + (choices 0).elapsed + (choices 1).elapsed + (choices 2).elapsed

def leavesAt (now : ℤ) (choices : ℕ → Choice) : ℤ :=
  now + (choices 0).elapsed + (choices 1).elapsed

-- An open session in a branch with a price.
structure Stay where
  session : ParkingSession
  branch : Branch
  named : session.id ≠ ""
  active : session.status = .ACTIVE
  inside : session.exitAt = none
  priced : 0 < branch.pricePerHour.units

namespace Stay

def pricing (stay : Stay) (time : ℤ) : PricingResult :=
  HourlyPricingPolicy.price stay.branch stay.session.entryAt time

def price (stay : Stay) (time : ℤ) : Soles := (stay.pricing time).amount

-- The row of the session, before and after its exit.
def row (stay : Stay) : Option ℤ → ParkingSession
  | none => stay.session
  | some exitAt => PrismaParkingSessionRepository.completed exitAt stay.session

structure Known (stay : Stay) (db : Database) (exitAt : Option ℤ) : Prop where
  session : db.sessions.lookup stay.session.id = some (stay.row exitAt)
  reservation : (db.reservations.lookup stay.session.reservationId).map Reservation.branchId =
    some stay.branch.id
  branch : db.branches.lookup stay.branch.id = some stay.branch

def payment (stay : Stay) (platform : Platform) : Option Payments.Payment :=
  Payments.PrismaPaymentRepository.findBySessionId platform.payments stay.session.id

def pay (stay : Stay) (state : Platform × Payments.Log) (turn : PaymentTurn) :
    Platform × Payments.Log :=
  ((Payments.RegisterPaymentUseCase.execute {
    sessionId := stay.session.id, userId := turn.userId, method := turn.method }).run
      (logged paymentsServe) turn.choices state).2

def exitCode (stay : Stay) (expiresAt : ℤ) : QrPayload where
  type := .EXIT
  reservationId := none
  sessionId := some stay.session.id
  expiresAt

def exit (stay : Stay) (platform : Platform) (turn : ExitTurn) :
    Except Fault ParkingSession × Platform :=
  (RegisterExitUseCase.execute turn.token).run backendServe
    (fun n => { turn.choices n with qr := .ok (stay.exitCode turn.expiresAt) }) platform

def play (stay : Stay) (state : Platform × Payments.Log) : Step → Platform × Payments.Log
  | .pay turn => stay.pay state turn
  | .exit turn => ((stay.exit state.1 turn).2, state.2)

def playAll (stay : Stay) (state : Platform × Payments.Log) (steps : List Step) :
    Platform × Payments.Log :=
  steps.foldl stay.play state

end Stay

-- The charges that were asked of the payment method.
def charges (log : Payments.Log) : List Payments.ChargeInput :=
  log.filterMap fun record =>
    match record.call with
    | .charge input => some input
    | _ => none

-- Pricing, payment and exit of a session agree.
structure Reconciled (stay : Stay) (state : Platform × Payments.Log) : Prop where
  paid : stay.Known state.1.backend none → ∀ turn : PaymentTurn,
    turn.userId = stay.session.userId → turn.Approved →
      ∃ payment, stay.payment (stay.pay state turn).1 = some payment ∧
        payment.amount.value ≤
          (stay.price (pricedAt state.1.clock (turn.choices 0).remote)).value ∧
        (stay.price (pricedAt state.1.clock (turn.choices 0).remote)).value - 1 / 100 ≤
          payment.amount.value
  calculated : stay.Known state.1.backend none → ∀ choices : ℕ → Choice,
    ((CalculateAmountUseCase.execute ⟨stay.session.id, stay.session.userId⟩).run serve choices
      ⟨state.1.backend, state.1.clock⟩).1 = .ok (stay.pricing (pricedAt state.1.clock choices))
  quoted : stay.Known state.1.backend none → ∀ choices : ℕ → Choice,
    ((GetSessionQuoteUseCase.execute stay.session.id).run serve choices
      ⟨state.1.backend, state.1.clock⟩).1.map SessionQuote.pricing =
        .ok (stay.pricing (pricedAt state.1.clock choices))
  refused : stay.Known state.1.backend none → ∀ payment, stay.payment state.1 = some payment →
    ∀ turn : ExitTurn, ∀ missing,
      (stay.exit state.1 turn).1 = .error (.domain (.OverstayPaymentInsufficient missing)) ↔
        missing = stay.price (leavesAt state.1.clock turn.choices) - payment.amount ∧
          1 / 100 < (stay.price (leavesAt state.1.clock turn.choices)).value - payment.amount.value
  sameHour : stay.Known state.1.backend none → ∀ turn : PaymentTurn,
    turn.userId = stay.session.userId → turn.Approved → ∀ leave : ExitTurn,
      HourlyPricingPolicy.billableHours stay.session.entryAt
          (leavesAt (stay.pay state turn).1.clock leave.choices) =
        HourlyPricingPolicy.billableHours stay.session.entryAt
          (pricedAt state.1.clock (turn.choices 0).remote) →
      ∀ missing, (stay.exit (stay.pay state turn).1 leave).1 ≠
        .error (.domain (.OverstayPaymentInsufficient missing))
  closed : ∀ turn session, (stay.exit state.1 turn).1 = .ok session → ∀ later : List Step,
    charges (stay.playAll ((stay.exit state.1 turn).2, state.2) later).2 = charges state.2

end SmartParking
