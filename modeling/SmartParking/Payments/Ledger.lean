import SmartParking.Async.Sequential
import SmartParking.Payments.Account
import SmartParking.Payments.RegisterPayment

namespace SmartParking.Payments

open Async

abbrev Log := List (Record Call Answer Fault)

-- What a charge collected for the session.
def approvedAmount (sessionId : Id) : (call : Call) → Except Fault (Answer call) → Soles
  | .charge input, .ok result =>
      if input.sessionId = sessionId ∧ result.status = .APPROVED then input.amount else 0
  | _, _ => 0

def collected (sessionId : Id) : Log → Soles
  | [] => 0
  | record :: rest => collected sessionId rest + approvedAmount sessionId record.call record.answer

def recorded (sessionId : Id) (db : Database) : Option (Soles × Bool) :=
  (PrismaPaymentRepository.findBySessionId db sessionId).map fun payment =>
    (payment.amount, payment.isApproved)

-- The account of a session, as the database and the calls show it.
def accountOf (sessionId : Id) (state : World × Log) : Account where
  recorded := recorded sessionId state.1.db
  collected := collected sessionId state.2

-- One request of a user for the session, with the answers it gets.
structure Turn where
  userId : Id
  method : PaymentMethodType
  choices : ℕ → Choice

def playTurn (sessionId : Id) (state : World × Log) (turn : Turn) : World × Log :=
  ((RegisterPaymentUseCase.execute {
    sessionId, userId := turn.userId, method := turn.method }).run (logged serve) turn.choices
      state).2

def playAll (sessionId : Id) (state : World × Log) (turns : List Turn) : World × Log :=
  turns.foldl (playTurn sessionId) state

-- An APPROVED payment has the amount that was collected.
def Sound (sessionId : Id) (state : World × Log) : Prop :=
  ∀ payment ∈ state.1.db.payments, payment.sessionId = sessionId → payment.status = .APPROVED →
    payment.amount = collected sessionId state.2

-- The amount of the quote that the request gets, if it is about its user.
def Turn.required (turn : Turn) : Option Soles :=
  match (turn.choices 0).quote with
  | .ok quote => if quote.userId = turn.userId then some quote.amount else none
  | .error _ => none

-- Its charge is the fourth call, after the quote, the clock and the lookup.
def Turn.approved (turn : Turn) : Bool := (turn.choices 3).charge.status = .APPROVED

-- The request raises a payment that is not APPROVED, though its amount is not
-- zero, and the charge for the difference is approved.
def RaisesRejected (sessionId : Id) (db : Database) (turn : Turn) : Prop :=
  ∃ payment ∈ db.payments, payment.sessionId = sessionId ∧ payment.status ≠ .APPROVED ∧
    payment.amount ≠ 0 ∧ ∃ required ∈ turn.required,
      RegisterPaymentUseCase.TOLERANCE <
        (RegisterPaymentUseCase.missingAmount required payment).value ∧ turn.approved = true

-- No request of a run does so.
def NeverRaises (sessionId : Id) (state : World × Log) : List Turn → Prop
  | [] => True
  | turn :: rest =>
      ¬RaisesRejected sessionId state.1.db turn ∧
        NeverRaises sessionId (playTurn sessionId state turn) rest

section Decidable

instance (sessionId : Id) (state : World × Log) : Decidable (Sound sessionId state) :=
  inferInstanceAs (Decidable (∀ payment ∈ state.1.db.payments, _ → _ → _))

instance (sessionId : Id) (db : Database) (turn : Turn) :
    Decidable (RaisesRejected sessionId db turn) :=
  inferInstanceAs (Decidable (∃ payment ∈ db.payments, _ ∧ _ ∧ _ ∧ ∃ required ∈ turn.required, _))

instance decideNeverRaises (sessionId : Id) (state : World × Log) :
    (turns : List Turn) → Decidable (NeverRaises sessionId state turns)
  | [] => isTrue trivial
  | turn :: rest =>
      have := decideNeverRaises sessionId (playTurn sessionId state turn) rest
      inferInstanceAs (Decidable (_ ∧ _))

end Decidable

def Demo.turn (amount : Soles) (status : ChargeStatus) : Turn where
  userId := "u1"
  method := .CARD
  choices _ := Demo.choice amount status

end SmartParking.Payments
