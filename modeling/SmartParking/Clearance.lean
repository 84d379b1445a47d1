import SmartParking.Settlement

namespace SmartParking

open Async

namespace Stay

variable (stay : Stay) (state : Platform × Payments.Log) (turn : PaymentTurn)

-- What a payment returns to its user, and the price it was asked for.
def registered : Except Payments.Fault Payments.Payment :=
  ((Payments.RegisterPaymentUseCase.execute {
    sessionId := stay.session.id, userId := turn.userId, method := turn.method }).run
      (logged paymentsServe) turn.choices state).1

def quoted : Soles := stay.price (pricedAt state.1.clock (turn.choices 0).remote)

-- The payment settles the session, so that an exit at this price passes.
structure Settles : Prop where
  approved : ∃ payment, stay.registered state turn = .ok payment ∧ payment.status = .APPROVED ∧
    (stay.quoted state turn).value - 1 / 100 ≤ payment.amount.value
  passes : ∀ leave : ExitTurn,
    stay.price (leavesAt (stay.pay state turn).1.clock leave.choices) = stay.quoted state turn →
      (stay.exit (stay.pay state turn).1 leave).1 ≠ .error (.domain .PaymentNotApproved) ∧
        ∀ missing, (stay.exit (stay.pay state turn).1 leave).1 ≠
          .error (.domain (.OverstayPaymentInsufficient missing))

-- No earlier attempt was turned down, or it was for less.
def Payable : Prop :=
  ∀ payment, stay.payment state.1 = some payment → payment.status = .APPROVED ∨
    1 / 100 < (stay.quoted state turn).value - payment.amount.value

end Stay

-- A first attempt that was turned down.
def Demo.declined (amount : Soles) : Payments.Payment where
  id := "p1"
  sessionId := "x1"
  userId := "u1"
  branchId := "b1"
  amount
  status := .REJECTED
  externalReference := some "CARD-0"
  paidAt := none
  createdAt := 0

end SmartParking
