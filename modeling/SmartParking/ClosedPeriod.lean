import SmartParking.Payments.Ledger
import SmartParking.Revenue

namespace SmartParking

-- The request has a charge approved for what is missing to a payment that is stored.
def Payments.TopsUp (sessionId : Id) (db : Payments.Database) (turn : Payments.Turn)
    (payment : Payments.Payment) (missing : Soles) : Prop :=
  payment ∈ db.payments ∧ payment.sessionId = sessionId ∧ ∃ required ∈ turn.required,
    missing = Payments.RegisterPaymentUseCase.missingAmount required payment ∧
      Payments.RegisterPaymentUseCase.TOLERANCE < missing.value ∧ turn.approved = true

-- The rows of a report after a payment was topped up.
def raised (payment : Payments.Payment) (missing : Soles) (row : RevenueReportRow) :
    RevenueReportRow :=
  if row.branch.id = payment.branchId then
    { row with totalRevenue := row.totalRevenue + missing }
  else row

end SmartParking
