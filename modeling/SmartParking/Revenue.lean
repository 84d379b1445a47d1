import SmartParking.Grouping
import SmartParking.JsDate
import SmartParking.Payments.Domain

namespace SmartParking

-- A date is invalid when it has no time.
abbrev JsDate.Date := Option JsDate.Time

-- `text ? new Date(text) : undefined`
def JsDate.read (other : String → JsDate.Date) (text : String) : Option JsDate.Date :=
  if text = "" then none else some (JsDate.parse other text)

structure BranchRevenue where
  branchId : Id
  total : Soles
  deriving DecidableEq

-- The messages of proto/payments.proto. A field that is absent is empty.
structure SumApprovedByBranchRequest where
  branchIds : List Id
  fromDate : String
  toDate : String
  deriving DecidableEq

structure SumApprovedByBranchReply where
  rows : List BranchRevenue
  deriving DecidableEq

namespace Payments

-- Both ends belong to the window.
def within (fromDate toDate : Option JsDate.Time) (createdAt : ℤ) : Bool :=
  fromDate.all (·.ms ≤ createdAt) && toDate.all (createdAt ≤ ·.ms)

-- The client of the database refuses an invalid date.
def validDate : Option JsDate.Date → Except Fault (Option JsDate.Time)
  | none => .ok none
  | some (some time) => .ok (some time)
  | some none => .error (.infrastructure "Provided Date object is invalid. Expected Date.")

def counted (branchIds : List Id) (fromDate toDate : Option JsDate.Time) (payment : Payment) :
    Bool :=
  decide (payment.branchId ∈ branchIds) &&
    (payment.isApproved && within fromDate toDate payment.createdAt)

def PrismaPaymentRepository.sumApprovedByBranch (db : Database) (branchIds : List Id)
    (fromDate toDate : Option JsDate.Date) : Except Fault (List BranchRevenue) := do
  let fromTime ← validDate fromDate
  let toTime ← validDate toDate
  let totals := Grouping.groups Payment.branchId Payment.amount
    (counted branchIds fromTime toTime) db.payments.rows
  return branchIds.map fun branchId =>
    { branchId, total := (Grouping.get totals branchId).getD 0 }

structure SumApprovedByBranchInput where
  branchIds : List Id
  fromDate : Option JsDate.Date
  toDate : Option JsDate.Date

def SumApprovedByBranchUseCase.execute (db : Database) (input : SumApprovedByBranchInput) :
    Except Fault (List BranchRevenue) :=
  PrismaPaymentRepository.sumApprovedByBranch db input.branchIds input.fromDate input.toDate

def PaymentsGrpcController.sumByBranch (other : String → JsDate.Date) (db : Database)
    (data : SumApprovedByBranchRequest) : Except Fault SumApprovedByBranchReply := do
  let rows ← SumApprovedByBranchUseCase.execute db {
    branchIds := data.branchIds
    fromDate := JsDate.read other data.fromDate
    toDate := JsDate.read other data.toDate }
  return { rows }

end Payments

namespace PaymentsServiceGrpcAdapter

-- `date?.toISOString() ?? ''`, which throws for an invalid date.
def dateText : Option JsDate.Date → Except Unit String
  | none => .ok ""
  | some (some time) => .ok (JsDate.toISOString time)
  | some none => .error ()

-- Whatever goes wrong in the call, payments-service counts as unavailable.
def sumApprovedByBranch (other : String → JsDate.Date) (paymentsDb : Payments.Database)
    (branchIds : List Id) (fromDate toDate : Option JsDate.Date) :
    Except Fault (List BranchRevenue) :=
  match dateText fromDate, dateText toDate with
  | .ok fromDate, .ok toDate =>
      match Payments.PaymentsGrpcController.sumByBranch other paymentsDb
          { branchIds, fromDate, toDate } with
      | .ok reply => .ok reply.rows
      | .error _ => .error (.domain .PaymentServiceUnavailable)
  | _, _ => .error (.domain .PaymentServiceUnavailable)

end PaymentsServiceGrpcAdapter

namespace PrismaBranchRepository

def findAll (db : Database) : List Branch := db.branches.rows.insertionSort byName

def findByIds (db : Database) (ids : List Id) : List Branch :=
  db.branches.rows.filter fun branch => branch.id ∈ ids

end PrismaBranchRepository

structure RevenueReportInput where
  branchId : Option Id
  fromDate : Option JsDate.Date
  toDate : Option JsDate.Date

structure RevenueReportRow where
  branch : Branch
  totalRevenue : Soles
  deriving DecidableEq

namespace GetRevenueReportUseCase

-- `input.branchId ? findByIds([input.branchId]) : findAll()`
def selected (db : Database) (branchId : Option Id) : List Branch :=
  match branchId with
  | some branchId =>
      if branchId = "" then PrismaBranchRepository.findAll db
      else PrismaBranchRepository.findByIds db [branchId]
  | none => PrismaBranchRepository.findAll db

def execute (other : String → JsDate.Date) (db : Database) (paymentsDb : Payments.Database)
    (input : RevenueReportInput) : Except Fault (List RevenueReportRow) := do
  let branches := selected db input.branchId
  if branches = [] then return []
  else
    let revenue ← PaymentsServiceGrpcAdapter.sumApprovedByBranch other paymentsDb
      (branches.map Branch.id) input.fromDate input.toDate
    let totals := revenue.map fun row => (row.branchId, row.total)
    return branches.map fun branch =>
      { branch, totalRevenue := (Grouping.get totals branch.id).getD 0 }

end GetRevenueReportUseCase

-- `@Get('reports/revenue')`
def AdminController.revenueReport (other : String → JsDate.Date) (db : Database)
    (paymentsDb : Payments.Database) (branchId fromDate toDate : Option String) :
    Except Fault (List RevenueReportRow) :=
  GetRevenueReportUseCase.execute other db paymentsDb {
    branchId
    fromDate := fromDate.bind (JsDate.read other)
    toDate := toDate.bind (JsDate.read other) }

-- The dates of a window, as the use cases have them.
def dates (date : Option JsDate.Time) : Option JsDate.Date := date.map some

-- The row of a branch in the report of a window.
def reportRow (paymentsDb : Payments.Database) (fromDate toDate : Option JsDate.Time)
    (branch : Branch) : RevenueReportRow where
  branch
  totalRevenue := Grouping.total Payments.Payment.amount
    (Payments.counted [branch.id] fromDate toDate) paymentsDb.payments.rows

-- What a report is, in terms of the two tables.
structure Exact (db : Database) (paymentsDb : Payments.Database) (branchId : Option Id)
    (fromDate toDate : Option JsDate.Time) (rows : List RevenueReportRow) : Prop where
  branches : rows.map RevenueReportRow.branch = GetRevenueReportUseCase.selected db branchId
  once : (rows.map fun row => row.branch.id).Nodup
  selected : ∀ branch, branch ∈ rows.map RevenueReportRow.branch ↔
    branch ∈ db.branches ∧ ∀ id ∈ branchId, id ≠ "" → branch.id = id
  total : ∀ row ∈ rows, row.totalRevenue = Grouping.total Payments.Payment.amount
    (Payments.counted [row.branch.id] fromDate toDate) paymentsDb.payments.rows
  whole : (rows.map RevenueReportRow.totalRevenue).sum = Grouping.total Payments.Payment.amount
    (Payments.counted (rows.map fun row => row.branch.id) fromDate toDate) paymentsDb.payments.rows

-- The rows of two reports of the same branches, added up.
def addRow (early late : RevenueReportRow) : RevenueReportRow :=
  { early with totalRevenue := early.totalRevenue + late.totalRevenue }

-- Two payments of the branch b1, at the times 10 and 20.
namespace Payments.Demo

def paid : Payment where
  id := "p1"
  sessionId := "x1"
  userId := "u1"
  branchId := "b1"
  amount := ⟨500⟩
  status := .APPROVED
  externalReference := some "CARD-1"
  paidAt := some 10
  createdAt := 10

def twoPayments : Database where
  payments := ⟨[paid, { paid with id := "p2", sessionId := "x2", createdAt := 20 }],
    by simp [paid], by simp [paid]⟩

end Payments.Demo

end SmartParking
