import SmartParking.Clearance
import SmartParking.Settlement.Theorems

namespace SmartParking

open Async

-- RegisterPayment returns the payment that is on record afterwards.
namespace Payments

variable {sessionId : Id} {db : Database} {now : ℤ} {log : Log}

def Returns (sessionId : Id) (outcome : Except Fault Payment × (World × Log)) : Prop :=
  ∃ payment, outcome.1 = .ok payment ∧
    PrismaPaymentRepository.findBySessionId outcome.2.1.db sessionId = some payment

theorem returns_publish {payment : Payment}
    (hfound : PrismaPaymentRepository.findBySessionId db sessionId = some payment)
    (choices : ℕ → Choice) :
    Returns sessionId ((RegisterPaymentUseCase.publish payment >>= fun _ => pure payment).run
      (logged serve) choices (⟨db, now⟩, log)) := by
  rw [run_publish]
  exact ⟨payment, rfl, hfound⟩

theorem returns_pay (quote : SessionQuote) (paidAt : ℤ) (method : PaymentMethodType)
    (choices : ℕ → Choice)
    (hnone : PrismaPaymentRepository.findBySessionId db quote.sessionId = none) :
    Returns quote.sessionId ((RegisterPaymentUseCase.pay quote paidAt method).run (logged serve)
      choices (⟨db, now⟩, log)) := by
  unfold RegisterPaymentUseCase.pay
  rw [run_ok rfl]
  obtain ⟨bigger, hb, hq⟩ := query_create db (choices 1)
    (now + (choices 0).elapsed + (choices 1).elapsed)
    (RegisterPaymentUseCase.paymentData quote (choices 0).charge paidAt) hnone
  rw [run_ok hq]
  exact returns_publish (find_insert hb) _

theorem returns_topUp {existing : Payment} (required : Soles) (currency : String) (paidAt : ℤ)
    (method : PaymentMethodType) (choices : ℕ → Choice)
    (hfound : PrismaPaymentRepository.findBySessionId db sessionId = some existing) :
    Returns sessionId ((RegisterPaymentUseCase.topUpIfInsufficient existing required currency
      sessionId paidAt method).run (logged serve) choices (⟨db, now⟩, log)) := by
  obtain ⟨hm, -⟩ := Table.lookupBy_eq_some.mp hfound
  unfold RegisterPaymentUseCase.topUpIfInsufficient
  split
  next => exact ⟨existing, rfl, hfound⟩
  next =>
    rw [run_ok rfl]
    split
    next => exact ⟨existing, rfl, hfound⟩
    next =>
      unfold payments.increaseAmount
      simp only [bind_assoc]
      rw [run_ok (query_findUniqueOrThrow hm _ _), run_ok (query_update hm _ _ _)]
      exact returns_publish (find_update _ hfound) _

theorem returns_playTurn {turn : Turn} {required : Soles} (h : turn.required = some required)
    (sessionId : Id) (state : World × Log) :
    Returns sessionId ((RegisterPaymentUseCase.execute {
      sessionId, userId := turn.userId, method := turn.method }).run (logged serve) turn.choices
        state) := by
  obtain ⟨⟨db, now⟩, log⟩ := state
  obtain ⟨quote, paidAt, later, rfl, -, -, hrun⟩ := run_execute sessionId db now log h
  rw [hrun]
  cases hfound : PrismaPaymentRepository.findBySessionId db quote.sessionId with
  | some existing => exact returns_topUp _ _ _ _ _ hfound
  | none => exact returns_pay quote _ _ _ hfound

end Payments

variable {stay : Stay} {state : Platform × Payments.Log} {turn : PaymentTurn} {platform : Platform}
  {db : Database} {now time : ℤ}

theorem exists_registered (h : stay.Known state.1.backend none)
    (howner : turn.userId = stay.session.userId) :
    ∃ payment, stay.registered state turn = .ok payment ∧
      stay.payment (stay.pay state turn).1 = some payment := by
  obtain ⟨quote, later, hrun, -, huser, -⟩ := run_pay_eq h turn
  have hrequired : (turn.answered quote).required = some quote.amount := by
    simp only [Payments.Turn.required, PaymentTurn.answered]
    exact if_pos (huser.trans howner.symm)
  obtain ⟨payment, hok, hfound⟩ := Payments.returns_playTurn hrequired stay.session.id
    (⟨state.1.payments, later⟩, state.2)
  refine ⟨payment, (congrArg Prod.fst hrun).trans hok, ?_⟩
  have hafter := congrArg Prod.snd hrun
  unfold Stay.payment Stay.pay
  rw [hafter]
  exact hfound

-- An exit with an approved payment that covers the price is not refused for it.

def NotRefused (result : Except Fault ParkingSession) : Prop :=
  result ≠ .error (.domain .PaymentNotApproved) ∧
    ∀ missing, result ≠ .error (.domain (.OverstayPaymentInsufficient missing))

theorem notRefused_ok (session : ParkingSession) : NotRefused (.ok session) :=
  ⟨nofun, nofun⟩

theorem notRefused_recordNotFound : NotRefused (.error recordNotFound) :=
  ⟨nofun, nofun⟩

theorem notRefused_finish (h : stay.Known db none) {choices : ℕ → Choice}
    (reservation : Reservation)
    (happroved : ((choices 1).payment stay.session.id).any Payment.isApproved = true) :
    NotRefused ((RegisterExitUseCase.finish stay.session.id time reservation).run serve choices
      ⟨db, now⟩).1 := by
  unfold RegisterExitUseCase.finish DefaultParkingPolicy.registerExit
  rw [bind_assoc, run_query (by rw [query, h.find])]
  dsimp only [Stay.row]
  rw [stay.filter_active]
  dsimp only
  rw [bind_assoc, run_query rfl, if_pos happroved]
  refine Program.run_of_wp (?_ : Program.wp serve _ _ fun result _ => NotRefused result) _
  refine wp_leave_bind h (fun _ _ _ _ => notRefused_recordNotFound) fun db' later _ _ => ?_
  exact wp_notifyAll_bind _ fun _ _ => notRefused_ok _

theorem notRefused_exit (h : stay.Known platform.backend none) {payment : Payments.Payment}
    (hp : stay.payment platform = some payment) (happroved : payment.isApproved = true)
    (leave : ExitTurn)
    (hle : stay.price (leavesAt platform.clock leave.choices) - payment.amount ≤
      Payments.Account.cent) : NotRefused (stay.exit platform leave).1 := by
  obtain ⟨reservation, hb, later, -, hrun⟩ := run_exit_open h leave.token
    platform.clock (leave.answered stay platform) rfl
  have hpayment : ∀ n, (leave.answered stay platform n).payment stay.session.id =
      some (PaymentsServiceGrpcAdapter.toDomain payment) := fun n => by
    rw [answered_payment, hp, Option.map_some]
  have hfilter : ((leave.answered stay platform 4).payment stay.session.id).filter
      Payment.isApproved = some (PaymentsServiceGrpcAdapter.toDomain payment) := by
    rw [hpayment]
    exact if_pos happroved
  have hcovered : ¬RegisterExitUseCase.OVERSTAY_TOLERANCE <
      (stay.price (leavesAt platform.clock (leave.answered stay platform)) -
        (PaymentsServiceGrpcAdapter.toDomain payment).amount).value :=
    not_lt.mpr ((Payments.Account.value_le_cent _).mpr hle)
  rw [exit_eq, hrun, run_checkPayment_some h hb hfilter, if_neg hcovered]
  refine notRefused_finish h reservation ?_
  rw [hpayment]
  exact happroved

-- The record after a payment tells whether it settles the session.

theorem account_pay (h : stay.Known state.1.backend none)
    (howner : turn.userId = stay.session.userId) (happroved : turn.Approved) :
    stay.account (stay.pay state turn) =
      (stay.account state).pay (stay.quoted state turn) true := by
  obtain ⟨-, -, haccount, -⟩ := pay_spec h turn
  rw [haccount, if_pos howner, decide_eq_true (happroved 3)]
  rfl

theorem cleared_iff {account : Payments.Account} {required : Soles} {payment : Payments.Payment}
    (hrecorded : account.recorded = some (payment.amount, payment.isApproved)) :
    account.Cleared required ↔
      payment.isApproved = true ∧ required - payment.amount ≤ Payments.Account.cent := by
  constructor
  · rintro ⟨amount, he, hle⟩
    obtain ⟨rfl, hstatus⟩ := Prod.ext_iff.mp (Option.some.inj (hrecorded.symm.trans he))
    exact ⟨hstatus, hle⟩
  · rintro ⟨hstatus, hle⟩
    exact ⟨payment.amount, by rw [hrecorded, hstatus], hle⟩

theorem settles_iff_cleared (h : stay.Known state.1.backend none)
    (howner : turn.userId = stay.session.userId) :
    stay.Settles state turn ↔
      (stay.account (stay.pay state turn)).Cleared (stay.quoted state turn) := by
  obtain ⟨payment, hok, hp⟩ := exists_registered h howner
  rw [cleared_iff (recorded_of_payment hp)]
  constructor
  · rintro ⟨⟨returned, hreturned, hstatus, hle⟩, -⟩
    obtain rfl := Except.ok.inj (hok.symm.trans hreturned)
    refine ⟨decide_eq_true hstatus, ?_⟩
    by_contra hmissing
    have hlt := (exceeds_iff _ _).mpr hmissing
    linarith
  · rintro ⟨hstatus, hle⟩
    refine ⟨⟨payment, hok, of_decide_eq_true hstatus, ?_⟩, fun leave hprice => ?_⟩
    · have hmissing := not_lt.mp fun hlt => (exceeds_iff _ _).mp hlt hle
      linarith
    · obtain ⟨hbackend, -⟩ := pay_spec h turn
      exact notRefused_exit (hbackend ▸ h) hp hstatus leave (by rw [hprice]; exact hle)

theorem payable_iff : stay.Payable state turn ↔ ∀ amount status,
    (stay.account state).recorded = some (amount, status) →
      status = true ∨ ¬stay.quoted state turn - amount ≤ Payments.Account.cent := by
  constructor
  · intro h amount status he
    obtain ⟨payment, hp, hrow⟩ := Option.map_eq_some_iff.mp he
    obtain ⟨rfl, rfl⟩ := Prod.ext_iff.mp hrow
    exact (h payment hp).imp decide_eq_true (exceeds_iff _ _).mp
  · intro h payment hp
    have hcases := h payment.amount payment.isApproved (recorded_of_payment hp)
    exact hcases.imp of_decide_eq_true (exceeds_iff _ _).mpr

-- With every charge approved, a payment settles an open session, but for an earlier
-- one that was turned down for no less.
theorem settles_iff (stay : Stay) (state : Platform × Payments.Log) (turn : PaymentTurn)
    (h : stay.Known state.1.backend none) (howner : turn.userId = stay.session.userId)
    (happroved : turn.Approved) : stay.Settles state turn ↔ stay.Payable state turn := by
  rw [settles_iff_cleared h howner, account_pay h howner happroved,
    Payments.Account.cleared_pay_iff, payable_iff]

def Demo.turnedDown : Platform :=
  { Demo.platform with payments := ⟨⟨[Demo.declined ⟨500⟩], by simp, by simp⟩⟩ }

theorem settles_first : Demo.parked.Settles (Demo.platform, []) (Demo.payment 1) :=
  (settles_iff Demo.parked (Demo.platform, []) (Demo.payment 1) ⟨rfl, rfl, rfl⟩ rfl
    fun _ => rfl).mpr nofun

-- The second attempt returns the payment of the first, and charges nothing.
theorem settles_fails : ¬∀ (stay : Stay) (state : Platform × Payments.Log) (turn : PaymentTurn),
    stay.Known state.1.backend none → turn.userId = stay.session.userId → turn.Approved →
      stay.Settles state turn := by
  intro h
  obtain ⟨payment, hok, hstatus, -⟩ := (h Demo.parked (Demo.turnedDown, []) (Demo.payment 1)
    ⟨rfl, rfl, rfl⟩ rfl fun _ => rfl).approved
  have hsame : (Demo.parked.registered (Demo.turnedDown, []) (Demo.payment 1)).toOption =
      some (Demo.declined ⟨500⟩) := by decide +kernel
  rw [hok] at hsame
  cases hsame
  cases hstatus

end SmartParking
