import SmartParking.Backend.Specs
import SmartParking.Payments.Ledger.Theorems
import SmartParking.Settlement

namespace SmartParking

open Async

variable {stay : Stay} {db : Database} {now time : ℤ} {exitAt : Option ℤ}

section Pricing

theorem billableHours_mono {entryAt before after : ℤ} (h : before ≤ after) :
    HourlyPricingPolicy.billableHours entryAt before ≤
      HourlyPricingPolicy.billableHours entryAt after := by
  have hduration : max (before - entryAt) 0 ≤ max (after - entryAt) 0 :=
    max_le_max (by omega) le_rfl
  have hhours : (0 : ℚ) ≤ HourlyPricingPolicy.MS_PER_HOUR := by
    norm_num [HourlyPricingPolicy.MS_PER_HOUR]
  refine max_le_max (Int.ceil_mono ?_) le_rfl
  exact div_le_div_of_nonneg_right (Int.cast_le.mpr hduration) hhours

theorem price_eq (stay : Stay) (time : ℤ) : stay.price time =
    ⟨HourlyPricingPolicy.billableHours stay.session.entryAt time *
      stay.branch.pricePerHour.units⟩ :=
  Decimal.toFixed_intCast_mul _ _

-- The price does not fall.
theorem price_mono (stay : Stay) {before after : ℤ} (h : before ≤ after) :
    stay.price before ≤ stay.price after := by
  rw [price_eq, price_eq]
  exact Int.mul_le_mul_of_nonneg_right (billableHours_mono h) (Int.le_of_lt stay.priced)

theorem price_of_sameHour (stay : Stay) {before after : ℤ}
    (h : HourlyPricingPolicy.billableHours stay.session.entryAt before =
      HourlyPricingPolicy.billableHours stay.session.entryAt after) :
    stay.price before = stay.price after := by
  rw [price_eq, price_eq, h]

end Pricing

-- The calls of backend, one after another.
section Backend

variable {α : Type} {choices : ℕ → Choice}

theorem Stay.Known.exists_reservation (h : stay.Known db exitAt) :
    ∃ reservation, PrismaReservationRepository.findById db stay.session.reservationId =
      some reservation ∧ reservation.branchId = stay.branch.id :=
  Option.map_eq_some_iff.mp h.reservation

theorem Stay.Known.isSome_reservation (h : stay.Known db exitAt) :
    (db.reservations.lookup stay.session.reservationId).isSome := by
  obtain ⟨reservation, hr, -⟩ := h.exists_reservation
  exact Option.isSome_of_eq_some hr

theorem Stay.Known.find (h : stay.Known db exitAt) :
    PrismaParkingSessionRepository.findById db stay.session.id = some (stay.row exitAt) :=
  h.session

theorem run_calculate (h : stay.Known db exitAt) {input : PricingInput}
    (hbranch : input.branchId = stay.branch.id) (hentry : input.entryAt = stay.session.entryAt)
    {f : PricingResult → Port α} :
    (HourlyPricingPolicy.calculate input >>= f).run serve choices ⟨db, now⟩ =
      (f (stay.pricing input.exitAt)).run serve (fun n => choices (n + 1))
        ⟨db, now + (choices 0).elapsed⟩ := by
  unfold HourlyPricingPolicy.calculate
  have hfound : PrismaBranchRepository.findById db input.branchId = some stay.branch := by
    rw [hbranch]
    exact h.branch
  rw [bind_assoc, run_query (by rw [query, hfound])]
  dsimp only
  rw [hentry]
  rfl

-- The price of an open session is that of the moment.
theorem run_priceOf_open (h : stay.Known db none) {reservation : Reservation}
    (hbranch : reservation.branchId = stay.branch.id) {f : PricingResult → Port α} :
    (priceOf stay.session reservation >>= f).run serve choices ⟨db, now⟩ =
      (f (stay.pricing (now + (choices 0).elapsed))).run serve (fun n => choices (n + 2))
        ⟨db, now + (choices 0).elapsed + (choices 1).elapsed⟩ := by
  unfold priceOf exitAtOrNow
  rw [stay.inside, bind_assoc, run_query rfl, run_calculate h hbranch rfl]

-- The price of a closed one is that of its exit.
theorem run_priceOf_closed (h : stay.Known db (some time)) {reservation : Reservation}
    (hbranch : reservation.branchId = stay.branch.id) {f : PricingResult → Port α} :
    (priceOf (stay.row (some time)) reservation >>= f).run serve choices ⟨db, now⟩ =
      (f (stay.pricing time)).run serve (fun n => choices (n + 1))
        ⟨db, now + (choices 0).elapsed⟩ := by
  unfold priceOf exitAtOrNow
  exact run_calculate h hbranch rfl

-- The quote of the session at a price.
def Stay.quote (stay : Stay) (active : Bool) (time : ℤ) : SessionQuote where
  sessionId := stay.session.id
  userId := stay.session.userId
  branchId := stay.branch.id
  active
  pricing := stay.pricing time

theorem run_quote_open (h : stay.Known db none) :
    (GetSessionQuoteUseCase.execute stay.session.id).run serve choices ⟨db, now⟩ =
      (.ok (stay.quote true (pricedAt now choices)),
        ⟨db, pricedAt now choices + (choices 3).elapsed⟩) := by
  obtain ⟨reservation, hr, hb⟩ := h.exists_reservation
  unfold GetSessionQuoteUseCase.execute
  rw [run_query (by rw [query, h.find])]
  dsimp only [Stay.row]
  rw [run_query (by rw [query, hr])]
  dsimp only
  rw [run_priceOf_open h hb, hb, ParkingSession.isActive, decide_eq_true stay.active]
  rfl

theorem run_quote_closed (h : stay.Known db (some time)) :
    (GetSessionQuoteUseCase.execute stay.session.id).run serve choices ⟨db, now⟩ =
      (.ok (stay.quote false time), ⟨db, pricedAt now choices⟩) := by
  obtain ⟨reservation, hr, hb⟩ := h.exists_reservation
  have hrow : PrismaReservationRepository.findById db (stay.row (some time)).reservationId =
      some reservation := hr
  unfold GetSessionQuoteUseCase.execute
  rw [run_query (by rw [query, h.find])]
  dsimp only
  rw [run_query (by rw [query, hrow])]
  dsimp only
  rw [run_priceOf_closed h hb, hb]
  rfl

theorem run_calculateAmount_open (h : stay.Known db none) :
    ((CalculateAmountUseCase.execute ⟨stay.session.id, stay.session.userId⟩).run serve choices
      ⟨db, now⟩).1 = .ok (stay.pricing (pricedAt now choices)) := by
  obtain ⟨reservation, hr, hb⟩ := h.exists_reservation
  unfold CalculateAmountUseCase.execute
  rw [run_query (by rw [query, h.find])]
  dsimp only [Stay.row]
  rw [Option.filter_some, if_pos (decide_eq_true rfl)]
  dsimp only
  rw [run_query (by rw [query, hr])]
  dsimp only
  rw [← bind_pure (priceOf _ _), run_priceOf_open h hb]
  rfl

end Backend

-- What a payment is asked for: the price of the exit, or of the moment.
def Stay.due (stay : Stay) (exitAt : Option ℤ) (now : ℤ) (choices : ℕ → Choice) : Soles :=
  stay.price (exitAt.getD (pricedAt now choices))

section Pay

theorem now_le_pricedAt (now : ℤ) (choices : ℕ → Choice) : now ≤ pricedAt now choices := by
  unfold pricedAt
  omega

theorem getQuote_eq (h : stay.Known db exitAt) (choices : ℕ → Choice) (now : ℤ) :
    ∃ quote later, ParkingGrpcAdapter.getQuote choices ⟨db, now⟩ stay.session.id =
        (.ok quote, ⟨db, later⟩) ∧ pricedAt now choices ≤ later ∧
      quote.userId = stay.session.userId ∧ quote.amount = stay.due exitAt now choices := by
  unfold ParkingGrpcAdapter.getQuote
  cases exitAt with
  | none =>
      rw [run_quote_open h]
      refine ⟨_, _, rfl, ?_, rfl, rfl⟩
      omega
  | some time =>
      rw [run_quote_closed h]
      exact ⟨_, _, rfl, le_rfl, rfl, rfl⟩

-- After the quote the request only calls its own service.
def Payments.Call.Own : Payments.Call → Prop
  | .getQuote _ => False
  | _ => True

theorem publish_own (payment result : Payments.Payment) :
    (Payments.RegisterPaymentUseCase.publish payment >>= fun _ => pure result).Uses
      Payments.Call.Own := by
  refine Program.uses_bind ?_ fun _ => trivial
  exact Program.uses_bind (Program.uses_perform trivial) fun _ => Program.uses_perform trivial

theorem topUp_own (existing : Payments.Payment) (required : Soles) (currency : String)
    (sessionId : Id) (paidAt : ℤ) (method : Payments.PaymentMethodType) :
    (Payments.RegisterPaymentUseCase.topUpIfInsufficient existing required currency sessionId paidAt
      method).Uses Payments.Call.Own := by
  unfold Payments.RegisterPaymentUseCase.topUpIfInsufficient
  split
  · trivial
  refine Program.uses_bind (Program.uses_perform trivial) fun charge => ?_
  split
  · trivial
  refine Program.uses_bind ?_ fun toppedUp => publish_own toppedUp toppedUp
  exact Program.uses_bind (Program.uses_perform trivial) fun _ => Program.uses_perform trivial

theorem exists_own (input : Payments.RegisterPaymentInput) :
    ∃ f, Payments.RegisterPaymentUseCase.execute input =
        Payments.billing.getQuote input.sessionId >>= f ∧
      ∀ quote, (f quote).Uses Payments.Call.Own := by
  refine ⟨_, rfl, fun quote => ?_⟩
  split
  · trivial
  refine Program.uses_bind (Program.uses_perform trivial) fun paidAt => ?_
  refine Program.uses_bind (Program.uses_perform trivial) fun existing => ?_
  cases existing with
  | some existing => exact topUp_own existing _ _ _ _ _
  | none =>
      refine Program.uses_bind (Program.uses_perform trivial) fun charge => ?_
      exact Program.uses_bind (Program.uses_perform trivial) fun payment =>
        publish_own payment payment

-- The request as payments-service sees it, with the quote it gets.
def PaymentTurn.answered (turn : PaymentTurn) (quote : Payments.SessionQuote) : Payments.Turn where
  userId := turn.userId
  method := turn.method
  choices n := { (turn.choices n).own with quote := .ok quote }

-- payments-service and its calls, beside a backend.
def beside (backend : Database) (state : Payments.World × Payments.Log) :
    Platform × Payments.Log :=
  (.ofPayments backend state.1, state.2)

theorem logged_paymentsServe (backend : Database) (quote : Payments.SessionQuote)
    (call : Payments.Call) (hown : call.Own) (choice : RemoteChoice)
    (state : Payments.World × Payments.Log) :
    logged paymentsServe choice (beside backend state) call =
      ((logged Payments.serve { choice.own with quote := .ok quote } state call).1,
        beside backend (logged Payments.serve { choice.own with quote := .ok quote } state call).2) := by
  obtain ⟨world, log⟩ := state
  cases call <;> first | rfl | exact hown.elim

-- The price is asked for first, and the rest of the request goes on beside backend.
theorem run_pay_eq {state : Platform × Payments.Log} (h : stay.Known state.1.backend exitAt)
    (turn : PaymentTurn) :
    ∃ quote later, (Payments.RegisterPaymentUseCase.execute {
          sessionId := stay.session.id, userId := turn.userId, method := turn.method }).run
            (logged paymentsServe) turn.choices state =
        ((Payments.RegisterPaymentUseCase.execute {
          sessionId := stay.session.id, userId := turn.userId, method := turn.method }).run
            (logged Payments.serve) (turn.answered quote).choices
              (⟨state.1.payments, later⟩, state.2)).map id (beside state.1.backend) ∧
      pricedAt state.1.clock (turn.choices 0).remote ≤ later ∧
      quote.userId = stay.session.userId ∧
      quote.amount = stay.due exitAt state.1.clock (turn.choices 0).remote := by
  obtain ⟨⟨backend, payments, now⟩, log⟩ := state
  obtain ⟨quote, later, hquote, hlater, hfacts⟩ := getQuote_eq h (turn.choices 0).remote now
  refine ⟨quote, later, ?_, hlater, hfacts⟩
  obtain ⟨f, hf, hown⟩ := exists_own ⟨stay.session.id, turn.userId, turn.method⟩
  let answer : Except Payments.Fault Payments.SessionQuote :=
    .ok { quote with sessionId := stay.session.id }
  let after : Payments.World × Payments.Log :=
    (⟨payments, later + (turn.choices 0).own.elapsed⟩, ⟨.getQuote stay.session.id, answer⟩ :: log)
  have hleft : logged paymentsServe (turn.choices 0) (⟨backend, payments, now⟩, log)
      (.getQuote stay.session.id) = (answer, beside backend after) := by
    simp only [logged, paymentsServe, hquote]
    rfl
  have hright : logged Payments.serve ((turn.answered quote).choices 0) (⟨payments, later⟩, log)
      (.getQuote stay.session.id) = (answer, after) := rfl
  rw [hf, Program.run_perform_ok hleft, Program.run_perform_ok hright]
  exact Program.run_embed (logged_paymentsServe backend quote) (hown _) _ after

theorem pay_eq {state : Platform × Payments.Log} (h : stay.Known state.1.backend exitAt)
    (turn : PaymentTurn) :
    ∃ quote later, stay.pay state turn = beside state.1.backend (Payments.playTurn stay.session.id
        (⟨state.1.payments, later⟩, state.2) (turn.answered quote)) ∧
      pricedAt state.1.clock (turn.choices 0).remote ≤ later ∧
      quote.userId = stay.session.userId ∧
      quote.amount = stay.due exitAt state.1.clock (turn.choices 0).remote := by
  obtain ⟨quote, later, hrun, hfacts⟩ := run_pay_eq h turn
  exact ⟨quote, later, congrArg Prod.snd hrun, hfacts⟩

theorem clock_le_playTurn (sessionId : Id) (state : Payments.World × Payments.Log)
    (turn : Payments.Turn) :
    state.1.clock ≤ (Payments.playTurn sessionId state turn).1.clock := by
  have hwp : (Payments.RegisterPaymentUseCase.execute ⟨sessionId, turn.userId, turn.method⟩).wp
      (logged Payments.serve) state fun _ state' => state.1.clock ≤ state'.1.clock := by
    apply Program.wp_of_uses _ _ _ (Program.uses_true _) state
    · exact fun _ => le_rfl
    · exact fun _ _ _ => le_trans
    · rintro call - choice ⟨⟨db, now⟩, log⟩
      change now ≤ now + (choice.elapsed : ℤ)
      omega
  exact Program.run_of_wp hwp turn.choices

-- What is covered is not charged again.
theorem charges_playTurn (sessionId : Id) (state : Payments.World × Payments.Log)
    (turn : Payments.Turn)
    (h : ∀ required ∈ turn.required, (Payments.accountOf sessionId state).Covers required) :
    charges (Payments.playTurn sessionId state turn).2 = charges state.2 := by
  obtain ⟨⟨db, now⟩, log⟩ := state
  cases hrequired : turn.required with
  | none =>
      obtain ⟨later, answer, -, hplay⟩ := Payments.playTurn_none sessionId db now log hrequired
      rw [hplay]
      rfl
  | some required =>
      obtain ⟨quote, paidAt, later, rfl, rfl, -, hplay⟩ :=
        Payments.playTurn_some sessionId db now log hrequired
      obtain ⟨amount, status, hrecorded, hle⟩ := h quote.amount hrequired
      obtain ⟨existing, hfound, hrow⟩ := Option.map_eq_some_iff.mp hrecorded
      obtain ⟨rfl, -⟩ := Prod.ext_iff.mp hrow
      have hpayment : Payments.PrismaPaymentRepository.findBySessionId db quote.sessionId =
          some existing := hfound
      rw [hplay, hpayment]
      dsimp only
      unfold Payments.RegisterPaymentUseCase.topUpIfInsufficient
      rw [if_pos ((Payments.missing_le_tolerance quote.amount existing).mpr hle)]
      rfl

def Stay.account (stay : Stay) (state : Platform × Payments.Log) : Payments.Account :=
  Payments.accountOf stay.session.id (⟨state.1.payments, state.1.clock⟩, state.2)

theorem pay_spec {state : Platform × Payments.Log} (h : stay.Known state.1.backend exitAt)
    (turn : PaymentTurn) :
    (stay.pay state turn).1.backend = state.1.backend ∧
      pricedAt state.1.clock (turn.choices 0).remote ≤ (stay.pay state turn).1.clock ∧
      stay.account (stay.pay state turn) =
        (if turn.userId = stay.session.userId then
          (stay.account state).pay (stay.due exitAt state.1.clock (turn.choices 0).remote)
            ((turn.choices 3).own.charge.status = .APPROVED)
        else stay.account state) ∧
      ((stay.account state).Covers (stay.due exitAt state.1.clock (turn.choices 0).remote) →
        charges (stay.pay state turn).2 = charges state.2) := by
  obtain ⟨quote, later, hpay, hlater, huser, hamount⟩ := pay_eq h turn
  have hrequired : (turn.answered quote).required =
      if turn.userId = stay.session.userId then
        some (stay.due exitAt state.1.clock (turn.choices 0).remote) else none := by
    rw [← hamount, ← huser]
    simp only [Payments.Turn.required, PaymentTurn.answered, eq_comm]
  rw [hpay]
  refine ⟨rfl, hlater.trans (clock_le_playTurn _ _ _), ?_, fun hcovers => ?_⟩
  · refine (Payments.account_playTurn stay.session.id (⟨state.1.payments, later⟩, state.2)
      (turn.answered quote)).trans ?_
    rw [hrequired]
    by_cases ho : turn.userId = stay.session.userId
    · rw [if_pos ho, if_pos ho]
      rfl
    · rw [if_neg ho, if_neg ho]
      rfl
  · refine charges_playTurn _ (⟨state.1.payments, later⟩, state.2) _ fun required hr => ?_
    rw [hrequired] at hr
    by_cases ho : turn.userId = stay.session.userId
    · rw [if_pos ho] at hr
      cases hr
      exact hcovers
    · rw [if_neg ho] at hr
      cases hr

end Pay

section Exit

variable {choices : ℕ → Choice}

theorem Stay.Known.slots (h : stay.Known db exitAt) (slotId : Id) (status : SlotStatus)
    (now : ℤ) :
    stay.Known (PrismaParkingSlotRepository.setStatus db slotId status now) exitAt :=
  ⟨h.session, h.reservation, h.branch⟩

theorem Stay.Known.reservations (h : stay.Known db exitAt) (id : Id)
    (status : ReservationStatus) (confirmedAt : Option ℤ) :
    stay.Known (PrismaReservationRepository.setStatus db id status confirmedAt) exitAt := by
  refine ⟨h.session, ?_, h.branch⟩
  rw [lookup_reservations_setStatus]
  by_cases hid : stay.session.reservationId = id
  · subst hid
    rw [if_pos rfl, Option.map_map]
    exact h.reservation
  · rw [if_neg hid]
    exact h.reservation

theorem Stay.Known.completed (h : stay.Known db none) (time : ℤ) :
    stay.Known (PrismaParkingSessionRepository.setCompleted db stay.session.id time)
      (some time) := by
  refine ⟨?_, h.reservation, h.branch⟩
  rw [lookup_sessions_setCompleted, if_pos rfl, h.session]
  rfl

-- How the second half of an exit can end: the session is closed, or an error
-- left everything as it was.
structure Left (stay : Stay) (now time : ℤ) (result : Except Fault ParkingSession)
    (world : World) : Prop where
  later : now ≤ world.clock
  paid : ∀ missing, result ≠ .error (.domain (.OverstayPaymentInsufficient missing))
  known : stay.Known world.db (some time) ∨
    stay.Known world.db none ∧ ∃ err, result = .error err

theorem Left.mono {later : ℤ} {result : Except Fault ParkingSession} {world : World}
    (h : Left stay later time result world) (hle : now ≤ later) :
    Left stay now time result world :=
  ⟨hle.trans h.later, h.paid, h.known⟩

theorem Stay.filter_active (stay : Stay) :
    (some stay.session).filter ParkingSession.isActive = some stay.session := by
  rw [Option.filter_some, ParkingSession.isActive, decide_eq_true stay.active, if_pos rfl]

-- After the session is closed.
theorem wp_leave_bind (h : stay.Known db none) {α : Type} {f : ExitResult → Port α}
    {post : Except Fault α → World → Prop}
    (herr : ∀ db' later, now ≤ later → stay.Known db' (some time) →
      post (.error recordNotFound) ⟨db', later⟩)
    (hf : ∀ db' later, now ≤ later → stay.Known db' (some time) →
      (f (.RELEASED (some (stay.row (some time))))).wp serve ⟨db', later⟩ post) :
    (DefaultParkingPolicy.leave stay.session time >>= f).wp serve ⟨db, now⟩ post := by
  have hsession : (db.sessions.lookup stay.session.id).isSome := by
    rw [h.session]
    rfl
  unfold DefaultParkingPolicy.leave DefaultParkingPolicy.releaseSlot
  rw [bind_assoc]
  refine wp_sessionsMarkCompleted_bind hsession fun t₁ h₁ => ?_
  rw [bind_assoc]
  have hclosed := h.completed time
  refine wp_ask_bind fun choice t₂ h₂ => ?_
  have hreleased := hclosed.slots stay.session.slotId .DISPONIBLE t₂
  rw [query_slotsUpdateStatus, updated]
  split
  · rw [Program.continued_ok, bind_assoc]
    refine wp_reservationsUpdateStatus_bind hreleased.isSome_reservation fun t₃ h₃ => ?_
    rw [bind_assoc]
    have hcompleted := hreleased.reservations stay.session.reservationId .COMPLETED none
    refine wp_read_bind (fun _ _ => by rw [query, hcompleted.find]) fun t₄ h₄ => ?_
    exact hf _ _ (by omega) hcompleted
  · exact herr _ _ (h₁.trans h₂) hreleased

theorem wp_finish (h : stay.Known db none) (time : ℤ) (reservation : Reservation) :
    (RegisterExitUseCase.finish stay.session.id time reservation).wp serve ⟨db, now⟩
      (Left stay now time) := by
  unfold RegisterExitUseCase.finish DefaultParkingPolicy.registerExit
  rw [bind_assoc]
  refine wp_read_bind (fun _ _ => by rw [query, h.find]) fun t₁ h₁ => ?_
  dsimp only [Stay.row]
  rw [stay.filter_active]
  dsimp only
  rw [bind_assoc]
  refine wp_ask_bind fun choice t₂ h₂ => ?_
  rw [query, Program.continued_ok]
  split
  · refine wp_leave_bind h ?_ ?_
    · exact fun db' t₃ h₃ hclosed =>
        ⟨by dsimp only; omega, (fun _ he => by cases he), .inl hclosed⟩
    · intro db' t₃ h₃ hclosed
      refine wp_notifyAll_bind _ fun t₄ h₄ => ?_
      exact ⟨by dsimp only; omega, (fun _ he => by cases he), .inl hclosed⟩
  · exact ⟨h₁.trans h₂, (fun _ he => by cases he), .inr ⟨h, _, rfl⟩⟩

theorem left_finish (h : stay.Known db none) (time : ℤ) (reservation : Reservation) (now : ℤ)
    (choices : ℕ → Choice) :
    Left stay now time
      ((RegisterExitUseCase.finish stay.session.id time reservation).run serve choices ⟨db, now⟩).1
      ((RegisterExitUseCase.finish stay.session.id time reservation).run serve choices ⟨db, now⟩).2 :=
  Program.run_of_wp (wp_finish h time reservation) choices

theorem run_checkPayment_none {reservation : Reservation}
    (hpayment : ((choices 0).payment stay.session.id).filter Payment.isApproved = none) :
    (RegisterExitUseCase.checkPayment stay.session.id stay.session time reservation).run serve
        choices ⟨db, now⟩ =
      (.error (.domain .PaymentNotApproved), ⟨db, now + (choices 0).elapsed⟩) := by
  unfold RegisterExitUseCase.checkPayment
  rw [run_query rfl, hpayment]
  rfl

theorem run_checkPayment_some (h : stay.Known db none) {reservation : Reservation}
    (hbranch : reservation.branchId = stay.branch.id) {payment : Payment}
    (hpayment : ((choices 0).payment stay.session.id).filter Payment.isApproved = some payment) :
    (RegisterExitUseCase.checkPayment stay.session.id stay.session time reservation).run serve
        choices ⟨db, now⟩ =
      if RegisterExitUseCase.OVERSTAY_TOLERANCE < (stay.price time - payment.amount).value then
        (.error (.domain (.OverstayPaymentInsufficient (stay.price time - payment.amount))),
          ⟨db, now + (choices 0).elapsed + (choices 1).elapsed⟩)
      else
        (RegisterExitUseCase.finish stay.session.id time reservation).run serve
          (fun n => choices (n + 2)) ⟨db, now + (choices 0).elapsed + (choices 1).elapsed⟩ := by
  unfold RegisterExitUseCase.checkPayment
  rw [run_query rfl, hpayment]
  dsimp only
  rw [run_calculate h hbranch rfl]
  have hmissing : RegisterExitUseCase.missingAmount (stay.pricing time) payment =
      stay.price time - payment.amount := Decimal.toFixed_sub _ _
  dsimp only
  rw [hmissing]
  split <;> rfl

theorem Stay.not_invalid (stay : Stay) (expiresAt : ℤ) :
    ¬((stay.exitCode expiresAt).type ≠ .EXIT ∨ stay.session.id = "") := by
  simp [Stay.exitCode, stay.named]

-- The scan of the exit code of an open session comes to the check of its payment.
theorem run_exit_open (h : stay.Known db none) (token : String) (now : ℤ) (choices : ℕ → Choice)
    {expiresAt : ℤ} (hqr : (choices 0).qr = .ok (stay.exitCode expiresAt)) :
    ∃ reservation : Reservation, reservation.branchId = stay.branch.id ∧
      ∃ later, leavesAt now choices ≤ later ∧
        (RegisterExitUseCase.execute token).run serve choices ⟨db, now⟩ =
          (RegisterExitUseCase.checkPayment stay.session.id stay.session (leavesAt now choices)
            reservation).run serve (fun n => choices (n + 4)) ⟨db, later⟩ := by
  obtain ⟨reservation, hr, hb⟩ := h.exists_reservation
  refine ⟨reservation, hb,
    leavesAt now choices + (choices 2).elapsed + (choices 3).elapsed, by omega, ?_⟩
  unfold RegisterExitUseCase.execute
  rw [run_query (by rw [query, hqr])]
  change Program.run serve (if (stay.exitCode expiresAt).type ≠ .EXIT ∨ stay.session.id = ""
    then _ else _) _ _ = _
  rw [if_neg (stay.not_invalid expiresAt), run_query rfl, run_query (by rw [query, h.find])]
  dsimp only [Stay.row]
  rw [stay.filter_active]
  dsimp only
  rw [run_query (by rw [query, hr])]
  rfl

-- A closed session is refused.
theorem run_exit_closed (h : stay.Known db (some time)) (token : String) (now : ℤ)
    (choices : ℕ → Choice) {expiresAt : ℤ} (hqr : (choices 0).qr = .ok (stay.exitCode expiresAt)) :
    ∃ later, now ≤ later ∧ (RegisterExitUseCase.execute token).run serve choices ⟨db, now⟩ =
      (.error (.domain .SessionNotActive), ⟨db, later⟩) := by
  refine ⟨now + (choices 0).elapsed + (choices 1).elapsed + (choices 2).elapsed, by omega, ?_⟩
  unfold RegisterExitUseCase.execute
  rw [run_query (by rw [query, hqr])]
  change Program.run serve (if (stay.exitCode expiresAt).type ≠ .EXIT ∨ stay.session.id = ""
    then _ else _) _ _ = _
  rw [if_neg (stay.not_invalid expiresAt), run_query rfl, run_query (by rw [query, h.find])]
  rfl

-- What the scan finds at the other service and on its code.
def ExitTurn.answered (turn : ExitTurn) (stay : Stay) (platform : Platform) : ℕ → Choice :=
  fun n => { turn.choices n with
    qr := .ok (stay.exitCode turn.expiresAt)
    payment := PaymentsServiceGrpcAdapter.findBySessionId platform.payments }

theorem answered_payment (turn : ExitTurn) (stay : Stay) (platform : Platform) (n : ℕ) :
    (turn.answered stay platform n).payment stay.session.id =
      (stay.payment platform).map PaymentsServiceGrpcAdapter.toDomain := rfl

theorem now_le_leavesAt (now : ℤ) (choices : ℕ → Choice) : now ≤ leavesAt now choices := by
  unfold leavesAt
  omega

theorem exit_eq (stay : Stay) (platform : Platform) (turn : ExitTurn) :
    stay.exit platform turn =
      (((RegisterExitUseCase.execute turn.token).run serve (turn.answered stay platform)
          ⟨platform.backend, platform.clock⟩).1,
        .ofBackend platform.payments ((RegisterExitUseCase.execute turn.token).run serve
          (turn.answered stay platform) ⟨platform.backend, platform.clock⟩).2) := by
  have hcall : ∀ call : Call, True → ∀ (choice : Choice) (world : World),
      backendServe choice (.ofBackend platform.payments world) call =
        ((serve { choice with
            payment := PaymentsServiceGrpcAdapter.findBySessionId platform.payments } world call).1,
          .ofBackend platform.payments (serve { choice with
            payment := PaymentsServiceGrpcAdapter.findBySessionId platform.payments } world
              call).2) :=
    fun _ _ _ _ => rfl
  exact Program.run_embed hcall (Program.uses_true _) _ ⟨platform.backend, platform.clock⟩

variable {platform : Platform} (turn : ExitTurn)

-- Without a payment the exit is refused.
theorem exit_unpaid (h : stay.Known platform.backend none) (hp : stay.payment platform = none) :
    ∃ later, platform.clock ≤ later ∧ stay.exit platform turn =
      (.error (.domain .PaymentNotApproved), .ofBackend platform.payments ⟨platform.backend, later⟩) := by
  obtain ⟨reservation, hb, later, hl, hrun⟩ := run_exit_open h turn.token
    platform.clock (turn.answered stay platform) rfl
  have hnow := now_le_leavesAt platform.clock (turn.answered stay platform)
  rw [exit_eq, hrun, run_checkPayment_none (by rw [answered_payment, hp]; rfl)]
  exact ⟨_, by omega, rfl⟩

-- With one, it is refused for what is missing by more than a cent, or goes on.
theorem exit_paid (h : stay.Known platform.backend none) {payment : Payments.Payment}
    (hp : stay.payment platform = some payment) (happroved : payment.isApproved = true) :
    (¬stay.price (leavesAt platform.clock turn.choices) - payment.amount ≤ Payments.Account.cent ∧
        ∃ later, platform.clock ≤ later ∧ stay.exit platform turn =
          (.error (.domain (.OverstayPaymentInsufficient
              (stay.price (leavesAt platform.clock turn.choices) - payment.amount))),
            .ofBackend platform.payments ⟨platform.backend, later⟩)) ∨
      stay.price (leavesAt platform.clock turn.choices) - payment.amount ≤ Payments.Account.cent ∧
        ∃ result world, Left stay platform.clock (leavesAt platform.clock turn.choices) result
            world ∧
          stay.exit platform turn = (result, .ofBackend platform.payments world) := by
  obtain ⟨reservation, hb, later, hl, hrun⟩ := run_exit_open h turn.token
    platform.clock (turn.answered stay platform) rfl
  have hnow := now_le_leavesAt platform.clock (turn.answered stay platform)
  have hpayment : ((turn.answered stay platform 4).payment stay.session.id).filter
      Payment.isApproved = some (PaymentsServiceGrpcAdapter.toDomain payment) := by
    rw [answered_payment, hp]
    exact if_pos happroved
  have htime : leavesAt platform.clock (turn.answered stay platform) =
      leavesAt platform.clock turn.choices := rfl
  have hamount : (PaymentsServiceGrpcAdapter.toDomain payment).amount = payment.amount := rfl
  have hexit := exit_eq stay platform turn
  rw [hrun, run_checkPayment_some h hb hpayment, htime, hamount] at hexit
  have hcent : RegisterExitUseCase.OVERSTAY_TOLERANCE < (stay.price
      (leavesAt platform.clock turn.choices) - payment.amount).value ↔ ¬stay.price
      (leavesAt platform.clock turn.choices) - payment.amount ≤ Payments.Account.cent := by
    rw [← Payments.Account.value_le_cent, not_le]
    rfl
  by_cases hle : stay.price (leavesAt platform.clock turn.choices) - payment.amount ≤
      Payments.Account.cent
  · refine .inr ⟨hle, ?_⟩
    rw [if_neg fun hlt => hcent.mp hlt hle] at hexit
    exact ⟨_, _, (left_finish h _ reservation _ _).mono (by omega), hexit⟩
  · refine .inl ⟨hle, ?_⟩
    rw [if_pos (hcent.mpr hle)] at hexit
    exact ⟨_, by omega, hexit⟩

end Exit

-- While the session is open nothing above its price is on record, and after its
-- exit the price of the exit is.
structure Stay.Open (stay : Stay) (state : Platform × Payments.Log) : Prop where
  known : stay.Known state.1.backend none
  below : (stay.account state).Below (stay.price state.1.clock)

structure Stay.Closed (stay : Stay) (state : Platform × Payments.Log) (exitAt : ℤ) : Prop where
  known : stay.Known state.1.backend (some exitAt)
  covers : (stay.account state).Covers (stay.price exitAt)

section Steps

variable {state : Platform × Payments.Log}

theorem Stay.Open.pay (h : stay.Open state) {turn : PaymentTurn} (happroved : turn.Approved) :
    stay.Open (stay.pay state turn) := by
  obtain ⟨hbackend, hclock, haccount, -⟩ := pay_spec h.known turn
  have hprice := price_mono stay (now_le_pricedAt state.1.clock (turn.choices 0).remote)
  have hbelow := h.below.mono hprice
  refine ⟨hbackend ▸ h.known, ?_⟩
  refine Payments.Account.Below.mono ?_ (price_mono stay hclock)
  rw [haccount, decide_eq_true (happroved 3)]
  split
  · exact hbelow.pay.1
  · exact hbelow

-- What the owner has paid, right after the payment.
theorem Stay.Open.pay_owner (h : stay.Open state) {turn : PaymentTurn}
    (howner : turn.userId = stay.session.userId) (happroved : turn.Approved) :
    (stay.account (stay.pay state turn)).Below
        (stay.price (pricedAt state.1.clock (turn.choices 0).remote)) ∧
      (stay.account (stay.pay state turn)).Covers
        (stay.price (pricedAt state.1.clock (turn.choices 0).remote)) := by
  obtain ⟨-, -, haccount, -⟩ := pay_spec h.known turn
  have hprice := price_mono stay (now_le_pricedAt state.1.clock (turn.choices 0).remote)
  rw [haccount, if_pos howner, decide_eq_true (happroved 3)]
  exact (h.below.mono hprice).pay

theorem Stay.Closed.pay {exitAt : ℤ} (h : stay.Closed state exitAt) (turn : PaymentTurn) :
    stay.Closed (stay.pay state turn) exitAt ∧
      charges (stay.pay state turn).2 = charges state.2 := by
  obtain ⟨hbackend, -, haccount, hcharges⟩ := pay_spec h.known turn
  have hcovers : (stay.account state).Covers
      (stay.due (some exitAt) state.1.clock (turn.choices 0).remote) := h.covers
  refine ⟨⟨hbackend ▸ h.known, ?_⟩, hcharges hcovers⟩
  rw [haccount, hcovers.pay, ite_self]
  exact h.covers

theorem recorded_of_payment {payment : Payments.Payment}
    (hp : stay.payment state.1 = some payment) :
    (stay.account state).recorded = some (payment.amount, payment.isApproved) := by
  have hfound : Payments.PrismaPaymentRepository.findBySessionId state.1.payments stay.session.id =
      some payment := hp
  rw [Stay.account, Payments.accountOf, Payments.recorded, hfound, Option.map_some]

-- What an exit from an open session does.
theorem Stay.Open.exit (h : stay.Open state) (turn : ExitTurn) :
    (∀ missing, (stay.exit state.1 turn).1 =
        .error (.domain (.OverstayPaymentInsufficient missing)) ↔
      ∃ payment, stay.payment state.1 = some payment ∧
        missing = stay.price (leavesAt state.1.clock turn.choices) - payment.amount ∧
        ¬stay.price (leavesAt state.1.clock turn.choices) - payment.amount ≤
          Payments.Account.cent) ∧
      (stay.Open ((stay.exit state.1 turn).2, state.2) ∧
          (∃ err, (stay.exit state.1 turn).1 = .error err) ∨
        stay.Closed ((stay.exit state.1 turn).2, state.2)
          (leavesAt state.1.clock turn.choices)) := by
  have hlater : ∀ later, state.1.clock ≤ later →
      stay.Open (.ofBackend state.1.payments ⟨state.1.backend, later⟩, state.2) := fun later hl =>
    ⟨h.known, h.below.mono (price_mono stay hl)⟩
  cases hp : stay.payment state.1 with
  | none =>
      obtain ⟨later, hl, hexit⟩ := exit_unpaid turn h.known hp
      rw [hexit]
      refine ⟨fun missing => ⟨(fun he => by cases he), ?_⟩, .inl ⟨hlater later hl, _, rfl⟩⟩
      rintro ⟨payment, hsome, -⟩
      cases hsome
  | some payment =>
      have hrecorded := recorded_of_payment hp
      obtain ⟨happroved, -⟩ := h.below _ _ hrecorded
      rcases exit_paid turn h.known hp happroved with
        ⟨hmissing, later, hl, hexit⟩ | ⟨hle, result, world, hleft, hexit⟩
      · rw [hexit]
        refine ⟨fun missing => ⟨fun he => ?_, ?_⟩, .inl ⟨hlater later hl, _, rfl⟩⟩
        · cases he
          exact ⟨payment, rfl, rfl, hmissing⟩
        · rintro ⟨payment, hsome, rfl, -⟩
          cases hsome
          rfl
      · rw [hexit]
        refine ⟨fun missing => iff_of_false (hleft.paid missing) ?_, ?_⟩
        · rintro ⟨payment, hsome, -, hmissing⟩
          cases hsome
          exact hmissing hle
        · rcases hleft.known with hclosed | ⟨hopen, herr⟩
          · exact .inr ⟨hclosed, payment.amount, _, hrecorded, hle⟩
          · exact .inl ⟨⟨hopen, h.below.mono (price_mono stay hleft.later)⟩, herr⟩

theorem Stay.Closed.exit {exitAt : ℤ} (h : stay.Closed state exitAt) (turn : ExitTurn) :
    stay.Closed ((stay.exit state.1 turn).2, state.2) exitAt := by
  obtain ⟨⟨backend, payments, now⟩, log⟩ := state
  rw [exit_eq]
  obtain ⟨later, -, hrun⟩ := run_exit_closed h.known turn.token now
    (turn.answered stay ⟨backend, payments, now⟩) rfl
  dsimp only
  rw [hrun]
  exact ⟨h.known, h.covers⟩

theorem Stay.Closed.playAll {exitAt : ℤ} (h : stay.Closed state exitAt) (steps : List Step) :
    charges (stay.playAll state steps).2 = charges state.2 := by
  induction steps generalizing state with
  | nil => rfl
  | cons step rest ih =>
      cases step with
      | pay turn =>
          obtain ⟨hclosed, hcharges⟩ := h.pay turn
          exact (ih hclosed).trans hcharges
      | exit turn => exact ih (h.exit turn)

-- The states of a stay.
def Stay.Steady (stay : Stay) (state : Platform × Payments.Log) : Prop :=
  stay.Open state ∨ ∃ exitAt, stay.Closed state exitAt

theorem Stay.Steady.play (h : stay.Steady state) {step : Step} (happroved : step.Approved) :
    stay.Steady (stay.play state step) := by
  rcases h with h | ⟨exitAt, h⟩
  · cases step with
    | pay turn => exact .inl (h.pay happroved)
    | exit turn => exact (h.exit turn).2.imp And.left fun hclosed => ⟨_, hclosed⟩
  · cases step with
    | pay turn => exact .inr ⟨exitAt, (h.pay turn).1⟩
    | exit turn => exact .inr ⟨exitAt, h.exit turn⟩

theorem Stay.Steady.playAll (h : stay.Steady state) {steps : List Step}
    (happroved : ∀ step ∈ steps, step.Approved) : stay.Steady (stay.playAll state steps) := by
  induction steps generalizing state with
  | nil => exact h
  | cons step rest ih =>
      have hstep := h.play (happroved step List.mem_cons_self)
      exact ih hstep fun other hm => happroved other (List.mem_cons_of_mem _ hm)

theorem Stay.Steady.isOpen (h : stay.Steady state) (hknown : stay.Known state.1.backend none) :
    stay.Open state := by
  rcases h with h | ⟨exitAt, h⟩
  · exact h
  · have hrow := Option.some.inj (h.known.session.symm.trans hknown.session)
    have hstatus : SessionStatus.COMPLETED = stay.session.status :=
      congrArg ParkingSession.status hrow
    rw [stay.active] at hstatus
    cases hstatus

theorem exists_payment {amount : Soles} {status : Bool}
    (h : (stay.account state).recorded = some (amount, status)) :
    ∃ payment, stay.payment state.1 = some payment ∧ payment.amount = amount := by
  obtain ⟨payment, hp, he⟩ := Option.map_eq_some_iff.mp h
  exact ⟨payment, hp, (Prod.ext_iff.mp he).1⟩

theorem exceeds_iff (required amount : Soles) :
    1 / 100 < required.value - amount.value ↔ ¬required - amount ≤ Payments.Account.cent := by
  rw [← Payments.Account.value_le_cent, Decimal.value_sub, not_le]

theorem Stay.Steady.reconciled (h : stay.Steady state) : Reconciled stay state where
  paid hknown turn howner happroved := by
    obtain ⟨hbelow, amount, status, hrecorded, hle⟩ :=
      (h.isOpen hknown).pay_owner howner happroved
    obtain ⟨payment, hp, rfl⟩ := exists_payment hrecorded
    refine ⟨payment, hp, (Decimal.value_le_value _ _).mpr (hbelow _ _ hrecorded).2, ?_⟩
    have hmissing := not_lt.mp fun hlt => (exceeds_iff _ _).mp hlt hle
    linarith
  calculated hknown _ := run_calculateAmount_open hknown
  quoted hknown _ := by
    rw [run_quote_open hknown]
    rfl
  refused hknown payment hp turn missing := by
    rw [((h.isOpen hknown).exit turn).1 missing, exceeds_iff, hp]
    constructor
    · rintro ⟨other, hsome, hrest⟩
      cases hsome
      exact hrest
    · exact fun hrest => ⟨payment, rfl, hrest⟩
  sameHour hknown turn howner happroved leave hhour missing he := by
    have hopen := h.isOpen hknown
    obtain ⟨-, amount, status, hrecorded, hle⟩ := hopen.pay_owner howner happroved
    obtain ⟨payment, hp, -, hmissing⟩ := (((hopen.pay happroved).exit leave).1 missing).mp he
    have hsame := Option.some.inj (hrecorded.symm.trans (recorded_of_payment hp))
    obtain ⟨rfl, -⟩ := Prod.ext_iff.mp hsame
    rw [price_of_sameHour stay hhour] at hmissing
    exact hmissing hle
  closed turn session hok later := by
    rcases h with h | ⟨exitAt, h⟩
    · rcases (h.exit turn).2 with ⟨-, err, herr⟩ | hclosed
      · rw [herr] at hok
        cases hok
      · exact hclosed.playAll later
    · exact (h.exit turn).playAll later

end Steps

-- Over every run of payments and exits of a session that starts without a
-- payment, with all charges approved, the two services agree.
theorem reconciled_playAll (stay : Stay) (platform : Platform)
    (hopen : stay.Known platform.backend none) (hnone : stay.payment platform = none)
    (steps : List Step) (happroved : ∀ step ∈ steps, step.Approved) :
    Reconciled stay (stay.playAll (platform, []) steps) := by
  have hbelow : (stay.account (platform, [])).Below (stay.price platform.clock) := by
    intro amount status hrecorded
    obtain ⟨payment, hp, -⟩ := exists_payment hrecorded
    rw [hnone] at hp
    cases hp
  have hsteady : stay.Steady (platform, []) := .inl ⟨hopen, hbelow⟩
  exact (hsteady.playAll happroved).reconciled

-- A car that has come in at the time 0, and has not paid yet.
def Demo.parked : Stay where
  session := {
    id := "x1"
    reservationId := "r1"
    userId := "u1"
    slotId := "s1"
    status := .ACTIVE
    entryAt := 0
    exitAt := none }
  branch := Demo.branch
  named := by decide
  active := rfl
  inside := rfl
  priced := by decide

def Demo.platform : Platform where
  backend := { Demo.reserved with sessions := ⟨[Demo.parked.session], by simp, by simp⟩ }
  payments := ⟨.empty⟩
  clock := 0

-- A payment with a time that each of its calls to backend takes, and a quick exit.
def Demo.payment (elapsed : ℕ) : PaymentTurn where
  userId := "u1"
  method := .CARD
  choices _ := {
    own := Payments.Demo.choice 0 .APPROVED
    remote := fun _ => { Demo.choice "x1" with elapsed } }

def Demo.leave : ExitTurn where
  token := "x1"
  expiresAt := 0
  choices _ := Demo.choice "x1"

-- A payment of the first hour, one of the second, and the exit.
def Demo.steps : List Step := [.pay (Demo.payment 1), .pay (Demo.payment 1200000), .exit Demo.leave]

theorem reconciled_demo : Reconciled Demo.parked (Demo.parked.playAll (Demo.platform, []) Demo.steps) :=
  reconciled_playAll Demo.parked Demo.platform ⟨rfl, rfl, rfl⟩ rfl Demo.steps (by
    intro step hm
    simp only [Demo.steps, List.mem_cons, List.not_mem_nil, or_false] at hm
    rcases hm with rfl | rfl | rfl
    · exact fun _ => rfl
    · exact fun _ => rfl
    · trivial)

example : (Demo.parked.payment (Demo.parked.playAll (Demo.platform, []) Demo.steps).1).map
    Payments.Payment.amount = some ⟨1000⟩ := by
  decide +kernel

end SmartParking
