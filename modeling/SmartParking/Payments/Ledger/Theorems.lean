import SmartParking.Payments.Ledger

namespace SmartParking.Payments

open Async

variable {sessionId : Id} {world : World} {log : Log} {db : Database} {now : ℤ}

section Calls

theorem logged_serve (choice : Choice) (call : Call) :
    logged serve choice (⟨db, now⟩, log) call =
      ((query choice (now + choice.elapsed) db call).1,
        ⟨(query choice (now + choice.elapsed) db call).2, now + choice.elapsed⟩,
        ⟨call, (query choice (now + choice.elapsed) db call).1⟩ :: log) := rfl

theorem missing_le_tolerance (required : Soles) (payment : Payment) :
    (RegisterPaymentUseCase.missingAmount required payment).value ≤
        RegisterPaymentUseCase.TOLERANCE ↔ required - payment.amount ≤ Account.cent := by
  rw [RegisterPaymentUseCase.missingAmount, Decimal.toFixed_sub]
  exact Account.value_le_cent _

theorem run_ok {α : Type} {call : Call} {f : Answer call → Port α} {choices : ℕ → Choice}
    {value : Answer call} {db' : Database}
    (hq : query (choices 0) (now + (choices 0).elapsed) db call = (.ok value, db')) :
    (ask call >>= f).run (logged serve) choices (⟨db, now⟩, log) =
      (f value).run (logged serve) (fun n => choices (n + 1))
        (⟨db', now + (choices 0).elapsed⟩, ⟨call, .ok value⟩ :: log) := by
  rw [Program.run_perform_bind, logged_serve, hq]

theorem run_error {α : Type} {call : Call} {f : Answer call → Port α} {choices : ℕ → Choice}
    {err : Fault} {db' : Database}
    (hq : query (choices 0) (now + (choices 0).elapsed) db call = (.error err, db')) :
    (ask call >>= f).run (logged serve) choices (⟨db, now⟩, log) =
      (.error err, ⟨db', now + (choices 0).elapsed⟩, ⟨call, .error err⟩ :: log) := by
  rw [Program.run_perform_bind, logged_serve, hq]

-- A new uuid and a new session violate no constraint of the payments.
theorem query_create (db : Database) (choice : Choice) (now : ℤ) (data : CreatePaymentData)
    (hnone : PrismaPaymentRepository.findBySessionId db data.sessionId = none) :
    ∃ bigger, db.payments.insert (PrismaPaymentRepository.newRow db choice.uuid now data) =
        some bigger ∧
      query choice now db (.create data) =
        (.ok (PrismaPaymentRepository.newRow db choice.uuid now data), { payments := bigger }) := by
  have hfresh : ∀ old ∈ db.payments,
      old.id ≠ (PrismaPaymentRepository.newRow db choice.uuid now data).id := by
    intro old hold he
    have hm : old.id ∈ db.payments.rows.map Payment.id := List.mem_map_of_mem hold
    rw [he] at hm
    exact newId_not_mem choice.uuid _ hm
  obtain ⟨bigger, hb⟩ := Table.insert_isSome hfresh (Table.lookupBy_eq_none.mp hnone)
  refine ⟨bigger, hb, ?_⟩
  simp [query, PrismaPaymentRepository.create, hb, committed]

theorem query_findUniqueOrThrow {payment : Payment} (hm : payment ∈ db.payments) (choice : Choice)
    (now : ℤ) : query choice now db (.findUniqueOrThrow payment.id) = (.ok payment, db) := by
  simp [query, PrismaPaymentRepository.findUniqueOrThrow, Table.lookup_key hm]

theorem query_update {payment : Payment} (hm : payment ∈ db.payments) (choice : Choice) (now : ℤ)
    (data : UpdatePaymentData) : query choice now db (.update payment.id data) =
      (.ok (PrismaPaymentRepository.withData data payment),
        { payments := db.payments.modify payment.id (PrismaPaymentRepository.withData data) }) := by
  simp [query, PrismaPaymentRepository.update, Table.lookup_key hm, committed]

-- What a lookup of the session finds after its payment was created or updated.
theorem find_insert {row : Payment} {bigger : Table Payment.id Payment.sessionId}
    (hb : db.payments.insert row = some bigger) :
    PrismaPaymentRepository.findBySessionId { payments := bigger } row.sessionId = some row :=
  (Table.lookupBy_insert hb).trans (if_pos rfl)

theorem find_update {existing : Payment} (data : UpdatePaymentData)
    (hfound : PrismaPaymentRepository.findBySessionId db sessionId = some existing) :
    PrismaPaymentRepository.findBySessionId
        ⟨db.payments.modify existing.id (PrismaPaymentRepository.withData data)⟩ sessionId =
      some (PrismaPaymentRepository.withData data existing) := by
  have hrow : db.payments.lookupBy sessionId = some existing := hfound
  rw [PrismaPaymentRepository.findBySessionId, Table.lookupBy_modify, hrow, Option.map_some,
    if_pos rfl]

-- The event of a payment, as it is published.
def Payment.audit (payment : Payment) : PaymentRegisteredAudit where
  paymentId := payment.id
  sessionId := payment.sessionId
  branchId := payment.branchId
  amount := payment.amount
  status := payment.status
  userId := payment.userId
  occurredAt := payment.createdAt

-- The end of a run that has stored the payment.
theorem run_publish (payment : Payment) (choices : ℕ → Choice) :
    (RegisterPaymentUseCase.publish payment >>= fun _ => pure payment).run (logged serve) choices
        (⟨db, now⟩, log) =
      (.ok payment, (⟨db, now + (choices 0).elapsed + (choices 1).elapsed⟩,
        ⟨.publishPaymentRegistered payment.audit, .ok ()⟩ ::
          ⟨.paymentRegistered payment.audit.toPaymentRegistered, .ok ()⟩ :: log)) := by
  unfold RegisterPaymentUseCase.publish
  simp only [bind_assoc]
  rw [run_ok rfl, run_ok rfl]
  rfl

end Calls

-- What the request does, in terms of the account of its session.
section Account

theorem recorded_insert {row : Payment} {bigger : Table Payment.id Payment.sessionId}
    (hb : db.payments.insert row = some bigger) :
    recorded row.sessionId { payments := bigger } = some (row.amount, row.isApproved) := by
  rw [recorded, find_insert hb, Option.map_some]

theorem recorded_update {existing : Payment} (data : UpdatePaymentData)
    (hfound : PrismaPaymentRepository.findBySessionId db sessionId = some existing) :
    recorded sessionId ⟨db.payments.modify existing.id (PrismaPaymentRepository.withData data)⟩ =
      some (data.amount, decide (data.status = .APPROVED)) := by
  rw [recorded, find_update data hfound, Option.map_some]
  rfl

theorem account_publish (payment : Payment) (choices : ℕ → Choice) :
    accountOf sessionId ((RegisterPaymentUseCase.publish payment >>= fun _ => pure payment).run
      (logged serve) choices (⟨db, now⟩, log)).2 = accountOf sessionId (⟨db, now⟩, log) := by
  rw [run_publish]
  change Account.mk _ (collected sessionId log + 0 + 0) = _
  rw [add_zero, add_zero]
  rfl

-- The amount of a charge that is approved or not.
theorem approvedAmount_charge (input : ChargeInput) (result : ChargeResult) :
    approvedAmount input.sessionId (.charge input) (.ok result) =
      if result.status = .APPROVED then input.amount else 0 := by
  simp only [approvedAmount, true_and]

theorem account_pay (quote : SessionQuote) (paidAt : ℤ) (method : PaymentMethodType)
    (choices : ℕ → Choice) (hsession : quote.sessionId = sessionId)
    (hnone : PrismaPaymentRepository.findBySessionId db sessionId = none) :
    accountOf sessionId ((RegisterPaymentUseCase.pay quote paidAt method).run (logged serve)
        choices (⟨db, now⟩, log)).2 =
      (accountOf sessionId (⟨db, now⟩, log)).pay quote.amount
        ((choices 0).charge.status = .APPROVED) := by
  subst hsession
  have hbefore : accountOf quote.sessionId (⟨db, now⟩, log) =
      ⟨none, collected quote.sessionId log⟩ := by
    rw [accountOf, recorded, hnone, Option.map_none]
  rw [hbefore, Account.pay_none]
  unfold RegisterPaymentUseCase.pay
  rw [run_ok rfl]
  obtain ⟨bigger, hb, hq⟩ := query_create db (choices 1)
    (now + (choices 0).elapsed + (choices 1).elapsed)
    (RegisterPaymentUseCase.paymentData quote (choices 0).charge paidAt) hnone
  have hrow := recorded_insert hb
  rw [run_ok hq, account_publish]
  apply Account.ext
  · refine hrow.trans (congrArg (fun approved => some (quote.amount, approved)) ?_)
    by_cases hc : (choices 0).charge.status = .APPROVED <;>
      simp [hc, Payment.isApproved, PrismaPaymentRepository.newRow,
        RegisterPaymentUseCase.paymentData]
  · change collected quote.sessionId log + approvedAmount quote.sessionId (.charge ⟨quote.sessionId,
      quote.amount, quote.currency, method⟩) (.ok (choices 0).charge) + 0 = _
    by_cases hc : (choices 0).charge.status = .APPROVED <;>
      simp [hc, approvedAmount]

theorem account_topUp {existing : Payment} (required : Soles) (currency : String) (paidAt : ℤ)
    (method : PaymentMethodType) (choices : ℕ → Choice)
    (hfound : PrismaPaymentRepository.findBySessionId db sessionId = some existing) :
    accountOf sessionId ((RegisterPaymentUseCase.topUpIfInsufficient existing required currency
        sessionId paidAt method).run (logged serve) choices (⟨db, now⟩, log)).2 =
      (accountOf sessionId (⟨db, now⟩, log)).pay required
        ((choices 0).charge.status = .APPROVED) := by
  have hrecorded : recorded sessionId db = some (existing.amount, existing.isApproved) := by
    rw [recorded, hfound, Option.map_some]
  have hbefore : accountOf sessionId (⟨db, now⟩, log) =
      ⟨some (existing.amount, existing.isApproved), collected sessionId log⟩ :=
    Account.ext hrecorded rfl
  obtain ⟨hm, hsession⟩ := Table.lookupBy_eq_some.mp hfound
  unfold RegisterPaymentUseCase.topUpIfInsufficient
  by_cases hle : required - existing.amount ≤ Account.cent
  · rw [if_pos ((missing_le_tolerance required existing).mpr hle), hbefore,
      Account.pay_covered hle]
    exact hbefore
  rw [if_neg fun h => hle ((missing_le_tolerance required existing).mp h), run_ok rfl, hbefore]
  by_cases hc : (choices 0).charge.status = .APPROVED
  · rw [if_neg (not_not.mpr hc)]
    unfold payments.increaseAmount
    simp only [bind_assoc]
    rw [run_ok (query_findUniqueOrThrow hm _ _), run_ok (query_update hm _ _ _), account_publish,
      decide_eq_true hc]
    have hmissing : RegisterPaymentUseCase.missingAmount required existing =
        required - existing.amount := Decimal.toFixed_sub _ _
    rw [Account.pay_missing hle, hmissing]
    apply Account.ext
    · refine (recorded_update _ hfound).trans ?_
      rw [decide_eq_true rfl, add_sub_cancel]
    · change collected sessionId log + approvedAmount sessionId (.charge ⟨sessionId,
        required - existing.amount, currency, method⟩) (.ok (choices 0).charge) + 0 + 0 = _
      simp [hc, approvedAmount]
  · rw [if_pos hc, decide_eq_false hc, Account.pay_declined]
    apply Account.ext
    · exact hrecorded
    · change collected sessionId log + approvedAmount sessionId (.charge ⟨sessionId,
        RegisterPaymentUseCase.missingAmount required existing, currency, method⟩)
        (.ok (choices 0).charge) = _
      simp [hc, approvedAmount]

-- A request without a quote for its user ends there.
theorem playTurn_none {turn : Turn} (sessionId : Id) (db : Database) (now : ℤ) (log : Log)
    (h : turn.required = none) :
    ∃ later answer, now ≤ later ∧ playTurn sessionId (⟨db, now⟩, log) turn =
      (⟨db, later⟩, ⟨.getQuote sessionId, answer⟩ :: log) := by
  unfold playTurn RegisterPaymentUseCase.execute
  unfold Turn.required at h
  cases hquote : (turn.choices 0).quote with
  | error err =>
      rw [run_error (by rw [query, hquote]; rfl)]
      exact ⟨now + (turn.choices 0).elapsed, _, by omega, rfl⟩
  | ok quote =>
      rw [hquote] at h
      have huser : quote.userId ≠ turn.userId := fun he => by simp [he] at h
      rw [run_ok (by rw [query, hquote]; rfl)]
      dsimp only
      rw [if_pos huser]
      exact ⟨now + (turn.choices 0).elapsed, _, by omega, rfl⟩

-- With one, it reads the clock, looks for the payment, and goes on from there.
theorem run_execute {turn : Turn} {required : Soles} (sessionId : Id) (db : Database) (now : ℤ)
    (log : Log) (h : turn.required = some required) :
    ∃ (quote : SessionQuote) (paidAt later : ℤ), quote.sessionId = sessionId ∧
      quote.amount = required ∧ now + (turn.choices 0).elapsed ≤ later ∧
      (RegisterPaymentUseCase.execute {
        sessionId, userId := turn.userId, method := turn.method }).run (logged serve) turn.choices
          (⟨db, now⟩, log) =
        (match PrismaPaymentRepository.findBySessionId db sessionId with
          | some existing => RegisterPaymentUseCase.topUpIfInsufficient existing quote.amount
              quote.currency quote.sessionId paidAt turn.method
          | none => RegisterPaymentUseCase.pay quote paidAt turn.method).run (logged serve)
            (fun n => turn.choices (n + 3)) (⟨db, later⟩,
              ⟨.findBySessionId sessionId,
                .ok (PrismaPaymentRepository.findBySessionId db sessionId)⟩ ::
              ⟨.clockNow, .ok paidAt⟩ :: ⟨.getQuote sessionId, .ok quote⟩ :: log) := by
  unfold RegisterPaymentUseCase.execute
  unfold Turn.required at h
  cases hquote : (turn.choices 0).quote with
  | error err =>
      rw [hquote] at h
      cases h
  | ok quote =>
      rw [hquote] at h
      obtain ⟨huser, hamount⟩ := Option.ite_none_right_eq_some.mp h
      rw [run_ok (by rw [query, hquote]; rfl)]
      dsimp only
      rw [if_neg (not_not.mpr huser), run_ok rfl, run_ok rfl]
      exact ⟨{ quote with sessionId }, _, _, rfl, Option.some.inj hamount, by omega, rfl⟩

theorem playTurn_some {turn : Turn} {required : Soles} (sessionId : Id) (db : Database) (now : ℤ)
    (log : Log) (h : turn.required = some required) :
    ∃ (quote : SessionQuote) (paidAt later : ℤ), quote.sessionId = sessionId ∧
      quote.amount = required ∧ now + (turn.choices 0).elapsed ≤ later ∧
      playTurn sessionId (⟨db, now⟩, log) turn =
        ((match PrismaPaymentRepository.findBySessionId db sessionId with
          | some existing => RegisterPaymentUseCase.topUpIfInsufficient existing quote.amount
              quote.currency quote.sessionId paidAt turn.method
          | none => RegisterPaymentUseCase.pay quote paidAt turn.method).run (logged serve)
            (fun n => turn.choices (n + 3)) (⟨db, later⟩,
              ⟨.findBySessionId sessionId,
                .ok (PrismaPaymentRepository.findBySessionId db sessionId)⟩ ::
              ⟨.clockNow, .ok paidAt⟩ :: ⟨.getQuote sessionId, .ok quote⟩ :: log)).2 := by
  obtain ⟨quote, paidAt, later, hid, hamount, hlater, hrun⟩ := run_execute sessionId db now log h
  exact ⟨quote, paidAt, later, hid, hamount, hlater, congrArg Prod.snd hrun⟩

-- A request pays into the account of its session, when it gets a quote for its
-- user, and leaves the account as it is otherwise.
theorem account_playTurn (sessionId : Id) (state : World × Log) (turn : Turn) :
    accountOf sessionId (playTurn sessionId state turn) =
      match turn.required with
      | some required => (accountOf sessionId state).pay required turn.approved
      | none => accountOf sessionId state := by
  obtain ⟨⟨db, now⟩, log⟩ := state
  cases hrequired : turn.required with
  | none =>
      obtain ⟨later, answer, -, hplay⟩ := playTurn_none sessionId db now log hrequired
      rw [hplay]
      exact Account.ext rfl (add_zero _)
  | some required =>
      obtain ⟨quote, paidAt, later, rfl, rfl, -, hplay⟩ := playTurn_some sessionId db now log hrequired
      rw [hplay]
      have hbefore : ∀ answer found, accountOf quote.sessionId (⟨db, later⟩,
          ⟨.findBySessionId quote.sessionId, found⟩ :: ⟨.clockNow, .ok paidAt⟩ ::
            ⟨.getQuote quote.sessionId, answer⟩ :: log) =
              accountOf quote.sessionId (⟨db, now⟩, log) := by
        intro answer found
        refine Account.ext rfl ?_
        change collected quote.sessionId log + 0 + 0 + 0 = collected quote.sessionId log
        rw [add_zero, add_zero, add_zero]
      cases hfound : PrismaPaymentRepository.findBySessionId db quote.sessionId with
      | none =>
          dsimp only
          rw [account_pay _ _ _ _ rfl hfound, hbefore]
          rfl
      | some existing =>
          dsimp only
          rw [account_topUp _ _ _ _ _ hfound, hbefore]
          rfl

end Account

-- The statements about the database and the calls, in terms of the account.
section Sound

variable {state : World × Log} {turn : Turn}

theorem sound_iff : Sound sessionId state ↔ (accountOf sessionId state).Honest := by
  constructor
  · intro h amount hr
    obtain ⟨payment, hp, he⟩ := Option.map_eq_some_iff.mp hr
    obtain ⟨hm, hs⟩ := Table.lookupBy_eq_some.mp hp
    obtain ⟨rfl, happroved⟩ := Prod.ext_iff.mp he
    exact h payment hm hs (of_decide_eq_true happroved)
  · intro h payment hm hs happroved
    have hp : PrismaPaymentRepository.findBySessionId state.1.db sessionId = some payment :=
      Table.lookupBy_eq_some.mpr ⟨hm, hs⟩
    refine h payment.amount ?_
    change (PrismaPaymentRepository.findBySessionId state.1.db sessionId).map _ = _
    rw [hp, Option.map_some, Payment.isApproved, decide_eq_true happroved]

theorem recorded_of_mem {payment : Payment} (hm : payment ∈ db.payments)
    (hs : payment.sessionId = sessionId) :
    recorded sessionId db = some (payment.amount, payment.isApproved) := by
  have hp : PrismaPaymentRepository.findBySessionId db sessionId = some payment :=
    Table.lookupBy_eq_some.mpr ⟨hm, hs⟩
  rw [recorded, hp, Option.map_some]

theorem raisesRejected_iff : RaisesRejected sessionId state.1.db turn ↔
    ∃ required ∈ turn.required,
      (accountOf sessionId state).TopsUpRejected required turn.approved := by
  constructor
  · rintro ⟨payment, hm, hs, hstatus, hamount, required, hrequired, hmissing, happroved⟩
    refine ⟨required, hrequired, payment.amount, ?_, hamount, fun hle => ?_, happroved⟩
    · refine (recorded_of_mem hm hs).trans ?_
      rw [Payment.isApproved, decide_eq_false hstatus]
    · exact absurd hmissing (not_lt.mpr ((missing_le_tolerance required payment).mpr hle))
  · rintro ⟨required, hrequired, amount, hr, hamount, hle, happroved⟩
    obtain ⟨payment, hp, he⟩ := Option.map_eq_some_iff.mp hr
    obtain ⟨hm, hs⟩ := Table.lookupBy_eq_some.mp hp
    obtain ⟨rfl, hstatus⟩ := Prod.ext_iff.mp he
    refine ⟨payment, hm, hs, of_decide_eq_false hstatus, hamount, required, hrequired, ?_, happroved⟩
    exact not_le.mp fun h => hle ((missing_le_tolerance required payment).mp h)

theorem balanced_start (hnone : ∀ payment ∈ world.db.payments, payment.sessionId ≠ sessionId) :
    (accountOf sessionId (world, [])).Balanced := by
  have hrecorded : recorded sessionId world.db = none := by
    rw [recorded, PrismaPaymentRepository.findBySessionId, Table.lookupBy_eq_none.mpr hnone,
      Option.map_none]
  rw [Account.Balanced]
  simp only [accountOf, hrecorded]
  rfl

theorem balanced_playTurn (h : (accountOf sessionId state).Balanced)
    (hn : ¬RaisesRejected sessionId state.1.db turn) :
    (accountOf sessionId (playTurn sessionId state turn)).Balanced := by
  rw [account_playTurn]
  cases hrequired : turn.required with
  | none => exact h
  | some required => exact h.pay fun ht => hn (raisesRejected_iff.mpr ⟨required, hrequired, ht⟩)

theorem not_sound_playTurn (h : (accountOf sessionId state).Balanced)
    (hr : RaisesRejected sessionId state.1.db turn) :
    ¬Sound sessionId (playTurn sessionId state turn) := by
  obtain ⟨required, hrequired, ht⟩ := raisesRejected_iff.mp hr
  rw [sound_iff, account_playTurn, hrequired]
  exact Account.not_honest_pay h ht

theorem sound_playAll_iff (h : (accountOf sessionId state).Balanced) (turns : List Turn) :
    (∀ past, past <+: turns → Sound sessionId (playAll sessionId state past)) ↔
      NeverRaises sessionId state turns := by
  induction turns generalizing state with
  | nil =>
      refine iff_of_true (fun past hp => ?_) trivial
      rw [List.prefix_nil.mp hp]
      exact sound_iff.mpr h.honest
  | cons turn rest ih =>
      constructor
      · intro hsound
        have hn : ¬RaisesRejected sessionId state.1.db turn := fun hr =>
          not_sound_playTurn h hr (hsound [turn] (List.prefix_append [turn] rest))
        refine ⟨hn, (ih (balanced_playTurn h hn)).mp fun past hp => ?_⟩
        exact hsound (turn :: past) (List.cons_prefix_cons.mpr ⟨rfl, hp⟩)
      · rintro ⟨hn, hrest⟩ past hp
        rcases List.prefix_cons_iff.mp hp with rfl | ⟨before, rfl, hb⟩
        · exact sound_iff.mpr h.honest
        · exact (ih (balanced_playTurn h hn)).mpr hrest before hb

end Sound

-- The payment of a session is sound in every state of a run exactly when no
-- request of the run raises a payment that is not APPROVED.
theorem ledger_sound_iff (world : World) (sessionId : Id)
    (hnone : ∀ payment ∈ world.db.payments, payment.sessionId ≠ sessionId) (turns : List Turn) :
    (∀ past, past <+: turns → Sound sessionId (playAll sessionId (world, []) past)) ↔
      NeverRaises sessionId (world, []) turns :=
  sound_playAll_iff (balanced_start hnone) turns

-- An approved payment of 5.00, topped up to 8.00.
theorem ledger_sound_topUp : Sound "x1" (playAll "x1" (Demo.world, [])
    [Demo.turn ⟨500⟩ .APPROVED, Demo.turn ⟨800⟩ .APPROVED]) :=
  (ledger_sound_iff Demo.world "x1" (by decide) _).mpr (by decide) _ (List.prefix_refl _)

-- A rejected charge of 5.00 is on record, and a later request collects 3.00 of
-- a quote of 8.00: the payment is APPROVED with 8.00.
theorem ledger_sound_fails : ¬∀ (world : World) (sessionId : Id) (turns : List Turn),
    (∀ payment ∈ world.db.payments, payment.sessionId ≠ sessionId) →
    Sound sessionId (playAll sessionId (world, []) turns) := by
  intro h
  have hsound := h Demo.world "x1" [Demo.turn ⟨500⟩ .REJECTED, Demo.turn ⟨800⟩ .APPROVED] (by decide)
  revert hsound
  decide +kernel

end SmartParking.Payments
