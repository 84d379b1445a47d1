import SmartParking.ClosedPeriod
import SmartParking.Payments.Ledger.Theorems

namespace SmartParking.Payments

open Async

def publication (record : Record Call Answer Fault) : Option PaymentRegisteredAudit :=
  match record.call with
  | .publishPaymentRegistered event => some event
  | _ => none

-- The events that were published, the earliest first.
def published (log : Log) : List PaymentRegisteredAudit := (log.filterMap publication).reverse

variable {sessionId : Id} {db : Database} {now : ℤ} {log : Log} {turn : Turn}
  {record : Record Call Answer Fault}

theorem published_cons : published (record :: log) =
    published log ++ (publication record).toList := by
  unfold published
  cases h : publication record with
  | none => rw [List.filterMap_cons_none h, Option.toList_none, List.append_nil]
  | some event => rw [List.filterMap_cons_some h, List.reverse_cons, Option.toList_some]

-- The first payment of a session is a new row.
theorem run_pay (quote : SessionQuote) (paidAt : ℤ) (method : PaymentMethodType)
    (choices : ℕ → Choice)
    (hnone : PrismaPaymentRepository.findBySessionId db quote.sessionId = none) :
    ∃ row bigger later more, db.payments.insert row = some bigger ∧ now ≤ row.createdAt ∧
      row.createdAt ≤ later ∧ published more = published log ++ [row.audit] ∧
        ((RegisterPaymentUseCase.pay quote paidAt method).run (logged serve) choices
          (⟨db, now⟩, log)).2 = (⟨⟨bigger⟩, later⟩, more) := by
  obtain ⟨bigger, hb, hq⟩ := query_create db (choices 1)
    (now + (choices 0).elapsed + (choices 1).elapsed)
    (RegisterPaymentUseCase.paymentData quote (choices 0).charge paidAt) hnone
  unfold RegisterPaymentUseCase.pay
  rw [run_ok rfl, run_ok hq, run_publish]
  refine ⟨_, bigger, _, _, hb, ?_, ?_, ?_, rfl⟩
  · change now ≤ now + (choices 0).elapsed + (choices 1).elapsed
    omega
  · change now + (choices 0).elapsed + (choices 1).elapsed ≤
      now + (choices 0).elapsed + (choices 1).elapsed + (choices (1 + 1)).elapsed + _
    omega
  · simp [published_cons, publication]

-- The charge of a top-up is needed and approved.
def Raises (required : Soles) (existing : Payment) (choice : Choice) : Prop :=
  RegisterPaymentUseCase.TOLERANCE <
      (RegisterPaymentUseCase.missingAmount required existing).value ∧
    choice.charge.status = .APPROVED

section TopUp

variable {existing : Payment} {required : Soles} (choices : ℕ → Choice)

theorem run_topUp_kept (h : ¬Raises required existing (choices 0)) (currency : String) (paidAt : ℤ)
    (method : PaymentMethodType) :
    ∃ later more, now ≤ later ∧ published more = published log ∧
      ((RegisterPaymentUseCase.topUpIfInsufficient existing required currency sessionId paidAt
        method).run (logged serve) choices (⟨db, now⟩, log)).2 = (⟨db, later⟩, more) := by
  unfold RegisterPaymentUseCase.topUpIfInsufficient
  by_cases hle : (RegisterPaymentUseCase.missingAmount required existing).value ≤
      RegisterPaymentUseCase.TOLERANCE
  · rw [if_pos hle]
    exact ⟨now, log, le_refl _, rfl, rfl⟩
  · rw [if_neg hle, run_ok rfl, if_pos fun hc => h ⟨not_le.mp hle, hc⟩]
    exact ⟨now + (choices 0).elapsed, _, by omega, published_cons.trans (List.append_nil _), rfl⟩

theorem run_topUp_raised (hm : existing ∈ db.payments) (h : Raises required existing (choices 0))
    (currency : String) (paidAt : ℤ) (method : PaymentMethodType) :
    ∃ data later more, data.amount =
        existing.amount + RegisterPaymentUseCase.missingAmount required existing ∧
      data.status = .APPROVED ∧ now ≤ later ∧ published more =
        published log ++ [(PrismaPaymentRepository.withData data existing).audit] ∧
      ((RegisterPaymentUseCase.topUpIfInsufficient existing required currency sessionId paidAt
        method).run (logged serve) choices (⟨db, now⟩, log)).2 =
          (⟨⟨db.payments.modify existing.id (PrismaPaymentRepository.withData data)⟩, later⟩,
            more) := by
  unfold RegisterPaymentUseCase.topUpIfInsufficient payments.increaseAmount
  simp only [bind_assoc]
  rw [if_neg (not_le.mpr h.1), run_ok rfl, if_neg (not_not.mpr h.2),
    run_ok (query_findUniqueOrThrow hm _ _), run_ok (query_update hm _ _ _), run_publish]
  refine ⟨_, _, _, rfl, rfl, ?_, ?_, rfl⟩
  · omega
  · simp [published_cons, publication]

end TopUp

theorem TopsUp.unique {payment other : Payment} {missing otherMissing : Soles}
    (h : TopsUp sessionId db turn payment missing)
    (hother : TopsUp sessionId db turn other otherMissing) :
    payment = other ∧ missing = otherMissing := by
  obtain ⟨hm, hs, required, hr, rfl, -⟩ := h
  obtain ⟨hm', hs', required', hr', rfl, -⟩ := hother
  obtain rfl : payment = other := Table.eq_of_mark_eq hm hm' (hs.trans hs'.symm)
  obtain rfl : required = required' := Option.some.inj (hr.symm.trans hr')
  exact ⟨rfl, rfl⟩

-- All that a request does to the payments, and what it publishes.
inductive Played (sessionId : Id) (state : World × Log) (turn : Turn) (after : World × Log) :
    Prop where
  | kept (hnone : ∀ payment missing, ¬TopsUp sessionId state.1.db turn payment missing)
      (hdb : after.1.db = state.1.db) (hclock : state.1.clock ≤ after.1.clock)
      (hpublished : published after.2 = published state.2)
  | registered (row : Payment) (bigger : Table Payment.id Payment.sessionId)
      (hnone : ∀ payment missing, ¬TopsUp sessionId state.1.db turn payment missing)
      (hinsert : state.1.db.payments.insert row = some bigger) (hdb : after.1.db = ⟨bigger⟩)
      (hrow : state.1.clock + (turn.choices 0).elapsed ≤ row.createdAt)
      (hclock : row.createdAt ≤ after.1.clock)
      (hpublished : published after.2 = published state.2 ++ [row.audit])
  | toppedUp (payment : Payment) (missing : Soles) (data : UpdatePaymentData)
      (htops : TopsUp sessionId state.1.db turn payment missing)
      (hamount : data.amount = payment.amount + missing) (hstatus : data.status = .APPROVED)
      (hdb : after.1.db =
        ⟨state.1.db.payments.modify payment.id (PrismaPaymentRepository.withData data)⟩)
      (hclock : state.1.clock ≤ after.1.clock)
      (hpublished : published after.2 =
        published state.2 ++ [(PrismaPaymentRepository.withData data payment).audit])

theorem played_playTurn (sessionId : Id) (state : World × Log) (turn : Turn) :
    Played sessionId state turn (playTurn sessionId state turn) := by
  obtain ⟨⟨db, now⟩, log⟩ := state
  cases hrequired : turn.required with
  | none =>
      obtain ⟨later, answer, hlater, hplay⟩ := playTurn_none sessionId db now log hrequired
      rw [hplay]
      refine .kept (fun payment missing htops => ?_) rfl hlater
        (published_cons.trans (List.append_nil _))
      obtain ⟨-, -, required, hr, -⟩ := htops
      rw [hrequired] at hr
      cases hr
  | some required =>
      obtain ⟨quote, paidAt, later, rfl, rfl, hlater, hplay⟩ :=
        playTurn_some sessionId db now log hrequired
      rw [hplay]
      have hlog : ∀ answer found, published
          (⟨.findBySessionId quote.sessionId, found⟩ :: ⟨.clockNow, .ok paidAt⟩ ::
            ⟨.getQuote quote.sessionId, answer⟩ :: log) = published log := by
        intro answer found
        simp [published_cons, publication]
      cases hfound : PrismaPaymentRepository.findBySessionId db quote.sessionId with
      | none =>
          have hnone : ∀ payment missing, ¬TopsUp quote.sessionId db turn payment missing :=
            fun payment missing htops => Table.lookupBy_eq_none.mp hfound payment htops.1 htops.2.1
          obtain ⟨row, bigger, last, more, hb, hrow, hclock, hmore, hrun⟩ := run_pay quote paidAt
            turn.method (fun n => turn.choices (n + 3)) hfound
          dsimp only
          rw [hrun]
          exact .registered row bigger hnone hb rfl (hlater.trans hrow) hclock
            (hmore.trans (by rw [hlog]))
      | some existing =>
          obtain ⟨hm, hsession⟩ := Table.lookupBy_eq_some.mp hfound
          dsimp only
          have hnow : now ≤ later := by omega
          by_cases hraises : Raises quote.amount existing (turn.choices 3)
          · obtain ⟨data, last, more, hamount, hstatus, hclock, hmore, hrun⟩ := run_topUp_raised
              (fun n => turn.choices (n + 3)) hm hraises quote.currency paidAt turn.method
            rw [hrun]
            exact .toppedUp existing _ data ⟨hm, hsession, quote.amount, hrequired, rfl, hraises.1,
              decide_eq_true hraises.2⟩ hamount hstatus rfl (hnow.trans hclock)
              (hmore.trans (by rw [hlog]))
          · obtain ⟨last, more, hclock, hmore, hrun⟩ := run_topUp_kept
              (fun n => turn.choices (n + 3)) hraises quote.currency paidAt turn.method
            rw [hrun]
            refine .kept (fun payment missing htops => hraises ?_) rfl (hnow.trans hclock)
              (hmore.trans (hlog _ _))
            obtain ⟨hp, hs, required, hr, rfl, hmissing, happroved⟩ := htops
            obtain rfl : payment = existing := Table.eq_of_mark_eq hp hm (hs.trans hsession.symm)
            obtain rfl : quote.amount = required := Option.some.inj (hrequired.symm.trans hr)
            exact ⟨hmissing, of_decide_eq_true happroved⟩

end SmartParking.Payments
