import SmartParking.ClosedPeriod
import SmartParking.Publication
import SmartParking.Revenue.Theorems

namespace SmartParking

open Async Grouping

namespace Payments

variable {sessionId : Id} {db : Database} {turn : Turn}

-- All that a request does to the payments.
inductive Effect (sessionId : Id) (world : World) (turn : Turn) (after : Database) : Prop where
  | kept (hnone : ∀ payment missing, ¬TopsUp sessionId world.db turn payment missing)
      (hafter : after = world.db)
  | created (row : Payment) (bigger : Table Payment.id Payment.sessionId)
      (hnone : ∀ payment missing, ¬TopsUp sessionId world.db turn payment missing)
      (hrow : world.clock ≤ row.createdAt) (hinsert : world.db.payments.insert row = some bigger)
      (hafter : after = ⟨bigger⟩)
  | toppedUp (payment : Payment) (missing : Soles) (data : UpdatePaymentData)
      (htops : TopsUp sessionId world.db turn payment missing)
      (hamount : data.amount = payment.amount + missing) (hstatus : data.status = .APPROVED)
      (hafter : after = ⟨world.db.payments.modify payment.id (PrismaPaymentRepository.withData data)⟩)

theorem effect_playTurn (sessionId : Id) (world : World) (log : Log) (turn : Turn) :
    Effect sessionId world turn (playTurn sessionId (world, log) turn).1.db := by
  cases played_playTurn sessionId (world, log) turn with
  | kept hnone hdb _ _ => exact .kept hnone hdb
  | registered row bigger hnone hinsert hdb hrow _ _ =>
      exact .created row bigger hnone (by dsimp only at hrow; omega) hinsert hdb
  | toppedUp payment missing data htops hamount hstatus hdb _ _ =>
      exact .toppedUp payment missing data htops hamount hstatus hdb

end Payments

section Report

variable {other : String → JsDate.Date} {db : Database} {branchId : Option Id}
  {fromDate : Option JsDate.Time} {toDate : JsDate.Time} {payments : Payments.Database}
  {branchIds : List Id}

-- A payment that is created after the window is not counted in it.
theorem total_insert {row : Payments.Payment}
    {bigger : Table Payments.Payment.id Payments.Payment.sessionId}
    (hb : payments.payments.insert row = some bigger) (hlate : toDate.ms < row.createdAt) :
    total Payments.Payment.amount (Payments.counted branchIds fromDate (some toDate)) bigger.rows =
      total Payments.Payment.amount (Payments.counted branchIds fromDate (some toDate))
        payments.payments.rows := by
  rw [Table.rows_insert hb, total_append, total_cons, total_nil, if_neg]
  · rw [add_zero, add_zero]
  · simp only [Payments.counted, Payments.within, Option.all_some, Bool.and_eq_true,
      decide_eq_true_eq]
    omega

theorem total_modify {payment : Payments.Payment} (hm : payment ∈ payments.payments)
    (data : Payments.UpdatePaymentData) (test : Payments.Payment → Bool) :
    total Payments.Payment.amount test (payments.payments.modify payment.id
        (Payments.PrismaPaymentRepository.withData data)).rows +
        (if test payment then payment.amount else 0) =
      total Payments.Payment.amount test payments.payments.rows +
        if test (Payments.PrismaPaymentRepository.withData data payment) then data.amount else 0 :=
  total_update payments.payments.keys_nodup hm

-- Whether a payment is counted after its top-up: its branch and its time stay the same.
theorem counted_withData {payment : Payments.Payment} {data : Payments.UpdatePaymentData}
    (hstatus : data.status = .APPROVED) :
    Payments.counted branchIds fromDate (some toDate)
        (Payments.PrismaPaymentRepository.withData data payment) =
      (decide (payment.branchId ∈ branchIds) &&
        Payments.within fromDate (some toDate) payment.createdAt) := by
  simp [Payments.counted, Payments.PrismaPaymentRepository.withData, Payments.Payment.isApproved,
    hstatus]

variable {sessionId : Id} {world : Payments.World} {turn : Payments.Turn}
  {after : Payments.Database} {branch : Branch}

theorem reportRow_unchanged (heffect : Payments.Effect sessionId world turn after)
    (hclosed : toDate.ms < world.clock)
    (hnone : ∀ payment missing, Payments.TopsUp sessionId world.db turn payment missing →
      payment.branchId = branch.id →
        Payments.within fromDate (some toDate) payment.createdAt = false) :
    reportRow after fromDate (some toDate) branch =
      reportRow world.db fromDate (some toDate) branch := by
  unfold reportRow
  congr 1
  cases heffect with
  | kept _ hafter => rw [hafter]
  | created row bigger _ hrow hinsert hafter =>
      rw [hafter]
      exact total_insert hinsert (hclosed.trans_le hrow)
  | toppedUp payment missing data htops hamount hstatus hafter =>
      have hmodify := total_modify htops.1 data
        (Payments.counted [branch.id] fromDate (some toDate))
      have hout : (decide (payment.branchId ∈ [branch.id]) &&
          Payments.within fromDate (some toDate) payment.createdAt) = false := by
        by_cases hb : payment.branchId = branch.id
        · rw [hnone payment missing htops hb, Bool.and_false]
        · simp [hb]
      have hbefore : Payments.counted [branch.id] fromDate (some toDate) payment = false := by
        unfold Payments.counted
        rw [Bool.and_left_comm, hout, Bool.and_false]
      rw [counted_withData hstatus, hout, hbefore] at hmodify
      rw [hafter]
      simpa using hmodify

theorem reportRow_raised (heffect : Payments.Effect sessionId world turn after)
    {payment : Payments.Payment} {missing : Soles}
    (htops : Payments.TopsUp sessionId world.db turn payment missing)
    (happroved : payment.isApproved = true)
    (hwithin : Payments.within fromDate (some toDate) payment.createdAt = true) :
    reportRow after fromDate (some toDate) branch =
      raised payment missing (reportRow world.db fromDate (some toDate) branch) := by
  cases heffect with
  | kept hnone _ => exact absurd htops (hnone payment missing)
  | created _ _ hnone _ _ _ => exact absurd htops (hnone payment missing)
  | toppedUp payment' missing' data htops' hamount hstatus hafter =>
      obtain ⟨rfl, rfl⟩ := Payments.TopsUp.unique htops' htops
      have hmodify := total_modify htops.1 data
        (Payments.counted [branch.id] fromDate (some toDate))
      have hbefore : Payments.counted [branch.id] fromDate (some toDate) payment' =
          decide (payment'.branchId ∈ [branch.id]) := by
        rw [Payments.counted, happroved, hwithin, Bool.and_true, Bool.and_true]
      rw [counted_withData hstatus, hwithin, Bool.and_true, hbefore, hamount] at hmodify
      unfold raised reportRow
      rw [hafter]
      by_cases hb : branch.id = payment'.branchId
      · rw [if_pos hb]
        simp only [hb, List.mem_singleton, decide_true, if_true] at hmodify ⊢
        congr 1
        have hswap := hmodify.trans (add_left_comm _ _ _)
        rw [add_comm] at hswap
        exact add_left_cancel hswap
      · rw [if_neg hb]
        simp only [List.mem_singleton, Ne.symm hb, decide_false, Bool.false_eq_true, if_false,
          add_zero] at hmodify
        exact congrArg (RevenueReportRow.mk branch) hmodify

end Report

-- After its end a window only changes when a payment of it is topped up. If the payment
-- was APPROVED, the row of its branch grows by what was collected.
theorem closed_period (other : String → JsDate.Date) (db : Database) (branchId : Option Id)
    (fromDate : Option JsDate.Time) (toDate : JsDate.Time) (world : Payments.World)
    (log : Payments.Log) (sessionId : Id) (turn : Payments.Turn)
    (hclosed : toDate.ms < world.clock) :
    ((∀ payment missing, Payments.TopsUp sessionId world.db turn payment missing →
        payment.branchId ∈ (GetRevenueReportUseCase.selected db branchId).map Branch.id →
          Payments.within fromDate (some toDate) payment.createdAt = false) →
      GetRevenueReportUseCase.execute other db
          (Payments.playTurn sessionId (world, log) turn).1.db
          ⟨branchId, dates fromDate, dates (some toDate)⟩ =
        GetRevenueReportUseCase.execute other db world.db
          ⟨branchId, dates fromDate, dates (some toDate)⟩) ∧
    ∀ payment missing, Payments.TopsUp sessionId world.db turn payment missing →
      payment.isApproved = true →
      Payments.within fromDate (some toDate) payment.createdAt = true →
      GetRevenueReportUseCase.execute other db
          (Payments.playTurn sessionId (world, log) turn).1.db
          ⟨branchId, dates fromDate, dates (some toDate)⟩ =
        (GetRevenueReportUseCase.execute other db world.db
          ⟨branchId, dates fromDate, dates (some toDate)⟩).map (List.map (raised payment missing)) := by
  have heffect := Payments.effect_playTurn sessionId world log turn
  simp only [execute_eq]
  constructor
  · intro hnone
    refine congrArg Except.ok (List.map_congr_left fun branch hbranch => ?_)
    exact reportRow_unchanged heffect hclosed fun payment missing htops hb =>
      hnone payment missing htops (hb ▸ List.mem_map_of_mem hbranch)
  · intro payment missing htops happroved hwithin
    rw [Except.map, List.map_map]
    exact congrArg Except.ok (List.map_congr_left fun branch _ =>
      reportRow_raised heffect htops happroved hwithin)

-- At the time 100, with the two payments on record.
def Payments.Demo.later : Payments.World := ⟨Payments.Demo.twoPayments, 100⟩

theorem topsUp_demo : Payments.TopsUp "x1" Payments.Demo.twoPayments
    (Payments.Demo.turn ⟨800⟩ .APPROVED) Payments.Demo.paid ⟨300⟩ :=
  ⟨.head _, rfl, ⟨800⟩, rfl, by decide +kernel, by decide +kernel, rfl⟩

theorem createdAt_of_topsUp {turn : Payments.Turn} {payment : Payments.Payment} {missing : Soles}
    (h : Payments.TopsUp "x1" Payments.Demo.twoPayments turn payment missing) :
    payment.createdAt = 10 := by
  obtain ⟨hm, hsession, -⟩ := h
  rcases List.mem_pair.mp hm with rfl | rfl
  · rfl
  · exact absurd hsession (by decide)

-- The user of the first payment pays 3.00 more. A window that begins later, with the
-- second payment alone, stays as it is.
theorem closed_period_toppedUp :
    let later := (Payments.playTurn "x1" (Payments.Demo.later, [])
      (Payments.Demo.turn ⟨800⟩ .APPROVED)).1.db
    let report db fromDate := GetRevenueReportUseCase.execute (fun _ => none) Demo.reserved db
      ⟨none, dates fromDate, dates (some ⟨50, by decide, by decide⟩)⟩
    let from15 : Option JsDate.Time := some ⟨15, by decide, by decide⟩
    report later from15 = report Payments.Demo.twoPayments from15 ∧
      report later none =
        (report Payments.Demo.twoPayments none).map (List.map (raised Payments.Demo.paid ⟨300⟩)) := by
  have hclosed (fromDate : Option JsDate.Time) := closed_period (fun _ => none) Demo.reserved none
    fromDate ⟨50, by decide, by decide⟩ Payments.Demo.later [] "x1"
    (Payments.Demo.turn ⟨800⟩ .APPROVED) (by decide)
  refine ⟨(hclosed _).1 fun payment missing htops _ => ?_, (hclosed none).2 _ _ topsUp_demo rfl rfl⟩
  rw [createdAt_of_topsUp htops]
  rfl

theorem closed_period_fails : ¬∀ (other : String → JsDate.Date) (db : Database)
    (branchId : Option Id) (fromDate : Option JsDate.Time) (toDate : JsDate.Time)
    (world : Payments.World) (log : Payments.Log) (sessionId : Id) (turn : Payments.Turn),
    toDate.ms < world.clock →
      GetRevenueReportUseCase.execute other db
          (Payments.playTurn sessionId (world, log) turn).1.db
          ⟨branchId, dates fromDate, dates (some toDate)⟩ =
        GetRevenueReportUseCase.execute other db world.db
          ⟨branchId, dates fromDate, dates (some toDate)⟩ := by
  intro h
  have hreport := h (fun _ => none) Demo.reserved none none ⟨50, by decide, by decide⟩
    Payments.Demo.later [] "x1" (Payments.Demo.turn ⟨800⟩ .APPROVED) (by decide)
  rw [execute_eq, execute_eq] at hreport
  have hrows := congrArg (List.map RevenueReportRow.totalRevenue) (Except.ok.inj hreport)
  exact absurd hrows (by decide +kernel)

end SmartParking
