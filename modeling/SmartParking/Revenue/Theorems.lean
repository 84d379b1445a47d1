import SmartParking.Backend.Operations
import SmartParking.Revenue

namespace SmartParking

open Grouping

variable {other : String → JsDate.Date} {db : Database} {paymentsDb : Payments.Database}
  {branchIds : List Id} {branchId : Option Id} {fromDate toDate : Option JsDate.Time}

section Transport

theorem toISOString_ne_empty (time : JsDate.Time) : JsDate.toISOString time ≠ "" := by
  intro h
  have hlist := congrArg String.toList h
  rw [JsDate.toISOString, String.toList_ofList] at hlist
  simp [JsDate.Fields.text] at hlist

-- A date arrives at payments-service as it was sent.
theorem read_dateText (other : String → JsDate.Date) (date : Option JsDate.Time) :
    ∃ text, PaymentsServiceGrpcAdapter.dateText (dates date) = .ok text ∧
      JsDate.read other text = dates date := by
  cases date with
  | none => exact ⟨"", rfl, rfl⟩
  | some time =>
      refine ⟨JsDate.toISOString time, rfl, ?_⟩
      rw [JsDate.read, if_neg (toISOString_ne_empty time), JsDate.parse_toISOString]
      rfl

theorem validDate_dates (date : Option JsDate.Time) : Payments.validDate (dates date) = .ok date := by
  cases date <;> rfl

end Transport

-- The sum of one branch is the same, whatever other branches are asked for.
theorem total_counted {k : Id} (hk : k ∈ branchIds) :
    total Payments.Payment.amount (fun payment => decide (payment.branchId = k) &&
        Payments.counted branchIds fromDate toDate payment) paymentsDb.payments.rows =
      total Payments.Payment.amount (Payments.counted [k] fromDate toDate) paymentsDb.payments.rows := by
  refine total_congr fun payment _ => ?_
  unfold Payments.counted
  by_cases h : payment.branchId = k <;> simp [h, hk]

-- What the repository returns: the default of the map stands for the missing groups.
theorem repository_sumApprovedByBranch :
    Payments.PrismaPaymentRepository.sumApprovedByBranch paymentsDb branchIds (dates fromDate)
        (dates toDate) =
      .ok (branchIds.map fun k => ⟨k, total Payments.Payment.amount
        (Payments.counted [k] fromDate toDate) paymentsDb.payments.rows⟩) := by
  unfold Payments.PrismaPaymentRepository.sumApprovedByBranch
  rw [validDate_dates, validDate_dates]
  refine congrArg Except.ok (List.map_congr_left fun k hk => ?_)
  rw [get_groups, total_counted hk]

theorem sumApprovedByBranch_eq : PaymentsServiceGrpcAdapter.sumApprovedByBranch other paymentsDb
      branchIds (dates fromDate) (dates toDate) =
    .ok (branchIds.map fun k => ⟨k, total Payments.Payment.amount
      (Payments.counted [k] fromDate toDate) paymentsDb.payments.rows⟩) := by
  obtain ⟨fromText, hfrom, hfrom'⟩ := read_dateText other fromDate
  obtain ⟨toText, hto, hto'⟩ := read_dateText other toDate
  unfold PaymentsServiceGrpcAdapter.sumApprovedByBranch
  rw [hfrom, hto]
  dsimp only
  unfold Payments.PaymentsGrpcController.sumByBranch Payments.SumApprovedByBranchUseCase.execute
  dsimp only
  rw [hfrom', hto', repository_sumApprovedByBranch]
  rfl

section Selected

theorem mem_findAll {branch : Branch} :
    branch ∈ PrismaBranchRepository.findAll db ↔ branch ∈ db.branches :=
  List.mem_insertionSort _

theorem mem_selected {branch : Branch} :
    branch ∈ GetRevenueReportUseCase.selected db branchId ↔
      branch ∈ db.branches ∧ ∀ id ∈ branchId, id ≠ "" → branch.id = id := by
  unfold GetRevenueReportUseCase.selected
  split
  · rename_i id
    split
    · rename_i h
      simp [h, mem_findAll]
    · rename_i h
      simp [h, PrismaBranchRepository.findByIds]
  · simp [mem_findAll]

theorem nodup_selected :
    ((GetRevenueReportUseCase.selected db branchId).map Branch.id).Nodup := by
  have hall : ((PrismaBranchRepository.findAll db).map Branch.id).Nodup :=
    ((List.perm_insertionSort _ _).map Branch.id).nodup_iff.mpr db.branches.keys_nodup
  unfold GetRevenueReportUseCase.selected
  split
  · split
    · exact hall
    · exact db.branches.keys_nodup.sublist (List.filter_sublist.map Branch.id)
  · exact hall

end Selected

theorem execute_eq : GetRevenueReportUseCase.execute other db paymentsDb
      ⟨branchId, dates fromDate, dates toDate⟩ =
    .ok ((GetRevenueReportUseCase.selected db branchId).map
      (reportRow paymentsDb fromDate toDate)) := by
  unfold GetRevenueReportUseCase.execute
  dsimp only
  split
  · rename_i h
    rw [h]
    rfl
  · rw [sumApprovedByBranch_eq]
    refine congrArg Except.ok (List.map_congr_left fun branch hbranch => ?_)
    have hid : branch.id ∈ (GetRevenueReportUseCase.selected db branchId).map Branch.id :=
      List.mem_map_of_mem hbranch
    rw [List.map_map]
    unfold Function.comp
    rw [get_map, if_pos hid]
    rfl

-- The rows add up to the payments of all selected branches.
theorem sum_reportRow {branches : List Branch} (hn : (branches.map Branch.id).Nodup) :
    ((branches.map (reportRow paymentsDb fromDate toDate)).map RevenueReportRow.totalRevenue).sum =
      total Payments.Payment.amount (Payments.counted (branches.map Branch.id) fromDate toDate)
        paymentsDb.payments.rows := by
  calc
    _ = ((branches.map Branch.id).map fun id => total Payments.Payment.amount (fun payment =>
          decide (payment.branchId = id) && (payment.isApproved &&
            Payments.within fromDate toDate payment.createdAt)) paymentsDb.payments.rows).sum := by
        rw [List.map_map, List.map_map]
        refine congrArg List.sum (List.map_congr_left fun branch _ => ?_)
        exact total_congr fun payment _ => by simp [Payments.counted]
    _ = _ := sum_total_keys hn

theorem exact_reportRow : Exact db paymentsDb branchId fromDate toDate
    ((GetRevenueReportUseCase.selected db branchId).map (reportRow paymentsDb fromDate toDate)) := by
  have hbranches : ((GetRevenueReportUseCase.selected db branchId).map
      (reportRow paymentsDb fromDate toDate)).map RevenueReportRow.branch =
        GetRevenueReportUseCase.selected db branchId := by
    rw [List.map_map]
    exact List.map_id _
  have hids : ((GetRevenueReportUseCase.selected db branchId).map
      (reportRow paymentsDb fromDate toDate)).map (fun row => row.branch.id) =
        (GetRevenueReportUseCase.selected db branchId).map Branch.id := by
    rw [List.map_map]
    rfl
  exact {
    branches := hbranches
    once := hids ▸ nodup_selected
    selected := fun branch => by
      rw [hbranches]
      exact mem_selected
    total := by
      intro row hrow
      obtain ⟨branch, -, rfl⟩ := List.mem_map.mp hrow
      rfl
    whole := by
      rw [sum_reportRow nodup_selected, hids] }

-- Two windows that follow each other, without a millisecond between them.
theorem total_windows {early middle next late : JsDate.Time} (hearly : early.ms ≤ middle.ms)
    (hnext : next.ms = middle.ms + 1) (hlate : middle.ms < late.ms) :
    total Payments.Payment.amount (Payments.counted branchIds (some early) (some late))
        paymentsDb.payments.rows =
      total Payments.Payment.amount (Payments.counted branchIds (some early) (some middle))
          paymentsDb.payments.rows +
        total Payments.Payment.amount (Payments.counted branchIds (some next) (some late))
          paymentsDb.payments.rows := by
  refine total_split (fun payment _ => ?_) fun payment _ hboth => ?_
  · have hwithin : Payments.within (some early) (some late) payment.createdAt =
        (Payments.within (some early) (some middle) payment.createdAt ||
          Payments.within (some next) (some late) payment.createdAt) := by
      simp only [Payments.within, Option.all_some, ← Bool.decide_and, ← Bool.decide_or,
        decide_eq_decide]
      omega
    rw [Payments.counted, hwithin]
    simp [Payments.counted, Bool.and_or_distrib_left]
  · simp only [Payments.counted, Payments.within, Option.all_some, Bool.and_eq_true,
      decide_eq_true_eq] at hboth
    omega

-- The report shows every branch once, with all that was approved for it in the window
-- and nothing else; and windows that follow each other add up.
theorem revenue_exact (other : String → JsDate.Date) (db : Database)
    (paymentsDb : Payments.Database) (branchId : Option Id) :
    (∀ fromDate toDate, ∃ rows, GetRevenueReportUseCase.execute other db paymentsDb
        ⟨branchId, dates fromDate, dates toDate⟩ = .ok rows ∧
      Exact db paymentsDb branchId fromDate toDate rows) ∧
    ∀ early middle next late : JsDate.Time, early.ms ≤ middle.ms → next.ms = middle.ms + 1 →
      middle.ms < late.ms → ∃ first second,
        GetRevenueReportUseCase.execute other db paymentsDb
          ⟨branchId, dates (some early), dates (some middle)⟩ = .ok first ∧
        GetRevenueReportUseCase.execute other db paymentsDb
          ⟨branchId, dates (some next), dates (some late)⟩ = .ok second ∧
        GetRevenueReportUseCase.execute other db paymentsDb
          ⟨branchId, dates (some early), dates (some late)⟩ = .ok (List.zipWith addRow first second) := by
  refine ⟨fun fromDate toDate => ⟨_, execute_eq, exact_reportRow⟩, ?_⟩
  intro early middle next late hearly hnext hlate
  refine ⟨_, _, execute_eq, execute_eq, ?_⟩
  rw [execute_eq, List.zipWith_map, List.zipWith_self]
  refine congrArg Except.ok (List.map_congr_left fun branch _ => ?_)
  unfold reportRow addRow
  rw [total_windows hearly hnext hlate]

theorem revenue_exact_twoPayments : ∃ first second,
    GetRevenueReportUseCase.execute (fun _ => none) Demo.reserved Payments.Demo.twoPayments
      ⟨none, dates (some ⟨0, by decide, by decide⟩), dates (some ⟨15, by decide, by decide⟩)⟩ =
        .ok first ∧
    GetRevenueReportUseCase.execute (fun _ => none) Demo.reserved Payments.Demo.twoPayments
      ⟨none, dates (some ⟨16, by decide, by decide⟩), dates (some ⟨30, by decide, by decide⟩)⟩ =
        .ok second ∧
    GetRevenueReportUseCase.execute (fun _ => none) Demo.reserved Payments.Demo.twoPayments
      ⟨none, dates (some ⟨0, by decide, by decide⟩), dates (some ⟨30, by decide, by decide⟩)⟩ =
        .ok (List.zipWith addRow first second) :=
  (revenue_exact _ _ _ none).2 _ _ _ _ (by decide) rfl (by decide)

example : (reportRow Payments.Demo.twoPayments none none Demo.branch).totalRevenue = ⟨1000⟩ := by
  decide

end SmartParking
