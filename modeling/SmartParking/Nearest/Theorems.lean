import SmartParking.Nearest
import SmartParking.Ranking
import SmartParking.Suggestion.Theorems

namespace SmartParking

open Async

variable {db : Database} {config : Config} {input : SlotAssignmentInput} {now : ℤ}
  {branch currentBranch : Branch}

instance : Std.Total PrismaBranchRepository.byName := ⟨fun a b => String.le_total a.name b.name⟩
instance : IsTrans Branch PrismaBranchRepository.byName := ⟨fun _ _ _ => String.le_trans⟩

-- The branches that are asked, and what they are asked.

theorem offers_iff : Offers db input branch ↔
    branch ∈ PrismaBranchRepository.findAllExcept db input.branchId ∧
      PrismaParkingSlotRepository.hasAvailability db branch.id input.slotType = true := by
  have hother : branch ∈ PrismaBranchRepository.findAllExcept db input.branchId ↔
      branch ∈ db.branches ∧ branch.id ≠ input.branchId := by
    rw [PrismaBranchRepository.findAllExcept, List.mem_insertionSort, List.mem_filter,
      decide_eq_true_eq]
    rfl
  rw [hother, hasAvailability_iff]
  constructor
  · rintro ⟨hknown, hne, slot, hm, hbranch, hstatus, htype⟩
    refine ⟨⟨hknown, hne⟩, slot, hm, ?_⟩
    rw [PrismaParkingSlotRepository.available, hbranch, hstatus]
    cases hwanted : input.slotType with
    | none => simp [PrismaParkingSlotRepository.ofType]
    | some wanted => simp [PrismaParkingSlotRepository.ofType, htype wanted hwanted]
  · rintro ⟨⟨hknown, hne⟩, slot, hm, ha⟩
    obtain ⟨hbranch, htype⟩ := of_available ha
    refine ⟨hknown, hne, slot, hm, hbranch, ?_, htype⟩
    simp only [PrismaParkingSlotRepository.available, Bool.and_eq_true, decide_eq_true_eq] at ha
    exact ha.1.2

theorem pairwise_findAllExcept (branchId : Id) :
    (PrismaBranchRepository.findAllExcept db branchId).Pairwise PrismaBranchRepository.byName :=
  List.pairwise_insertionSort _ _

-- What the summaries say about a branch that was asked for.

theorem find?_filterMap {ids : List Id} {summary : Id → Option BranchOccupancySummary} {id : Id}
    (hsummary : ∀ other row, summary other = some row → row.branchId = other) (hm : id ∈ ids) :
    (ids.filterMap summary).find? (fun row => row.branchId = id) = summary id := by
  have hnone (ids : List Id) (h : summary id = none) :
      (ids.filterMap summary).find? (fun row => row.branchId = id) = none := by
    rw [List.find?_eq_none]
    intro row hrow hid
    obtain ⟨other, -, hother⟩ := List.mem_filterMap.mp hrow
    obtain rfl := (hsummary other row hother).symm.trans (of_decide_eq_true hid)
    rw [h] at hother
    cases hother
  induction ids with
  | nil => exact absurd hm List.not_mem_nil
  | cons other ids ih =>
      by_cases hid : other = id
      · subst hid
        cases hrow : summary other with
        | none => exact hnone _ hrow
        | some row =>
            rw [List.filterMap_cons_some hrow, List.find?_cons_of_pos]
            exact decide_eq_true (hsummary other row hrow)
      · have hrest := ih ((List.mem_cons.mp hm).resolve_left (Ne.symm hid))
        cases hrow : summary other with
        | none => rwa [List.filterMap_cons_none hrow]
        | some row =>
            rw [List.filterMap_cons_some hrow, List.find?_cons_of_neg, hrest]
            rw [hsummary other row hrow]
            exact fun h => hid (of_decide_eq_true h)

theorem takenOf_eq (branchId : Id) : takenOf db branchId =
    (slotsOf db branchId).filter PrismaParkingSlotRepository.occupiedOrReserved := by
  refine List.filter_congr fun slot _ => ?_
  rw [PrismaParkingSlotRepository.occupiedOrReserved, Bool.decide_or]

theorem find_summary {branchIds : List Id} {id : Id} (hm : id ∈ branchIds)
    (hslots : slotsOf db id ≠ []) :
    (PrismaParkingSlotRepository.getOccupancySummary db branchIds).find?
      (fun summary => summary.branchId = id) = some {
        branchId := id
        totalSlots := (slotsOf db id).length
        occupiedOrReserved := (takenOf db id).length } := by
  rw [takenOf_eq]
  refine (find?_filterMap (fun other row hrow => ?_) (List.mem_dedup.mpr hm)).trans (if_neg hslots)
  exact (congrArg BranchOccupancySummary.branchId
    (Option.some.inj (Option.ite_none_left_eq_some.mp hrow).2)).symm

theorem score_eq {branchIds : List Id} (hm : branch.id ∈ branchIds)
    (hslots : slotsOf db branch.id ≠ []) :
    BalancedSlotAssignmentPolicy.score config
      (PrismaParkingSlotRepository.getOccupancySummary db branchIds) currentBranch branch =
        { branch
          distanceKm := config.distanceKmTo currentBranch branch
          score := cost config db currentBranch branch .balanced } := by
  have hpos : 0 < (slotsOf db branch.id).length := List.length_pos_iff.mpr hslots
  simp only [BalancedSlotAssignmentPolicy.score, find_summary hm hslots, if_pos hpos, cost,
    BalancedSlotAssignmentPolicy.OCCUPANCY_PENALTY_KM, mul_comm]

theorem slotsOf_ne_nil (h : Offers db input branch) : slotsOf db branch.id ≠ [] := by
  obtain ⟨slot, hm, hbranch, -⟩ := h.free
  exact List.ne_nil_of_mem (List.mem_filter.mpr ⟨hm, decide_eq_true hbranch⟩)

-- The best of the branches that are asked is the one that is suggested.

theorem best_of_first {strategy : SlotAssignmentStrategy} {key : Branch → Branch → Prop}
    (hkey : ∀ a b, key a b ↔
      cost config db currentBranch a strategy ≤ cost config db currentBranch b strategy)
    (hoffers : Offers db input branch)
    (h : ∀ other, Offers db input other →
      other = branch ∨ Ranking.First key PrismaBranchRepository.byName branch other) :
    Best config strategy db input currentBranch branch where
  offers := hoffers
  least other hother := by
    rcases h other hother with rfl | hfirst
    · exact le_rfl
    · exact (hkey _ _).mp hfirst.1
  first other hother hcost := by
    rcases h other hother with rfl | hfirst
    · exact String.le_refl _
    · exact hfirst.2 ((hkey _ _).mpr hcost.le)

theorem optimal_of_best {strategy : SlotAssignmentStrategy} {result : Except Fault SlotAssignmentResult}
    (hresult : result =
      .ok (.SUGGEST_OTHER_BRANCH branch (config.distanceKmTo currentBranch branch)))
    (h : Best config strategy db input currentBranch branch) :
    Optimal config strategy db input currentBranch result where
  suggests _ := ⟨branch, hresult, h⟩
  refuses := by
    rw [hresult]
    exact ⟨nofun, fun hnone => absurd h.offers (hnone branch)⟩

theorem optimal_of_none {strategy : SlotAssignmentStrategy} {result : Except Fault SlotAssignmentResult}
    (hresult : result = .ok .NO_AVAILABILITY) (h : ∀ other, ¬Offers db input other) :
    Optimal config strategy db input currentBranch result where
  suggests := fun ⟨other, hother⟩ => absurd hother (h other)
  refuses := iff_of_true hresult h

-- The order of a policy on the branches.
def cheaper (config : Config) (strategy : SlotAssignmentStrategy) (db : Database)
    (currentBranch a b : Branch) : Prop :=
  cost config db currentBranch a strategy ≤ cost config db currentBranch b strategy

section Cheaper

variable {strategy : SlotAssignmentStrategy}

instance : DecidableRel (cheaper config strategy db currentBranch) := fun a b =>
  inferInstanceAs (Decidable (cost config db currentBranch a strategy ≤
    cost config db currentBranch b strategy))

-- The first branch in the order that passes a test, when all that offer a slot do.
theorem best_of_find? {test : Branch → Bool} {list : List Branch}
    (hlist : list.Pairwise PrismaBranchRepository.byName)
    (hoffers : ∀ other, Offers db input other ↔ other ∈ list ∧ test other = true)
    (hfind : (list.insertionSort (cheaper config strategy db currentBranch)).find? test =
      some branch) :
    Best config strategy db input currentBranch branch := by
  have hm := (List.mem_insertionSort _).mp (List.mem_of_find?_eq_some hfind)
  refine best_of_first (fun _ _ => Iff.rfl)
    ((hoffers branch).mpr ⟨hm, List.find?_some hfind⟩) fun other hother => ?_
  obtain ⟨hmem, htest⟩ := (hoffers other).mp hother
  exact Ranking.first_of_find? hlist hfind hmem htest

theorem none_of_find? {test : Branch → Bool} {list : List Branch}
    (hoffers : ∀ other, Offers db input other ↔ other ∈ list ∧ test other = true)
    (hfind : (list.insertionSort (cheaper config strategy db currentBranch)).find? test = none)
    (other : Branch) : ¬Offers db input other := fun hother =>
  List.find?_eq_none.mp hfind other ((List.mem_insertionSort _).mpr ((hoffers other).mp hother).1)
    ((hoffers other).mp hother).2

end Cheaper

-- What the policies sort are the branches, with what they cost.

theorem rank_eq (db : Database) (branches : List Branch) :
    DefaultSlotAssignmentPolicy.rank config currentBranch branches =
      (branches.insertionSort (cheaper config .default db currentBranch)).map fun branch =>
        { branch, distanceKm := config.distanceKmTo currentBranch branch } :=
  (List.map_insertionSort (cheaper config .default db currentBranch)
    DefaultSlotAssignmentPolicy.nearer _ branches fun _ _ _ _ => Iff.rfl).symm

theorem scored_eq {candidates : List Branch}
    (hoffers : ∀ branch ∈ candidates, Offers db input branch) :
    (candidates.map (BalancedSlotAssignmentPolicy.score config
      (PrismaParkingSlotRepository.getOccupancySummary db (candidates.map Branch.id))
        currentBranch)).insertionSort BalancedSlotAssignmentPolicy.better =
      (candidates.insertionSort (cheaper config .balanced db currentBranch)).map fun branch => {
        branch
        distanceKm := config.distanceKmTo currentBranch branch
        score := cost config db currentBranch branch .balanced } := by
  have hscores : ∀ branch ∈ candidates, BalancedSlotAssignmentPolicy.score config
      (PrismaParkingSlotRepository.getOccupancySummary db (candidates.map Branch.id))
        currentBranch branch = {
          branch
          distanceKm := config.distanceKmTo currentBranch branch
          score := cost config db currentBranch branch .balanced } := fun branch hm =>
    score_eq (List.mem_map_of_mem hm) (slotsOf_ne_nil (hoffers branch hm))
  rw [List.map_congr_left hscores]
  exact (List.map_insertionSort (cheaper config .balanced db currentBranch)
    BalancedSlotAssignmentPolicy.better _ candidates fun _ _ _ _ => Iff.rfl).symm

theorem optimal_firstAvailable (config : Config) (currentBranch : Branch) :
    (DefaultSlotAssignmentPolicy.firstAvailable input.slotType (DefaultSlotAssignmentPolicy.rank
      config currentBranch (PrismaBranchRepository.findAllExcept db input.branchId))).wp serve
        ⟨db, now⟩ fun result _ => Optimal config .default db input currentBranch result := by
  refine Program.wp_mono (wp_firstAvailable _ _) ?_
  rintro _ world ⟨-, rfl⟩
  rw [rank_eq db, List.find?_map]
  cases hfind : ((PrismaBranchRepository.findAllExcept db input.branchId).insertionSort
      (cheaper config .default db currentBranch)).find? fun branch =>
        PrismaParkingSlotRepository.hasAvailability db branch.id input.slotType with
  | some branch =>
      have hfound := hfind
      refine optimal_of_best ?_
        (best_of_find? (pairwise_findAllExcept _) (fun _ => offers_iff) hfind)
      simp only [Function.comp_def, hfound, Option.map_some]
  | none =>
      have hfound := hfind
      refine optimal_of_none ?_ (none_of_find? (fun _ => offers_iff) hfind)
      simp only [Function.comp_def, hfound, Option.map_none]

theorem optimal_suggest (config : Config) (currentBranch : Branch) :
    (BalancedSlotAssignmentPolicy.suggest config input currentBranch).wp serve ⟨db, now⟩
      fun result _ => Optimal config .balanced db input currentBranch result := by
  have hpairwise : (candidates db input).Pairwise PrismaBranchRepository.byName :=
    (pairwise_findAllExcept _).filter _
  have hoffers : ∀ other, Offers db input other ↔ other ∈ candidates db input ∧ true = true := by
    intro other
    rw [mem_candidates, eq_self, and_true]
    exact offers_iff
  refine Program.wp_mono (wp_suggest currentBranch) ?_
  rintro _ world ⟨-, rfl⟩
  rw [scored_eq fun branch hm => (hoffers branch).mpr ⟨hm, rfl⟩]
  -- all candidates have a slot, so the first of the sorted ones is suggested
  cases hranked : (candidates db input).insertionSort (cheaper config .balanced db currentBranch) with
  | nil => exact optimal_of_none rfl (none_of_find? hoffers (by rw [hranked, List.find?_nil]))
  | cons branch rest =>
      exact optimal_of_best rfl
        (best_of_find? hpairwise hoffers (by rw [hranked, List.find?_cons]))

-- Without a slot of its own, the branch that is looked for costs least.
theorem optimal_lookElsewhere (strategy : SlotAssignmentStrategy)
    (hcurrent : db.branches.lookup input.branchId = some currentBranch) :
    (lookElsewhere { config with strategy } input).wp serve ⟨db, now⟩
      fun result _ => Optimal config strategy db input currentBranch result := by
  refine wp_read_bind (fun _ _ => rfl) fun later _ => ?_
  rw [show PrismaBranchRepository.findById db input.branchId = some currentBranch from hcurrent]
  dsimp only
  cases strategy with
  | default => exact wp_read_bind (fun _ _ => rfl) fun _ _ => optimal_firstAvailable config currentBranch
  | balanced => exact optimal_suggest config currentBranch

theorem suggestion_optimal (config : Config) (strategy : SlotAssignmentStrategy) (world : World)
    (input : SlotAssignmentInput) (currentBranch : Branch) (choices : ℕ → Choice)
    (hcurrent : world.db.branches.lookup input.branchId = some currentBranch)
    (hnone : ∀ slot ∈ world.db.slots, slot.branchId = input.branchId → slot.status = .DISPONIBLE →
      ¬OfType input.slotType slot) :
    Optimal config strategy world.db input currentBranch
      (assignBy config strategy input choices world).1 := by
  have hwp : (slotAssignmentPolicy.assign { config with strategy } input).wp alone world
      fun result _ => Optimal config strategy world.db input currentBranch result := by
    rw [assign_eq]
    refine wp_claimSlot_alone (fun _ later => ?_) fun slot hm ha _ => ?_
    · exact wp_alone (optimal_lookElsewhere strategy hcurrent)
    · obtain ⟨hbranch, htype⟩ := of_available ha
      simp only [PrismaParkingSlotRepository.available, Bool.and_eq_true, decide_eq_true_eq] at ha
      exact absurd htype (hnone slot hm hbranch ha.1.2)
  exact Program.run_of_wp hwp choices

theorem full_fourBranches : ∀ slot ∈ Demo.fourBranches.slots, slot.branchId = "b1" →
    slot.status = .DISPONIBLE → ¬OfType none slot := by
  intro slot hm hbranch hstatus
  rcases List.mem_cons.mp hm with rfl | hm
  · cases hstatus
  · have hother : slot.branchId ≠ "b1" := by
      revert slot
      decide
    exact absurd hbranch hother

-- The nearest branch is suggested, and for the balanced policy the first by name of the
-- two that cost least.
theorem suggestion_optimal_fourBranches :
    let input : SlotAssignmentInput := { branchId := "b1", slotType := none }
    let suggested strategy := (assignBy Demo.distances strategy input (fun _ => Demo.choice "r1")
      ⟨Demo.fourBranches, 0⟩).1
    (suggested .default = .ok (.SUGGEST_OTHER_BRANCH Demo.miraflores 1) ∧
        Optimal Demo.distances .default Demo.fourBranches input Demo.branch (suggested .default)) ∧
      suggested .balanced = .ok (.SUGGEST_OTHER_BRANCH Demo.barranco (7 / 2)) ∧
      Optimal Demo.distances .balanced Demo.fourBranches input Demo.branch (suggested .balanced) :=
  ⟨⟨by decide +kernel, suggestion_optimal _ _ ⟨Demo.fourBranches, 0⟩ _ _ _ rfl full_fourBranches⟩,
    by decide +kernel, suggestion_optimal _ _ ⟨Demo.fourBranches, 0⟩ _ _ _ rfl full_fourBranches⟩

end SmartParking
