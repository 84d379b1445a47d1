import SmartParking.Suggestion
import SmartParking.Backend.Specs

namespace SmartParking

open Async

variable {db : Database} {config : Config} {input : SlotAssignmentInput} {now : ℤ} {α β : Type}

-- Nothing else running is one of the ways the ports may choose.
theorem wp_alone {p : Port α} {world : World} {post : Except Fault α → World → Prop}
    (h : p.wp serve world post) : p.wp alone world post := by
  induction p generalizing world with
  | done result => exact h
  | await call next ih => exact fun choice => ih _ (h _)

-- Looking elsewhere, by either policy.
section Elsewhere

def Elsewhere (db : Database) (input : SlotAssignmentInput) : SlotAssignmentResult → Prop
  | .ASSIGNED _ => False
  | .SUGGEST_OTHER_BRANCH branch _ =>
      (PrismaBranchRepository.findById db input.branchId).isSome ∧
        branch ∈ PrismaBranchRepository.findAllExcept db input.branchId ∧
        PrismaParkingSlotRepository.hasAvailability db branch.id input.slotType = true
  | .NO_AVAILABILITY =>
      PrismaBranchRepository.findById db input.branchId = none ∨
        ∀ branch ∈ PrismaBranchRepository.findAllExcept db input.branchId,
          PrismaParkingSlotRepository.hasAvailability db branch.id input.slotType = false

-- It changes nothing, and tells what it found.
abbrev Finds (p : Port SlotAssignmentResult) (db : Database) (now : ℤ)
    (input : SlotAssignmentInput) : Prop :=
  p.wp serve ⟨db, now⟩ fun result world =>
    world.db = db ∧ ∃ assignment, result = .ok assignment ∧ Elsewhere db input assignment

-- The branches are asked one after the other.
theorem wp_firstAvailable (slotType : Option SlotType) (ranked : List Candidate) :
    (DefaultSlotAssignmentPolicy.firstAvailable slotType ranked).wp serve ⟨db, now⟩
      fun result world => world.db = db ∧ result = .ok (match ranked.find? fun candidate =>
          PrismaParkingSlotRepository.hasAvailability db candidate.branch.id slotType with
        | some candidate => .SUGGEST_OTHER_BRANCH candidate.branch candidate.distanceKm
        | none => .NO_AVAILABILITY) := by
  induction ranked generalizing now with
  | nil => exact ⟨rfl, rfl⟩
  | cons candidate rest ih =>
      refine wp_read_bind (fun _ _ => rfl) fun later _ => ?_
      rw [List.find?_cons]
      cases PrismaParkingSlotRepository.hasAvailability db candidate.branch.id slotType with
      | true => exact ⟨rfl, rfl⟩
      | false => exact ih

theorem finds_firstAvailable (hcurrent : (PrismaBranchRepository.findById db input.branchId).isSome)
    {ranked : List Candidate}
    (hranked : ∀ branch, branch ∈ PrismaBranchRepository.findAllExcept db input.branchId ↔
      ∃ candidate ∈ ranked, candidate.branch = branch) :
    Finds (DefaultSlotAssignmentPolicy.firstAvailable input.slotType ranked) db now input := by
  refine Program.wp_mono (wp_firstAvailable _ _) ?_
  rintro _ world ⟨hdb, rfl⟩
  refine ⟨hdb, _, rfl, ?_⟩
  cases hfind : ranked.find? fun candidate =>
      PrismaParkingSlotRepository.hasAvailability db candidate.branch.id input.slotType with
  | some candidate =>
      have hm := List.mem_of_find?_eq_some hfind
      have ha := List.find?_some hfind
      exact ⟨hcurrent, (hranked _).mpr ⟨candidate, hm, rfl⟩, ha⟩
  | none =>
      refine .inr fun branch hb => ?_
      obtain ⟨candidate, hm, rfl⟩ := (hranked branch).mp hb
      exact Bool.eq_false_iff.mpr (List.find?_eq_none.mp hfind candidate hm)

-- All branches are asked at once.
theorem wp_availability (otherBranches : List Branch) (type : Option SlotType) :
    (Program.all (otherBranches.map fun branch => slots.hasAvailability branch.id type)).wp serve
      ⟨db, now⟩ fun result world => world.db = db ∧ result = .ok (otherBranches.map fun branch =>
        PrismaParkingSlotRepository.hasAvailability db branch.id type) := by
  induction otherBranches generalizing now with
  | nil => exact ⟨rfl, rfl⟩
  | cons branch rest ih =>
      unfold List.map Program.all Program.both
      simp only [bind_assoc]
      refine Program.wp_bind.mpr (Program.wp_settle.mpr fun choice => ?_)
      refine Program.wp_bind.mpr (Program.wp_settle.mpr (Program.wp_mono ih ?_))
      rintro _ world ⟨hdb, rfl⟩
      exact ⟨hdb, rfl⟩

theorem filter_zip {γ : Type} (list : List γ) (keep : γ → Bool) :
    ((list.zip (list.map keep)).filter Prod.snd).map Prod.fst = list.filter keep := by
  induction list with
  | nil => rfl
  | cons item rest ih =>
      rw [List.map_cons, List.zip_cons_cons, List.filter_cons, List.filter_cons]
      cases keep item with
      | true => exact congrArg (item :: ·) ih
      | false => exact ih

-- The other branches that have a slot of the type.
def candidates (db : Database) (input : SlotAssignmentInput) : List Branch :=
  (PrismaBranchRepository.findAllExcept db input.branchId).filter fun branch =>
    PrismaParkingSlotRepository.hasAvailability db branch.id input.slotType

theorem mem_candidates {branch : Branch} : branch ∈ candidates db input ↔
    branch ∈ PrismaBranchRepository.findAllExcept db input.branchId ∧
      PrismaParkingSlotRepository.hasAvailability db branch.id input.slotType = true :=
  List.mem_filter

theorem wp_suggest (currentBranch : Branch) :
    (BalancedSlotAssignmentPolicy.suggest config input currentBranch).wp serve ⟨db, now⟩
      fun result world => world.db = db ∧ result = .ok (
        match ((candidates db input).map (BalancedSlotAssignmentPolicy.score config
          (PrismaParkingSlotRepository.getOccupancySummary db ((candidates db input).map Branch.id))
            currentBranch)).insertionSort BalancedSlotAssignmentPolicy.better with
        | [] => .NO_AVAILABILITY
        | best :: _ => .SUGGEST_OTHER_BRANCH best.branch best.distanceKm) := by
  refine wp_read_bind (fun _ _ => rfl) fun later _ => ?_
  refine Program.wp_bind.mpr (Program.wp_mono (wp_availability _ _) ?_)
  rintro _ ⟨db', later'⟩ ⟨hdb, rfl⟩
  subst hdb
  dsimp only [Program.continued_ok]
  rw [filter_zip]
  change Program.wp serve (if (candidates db' input).isEmpty then _ else _) _ _
  split
  next hempty =>
    rw [List.isEmpty_iff.mp hempty]
    exact ⟨rfl, rfl⟩
  next =>
    refine wp_read_bind (fun _ _ => rfl) fun later'' _ => ?_
    unfold candidates
    generalize List.insertionSort BalancedSlotAssignmentPolicy.better _ = sorted
    cases sorted with
    | nil => exact ⟨rfl, rfl⟩
    | cons best rest => exact ⟨rfl, rfl⟩

theorem finds_suggest {currentBranch : Branch}
    (hcurrent : PrismaBranchRepository.findById db input.branchId = some currentBranch) :
    Finds (BalancedSlotAssignmentPolicy.suggest config input currentBranch) db now input := by
  refine Program.wp_mono (wp_suggest currentBranch) ?_
  rintro _ world ⟨hdb, rfl⟩
  refine ⟨hdb, _, rfl, ?_⟩
  split
  next hnil =>
    have hlength := congrArg List.length hnil
    rw [List.length_insertionSort, List.length_map, List.length_nil,
      List.length_eq_zero_iff] at hlength
    refine .inr fun branch hb => Bool.eq_false_iff.mpr fun ha => ?_
    have hm := mem_candidates.mpr ⟨hb, ha⟩
    rw [hlength] at hm
    exact List.not_mem_nil hm
  next best others hbest =>
    have hm : best ∈ (best :: others) := List.mem_cons_self
    rw [← hbest, List.mem_insertionSort, List.mem_map] at hm
    obtain ⟨branch, hb, rfl⟩ := hm
    exact ⟨by rw [hcurrent]; rfl, mem_candidates.mp hb⟩

theorem finds_lookElsewhere : Finds (lookElsewhere config input) db now input := by
  refine wp_read_bind (fun _ _ => rfl) fun later _ => ?_
  cases hcurrent : PrismaBranchRepository.findById db input.branchId with
  | none => exact ⟨rfl, _, rfl, .inl hcurrent⟩
  | some currentBranch =>
      dsimp only
      cases config.strategy with
      | balanced => exact finds_suggest hcurrent
      | default =>
          refine wp_read_bind (fun _ _ => rfl) fun later' _ => ?_
          refine finds_firstAvailable (by rw [hcurrent]; rfl) fun branch => ?_
          simp only [DefaultSlotAssignmentPolicy.rank, List.mem_insertionSort, List.mem_map,
            exists_exists_and_eq_and, exists_eq_right]

end Elsewhere

-- A claim finds a slot exactly if there is one, with no row locked.
section Claim

theorem hasAvailability_iff {branchId : Id} {type : Option SlotType} :
    PrismaParkingSlotRepository.hasAvailability db branchId type = true ↔
      ∃ slot ∈ db.slots, PrismaParkingSlotRepository.available branchId type slot = true := by
  rw [PrismaParkingSlotRepository.hasAvailability, decide_eq_true_eq, List.length_pos_iff_exists_mem]
  simp only [List.mem_filter]
  rfl

theorem select_eq_none_iff {order : ParkingSlot → ParkingSlot → Prop} [DecidableRel order]
    {branchId : Id} {type : Option SlotType} :
    PrismaParkingSlotRepository.select order db (fun _ => false) branchId type = none ↔
      PrismaParkingSlotRepository.hasAvailability db branchId type = false := by
  rw [← Bool.not_eq_true, hasAvailability_iff, PrismaParkingSlotRepository.select,
    List.head?_eq_none_iff, ← List.length_eq_zero_iff, List.length_insertionSort,
    List.length_eq_zero_iff, List.filter_eq_nil_iff]
  simp only [Bool.not_false, Bool.and_true, not_exists, not_and]
  rfl

theorem wp_claimSlot_alone {f : Option ParkingSlot → Port α}
    {post : Except Fault α → World → Prop}
    (hnone : PrismaParkingSlotRepository.hasAvailability db input.branchId input.slotType = false →
      ∀ later, (f none).wp alone ⟨db, later⟩ post)
    (hsome : ∀ slot ∈ db.slots,
      PrismaParkingSlotRepository.available input.branchId input.slotType slot = true → ∀ later,
      (f (some (PrismaParkingSlotRepository.withStatus .RESERVADA later slot))).wp alone
        ⟨PrismaParkingSlotRepository.setStatus db slot.id .RESERVADA later, later⟩ post) :
    (claimSlot config input >>= f).wp alone ⟨db, now⟩ post := by
  have hclaim : ∀ (order : ParkingSlot → ParkingSlot → Prop) [DecidableRel order] (later : ℤ),
      Program.continued alone f post
        (.ok (PrismaParkingSlotRepository.claim order db later (fun _ => false) input.branchId
          input.slotType).1)
        ⟨(PrismaParkingSlotRepository.claim order db later (fun _ => false) input.branchId
          input.slotType).2, later⟩ := by
    intro order _ later
    unfold PrismaParkingSlotRepository.claim
    cases hs : PrismaParkingSlotRepository.select order db (fun _ => false) input.branchId
        input.slotType with
    | none => exact hnone (select_eq_none_iff.mp hs) later
    | some slot =>
        obtain ⟨hm, ha⟩ := PrismaParkingSlotRepository.select_eq_some hs
        exact hsome slot hm ha later
  unfold claimSlot
  cases config.strategy with
  | default => exact Program.wp_bind.mpr fun choice => hclaim _ _
  | balanced => exact Program.wp_bind.mpr fun choice => hclaim _ _

end Claim

section Assign

theorem inventoryOutcome_of_available
    (ha : PrismaParkingSlotRepository.hasAvailability db input.branchId input.slotType = true) :
    inventoryOutcome db input = .ASSIGNED := if_pos ha

-- What was found elsewhere is what the inventory says.
theorem outcome_of_elsewhere
    (hnone : PrismaParkingSlotRepository.hasAvailability db input.branchId input.slotType = false)
    {assignment : SlotAssignmentResult} (h : Elsewhere db input assignment) :
    assignment.outcome = inventoryOutcome db input := by
  unfold inventoryOutcome
  rw [hnone, if_neg Bool.false_ne_true]
  cases assignment with
  | ASSIGNED slot => exact h.elim
  | SUGGEST_OTHER_BRANCH branch distanceKm =>
      obtain ⟨hcurrent, hother, ha⟩ := h
      have hsome : ¬(PrismaBranchRepository.findById db input.branchId).isNone = true := by
        rw [← Option.not_isSome, hcurrent]
        exact Bool.false_ne_true
      rw [if_neg hsome, if_pos (List.any_eq_true.mpr ⟨branch, hother, ha⟩)]
      rfl
  | NO_AVAILABILITY =>
      rcases h with hcurrent | hall
      · rw [if_pos (by rw [hcurrent]; rfl)]
        rfl
      · split
        · rfl
        · rw [if_neg]
          · rfl
          · rw [List.any_eq_true]
            rintro ⟨branch, hb, ha⟩
            rw [hall branch hb] at ha
            cases ha

theorem of_available {branchId : Id} {type : Option SlotType} {slot : ParkingSlot}
    (ha : PrismaParkingSlotRepository.available branchId type slot = true) :
    slot.branchId = branchId ∧ OfType type slot := by
  simp only [PrismaParkingSlotRepository.available, Bool.and_eq_true, decide_eq_true_eq] at ha
  refine ⟨ha.1.1, fun wanted hw => ?_⟩
  subst hw
  exact of_decide_eq_true ha.2

-- Where the branch has a slot of the type, either policy assigns one.
theorem canAssign (config : Config) {branchId : Id} {type : Option SlotType} {world : World}
    (ha : PrismaParkingSlotRepository.hasAvailability world.db branchId type = true) :
    CanAssign config branchId type world := by
  intro strategy choices
  have hwp : (slotAssignmentPolicy.assign { config with strategy }
      { branchId, slotType := type }).wp alone world fun result _ => ∃ slot,
        result = .ok (.ASSIGNED slot) ∧ slot.branchId = branchId ∧ OfType type slot := by
    rw [assign_eq]
    refine wp_claimSlot_alone (fun hnone => ?_) fun slot _ hslot later => ?_
    · rw [ha] at hnone
      cases hnone
    · obtain ⟨hbranch, htype⟩ := of_available hslot
      exact ⟨_, rfl, hbranch, htype⟩
  exact Program.run_of_wp hwp choices

theorem honours (config : Config) (input : SlotAssignmentInput) (world : World) :
    (slotAssignmentPolicy.assign config input).wp alone world fun result world' =>
      ∃ assignment, result = .ok assignment ∧
        ∀ config, Honours config input world (inventoryOutcome world.db input) assignment
          world' := by
  rw [assign_eq]
  refine wp_claimSlot_alone (fun hnone later => ?_) fun slot hm ha later => ?_
  · have hfinds : Finds (lookElsewhere config input) world.db later input := finds_lookElsewhere
    refine Program.wp_mono (wp_alone hfinds) ?_
    rintro _ world' ⟨hdb, assignment, rfl, hfound⟩
    refine ⟨assignment, rfl, fun config => ⟨outcome_of_elsewhere hnone hfound, fun _ => hdb,
      fun branch distanceKm he => ?_⟩⟩
    subst he
    exact canAssign config (hdb ▸ hfound.2.2)
  · have hassigned := inventoryOutcome_of_available (hasAvailability_iff.mpr ⟨slot, hm, ha⟩)
    rw [hassigned]
    exact ⟨_, rfl, fun _ => ⟨rfl, fun h => absurd rfl h, fun _ _ he => by cases he⟩⟩

end Assign

-- Either policy has the outcome that the inventory decides. Without a slot it
-- leaves the slots as they were, and the branch it suggests can be confirmed.
theorem policies_agree (config : Config) (world : World) (input : SlotAssignmentInput) :
    ∃ outcome, ∀ strategy choices, ∃ assignment,
      (assignBy config strategy input choices world).1 = .ok assignment ∧
        Honours config input world outcome assignment
          (assignBy config strategy input choices world).2 := by
  refine ⟨inventoryOutcome world.db input, fun strategy choices => ?_⟩
  obtain ⟨assignment, hok, hh⟩ :=
    Program.run_of_wp (honours { config with strategy } input world) choices
  exact ⟨assignment, hok, hh config⟩

end SmartParking
