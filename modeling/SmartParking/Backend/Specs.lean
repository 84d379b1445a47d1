import SmartParking.Backend.Effects
import SmartParking.Backend.UseCases

namespace SmartParking

open Async

@[simp] theorem uses_ask {allowed : Call → Prop} {call : Call} :
    (ask call).Uses allowed ↔ allowed call :=
  ⟨fun h => h.1, Program.uses_perform⟩

-- The parts of the use cases that change nothing in the database.
section Reads

theorem canCreateReservation_reads (userId : Id) :
    (DefaultReservationPolicy.canCreateReservation userId).Uses Call.Reads := by
  refine Program.uses_bind (uses_ask.mpr trivial) fun activeReservation => ?_
  cases activeReservation with
  | some _ => trivial
  | none =>
      refine Program.uses_bind (uses_ask.mpr trivial) fun activeSession => ?_
      cases activeSession <;> trivial

theorem firstAvailable_reads (slotType : Option SlotType) (ranked : List Candidate) :
    (DefaultSlotAssignmentPolicy.firstAvailable slotType ranked).Uses Call.Reads := by
  induction ranked with
  | nil => trivial
  | cons candidate rest ih =>
      refine Program.uses_bind (uses_ask.mpr trivial) fun hasAvailability => ?_
      cases hasAvailability with
      | true => trivial
      | false => exact ih

theorem suggest_reads (config : Config) (input : SlotAssignmentInput) (currentBranch : Branch) :
    (BalancedSlotAssignmentPolicy.suggest config input currentBranch).Uses Call.Reads := by
  refine Program.uses_bind (uses_ask.mpr trivial) fun otherBranches => ?_
  refine Program.uses_bind (Program.uses_all ?_) fun availabilityFlags => ?_
  · intro p hp
    obtain ⟨branch, -, rfl⟩ := List.mem_map.mp hp
    exact uses_ask.mpr trivial
  · dsimp only
    split
    · trivial
    · refine Program.uses_bind (uses_ask.mpr trivial) fun summaries => ?_
      split <;> trivial

theorem notifyAll_reads (messages : List Notification) :
    (notifier.notifyAll messages).Uses Call.Reads := by
  induction messages with
  | nil => trivial
  | cons message rest ih => exact Program.uses_bind (uses_ask.mpr trivial) fun _ => ih

theorem publishConfirmationEmail_reads (reservation : Reservation) :
    (CreateReservationUseCase.publishConfirmationEmail reservation).Uses Call.Reads := by
  refine Program.uses_tryCatch (Program.uses_bind (Program.uses_both (uses_ask.mpr trivial)
    (uses_ask.mpr trivial)) fun pair => ?_) fun _ => trivial
  obtain ⟨user, branch⟩ := pair
  cases user <;> cases branch <;> first | trivial | skip
  refine Program.uses_bind (uses_ask.mpr trivial) fun eventId => ?_
  exact Program.uses_bind (uses_ask.mpr trivial) fun occurredAt => uses_ask.mpr trivial

theorem announce_reads (reservation : Reservation) :
    (CreateReservationUseCase.announce reservation).Uses Call.Reads := by
  refine Program.uses_bind ?_ fun _ => Program.uses_bind (notifyAll_reads _) fun _ =>
    publishConfirmationEmail_reads reservation
  refine Program.uses_bind (uses_ask.mpr trivial) fun eventId => ?_
  exact Program.uses_bind (uses_ask.mpr trivial) fun occurredAt => uses_ask.mpr trivial

theorem notifyAll_settles (messages : List Notification) :
    (notifier.notifyAll messages).Yields Settled fun result => result = .ok () := by
  induction messages with
  | nil => rfl
  | cons message rest ih =>
      intro answer ha
      obtain ⟨value, rfl⟩ := ha rfl
      exact ih

theorem wp_notifyAll_bind {α : Type} (messages : List Notification) {f : Unit → Port α}
    {db : Database} {now : ℤ} {post : Except Fault α → World → Prop}
    (h : ∀ later, now ≤ later → (f ()).wp serve ⟨db, later⟩ post) :
    (notifier.notifyAll messages >>= f).wp serve ⟨db, now⟩ post := by
  rw [Program.wp_bind]
  have hreads := wp_of_reads (notifyAll_reads messages) ⟨db, now⟩
  have hsettles := Program.wp_of_yields settled_serve (notifyAll_settles messages) ⟨db, now⟩
  refine Program.wp_mono (Program.wp_and hreads hsettles) ?_
  rintro result ⟨db', later⟩ ⟨⟨rfl, hl⟩, rfl⟩
  exact h later hl

-- Nothing that follows the insert can make the request fail.
theorem announce_settles (reservation : Reservation) :
    (CreateReservationUseCase.announce reservation).Yields Settled
      fun result => result = .ok () := by
  have haudit : (CreateReservationUseCase.publishAudit reservation).Yields Settled
      fun result => result = .ok () := by
    intro eventId he
    obtain ⟨eventId, rfl⟩ := he rfl
    intro occurredAt ho
    obtain ⟨occurredAt, rfl⟩ := ho rfl
    intro published hp
    obtain ⟨_, rfl⟩ := hp rfl
    rfl
  refine Program.yields_bind haudit (fun err h => by cases h) fun _ _ => ?_
  refine Program.yields_bind (notifyAll_settles _) (fun err h => by cases h) fun _ _ => ?_
  refine (Program.yields_tryCatch_pure _ ()).mono ?_
  rintro result ⟨⟨⟩, rfl⟩
  rfl

end Reads

-- Both assignment policies claim a slot first, and look elsewhere without one.
section Assign

def claimSlot (config : Config) (input : SlotAssignmentInput) : Port (Option ParkingSlot) :=
  match config.strategy with
  | .default => slots.claimAvailableSlot input.branchId input.slotType
  | .balanced => slots.claimLeastRecentlyUsedSlot input.branchId input.slotType

def lookElsewhere (config : Config) (input : SlotAssignmentInput) : Port SlotAssignmentResult := do
  let currentBranch ← branches.findById input.branchId
  match currentBranch with
  | none => pure .NO_AVAILABILITY
  | some currentBranch =>
      match config.strategy with
      | .default => do
          let otherBranches ← branches.findAllExcept input.branchId
          DefaultSlotAssignmentPolicy.firstAvailable input.slotType
            (DefaultSlotAssignmentPolicy.rank config currentBranch otherBranches)
      | .balanced => BalancedSlotAssignmentPolicy.suggest config input currentBranch

def assignClaimed (config : Config) (input : SlotAssignmentInput) :
    Option ParkingSlot → Port SlotAssignmentResult
  | some slot => pure (.ASSIGNED slot)
  | none => lookElsewhere config input

theorem assign_eq (config : Config) (input : SlotAssignmentInput) :
    slotAssignmentPolicy.assign config input =
      claimSlot config input >>= assignClaimed config input := by
  unfold slotAssignmentPolicy.assign claimSlot assignClaimed lookElsewhere
  cases config.strategy <;> rfl

theorem wp_claimSlot_bind {α : Type} {config : Config} {input : SlotAssignmentInput}
    {f : Option ParkingSlot → Port α} {db : Database} {now : ℤ}
    {post : Except Fault α → World → Prop}
    (hnone : ∀ later, now ≤ later → (f none).wp serve ⟨db, later⟩ post)
    (hsome : ∀ slot ∈ db.slots,
      PrismaParkingSlotRepository.available input.branchId input.slotType slot = true →
      ∀ later, now ≤ later →
      (f (some (PrismaParkingSlotRepository.withStatus .RESERVADA later slot))).wp serve
        ⟨PrismaParkingSlotRepository.setStatus db slot.id .RESERVADA later, later⟩ post) :
    (claimSlot config input >>= f).wp serve ⟨db, now⟩ post := by
  have hclaim : ∀ (order : ParkingSlot → ParkingSlot → Prop) [DecidableRel order]
      (choice : Choice) (later : ℤ), now ≤ later →
      Program.continued serve f post
        (.ok (PrismaParkingSlotRepository.claim order db later choice.locked input.branchId
          input.slotType).1)
        ⟨(PrismaParkingSlotRepository.claim order db later choice.locked input.branchId
          input.slotType).2, later⟩ := by
    intro order _ choice later hl
    rcases PrismaParkingSlotRepository.claim_cases order db later choice.locked input.branchId
      input.slotType with ⟨slot, hm, ha, he⟩ | he
    · rw [he]
      exact hsome slot hm ha later hl
    · rw [he]
      exact hnone later hl
  unfold claimSlot
  cases config.strategy with
  | default => exact wp_ask_bind fun choice later hl => hclaim _ choice later hl
  | balanced => exact wp_ask_bind fun choice later hl => hclaim _ choice later hl

theorem lookElsewhere_reads (config : Config) (input : SlotAssignmentInput) :
    (lookElsewhere config input).Uses Call.Reads := by
  refine Program.uses_bind (uses_ask.mpr trivial) fun currentBranch => ?_
  cases currentBranch with
  | none => trivial
  | some currentBranch =>
      dsimp only
      cases config.strategy with
      | default =>
          exact Program.uses_bind (uses_ask.mpr trivial) fun _ => firstAvailable_reads _ _
      | balanced => exact suggest_reads config input currentBranch

def Unassigned (result : Except Fault SlotAssignmentResult) : Prop :=
  ∀ slot, result ≠ .ok (.ASSIGNED slot)

theorem firstAvailable_unassigned (slotType : Option SlotType) (ranked : List Candidate) :
    (DefaultSlotAssignmentPolicy.firstAvailable slotType ranked).Yields Settled Unassigned := by
  induction ranked with
  | nil => exact fun slot h => by cases h
  | cons candidate rest ih =>
      refine Program.yields_bind (Program.yields_true _) (fun err _ slot h => by cases h)
        fun hasAvailability _ => ?_
      cases hasAvailability with
      | true => exact fun slot h => by cases h
      | false => exact ih

theorem suggest_unassigned (config : Config) (input : SlotAssignmentInput)
    (currentBranch : Branch) :
    (BalancedSlotAssignmentPolicy.suggest config input currentBranch).Yields Settled Unassigned := by
  have herr : ∀ err, True → Unassigned (.error err) := fun err _ slot h => by cases h
  refine Program.yields_bind (Program.yields_true _) herr fun otherBranches _ => ?_
  refine Program.yields_bind (Program.yields_true _) herr fun availabilityFlags _ => ?_
  dsimp only
  split
  · exact fun slot h => by cases h
  · refine Program.yields_bind (Program.yields_true _) herr fun summaries _ => ?_
    split <;> exact fun slot h => by cases h

theorem lookElsewhere_unassigned (config : Config) (input : SlotAssignmentInput) :
    (lookElsewhere config input).Yields Settled Unassigned := by
  have herr : ∀ err, True → Unassigned (.error err) := fun err _ slot h => by cases h
  refine Program.yields_bind (Program.yields_true _) herr fun currentBranch _ => ?_
  cases currentBranch with
  | none => exact fun slot h => by cases h
  | some currentBranch =>
      dsimp only
      cases config.strategy with
      | default => exact Program.yields_bind (Program.yields_true _) herr fun _ _ =>
          firstAvailable_unassigned _ _
      | balanced => exact suggest_unassigned config input currentBranch

theorem wp_lookElsewhere_bind {α : Type} {config : Config} {input : SlotAssignmentInput}
    {f : SlotAssignmentResult → Port α} {db : Database} {now : ℤ}
    {post : Except Fault α → World → Prop}
    (herr : ∀ err later, now ≤ later → post (.error err) ⟨db, later⟩)
    (hf : ∀ assignment later, now ≤ later → (∀ slot, assignment ≠ .ASSIGNED slot) →
      (f assignment).wp serve ⟨db, later⟩ post) :
    (lookElsewhere config input >>= f).wp serve ⟨db, now⟩ post := by
  rw [Program.wp_bind]
  have hreads := wp_of_reads (lookElsewhere_reads config input) ⟨db, now⟩
  have hnone : (lookElsewhere config input).wp serve ⟨db, now⟩ fun result _ => Unassigned result :=
    Program.wp_of_yields settled_serve (lookElsewhere_unassigned config input) _
  refine Program.wp_mono (Program.wp_and hreads hnone) ?_
  rintro result ⟨db', later⟩ ⟨⟨hdb, hl⟩, hun⟩
  subst hdb
  cases result with
  | ok assignment => exact hf assignment later hl fun slot he => hun slot (congrArg _ he)
  | error err => exact herr err later hl

end Assign

-- The assignment input of a request.
abbrev wanted (input : CreateReservationInput) : SlotAssignmentInput :=
  { branchId := input.branchId, slotType := input.slotType }

-- A request after its claim: it stores a reservation of the slot, or concludes
-- from what it finds elsewhere.
def afterClaim (config : Config) (input : CreateReservationInput) :
    Option ParkingSlot → Port CreateReservationResult
  | some slot => CreateReservationUseCase.store config input slot
  | none => lookElsewhere config (wanted input) >>= CreateReservationUseCase.conclude config input

theorem reserve_eq (config : Config) (input : CreateReservationInput) :
    CreateReservationUseCase.reserve config input =
      claimSlot config (wanted input) >>= afterClaim config input := by
  unfold CreateReservationUseCase.reserve
  rw [assign_eq, bind_assoc]
  congr 1
  funext claimed
  cases claimed <;> rfl

-- The row that an execution inserts after its claim.
def reservationData (config : Config) (input : CreateReservationInput) (slot : ParkingSlot)
    (now : ℤ) : CreateReservationData where
  userId := input.userId
  branchId := input.branchId
  slotId := slot.id
  requestedType := input.slotType.getD slot.type
  startAt := input.startAt.getD now
  expiresAt := DefaultReservationPolicy.calculateExpiresAt config (input.startAt.getD now)

-- What follows the insert, to the result of the request.
def announced (reservation : Reservation) : Port CreateReservationResult := do
  CreateReservationUseCase.announce reservation
  pure (.CREATED reservation)

theorem announced_reads (reservation : Reservation) : (announced reservation).Uses Call.Reads :=
  Program.uses_bind (announce_reads reservation) fun _ => trivial

theorem announced_settles (reservation : Reservation) :
    (announced reservation).Yields Settled fun result => result = .ok (.CREATED reservation) :=
  Program.yields_bind (announce_settles reservation) (fun err he => by cases he) fun _ _ => rfl

theorem store_eq (config : Config) (input : CreateReservationInput) (slot : ParkingSlot) :
    CreateReservationUseCase.store config input slot = clock.now >>= fun now =>
      reservations.create (reservationData config input slot now) >>= announced := rfl

end SmartParking
