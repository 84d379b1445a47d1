import SmartParking.Backend.Specs
import SmartParking.Backend.Inventory

namespace SmartParking

open Async

-- The rules of the calls of one execution among any number of others.
variable {Tid Ghost α β : Type} [DecidableEq Tid]

abbrev History (Tid : Type) := List (Event Tid Call Answer Fault)

abbrev CallGuard (Tid : Type) := Pool.Guard Tid Choice World Call Answer Fault

def Call.Claims : Call → Prop
  | .slotsClaimAvailableSlot _ _ | .slotsClaimLeastRecentlyUsedSlot _ _ => True
  | _ => False

-- The slot that a claim was answered with.
def claimed (event : Event Tid Call Answer Fault) : Option ParkingSlot :=
  match event with
  | ⟨_, .slotsClaimAvailableSlot _ _, .ok slot⟩ => slot
  | ⟨_, .slotsClaimLeastRecentlyUsedSlot _ _, .ok slot⟩ => slot
  | _ => none

variable {guard : CallGuard Tid} {inv : Database → History Tid → (Tid → Ghost) → Prop}
  {thread : Tid} {ghost : Ghost}

-- The shared invariants are about the database and the history.
abbrev onWorld (inv : Database → History Tid → (Tid → Ghost) → Prop) :
    World → History Tid → (Tid → Ghost) → Prop :=
  fun world => inv world.db

abbrev SafeCall (guard : CallGuard Tid) (inv : Database → History Tid → (Tid → Ghost) → Prop)
    (thread : Tid) (p : Port α) (ghost : Ghost) (post : Except Fault α → Ghost → Prop) : Prop :=
  Safe serve guard (onWorld inv) thread p ghost post

theorem db_step {pool : Pool Tid World Call Answer Fault α} {call : Call}
    {next : Except Fault (Answer call) → Port α} (h : pool.threads thread = .await call next)
    (choice : Choice) : (pool.step serve thread choice).world.db =
      (query choice (pool.world.clock + choice.elapsed) pool.world.db call).2 := by
  unfold Pool.step
  rw [h]
  rfl

theorem safe_ask_bind {call : Call} {f : Answer call → Port α} {post : Except Fault α → Ghost → Prop}
    (h : ∀ db history ghosts choice now clock, ghosts thread = ghost → inv db history ghosts →
      guard ⟨db, clock⟩ history thread call choice →
      ∃ ghost', inv (query choice now db call).2
          (⟨thread, call, (query choice now db call).1⟩ :: history)
          (Function.update ghosts thread ghost') ∧
        Onward serve guard (onWorld inv) thread f post (query choice now db call).1 ghost') :
    SafeCall guard inv thread (ask call >>= f) ghost post := by
  refine safe_perform_bind ?_
  rintro ⟨db, clock⟩ history ghosts choice hg hi hc
  exact h db history ghosts choice (clock + choice.elapsed) clock hg hi hc

-- The invariant does not look at the calls that only read.
def IgnoresReads (guard : CallGuard Tid)
    (inv : Database → History Tid → (Tid → Ghost) → Prop) : Prop :=
  ∀ call, call.Reads → ∀ thread answer world history ghosts choice, inv world.db history ghosts →
    guard world history thread call choice → inv world.db (⟨thread, call, answer⟩ :: history) ghosts

omit [DecidableEq Tid] in
theorem quiet_of_reads (h : IgnoresReads guard inv) (call : Call) (hcall : call.Reads) :
    Quiet serve guard (onWorld inv) thread call := by
  intro world history ghosts choice hi hc
  have hdb : (serve choice world call).2.db = world.db := query_of_reads hcall
  change inv (serve choice world call).2.db _ ghosts
  rw [hdb]
  exact h call hcall thread _ world history ghosts choice hi hc

theorem safe_reads (hinv : IgnoresReads guard inv) {p : Port α} (hp : p.Uses Call.Reads)
    {post : Except Fault α → Prop} (hy : p.Yields Settled post) :
    SafeCall guard inv thread p ghost fun result ghost' => post result ∧ ghost' = ghost :=
  safe_of_uses settled_serve (quiet_of_reads hinv) hp hy ghost

theorem safe_reads_bind (hinv : IgnoresReads guard inv) {p : Port α} (hp : p.Uses Call.Reads)
    {good : Except Fault α → Prop} (hy : p.Yields Settled good) {f : α → Port β}
    {post : Except Fault β → Ghost → Prop} (herr : ∀ err, good (.error err) → post (.error err) ghost)
    (hf : ∀ value, good (.ok value) → SafeCall guard inv thread (f value) ghost post) :
    SafeCall guard inv thread (p >>= f) ghost post := by
  refine safe_bind (fun value ghost' => good (.ok value) ∧ ghost' = ghost)
    (safe_mono (safe_reads hinv hp hy) ?_) ?_
  · rintro result ghost' ⟨hgood, rfl⟩
    cases result with
    | ok value => exact ⟨hgood, rfl⟩
    | error err => exact herr err hgood
  · rintro value ghost' ⟨hgood, rfl⟩
    exact hf value hgood

theorem safe_claimSlot_bind {config : Config} {input : SlotAssignmentInput}
    {f : Option ParkingSlot → Port α} {post : Except Fault α → Ghost → Prop}
    (hnone : ∀ db history ghosts event, ghosts thread = ghost → inv db history ghosts →
      event.thread = thread → event.call.Claims → claimed event = none → ∃ ghost',
        inv db (event :: history) (Function.update ghosts thread ghost') ∧
        SafeCall guard inv thread (f none) ghost' post)
    (hsome : ∀ db history ghosts event now slot, ghosts thread = ghost → inv db history ghosts →
      slot ∈ db.slots →
      PrismaParkingSlotRepository.available input.branchId input.slotType slot = true →
      event.thread = thread → event.call.Claims →
      claimed event = some (PrismaParkingSlotRepository.withStatus .RESERVADA now slot) →
      ∃ ghost', inv (PrismaParkingSlotRepository.setStatus db slot.id .RESERVADA now)
          (event :: history) (Function.update ghosts thread ghost') ∧
        SafeCall guard inv thread
          (f (some (PrismaParkingSlotRepository.withStatus .RESERVADA now slot))) ghost' post) :
    SafeCall guard inv thread (claimSlot config input >>= f) ghost post := by
  unfold claimSlot
  cases config.strategy with
  | default =>
      refine safe_ask_bind fun db history ghosts choice now clock hg hi _ => ?_
      simp only [query, PrismaParkingSlotRepository.claimAvailableSlot, Prod.map_fst, Prod.map_snd,
        id_eq]
      rcases PrismaParkingSlotRepository.claim_cases PrismaParkingSlotRepository.byCode db now
        choice.locked input.branchId input.slotType with ⟨slot, hm, ha, he⟩ | he
      · rw [he]
        exact hsome db history ghosts _ now slot hg hi hm ha rfl trivial rfl
      · rw [he]
        exact hnone db history ghosts _ hg hi rfl trivial rfl
  | balanced =>
      refine safe_ask_bind fun db history ghosts choice now clock hg hi _ => ?_
      simp only [query, PrismaParkingSlotRepository.claimLeastRecentlyUsedSlot, Prod.map_fst,
        Prod.map_snd, id_eq]
      rcases PrismaParkingSlotRepository.claim_cases PrismaParkingSlotRepository.byUpdatedAt db now
        choice.locked input.branchId input.slotType with ⟨slot, hm, ha, he⟩ | he
      · rw [he]
        exact hsome db history ghosts _ now slot hg hi hm ha rfl trivial rfl
      · rw [he]
        exact hnone db history ghosts _ hg hi rfl trivial rfl

theorem safe_reservationsCreate_bind {data : CreateReservationData} {f : Reservation → Port α}
    {post : Except Fault α → Ghost → Prop}
    (h : ∀ db history ghosts choice now clock bigger, ghosts thread = ghost →
      inv db history ghosts → guard ⟨db, clock⟩ history thread (.reservationsCreate data) choice →
      db.reservations.insert (PrismaReservationRepository.newRow db choice.uuid now data) =
        some bigger →
      ∃ ghost', inv { db with reservations := bigger }
          (⟨thread, .reservationsCreate data,
            .ok (PrismaReservationRepository.newRow db choice.uuid now data)⟩ :: history)
          (Function.update ghosts thread ghost') ∧
        SafeCall guard inv thread
          (f (PrismaReservationRepository.newRow db choice.uuid now data)) ghost' post) :
    SafeCall guard inv thread (reservations.create data >>= f) ghost post := by
  refine safe_ask_bind fun db history ghosts choice now clock hg hi hc => ?_
  obtain ⟨bigger, hb, hq⟩ := query_reservationsCreate db choice now data
  rw [hq]
  exact h db history ghosts choice now clock bigger hg hi hc hb

theorem safe_reservationsUpdateStatus_bind {id : Id} {status : ReservationStatus}
    {confirmedAt : Option ℤ} {f : Unit → Port α} {post : Except Fault α → Ghost → Prop}
    (h : ∀ db history ghosts choice clock answer, ghosts thread = ghost → inv db history ghosts →
      guard ⟨db, clock⟩ history thread (.reservationsUpdateStatus id status confirmedAt) choice →
      ∃ ghost', inv (PrismaReservationRepository.setStatus db id status confirmedAt)
          (⟨thread, .reservationsUpdateStatus id status confirmedAt, answer⟩ :: history)
          (Function.update ghosts thread ghost') ∧
        SafeCall guard inv thread (f ()) ghost' post ∧ ∀ err, post (.error err) ghost') :
    SafeCall guard inv thread (reservations.updateStatus id status confirmedAt >>= f) ghost post := by
  refine safe_ask_bind fun db history ghosts choice now clock hg hi hc => ?_
  rw [query_reservationsUpdateStatus]
  obtain ⟨ghost', hi', hs, herr⟩ := h db history ghosts choice clock
    (updated (db.reservations.lookup id).isSome) hg hi hc
  refine ⟨ghost', hi', ?_⟩
  cases (db.reservations.lookup id).isSome with
  | true => exact hs
  | false => exact herr recordNotFound

theorem safe_slotsUpdateStatus_bind {slotId : Id} {status : SlotStatus} {f : Unit → Port α}
    {post : Except Fault α → Ghost → Prop}
    (h : ∀ db history ghosts choice now clock answer, ghosts thread = ghost →
      inv db history ghosts → guard ⟨db, clock⟩ history thread (.slotsUpdateStatus slotId status) choice →
      ∃ ghost', inv (PrismaParkingSlotRepository.setStatus db slotId status now)
          (⟨thread, .slotsUpdateStatus slotId status, answer⟩ :: history)
          (Function.update ghosts thread ghost') ∧
        SafeCall guard inv thread (f ()) ghost' post ∧ ∀ err, post (.error err) ghost') :
    SafeCall guard inv thread (slots.updateStatus slotId status >>= f) ghost post := by
  refine safe_ask_bind fun db history ghosts choice now clock hg hi hc => ?_
  rw [query_slotsUpdateStatus]
  obtain ⟨ghost', hi', hs, herr⟩ := h db history ghosts choice now clock
    (updated (db.slots.lookup slotId).isSome) hg hi hc
  refine ⟨ghost', hi', ?_⟩
  cases (db.slots.lookup slotId).isSome with
  | true => exact hs
  | false => exact herr recordNotFound

theorem safe_store (hinv : IgnoresReads guard inv) {config : Config}
    {input : CreateReservationInput} {slot : ParkingSlot}
    {post : Except Fault CreateReservationResult → Ghost → Prop}
    (h : ∀ db history ghosts choice start now clock bigger, ghosts thread = ghost →
      inv db history ghosts →
      guard ⟨db, clock⟩ history thread
        (.reservationsCreate (reservationData config input slot start)) choice →
      db.reservations.insert (PrismaReservationRepository.newRow db choice.uuid now
        (reservationData config input slot start)) = some bigger →
      ∃ ghost', inv { db with reservations := bigger }
          (⟨thread, .reservationsCreate (reservationData config input slot start),
            .ok (PrismaReservationRepository.newRow db choice.uuid now
              (reservationData config input slot start))⟩ :: history)
          (Function.update ghosts thread ghost') ∧
        post (.ok (.CREATED (PrismaReservationRepository.newRow db choice.uuid now
          (reservationData config input slot start)))) ghost') :
    SafeCall guard inv thread (CreateReservationUseCase.store config input slot) ghost post := by
  have hclock : (clock.now).Yields Settled fun result => ∃ start, result = .ok start :=
    fun answer ha => ha rfl
  refine safe_reads_bind hinv (uses_ask.mpr (by trivial)) hclock (fun err he => ?_) fun start _ => ?_
  · obtain ⟨_, he⟩ := he
    cases he
  refine safe_reservationsCreate_bind fun db history ghosts choice now clock bigger hg hi hc hb => ?_
  obtain ⟨ghost', hi', hpost⟩ := h db history ghosts choice start now clock bigger hg hi hc hb
  refine ⟨ghost', hi', ?_⟩
  refine safe_reads_bind hinv (announce_reads _) (announce_settles _) (fun err he => ?_) ?_
  · cases he
  · exact fun _ _ => hpost

-- After the eligibility check: one claim, and one insert after a claim that
-- found a slot. Nothing else is seen by the invariant.
theorem safe_reserve (hinv : IgnoresReads guard inv) {config : Config}
    {input : CreateReservationInput} {post : Except Fault CreateReservationResult → Ghost → Prop}
    (middle : ParkingSlot → Ghost → Prop)
    (hend : ∀ result, (∀ reservation, result ≠ .ok (.CREATED reservation)) → post result ghost)
    (hnone : ∀ db history ghosts event, ghosts thread = ghost → inv db history ghosts →
      event.thread = thread → event.call.Claims → claimed event = none → inv db (event :: history) ghosts)
    (hsome : ∀ db history ghosts event now slot, ghosts thread = ghost → inv db history ghosts →
      slot ∈ db.slots →
      PrismaParkingSlotRepository.available input.branchId input.slotType slot = true →
      event.thread = thread → event.call.Claims →
      claimed event = some (PrismaParkingSlotRepository.withStatus .RESERVADA now slot) →
      ∃ ghost', inv (PrismaParkingSlotRepository.setStatus db slot.id .RESERVADA now)
          (event :: history) (Function.update ghosts thread ghost') ∧
        middle (PrismaParkingSlotRepository.withStatus .RESERVADA now slot) ghost')
    (hstore : ∀ slot ghost', middle slot ghost' →
      SafeCall guard inv thread (CreateReservationUseCase.store config input slot) ghost' post) :
    SafeCall guard inv thread (CreateReservationUseCase.reserve config input) ghost post := by
  have herr : ∀ err, post (.error err) ghost := fun err => hend _ fun reservation he => by cases he
  rw [reserve_eq]
  refine safe_claimSlot_bind ?_ ?_
  · intro db history ghosts event hg hi ht hcall hc
    refine ⟨ghost, ?_, ?_⟩
    · rw [← hg, Function.update_eq_self]
      exact hnone db history ghosts event hg hi ht hcall hc
    · refine safe_reads_bind hinv (lookElsewhere_reads config _) (lookElsewhere_unassigned config _)
        (fun err _ => herr err) fun assignment hun => ?_
      cases assignment with
      | ASSIGNED slot => exact absurd rfl (hun slot)
      | SUGGEST_OTHER_BRANCH branch distanceKm => exact hend _ fun reservation he => by cases he
      | NO_AVAILABILITY => exact herr _
  · intro db history ghosts event now slot hg hi hm hav ht hcall hc
    obtain ⟨ghost', hi', hmid⟩ := hsome db history ghosts event now slot hg hi hm hav ht hcall hc
    exact ⟨ghost', hi', hstore _ ghost' hmid⟩

-- The same for a whole request, when the eligibility reads are not seen either.
theorem safe_create (hinv : IgnoresReads guard inv) {config : Config}
    {input : CreateReservationInput} {post : Except Fault CreateReservationResult → Ghost → Prop}
    (hend : ∀ err, post (.error err) ghost)
    (hreserve : SafeCall guard inv thread (CreateReservationUseCase.reserve config input) ghost
      post) :
    SafeCall guard inv thread (CreateReservationUseCase.execute config input) ghost post := by
  refine safe_reads_bind hinv (canCreateReservation_reads _) (Program.yields_true _)
    (fun err _ => hend err) fun eligibility _ => ?_
  cases eligibility.allowed with
  | true => exact hreserve
  | false => exact hend _

end SmartParking
