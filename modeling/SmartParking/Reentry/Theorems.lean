import SmartParking.Exclusivity.Theorems
import SmartParking.Reentry

namespace SmartParking

open Async

variable {db : Database} {now : ℤ}

-- The reservations and the slots of every state have the same ids and keep them.
section Housed

theorem housed_opening (branches : Table Branch.id Branch.id)
    (slots : Table ParkingSlot.id fun slot => (slot.branchId, slot.code)) :
    Housed (.opening branches slots) :=
  fun reservation hr => (Table.not_mem_empty reservation hr).elim

theorem Located.isSome {slotId branchId : Id} (h : Located db slotId branchId) :
    (db.slots.lookup slotId).isSome := by
  obtain ⟨slot, hl, -⟩ := Option.map_eq_some_iff.mp h
  exact Option.isSome_of_eq_some hl

theorem Located.setStatus {slotId branchId : Id} (h : Located db slotId branchId) (id : Id)
    (status : SlotStatus) (now : ℤ) :
    Located (PrismaParkingSlotRepository.setStatus db id status now) slotId branchId := by
  unfold Located
  rw [lookup_slots_setStatus]
  split
  · rename_i he
    rw [Option.map_map, ← he]
    exact h
  · exact h

theorem Housed.setSlotStatus (h : Housed db) (slotId : Id) (status : SlotStatus) (now : ℤ) :
    Housed (PrismaParkingSlotRepository.setStatus db slotId status now) :=
  fun reservation hr => (h reservation hr).setStatus slotId status now

theorem Housed.setReservationStatus (h : Housed db) (id : Id) (status : ReservationStatus)
    (confirmedAt : Option ℤ) :
    Housed (PrismaReservationRepository.setStatus db id status confirmedAt) := by
  intro reservation hr
  obtain ⟨old, hold, rfl⟩ := Table.mem_modify.mp hr
  split <;> exact h old hold

theorem Housed.insert (h : Housed db) {row : Reservation}
    {bigger : Table Reservation.id Reservation.id}
    (hb : db.reservations.insert row = some bigger) (hrow : Located db row.slotId row.branchId) :
    Housed { db with reservations := bigger } := by
  intro reservation hr
  rcases (Table.mem_insert hb).mp hr with hr | rfl
  · exact h reservation hr
  · exact hrow

-- The claim of a slot, when it finds one, is of a slot of the inventory.
theorem housed_claim (h : Housed db) (order : ParkingSlot → ParkingSlot → Prop)
    [DecidableRel order] (time : ℤ) (locked : Id → Bool) (branchId : Id) (type : Option SlotType) :
    Housed (PrismaParkingSlotRepository.claim order db time locked branchId type).2 := by
  rcases PrismaParkingSlotRepository.claim_cases order db time locked branchId type with
    ⟨slot, -, -, he⟩ | he
  · rw [he]
    exact h.setSlotStatus slot.id .RESERVADA time
  · rwa [he]

-- The calls that add no reservation.
def Call.Stores : Call → Prop
  | .reservationsCreate _ => False
  | _ => True

theorem housed_query {call : Call} (hcall : call.Stores) (h : Housed db) (choice : Choice) :
    Housed (query choice now db call).2 := by
  cases call with
  | reservationsCreate data => exact hcall.elim
  | slotsClaimAvailableSlot branchId type => exact housed_claim h _ _ _ _ _
  | slotsClaimLeastRecentlyUsedSlot branchId type => exact housed_claim h _ _ _ _ _
  | slotsUpdateStatus slotId status =>
      rw [query_slotsUpdateStatus]
      exact h.setSlotStatus slotId status now
  | reservationsUpdateStatus id status confirmedAt =>
      rw [query_reservationsUpdateStatus]
      exact h.setReservationStatus id status confirmedAt
  | sessionsCreate data =>
      rcases query_sessionsCreate db choice now data with ⟨bigger, -, hq⟩ | ⟨-, err, hq⟩
      · rw [hq]
        exact h
      · rwa [hq]
  | sessionsMarkCompleted id exitAt =>
      rw [query_sessionsMarkCompleted]
      exact h
  | _ => exact h

end Housed

section Lossy

variable {world : World} {α β : Type}

-- One call of an execution whose writes can be lost.
theorem lossy_ask_bind {call : Call} {f : Answer call → Port α}
    {post : Except Fault α → World → Prop}
    (hlost : call.writes = true → ∀ err, post (.error err) ⟨db, now⟩)
    (hserved : ∀ (choice : Choice) (later : ℤ), Program.continued (faulty serve Call.writes) f post
      (query choice later db call).1 ⟨(query choice later db call).2, later⟩) :
    (ask call >>= f).wp (faulty serve Call.writes) ⟨db, now⟩ post := by
  rw [Program.wp_bind]
  rintro ⟨lost, choice⟩
  cases lost with
  | none => exact hserved choice (now + choice.elapsed)
  | some err =>
      rw [faulty]
      split
      · rename_i hw
        exact hlost hw err
      · exact hserved choice (now + choice.elapsed)

theorem settled_lossy (choice : Option Fault × Choice) (world : World) (call : Call) :
    Settled call (faulty serve Call.writes choice world call).1 := by
  intro hf
  obtain ⟨lost, choice⟩ := choice
  have hw : call.writes = false := by cases call <;> first | rfl | cases hf
  cases lost with
  | none => exact settled_serve choice world call hf
  | some err =>
      rw [faulty, hw]
      exact settled_serve choice world call hf

-- The requests keep the invariant, whatever is lost.
def Houses (p : Port α) (world : World) : Prop :=
  p.wp (faulty serve Call.writes) world fun _ world' => Housed world'.db

theorem houses_of_stores {p : Port α} (hp : p.Uses Call.Stores) (h : Housed world.db) :
    Houses p world := by
  have hrel : p.wp (faulty serve Call.writes) world fun _ world' =>
      Housed world.db → Housed world'.db := by
    apply Program.wp_of_uses _ _ _ hp world
    · exact fun _ h => h
    · exact fun _ _ _ hab hbc h => hbc (hab h)
    · rintro call hcall ⟨lost, choice⟩ world' h'
      cases lost with
      | none => exact housed_query hcall h' choice
      | some err =>
          rw [faulty]
          split
          · exact h'
          · exact housed_query hcall h' choice
  exact Program.wp_mono hrel fun _ _ hkeeps => hkeeps h

theorem houses_bind {p : Port α} {f : α → Port β} (hp : Houses p world)
    (hf : ∀ value world', Housed world'.db → Houses (f value) world') : Houses (p >>= f) world := by
  rw [Houses, Program.wp_bind]
  refine Program.wp_mono hp fun result world' h => ?_
  cases result with
  | ok value => exact hf value world' h
  | error err => exact h

theorem stores_of_reads {p : Port α} (hp : p.Uses Call.Reads) : p.Uses Call.Stores :=
  hp.mono fun call hcall => by cases call <;> trivial

theorem stores_of_ends {p : Port α} (hp : p.Uses Call.Ends) : p.Uses Call.Stores :=
  hp.mono fun call hcall => by cases call <;> trivial

variable {config : Config} {input : CreateReservationInput}

theorem houses_store (h : Housed db) {slot : ParkingSlot}
    (hslot : Located db slot.id input.branchId) :
    Houses (CreateReservationUseCase.store config input slot) ⟨db, now⟩ := by
  have hcreate : ∀ data : CreateReservationData, Located db data.slotId data.branchId → ∀ later,
      Houses (reservations.create data >>= announced) ⟨db, later⟩ := by
    intro data hdata later
    refine lossy_ask_bind (fun _ _ => h) fun choice later' => ?_
    obtain ⟨bigger, hb, hq⟩ := query_reservationsCreate db choice later' data
    rw [hq]
    exact houses_of_stores (stores_of_reads (announced_reads _)) (h.insert hb hdata)
  rw [store_eq]
  exact lossy_ask_bind (fun _ _ => h) fun _ later => hcreate _ hslot later

theorem houses_lookElsewhere (h : Housed db) :
    Houses (afterClaim config input none) ⟨db, now⟩ := by
  have hreads : Houses (lookElsewhere config (wanted input)) ⟨db, now⟩ :=
    houses_of_stores (stores_of_reads (lookElsewhere_reads config (wanted input))) h
  have hnone := Program.wp_of_yields settled_lossy
    (lookElsewhere_unassigned config (wanted input)) ⟨db, now⟩
  rw [Houses, afterClaim, Program.wp_bind]
  refine Program.wp_mono (Program.wp_and hreads hnone) ?_
  rintro result world' ⟨h', hun⟩
  cases result with
  | error err => exact h'
  | ok assignment =>
      cases assignment with
      | ASSIGNED slot => exact absurd rfl (hun slot)
      | SUGGEST_OTHER_BRANCH suggestedBranch distanceKm => exact h'
      | NO_AVAILABILITY => exact h'

-- The claim gives the request a slot that exists.
theorem houses_reserve (h : Housed db) :
    Houses (CreateReservationUseCase.reserve config input) ⟨db, now⟩ := by
  have hclaim : ∀ (order : ParkingSlot → ParkingSlot → Prop) [DecidableRel order]
      (choice : Choice) (later : ℤ), Program.continued (faulty serve Call.writes)
        (afterClaim config input) (fun _ world' => Housed world'.db)
        (.ok (PrismaParkingSlotRepository.claim order db later choice.locked input.branchId
          input.slotType).1)
        ⟨(PrismaParkingSlotRepository.claim order db later choice.locked input.branchId
          input.slotType).2, later⟩ := by
    intro order _ choice later
    rcases PrismaParkingSlotRepository.claim_cases order db later choice.locked input.branchId
      input.slotType with ⟨slot, hm, ha, he⟩ | he
    · rw [he]
      have hslot : Located db slot.id input.branchId := by
        simp only [PrismaParkingSlotRepository.available, Bool.and_eq_true, decide_eq_true_eq] at ha
        rw [Located, Table.lookup_key hm, Option.map_some, ha.1.1]
      exact houses_store (h.setSlotStatus slot.id .RESERVADA later)
        (hslot.setStatus slot.id .RESERVADA later)
    · rw [he]
      exact houses_lookElsewhere h
  rw [reserve_eq]
  unfold claimSlot
  cases config.strategy with
  | default => exact lossy_ask_bind (fun _ _ => h) fun choice later => hclaim _ choice later
  | balanced => exact lossy_ask_bind (fun _ _ => h) fun choice later => hclaim _ choice later

theorem houses_create (h : Housed world.db) :
    Houses (CreateReservationUseCase.execute config input) world := by
  refine houses_bind (houses_of_stores (stores_of_reads (canCreateReservation_reads _)) h)
    fun eligibility world' h' => ?_
  split
  · exact h'
  · exact houses_reserve h'

theorem entry_stores (token : String) : (RegisterEntryUseCase.execute token).Uses Call.Stores :=
  uses_entry (fun call hcall => by cases call <;> trivial) token (fun _ _ => trivial)
    (fun _ => trivial) fun _ => trivial

theorem houses_operation (h : Housed world.db) (operation : Operation) :
    Houses (operation.execute config) world := by
  cases operation with
  | CreateReservation input => exact houses_bind (houses_create h) fun _ _ h' => h'
  | CancelReservation input =>
      exact houses_bind (houses_of_stores (stores_of_ends (cancel_ends input)) h) fun _ _ h' => h'
  | ExpireOverdueReservations =>
      exact houses_bind (houses_of_stores (stores_of_ends expire_ends) h) fun _ _ h' => h'
  | RegisterEntry token =>
      exact houses_bind (houses_of_stores (entry_stores token) h) fun _ _ h' => h'
  | RegisterExit token =>
      exact houses_bind (houses_of_stores (stores_of_ends (exit_ends token)) h) fun _ _ h' => h'

-- An execution in which no write is lost.
theorem housed_execute (h : Housed world.db) (operation : Operation) (choices : ℕ → Choice) :
    Housed ((operation.execute config).run serve choices world).2.db := by
  rw [← Program.run_faulty_none Call.writes]
  exact Program.run_of_wp (houses_operation h operation) _

theorem housed_playAll (h : Housed world.db) (turns : List LossyTurn) :
    Housed (LossyTurn.playAll config world turns).db := by
  induction turns generalizing world with
  | nil => exact h
  | cons turn rest ih => exact ih (Program.run_of_wp (houses_operation h turn.operation) _)

end Lossy

-- What an entry does to a reservation that is open and has started.
section Enter

variable {reservation : Reservation} {time : ℤ}

theorem isSome_lookup_of_mem (hr : reservation ∈ db.reservations) :
    (db.reservations.lookup reservation.id).isSome := by
  rw [Table.lookup_key hr]
  rfl

theorem wp_confirmIfPending_bind {α : Type} {f : Unit → Port α}
    {post : Except Fault α → World → Prop} (hr : reservation ∈ db.reservations)
    (hlive : reservation.status.Live)
    (h : ∀ db' later, db'.sessions = db.sessions → db'.slots = db.slots →
      (∃ confirmed ∈ db'.reservations, confirmed.id = reservation.id ∧
        confirmed.status = .CONFIRMED ∧ confirmed.slotId = reservation.slotId) →
      (f ()).wp serve ⟨db', later⟩ post) :
    (DefaultParkingPolicy.confirmIfPending reservation time >>= f).wp serve ⟨db, now⟩ post := by
  unfold DefaultParkingPolicy.confirmIfPending
  rcases hlive with hs | hs
  · rw [if_pos hs]
    refine wp_reservationsUpdateStatus_bind (isSome_lookup_of_mem hr) fun later _ => h _ later rfl rfl ?_
    exact ⟨_, Table.mem_modify.mpr ⟨reservation, hr, rfl⟩, by simp [PrismaReservationRepository.withStatus]⟩
  · rw [if_neg (by simp [hs])]
    exact h db now rfl rfl ⟨reservation, hr, rfl, hs, rfl⟩

theorem answers_enter (hr : reservation ∈ db.reservations) (hlive : reservation.status.Live)
    (hstart : reservation.startAt ≤ time) (hslot : (db.slots.lookup reservation.slotId).isSome)
    (hfree : ∀ session ∈ db.sessions, session.reservationId ≠ reservation.id) :
    (DefaultParkingPolicy.enter reservation time).wp serve ⟨db, now⟩ fun result world' =>
      Answers db reservation.id time result world'.db := by
  refine wp_confirmIfPending_bind hr hlive fun db' later hsessions hslots hconfirmed => ?_
  refine wp_sessionsCreate_bind (hsessions ▸ hfree) fun uuid _ bigger _ hb => ?_
  refine wp_slotsUpdateStatus_bind (hslots ▸ hslot) fun later _ => ?_
  refine .entered ⟨reservation, hr, rfl, hlive, hstart, hfree⟩ {
    stored := (Table.mem_insert hb).mpr (.inr rfl)
    fresh := fun old hold => (Table.insert_fresh hb).1 old (hsessions ▸ hold)
    active := rfl
    ofReservation := rfl
    confirmed := ?_ }
  obtain ⟨confirmed, hm, hid, hs, hslotId⟩ := hconfirmed
  refine ⟨confirmed, hm, hid, hs, ?_⟩
  rw [slotStatus_slots_setStatus, if_pos hslotId, Option.map_eq_some_iff]
  obtain ⟨slot, hl⟩ := Option.isSome_iff_exists.mp hslot
  exact ⟨slot.status, by rw [slotStatus, hslots, hl]; rfl, rfl⟩

-- The insert of a second session is refused by the database.
theorem answers_enter_spent (hr : reservation ∈ db.reservations)
    (hlive : reservation.status.Live) (hspent : Spent db reservation.id time)
    {session : ParkingSession} (hm : session ∈ db.sessions)
    (hid : session.reservationId = reservation.id) :
    (DefaultParkingPolicy.enter reservation time).wp serve ⟨db, now⟩ fun result world' =>
      Answers db reservation.id time result world'.db := by
  refine wp_confirmIfPending_bind hr hlive fun db' later hsessions _ _ => ?_
  refine wp_ask_bind fun choice later' _ => ?_
  rcases query_sessionsCreate db' choice later' {
      reservationId := reservation.id
      userId := reservation.userId
      slotId := reservation.slotId
      entryAt := time } with ⟨bigger, hb, -⟩ | ⟨-, text, hq⟩
  · exact absurd hid ((Table.insert_fresh hb).2 session (hsessions ▸ hm))
  · rw [hq]
    exact .broken hspent

theorem admissible_iff (hr : reservation ∈ db.reservations) :
    Admissible db reservation.id time ↔ reservation.status.Live ∧ reservation.startAt ≤ time ∧
      ∀ session ∈ db.sessions, session.reservationId ≠ reservation.id := by
  constructor
  · rintro ⟨other, ho, hid, hopen⟩
    obtain rfl := Table.eq_of_key_eq ho hr hid
    exact hopen
  · exact fun hopen => ⟨reservation, hr, rfl, hopen⟩

theorem spent_iff (hr : reservation ∈ db.reservations) : Spent db reservation.id time ↔
    reservation.status.Live ∧ reservation.startAt ≤ time ∧ ∃ session ∈ db.sessions,
      session.reservationId = reservation.id ∧ session.status = .COMPLETED := by
  constructor
  · rintro ⟨other, ho, hid, hspent⟩
    obtain rfl := Table.eq_of_key_eq ho hr hid
    exact hspent
  · exact fun hspent => ⟨reservation, hr, rfl, hspent⟩

theorem closed_iff : DefaultParkingPolicy.closed reservation = true ↔
    ¬reservation.status.Live := by
  cases hs : reservation.status <;> simp [DefaultParkingPolicy.closed, ReservationStatus.Live, hs]

theorem wp_registerEntry (h : Housed db) (reservationId : Id) (time : ℤ) :
    (DefaultParkingPolicy.registerEntry reservationId time).wp serve ⟨db, now⟩
      fun result world' => Answers db reservationId time result world'.db := by
  refine wp_read_bind (fun _ _ => rfl) fun later _ => ?_
  cases hl : PrismaReservationRepository.findById db reservationId with
  | none =>
      have hnone := Table.lookup_eq_none.mp hl
      exact .refused (fun ⟨reservation, hr, hid, _⟩ => hnone reservation hr hid)
        fun ⟨reservation, hr, hid, _⟩ => hnone reservation hr hid
  | some reservation =>
      obtain ⟨hr, rfl⟩ := Table.lookup_eq_some.mp hl
      have hopen : Admissible db reservation.id time ↔ _ := admissible_iff hr
      have hspent : Spent db reservation.id time ↔ _ := spent_iff hr
      dsimp only
      split
      · rename_i hclosed
        exact .refused (fun ho => closed_iff.mp hclosed (hopen.mp ho).1)
          fun hs => closed_iff.mp hclosed (hspent.mp hs).1
      rename_i hclosed
      split
      · exact .refused (fun ho => by linarith [(hopen.mp ho).2.1])
          fun hs => by linarith [(hspent.mp hs).2.1]
      refine wp_read_bind (fun _ _ => rfl) fun later' _ => ?_
      have hlive : reservation.status.Live := not_not.mp (closed_iff.not.mp hclosed)
      cases he : PrismaParkingSessionRepository.findByReservationId db reservation.id with
      | none =>
          exact answers_enter hr hlive (by omega) (h reservation hr).isSome
            (Table.lookupBy_eq_none.mp he)
      | some session =>
          obtain ⟨hm, hid⟩ := Table.lookupBy_eq_some.mp he
          cases hstatus : session.status with
          | ACTIVE =>
              rw [Option.any_some, ParkingSession.isActive, hstatus]
              refine .refused (fun ho => (hopen.mp ho).2.2 session hm hid) fun hs => ?_
              obtain ⟨-, -, other, ho, hoid, hcompleted⟩ := hspent.mp hs
              obtain rfl := Table.eq_of_mark_eq ho hm (hoid.trans hid.symm)
              rw [hstatus] at hcompleted
              cases hcompleted
          | COMPLETED =>
              rw [Option.any_some, ParkingSession.isActive, hstatus]
              exact answers_enter_spent hr hlive
                (hspent.mpr ⟨hlive, by omega, session, hm, hid, hstatus⟩) hm hid

theorem clean_iff_of_answers {reservationId : Id} {result : Except Fault ParkingSession}
    {world : World} (h : Answers db reservationId time result world.db) :
    Clean db reservationId (result, world) ↔ ¬Spent db reservationId time := by
  obtain ⟨after, later⟩ := world
  cases h with
  | entered hopen hentered =>
      refine iff_of_true hentered fun hs => ?_
      obtain ⟨reservation, hr, rfl, -, -, session, hm, hid, -⟩ := hs
      exact ((admissible_iff hr).mp hopen).2.2 session hm hid
  | refused hopen hspent => exact iff_of_true ⟨rfl, rfl, rfl⟩ hspent
  | broken hspent => exact iff_of_false id fun hs => hs hspent

end Enter

-- In every state that requests leave, whatever writes were lost, an entry succeeds
-- or is refused cleanly, unless the reservation is open and has had its session.
theorem clean_iff (config : Config) (branches : Table Branch.id Branch.id)
    (slots : Table ParkingSlot.id fun slot => (slot.branchId, slot.code)) (clock : ℤ)
    (turns : List LossyTurn) (reservationId : Id) (now : ℤ) (choices : ℕ → Choice) :
    let world := LossyTurn.playAll config ⟨.opening branches slots, clock⟩ turns
    Clean world.db reservationId
        ((DefaultParkingPolicy.registerEntry reservationId now).run serve choices world) ↔
      ¬Spent world.db reservationId now :=
  clean_iff_of_answers (Program.run_of_wp
    (wp_registerEntry (housed_playAll (housed_opening branches slots) turns) reservationId now)
    choices)

-- The code of the entry is shown again.
theorem refused_interrupted : ((DefaultParkingPolicy.registerEntry "r1" 100).run serve
    (fun _ => Demo.choice "r1")
    (LossyTurn.playAll Demo.config ⟨.opening Demo.branches Demo.slots, 0⟩ Demo.interrupted)).1 =
      .error (.infrastructure "Unique constraint failed on the fields: (`reservationId`)") := by
  decide +kernel

theorem clean_fails : ¬∀ (config : Config) (branches : Table Branch.id Branch.id)
    (slots : Table ParkingSlot.id fun slot => (slot.branchId, slot.code)) (clock : ℤ)
    (turns : List LossyTurn) (reservationId : Id) (now : ℤ) (choices : ℕ → Choice),
    let world := LossyTurn.playAll config ⟨.opening branches slots, clock⟩ turns
    Clean world.db reservationId
      ((DefaultParkingPolicy.registerEntry reservationId now).run serve choices world) := by
  intro h
  have hclean := h Demo.config Demo.branches Demo.slots 0 Demo.interrupted "r1" 100 fun _ =>
    Demo.choice "r1"
  simp only [Clean, refused_interrupted] at hclean

end SmartParking
