import SmartParking.Exclusivity
import SmartParking.Backend.Footprints

namespace SmartParking

open Async

variable {db : Database}

-- What each write does to the invariant.
section Writes

-- A row after an update has its owner from before, and was live if it still is.
theorem mem_reservations_cases {id : Id} {status : ReservationStatus} {confirmedAt : Option ℤ}
    (hlive : status.Live → ∀ reservation ∈ db.reservations, reservation.id = id →
      reservation.status.Live) {reservation : Reservation}
    (hm : reservation ∈ (PrismaReservationRepository.setStatus db id status
      confirmedAt).reservations) :
    ∃ old ∈ db.reservations, reservation.id = old.id ∧ reservation.userId = old.userId ∧
      (reservation.status.Live → old.status.Live) := by
  rcases Table.mem_modify_cases hm with ⟨old, hold, hid, rfl⟩ | ⟨hold, -⟩
  · exact ⟨old, hold, rfl, rfl, fun h => hlive h old hold hid⟩
  · exact ⟨reservation, hold, rfl, rfl, fun h => h⟩

theorem mem_sessions_cases {id : Id} {exitAt : ℤ} {session : ParkingSession}
    (hm : session ∈ (PrismaParkingSessionRepository.setCompleted db id exitAt).sessions) :
    ∃ old ∈ db.sessions, session.id = old.id ∧ session.reservationId = old.reservationId ∧
      session.userId = old.userId ∧ session.slotId = old.slotId ∧
      (session.status = .ACTIVE → old.status = .ACTIVE) := by
  rcases Table.mem_modify_cases hm with ⟨old, hold, -, rfl⟩ | ⟨hold, -⟩
  · exact ⟨old, hold, rfl, rfl, rfl, rfl, fun h => by cases h⟩
  · exact ⟨session, hold, rfl, rfl, rfl, rfl, fun h => h⟩

namespace Guarded

-- An update that brings no reservation back to life.
theorem setStatus (h : Guarded db) {id : Id} {status : ReservationStatus}
    (confirmedAt : Option ℤ) (hlive : status.Live → ∀ reservation ∈ db.reservations,
      reservation.id = id → reservation.status.Live) :
    Guarded (PrismaReservationRepository.setStatus db id status confirmedAt) where
  active := h.active
  sole := h.sole
  covered session hs hactive reservation hr hl huser := by
    obtain ⟨old, hold, hid, hu, holdLive⟩ := mem_reservations_cases hlive hr
    rw [hid]
    exact h.covered session hs hactive old hold (holdLive hl) (hu ▸ huser)
  owned session hs := by
    obtain ⟨reservation, hr, hid, hu, hslot⟩ := h.owned session hs
    refine ⟨_, Table.mem_modify.mpr ⟨reservation, hr, rfl⟩, ?_⟩
    split <;> exact ⟨hid, hu, hslot⟩
  live reservation hr other ho hl hl' huser := by
    obtain ⟨old, hold, hid, hu, holdLive⟩ := mem_reservations_cases hlive hr
    obtain ⟨old', hold', hid', hu', holdLive'⟩ := mem_reservations_cases hlive ho
    refine Table.eq_of_key_eq hr ho (hid.trans (Eq.trans ?_ hid'.symm))
    rw [h.live old hold old' hold' (holdLive hl) (holdLive' hl') (by rw [← hu, ← hu', huser])]

theorem setCompleted (h : Guarded db) (id : Id) (exitAt : ℤ) :
    Guarded (PrismaParkingSessionRepository.setCompleted db id exitAt) where
  live := h.live
  active session hs other ho hactive hactive' huser := by
    obtain ⟨old, hold, hid, -, hu, -, ha⟩ := mem_sessions_cases hs
    obtain ⟨old', hold', hid', -, hu', -, ha'⟩ := mem_sessions_cases ho
    refine Table.eq_of_key_eq hs ho (hid.trans (Eq.trans ?_ hid'.symm))
    rw [h.active old hold old' hold' (ha hactive) (ha' hactive') (by rw [← hu, ← hu', huser])]
  covered session hs hactive reservation hr hl huser := by
    obtain ⟨old, hold, -, hrid, hu, -, ha⟩ := mem_sessions_cases hs
    rw [hrid]
    exact h.covered old hold (ha hactive) reservation hr hl (huser.trans hu)
  sole session hs other ho hrid := Table.eq_of_mark_eq hs ho hrid
  owned session hs := by
    obtain ⟨old, hold, -, hrid, hu, hslot, -⟩ := mem_sessions_cases hs
    rw [hrid, hu, hslot]
    exact h.owned old hold

-- A reservation of a user who has nothing.
theorem reserve (h : Guarded db) {row : Reservation}
    {bigger : Table Reservation.id Reservation.id}
    (hb : db.reservations.insert row = some bigger)
    (hnone : ∀ reservation ∈ db.reservations, reservation.status.Live →
      reservation.userId ≠ row.userId)
    (hidle : ∀ session ∈ db.sessions, session.status = .ACTIVE → session.userId ≠ row.userId) :
    Guarded { db with reservations := bigger } where
  active := h.active
  sole := h.sole
  covered session hs hactive reservation hr hl huser := by
    rcases (Table.mem_insert hb).mp hr with hr | rfl
    · exact h.covered session hs hactive reservation hr hl huser
    · exact absurd huser.symm (hidle session hs hactive)
  owned session hs := by
    obtain ⟨reservation, hr, hrest⟩ := h.owned session hs
    exact ⟨reservation, (Table.mem_insert hb).mpr (.inl hr), hrest⟩
  live reservation hr other ho hl hl' huser := by
    rcases (Table.mem_insert hb).mp hr with hr | rfl <;>
      rcases (Table.mem_insert hb).mp ho with ho | rfl
    · exact h.live reservation hr other ho hl hl' huser
    · exact absurd huser (hnone reservation hr hl)
    · exact absurd huser.symm (hnone other ho hl')
    · rfl

-- A session of a live reservation that has none. Another ACTIVE session of the
-- user would be of the same reservation.
theorem enter (h : Guarded db) {row : ParkingSession}
    {bigger : Table ParkingSession.id ParkingSession.reservationId}
    (hb : db.sessions.insert row = some bigger) {reservation : Reservation}
    (hr : reservation ∈ db.reservations) (hlive : reservation.status.Live)
    (hid : row.reservationId = reservation.id) (huser : row.userId = reservation.userId)
    (hslot : row.slotId = reservation.slotId) :
    Guarded { db with sessions := bigger } where
  live := h.live
  active session hs other ho hactive hactive' hu := by
    have hnew : ∀ old ∈ db.sessions, old.status = .ACTIVE → old.userId ≠ row.userId := by
      intro old hold ha he
      have hcovered := h.covered old hold ha reservation hr hlive (huser.symm.trans he.symm)
      exact (Table.insert_fresh hb).2 old hold (hcovered.symm.trans hid.symm)
    rcases (Table.mem_insert hb).mp hs with hs | rfl <;>
      rcases (Table.mem_insert hb).mp ho with ho | rfl
    · exact h.active session hs other ho hactive hactive' hu
    · exact absurd hu (hnew session hs hactive)
    · exact absurd hu.symm (hnew other ho hactive')
    · rfl
  covered session hs hactive other ho hl hu := by
    rcases (Table.mem_insert hb).mp hs with hs | rfl
    · exact h.covered session hs hactive other ho hl hu
    · rw [h.live other ho reservation hr hl hlive (hu.trans huser), hid]
  sole session hs other ho hrid := Table.eq_of_mark_eq hs ho hrid
  owned session hs := by
    rcases (Table.mem_insert hb).mp hs with hs | rfl
    · exact h.owned session hs
    · exact ⟨reservation, hr, hid.symm, huser.symm, hslot.symm⟩

end Guarded

end Writes

-- What each request keeps.
section Requests

variable {config : Config} {now : ℤ} {α β : Type}

abbrev Guards (p : Port α) (db : Database) (now : ℤ) : Prop :=
  p.wp serve ⟨db, now⟩ fun _ world => Guarded world.db

theorem guarded_claim (h : Guarded db) (order : ParkingSlot → ParkingSlot → Prop)
    [DecidableRel order] (time : ℤ) (locked : Id → Bool) (branchId : Id)
    (type : Option SlotType) :
    Guarded (PrismaParkingSlotRepository.claim order db time locked branchId type).2 := by
  rcases PrismaParkingSlotRepository.claim_cases order db time locked branchId type with
    ⟨slot, -, -, he⟩ | he
  · rw [he]
    exact ⟨⟨h.active, h.covered, h.sole, h.owned⟩, h.live⟩
  · rw [he]
    exact h

theorem guarded_of_ends {call : Call} (hcall : call.Ends) (h : Guarded db) (choice : Choice)
    (time : ℤ) : Guarded (query choice time db call).2 := by
  cases call with
  | reservationsCreate data => exact hcall.elim
  | sessionsCreate data => exact hcall.elim
  | reservationsUpdateStatus id status confirmedAt =>
      rw [query_reservationsUpdateStatus]
      exact h.setStatus confirmedAt fun hlive => absurd hlive hcall
  | sessionsMarkCompleted id exitAt =>
      rw [query_sessionsMarkCompleted]
      exact h.setCompleted id exitAt
  | slotsUpdateStatus slotId status =>
      rw [query_slotsUpdateStatus]
      exact ⟨⟨h.active, h.covered, h.sole, h.owned⟩, h.live⟩
  | slotsClaimAvailableSlot branchId type => exact guarded_claim h _ _ _ _ _
  | slotsClaimLeastRecentlyUsedSlot branchId type => exact guarded_claim h _ _ _ _ _
  | _ => exact h

theorem guards_of_ends {p : Port α} (hp : p.Uses Call.Ends) (h : Guarded db) :
    Guards p db now := by
  have hrel : ∀ world : World,
      p.wp serve world fun _ world' => Guarded world.db → Guarded world'.db := by
    intro world
    apply Program.wp_of_uses _ _ _ hp world
    · exact fun _ h => h
    · exact fun _ _ _ hab hbc h => hbc (hab h)
    · exact fun _ hcall choice _ h => guarded_of_ends hcall h choice _
  exact Program.wp_mono (hrel ⟨db, now⟩) fun _ _ hg => hg h

theorem ends_of_reads {call : Call} (h : call.Reads) : call.Ends := by
  cases call <;> trivial

theorem guards_of_reads {p : Port α} (hp : p.Uses Call.Reads) (h : Guarded db) :
    Guards p db now :=
  guards_of_ends (hp.mono fun _ => ends_of_reads) h

theorem guards_bind {p : Port α} {f : α → Port β} (hp : Guards p db now)
    (hf : ∀ value db' later, Guarded db' → Guards (f value) db' later) :
    Guards (p >>= f) db now := by
  unfold Guards
  rw [Program.wp_bind]
  refine Program.wp_mono hp fun result world h => ?_
  cases result with
  | ok value => exact hf value world.db world.clock h
  | error err => exact h

theorem cancel_ends (input : CancelReservationInput) :
    (CancelReservationUseCase.execute input).Uses Call.Ends :=
  uses_cancel (fun _ => ends_of_reads) input (fun _ => (by decide : ¬_)) fun _ => trivial

theorem expire_ends : ExpireOverdueReservationsUseCase.execute.Uses Call.Ends :=
  uses_expire (fun _ => ends_of_reads) (fun _ => (by decide : ¬_)) fun _ => trivial

theorem exit_ends (token : String) : (RegisterExitUseCase.execute token).Uses Call.Ends :=
  uses_exit (fun _ => ends_of_reads) token (fun _ _ => trivial) (fun _ => trivial)
    fun _ => (by decide : ¬_)

-- A user who can create a reservation has nothing.
theorem wp_canCreateReservation_bind {userId : Id} {f : ReservationEligibility → Port α}
    {post : Except Fault α → World → Prop}
    (hf : ∀ eligibility later, (eligibility.allowed = true →
        (∀ reservation ∈ db.reservations, reservation.status.Live →
          reservation.userId ≠ userId) ∧
        ∀ session ∈ db.sessions, session.status = .ACTIVE → session.userId ≠ userId) →
      (f eligibility).wp serve ⟨db, later⟩ post) :
    (DefaultReservationPolicy.canCreateReservation userId >>= f).wp serve ⟨db, now⟩ post := by
  unfold DefaultReservationPolicy.canCreateReservation
  rw [bind_assoc]
  refine wp_read_bind (fun _ _ => rfl) fun later _ => ?_
  cases hr : PrismaReservationRepository.findActiveByUser db userId with
  | some reservation => exact hf _ later fun h => by cases h
  | none =>
      dsimp only
      rw [bind_assoc]
      refine wp_read_bind (fun _ _ => rfl) fun later' _ => ?_
      cases hs : PrismaParkingSessionRepository.findActiveByUser db userId with
      | some session => exact hf _ later' fun h => by cases h
      | none =>
          refine hf _ later' fun _ => ⟨fun reservation hm hlive huser => ?_,
            fun session hm hactive huser => ?_⟩
          · exact List.find?_eq_none.mp hr reservation hm (decide_eq_true ⟨huser, hlive⟩)
          · exact List.find?_eq_none.mp hs session hm (decide_eq_true ⟨huser, hactive⟩)

theorem guards_create (h : Guarded db) (input : CreateReservationInput) :
    Guards (CreateReservationUseCase.execute config input) db now := by
  refine wp_canCreateReservation_bind fun eligibility _ hfree => ?_
  cases he : eligibility.allowed with
  | false => exact h
  | true =>
      obtain ⟨hnone, hidle⟩ := hfree he
      change Guards (CreateReservationUseCase.reserve config input) db _
      rw [reserve_eq]
      refine wp_claimSlot_bind (fun _ _ => ?_) fun slot _ _ claimedAt _ => ?_
      · refine wp_lookElsewhere_bind (fun _ _ _ => h) fun assignment _ _ hun => ?_
        cases assignment with
        | ASSIGNED slot => exact absurd rfl (hun slot)
        | SUGGEST_OTHER_BRANCH branch distanceKm => exact h
        | NO_AVAILABILITY => exact h
      · have hclaimed : Guarded
            (PrismaParkingSlotRepository.setStatus db slot.id .RESERVADA claimedAt) :=
          ⟨⟨h.active, h.covered, h.sole, h.owned⟩, h.live⟩
        refine wp_clockNow_bind fun start _ =>
          wp_reservationsCreate_bind fun uuid later bigger _ hb => ?_
        refine guards_bind (guards_of_reads (announce_reads _) ?_) fun _ _ _ h' => h'
        exact hclaimed.reserve hb hnone hidle

-- What an entry does: it keeps the invariant, and only returns a session of a
-- reservation that had none.
def Enters (db : Database) (result : Except Fault ParkingSession) (world : World) : Prop :=
  Guarded world.db ∧ ∀ session, result = .ok session →
    ∀ old ∈ db.sessions, old.reservationId ≠ session.reservationId

theorem enters_refused (h : Guarded db) {before : Database} (err : Fault) (later : ℤ) :
    Enters before (.error err) ⟨db, later⟩ :=
  ⟨h, fun _ he => by cases he⟩

-- The session is stored unless the reservation has one.
theorem enters_create {before : Database} (h : Guarded db) (hs : db.sessions = before.sessions)
    {reservation : Reservation} (hr : reservation ∈ db.reservations)
    (hlive : reservation.status.Live) (entryAt : ℤ) :
    (sessions.create {
        reservationId := reservation.id
        userId := reservation.userId
        slotId := reservation.slotId
        entryAt } >>= fun session => slots.updateStatus reservation.slotId .OCUPADA >>= fun _ =>
          pure session).wp serve ⟨db, now⟩ (Enters before) := by
  refine wp_ask_bind fun choice later _ => ?_
  rcases query_sessionsCreate db choice later _ with ⟨bigger, hb, hq⟩ | ⟨-, err, hq⟩
  · rw [hq]
    refine wp_ask_bind fun choice' later' _ => ?_
    have hguarded := h.enter hb hr hlive rfl rfl rfl
    have hoccupied : Guarded (PrismaParkingSlotRepository.setStatus
        { db with sessions := bigger } reservation.slotId .OCUPADA later') :=
      ⟨⟨hguarded.active, hguarded.covered, hguarded.sole, hguarded.owned⟩, hguarded.live⟩
    rw [query_slotsUpdateStatus]
    unfold updated
    split
    · refine ⟨hoccupied, fun session he => ?_⟩
      cases he
      exact hs ▸ (Table.insert_fresh hb).2
    · exact enters_refused hoccupied _ _
  · rw [hq]
    exact enters_refused h _ _

theorem enters_enter (h : Guarded db) {reservation : Reservation}
    (hr : reservation ∈ db.reservations) (hlive : reservation.status.Live) (time : ℤ) :
    (DefaultParkingPolicy.enter reservation time).wp serve ⟨db, now⟩ (Enters db) := by
  unfold DefaultParkingPolicy.enter DefaultParkingPolicy.confirmIfPending
  split
  · have hfound : (db.reservations.lookup reservation.id).isSome := by
      rw [Table.lookup_key hr]
      rfl
    refine wp_reservationsUpdateStatus_bind hfound fun _ _ => ?_
    have hconfirmed : PrismaReservationRepository.withStatus .CONFIRMED (some time) reservation ∈
        (PrismaReservationRepository.setStatus db reservation.id .CONFIRMED
          (some time)).reservations :=
      Table.mem_modify.mpr ⟨reservation, hr, by rw [if_pos rfl]⟩
    refine enters_create (h.setStatus (some time) fun _ other ho hid => ?_) rfl hconfirmed
      (.inr rfl) time
    rwa [Table.eq_of_key_eq ho hr hid]
  · exact enters_create h rfl hr hlive time

theorem enters_registerEntry (h : Guarded db) (reservationId : Id) (time : ℤ) :
    (DefaultParkingPolicy.registerEntry reservationId time).wp serve ⟨db, now⟩ (Enters db) := by
  refine wp_read_bind (fun _ _ => rfl) fun later _ => ?_
  cases hl : PrismaReservationRepository.findById db reservationId with
  | none => exact enters_refused h _ _
  | some reservation =>
      obtain ⟨hr, -⟩ := Table.lookup_eq_some.mp hl
      dsimp only
      split
      · exact enters_refused h _ _
      · rename_i hclosed
        have hlive : reservation.status.Live := by
          cases hs : reservation.status <;>
            simp_all [DefaultParkingPolicy.closed, ReservationStatus.Live]
        split
        · exact enters_refused h _ _
        · refine wp_read_bind (fun _ _ => rfl) fun later' _ => ?_
          split
          · exact enters_refused h _ _
          · exact enters_enter h hr hlive time

theorem enters_entry (h : Guarded db) (token : String) :
    (RegisterEntryUseCase.execute token).wp serve ⟨db, now⟩ (Enters db) := by
  refine wp_entry token (fun _ _ _ => enters_refused h _ _) fun reservationId time _ => ?_
  refine Program.wp_bind.mpr (Program.wp_mono (enters_registerEntry h reservationId time) ?_)
  rintro result ⟨db', later⟩ he
  cases result with
  | error err => exact ⟨he.1, fun _ h => by cases h⟩
  | ok session =>
      refine wp_reads_bind (announceEntry_reads session _)
        (fun _ _ _ => enters_refused he.1 _ _) fun _ _ _ => ⟨he.1, fun other ho => ?_⟩
      cases ho
      exact he.2 session rfl

theorem guards_operation (h : Guarded db) (operation : Operation) :
    Guards (operation.execute config) db now := by
  cases operation with
  | CreateReservation input => exact guards_bind (guards_create h input) fun _ _ _ h' => h'
  | CancelReservation input =>
      exact guards_bind (guards_of_ends (cancel_ends input) h) fun _ _ _ h' => h'
  | ExpireOverdueReservations => exact guards_bind (guards_of_ends expire_ends h) fun _ _ _ h' => h'
  | RegisterEntry token =>
      exact guards_bind (Program.wp_mono (enters_entry h token) fun _ _ he => he.1)
        fun _ _ _ h' => h'
  | RegisterExit token =>
      exact guards_bind (guards_of_ends (exit_ends token) h) fun _ _ _ h' => h'

theorem noEntry (h : Guarded db) {session : ParkingSession} (hm : session ∈ db.sessions)
    (config : Config) (now : ℤ) : NoEntry config ⟨db, now⟩ session.reservationId := by
  intro token choices entered hok he
  have hwp : ((Operation.RegisterEntry token).execute config).wp serve ⟨db, now⟩
      fun result _ => ∀ entered, result = .ok (.Entered entered) →
        ∀ old ∈ db.sessions, old.reservationId ≠ entered.reservationId := by
    refine Program.wp_bind.mpr (Program.wp_mono (enters_entry h token) fun result _ henters => ?_)
    cases result with
    | error err => exact fun _ h => by cases h
    | ok entered =>
        intro other ho
        cases ho
        exact henters.2 entered rfl
  exact Program.run_of_wp hwp choices entered hok session hm he.symm

end Requests

section Runs

theorem guarded_opening (branches : Table Branch.id Branch.id)
    (slots : Table ParkingSlot.id fun slot => (slot.branchId, slot.code)) :
    Guarded (.opening branches slots) where
  active session hs := (Table.not_mem_empty session hs).elim
  covered session hs := (Table.not_mem_empty session hs).elim
  sole session hs := (Table.not_mem_empty session hs).elim
  owned session hs := (Table.not_mem_empty session hs).elim
  live reservation hr := (Table.not_mem_empty reservation hr).elim

theorem guarded_playAll {config : Config} {world : World} (h : Guarded world.db)
    (turns : List Turn) : Guarded (playAll config world turns).db := by
  induction turns generalizing world with
  | nil => exact h
  | cons turn rest ih => exact ih (Program.run_of_wp (guards_operation h turn.operation) _)

theorem StaysCompleted.trans {db' db'' : Database} (h : StaysCompleted db db')
    (h' : StaysCompleted db' db'') : StaysCompleted db db'' := by
  intro session hs hc
  obtain ⟨later, hl, hid, hrid, hlc⟩ := h session hs hc
  obtain ⟨last, hm, hid', hrid', hmc⟩ := h' later hl hlc
  exact ⟨last, hm, hid'.trans hid, hrid'.trans hrid, hmc⟩

theorem staysCompleted_of_sessions {db' : Database} (h : db'.sessions = db.sessions) :
    StaysCompleted db db' := fun session hs hc => ⟨session, h ▸ hs, rfl, rfl, hc⟩

theorem staysCompleted_query (choice : Choice) (time : ℤ) (call : Call) :
    StaysCompleted db (query choice time db call).2 := by
  have hclaim : ∀ (order : ParkingSlot → ParkingSlot → Prop) [DecidableRel order] branchId type,
      StaysCompleted db
        (PrismaParkingSlotRepository.claim order db time choice.locked branchId type).2 := by
    intro order _ branchId type
    rcases PrismaParkingSlotRepository.claim_cases order db time choice.locked branchId type with
      ⟨slot, -, -, he⟩ | he <;>
        exact staysCompleted_of_sessions (congrArg (fun claimed => claimed.2.sessions) he)
  cases call with
  | sessionsCreate data =>
      rcases query_sessionsCreate db choice time data with ⟨bigger, hb, hq⟩ | ⟨-, err, hq⟩
      · rw [hq]
        exact fun session hs hc => ⟨session, (Table.mem_insert hb).mpr (.inl hs), rfl, rfl, hc⟩
      · rw [hq]
        exact staysCompleted_of_sessions rfl
  | sessionsMarkCompleted id exitAt =>
      rw [query_sessionsMarkCompleted]
      refine fun session hs hc => ⟨_, Table.mem_modify.mpr ⟨session, hs, rfl⟩, ?_⟩
      split
      · exact ⟨rfl, rfl, rfl⟩
      · exact ⟨rfl, rfl, hc⟩
  | reservationsCreate data =>
      obtain ⟨bigger, -, hq⟩ := query_reservationsCreate db choice time data
      exact staysCompleted_of_sessions (by rw [hq])
  | reservationsUpdateStatus id status confirmedAt =>
      exact staysCompleted_of_sessions (by rw [query_reservationsUpdateStatus]; rfl)
  | slotsUpdateStatus slotId status =>
      exact staysCompleted_of_sessions (by rw [query_slotsUpdateStatus]; rfl)
  | slotsClaimAvailableSlot branchId type => exact hclaim _ _ _
  | slotsClaimLeastRecentlyUsedSlot branchId type => exact hclaim _ _ _
  | _ => exact staysCompleted_of_sessions rfl

theorem staysCompleted_playAll {config : Config} (world : World) (turns : List Turn) :
    StaysCompleted world.db (playAll config world turns).db := by
  induction turns generalizing world with
  | nil => exact staysCompleted_of_sessions rfl
  | cons turn rest ih =>
      refine StaysCompleted.trans ?_ (ih (playTurn config world turn))
      exact Program.run_rel (fun before after : World => StaysCompleted before.db after.db)
        (fun _ => staysCompleted_of_sessions rfl) (fun _ _ _ => StaysCompleted.trans)
        (fun choice _ call => staysCompleted_query choice _ call) _ _ _

end Runs

-- In every state of a run a user has at most one ACTIVE session, and beside it
-- no other live reservation. What is COMPLETED stays so, and is not entered again.
theorem exclusive_playAll (config : Config) (branches : Table Branch.id Branch.id)
    (slots : Table ParkingSlot.id fun slot => (slot.branchId, slot.code)) (now : ℤ)
    (past more : List Turn) :
    Exclusivity (playAll config ⟨.opening branches slots, now⟩ past).db ∧
      StaysCompleted (playAll config ⟨.opening branches slots, now⟩ past).db
        (playAll config ⟨.opening branches slots, now⟩ (past ++ more)).db ∧
      ∀ session ∈ (playAll config ⟨.opening branches slots, now⟩ past).db.sessions,
        session.status = .COMPLETED →
          NoEntry config (playAll config ⟨.opening branches slots, now⟩ (past ++ more))
            session.reservationId := by
  have hpast : Guarded (playAll config ⟨.opening branches slots, now⟩ past).db :=
    guarded_playAll (guarded_opening branches slots) past
  have hafter : Guarded (playAll config ⟨.opening branches slots, now⟩ (past ++ more)).db :=
    guarded_playAll (guarded_opening branches slots) (past ++ more)
  have hstays : StaysCompleted (playAll config ⟨.opening branches slots, now⟩ past).db
      (playAll config ⟨.opening branches slots, now⟩ (past ++ more)).db := by
    rw [playAll, playAll, List.foldl_append]
    exact staysCompleted_playAll _ more
  refine ⟨hpast.toExclusivity, hstays, fun session hs hc => ?_⟩
  obtain ⟨later, hl, -, hrid, -⟩ := hstays session hs hc
  exact hrid ▸ noEntry hafter hl config _

end SmartParking
