import SmartParking.Blocking
import SmartParking.Reentry.Theorems

namespace SmartParking.Blocking

open Async

variable {db base : Database} {slotId : Id} {now : ℤ}

-- The invariant: the slot is out of service, and nobody has a claim on it.
structure Withdrawn (slotId : Id) (base db : Database) : Prop
    extends OutOfService slotId base db, Unowned db slotId

-- What each write does to the invariant.
section Writes

theorem not_vacant_setStatus (h : ¬Vacant db slotId) {id : Id} {status : SlotStatus}
    (hs : id ≠ slotId ∨ status ≠ .DISPONIBLE) (now : ℤ) :
    ¬Vacant (PrismaParkingSlotRepository.setStatus db id status now) slotId := by
  unfold Vacant
  rw [slotStatus_slots_setStatus]
  split
  · rename_i he
    intro hv
    obtain ⟨_, -, rfl⟩ := Option.map_eq_some_iff.mp hv
    exact hs.elim (fun hne => hne he.symm) fun hne => hne rfl
  · exact h

namespace Withdrawn

theorem setSlotStatus (h : Withdrawn slotId base db) {id : Id} {status : SlotStatus}
    (hs : id ≠ slotId ∨ status ≠ .DISPONIBLE) (now : ℤ) :
    Withdrawn slotId base (PrismaParkingSlotRepository.setStatus db id status now) where
  notVacant := not_vacant_setStatus h.notVacant hs now
  notAssigned := h.notAssigned
  reservations := h.reservations
  sessions := h.sessions

theorem setReservationStatus (h : Withdrawn slotId base db) {id : Id}
    {status : ReservationStatus} (confirmedAt : Option ℤ)
    (hs : status.Live → ∀ reservation ∈ db.reservations, reservation.id = id →
      reservation.slotId ≠ slotId) :
    Withdrawn slotId base (PrismaReservationRepository.setStatus db id status confirmedAt) where
  notVacant := h.notVacant
  sessions := h.sessions
  notAssigned reservation hr hslot := by
    rcases Table.mem_modify_cases hr with ⟨old, hold, -, rfl⟩ | ⟨hold, -⟩
    · exact h.notAssigned old hold hslot
    · exact h.notAssigned reservation hold hslot
  reservations reservation hr hslot hlive := by
    rcases Table.mem_modify_cases hr with ⟨old, hold, hid, rfl⟩ | ⟨hold, -⟩
    · exact hs hlive old hold hid hslot
    · exact h.reservations reservation hold hslot hlive

theorem insertReservation (h : Withdrawn slotId base db) {row : Reservation}
    {bigger : Table Reservation.id Reservation.id}
    (hb : db.reservations.insert row = some bigger) (hrow : row.slotId ≠ slotId) :
    Withdrawn slotId base { db with reservations := bigger } where
  notVacant := h.notVacant
  sessions := h.sessions
  notAssigned reservation hr hslot := by
    rcases (Table.mem_insert hb).mp hr with hr | rfl
    · exact h.notAssigned reservation hr hslot
    · exact absurd hslot hrow
  reservations reservation hr hslot := by
    rcases (Table.mem_insert hb).mp hr with hr | rfl
    · exact h.reservations reservation hr hslot
    · exact absurd hslot hrow

theorem insertSession (h : Withdrawn slotId base db) {row : ParkingSession}
    {bigger : Table ParkingSession.id ParkingSession.reservationId}
    (hb : db.sessions.insert row = some bigger) (hrow : row.slotId ≠ slotId) :
    Withdrawn slotId base { db with sessions := bigger } where
  notVacant := h.notVacant
  notAssigned := h.notAssigned
  reservations := h.reservations
  sessions session hs hslot := by
    rcases (Table.mem_insert hb).mp hs with hs | rfl
    · exact h.sessions session hs hslot
    · exact absurd hslot hrow

theorem setCompleted (h : Withdrawn slotId base db) (id : Id) (exitAt : ℤ) :
    Withdrawn slotId base (PrismaParkingSessionRepository.setCompleted db id exitAt) where
  notVacant := h.notVacant
  notAssigned := h.notAssigned
  reservations := h.reservations
  sessions session hs hslot := by
    rcases Table.mem_modify_cases hs with ⟨old, -, -, rfl⟩ | ⟨hold, -⟩
    · exact nofun
    · exact h.sessions session hold hslot

-- A claim never takes the slot.
theorem claim (h : Withdrawn slotId base db) (order : ParkingSlot → ParkingSlot → Prop)
    [DecidableRel order] (time : ℤ) (locked : Id → Bool) (branchId : Id) (type : Option SlotType) :
    Withdrawn slotId base
      (PrismaParkingSlotRepository.claim order db time locked branchId type).2 := by
  rcases PrismaParkingSlotRepository.claim_cases order db time locked branchId type with
    ⟨slot, -, -, he⟩ | he
  · rw [he]
    exact h.setSlotStatus (.inr (by decide : SlotStatus.RESERVADA ≠ .DISPONIBLE)) time
  · rwa [he]

end Withdrawn

-- The calls that leave the slot to those who withdrew it.
def Spares (slotId : Id) : SmartParking.Call → Prop
  | .slotsUpdateStatus id _ => id ≠ slotId
  | .reservationsCreate data => data.slotId ≠ slotId
  | .reservationsUpdateStatus _ status _ => ¬status.Live
  | .sessionsCreate data => data.slotId ≠ slotId
  | _ => True

theorem withdrawn_query {call : SmartParking.Call} (hcall : Spares slotId call)
    (h : Withdrawn slotId base db) (choice : Choice) :
    Withdrawn slotId base (query choice now db call).2 := by
  cases call with
  | slotsClaimAvailableSlot branchId type => exact h.claim _ _ _ _ _
  | slotsClaimLeastRecentlyUsedSlot branchId type => exact h.claim _ _ _ _ _
  | slotsUpdateStatus id status =>
      rw [query_slotsUpdateStatus]
      exact h.setSlotStatus (.inl hcall) now
  | reservationsCreate data =>
      obtain ⟨bigger, hb, hq⟩ := query_reservationsCreate db choice now data
      rw [hq]
      exact h.insertReservation hb hcall
  | reservationsUpdateStatus id status confirmedAt =>
      rw [query_reservationsUpdateStatus]
      exact h.setReservationStatus confirmedAt fun hlive => absurd hlive hcall
  | sessionsCreate data =>
      rcases query_sessionsCreate db choice now data with ⟨bigger, hb, hq⟩ | ⟨-, text, hq⟩
      · rw [hq]
        exact h.insertSession hb hcall
      · rwa [hq]
  | sessionsMarkCompleted id exitAt =>
      rw [query_sessionsMarkCompleted]
      exact h.setCompleted id exitAt
  | _ => exact h

end Writes

-- The requests keep the invariant.
section Requests

variable {α β : Type} {config : Config}

def Spared (slotId : Id) (base : Database) (p : SmartParking.Port α) (db : Database) (now : ℤ) :
    Prop :=
  p.wp SmartParking.serve ⟨db, now⟩ fun _ world => Withdrawn slotId base world.db

theorem spared_of_uses {p : SmartParking.Port α} (hp : p.Uses (Spares slotId))
    (h : Withdrawn slotId base db) : Spared slotId base p db now := by
  have hrel : ∀ world : World, p.wp SmartParking.serve world fun _ world' =>
      Withdrawn slotId base world.db → Withdrawn slotId base world'.db := by
    intro world
    apply Program.wp_of_uses _ _ _ hp world
    · exact fun _ h => h
    · exact fun _ _ _ hab hbc h => hbc (hab h)
    · exact fun _ hcall choice _ h => withdrawn_query hcall h choice
  exact Program.wp_mono (hrel ⟨db, now⟩) fun _ _ hw => hw h

theorem spares_of_reads {p : SmartParking.Port α} (hp : p.Uses SmartParking.Call.Reads) :
    p.Uses (Spares slotId) :=
  hp.mono fun call hcall => by cases call <;> trivial

theorem spared_of_reads {p : SmartParking.Port α} (hp : p.Uses SmartParking.Call.Reads)
    (h : Withdrawn slotId base db) : Spared slotId base p db now :=
  spared_of_uses (spares_of_reads hp) h

theorem spared_bind {p : SmartParking.Port α} {f : α → SmartParking.Port β}
    (hp : Spared slotId base p db now)
    (hf : ∀ value db' later, Withdrawn slotId base db' → Spared slotId base (f value) db' later) :
    Spared slotId base (p >>= f) db now := by
  unfold Spared
  rw [Program.wp_bind]
  refine Program.wp_mono hp fun result world h => ?_
  cases result with
  | ok value => exact hf value world.db world.clock h
  | error err => exact h

theorem spared_create (h : Withdrawn slotId base db) (input : CreateReservationInput) :
    Spared slotId base (CreateReservationUseCase.execute config input) db now := by
  refine spared_bind (spared_of_reads (canCreateReservation_reads _) h)
    fun eligibility db' later h' => ?_
  split
  · exact h'
  rw [reserve_eq]
  refine wp_claimSlot_bind (fun _ _ => ?_) fun slot hm ha claimedAt _ => ?_
  · refine wp_lookElsewhere_bind (fun _ _ _ => h') fun assignment _ _ hun => ?_
    cases assignment with
    | ASSIGNED slot => exact absurd rfl (hun slot)
    | SUGGEST_OTHER_BRANCH branch distanceKm => exact h'
    | NO_AVAILABILITY => exact h'
  · have hne : slot.id ≠ slotId := fun he => h'.notVacant (he ▸ vacant_of_available hm ha)
    have hclaimed : Withdrawn slotId base
        (PrismaParkingSlotRepository.setStatus db' slot.id .RESERVADA claimedAt) :=
      h'.setSlotStatus (.inl hne) claimedAt
    rw [afterClaim, store_eq]
    refine wp_clockNow_bind fun start _ => wp_reservationsCreate_bind fun uuid _ bigger _ hb => ?_
    exact spared_of_reads (announced_reads _) (hclaimed.insertReservation hb hne)

theorem spared_cancel (h : Withdrawn slotId base db) (input : CancelReservationInput) :
    Spared slotId base (CancelReservationUseCase.execute input) db now := by
  refine wp_read_bind (fun _ _ => rfl) fun later _ => ?_
  cases hl : (PrismaReservationRepository.findById db input.reservationId).filter
      fun reservation => reservation.userId = input.userId with
  | none => exact h
  | some reservation =>
      obtain ⟨hr, -⟩ := Table.lookup_eq_some.mp (Option.filter_eq_some_iff.mp hl).1
      dsimp only
      split
      · exact h
      rename_i hlive
      have hne : reservation.slotId ≠ slotId := fun he =>
        h.reservations reservation hr he (by unfold ReservationStatus.Live; tauto)
      refine spared_of_uses ?_ h
      refine Program.uses_bind (uses_ask.mpr (by decide : ¬_)) fun _ => ?_
      refine Program.uses_bind (uses_ask.mpr hne) fun _ => ?_
      refine Program.uses_bind ?_ fun _ => spares_of_reads (notifyAll_reads _)
      refine Program.uses_bind (uses_ask.mpr trivial) fun _ => ?_
      exact Program.uses_bind (uses_ask.mpr trivial) fun _ => uses_ask.mpr trivial

theorem sweep_spares {candidates : List Reservation}
    (hne : ∀ reservation ∈ candidates, reservation.slotId ≠ slotId) (time : ℤ) (count : ℕ) :
    (ExpireOverdueReservationsUseCase.sweep time candidates count).Uses (Spares slotId) := by
  induction candidates generalizing count with
  | nil => trivial
  | cons reservation rest ih =>
      have hrest := ih fun other ho => hne other (List.mem_cons_of_mem _ ho)
      unfold ExpireOverdueReservationsUseCase.sweep
      split
      · exact hrest count
      · refine Program.uses_bind ?_ fun _ => hrest (count + 1)
        refine Program.uses_bind (uses_ask.mpr (by decide : ¬_)) fun _ => ?_
        exact Program.uses_bind (uses_ask.mpr (hne reservation List.mem_cons_self)) fun _ =>
          spares_of_reads (notifyAll_reads _)

theorem spared_expire (h : Withdrawn slotId base db) :
    Spared slotId base ExpireOverdueReservationsUseCase.execute db now := by
  refine wp_clockNow_bind fun time _ => wp_read_bind (fun _ _ => rfl) fun later _ => ?_
  refine spared_of_uses (sweep_spares (fun reservation hc hslot => ?_) time 0) h
  obtain ⟨hr, hpending⟩ := List.mem_filter.mp hc
  exact h.reservations reservation hr hslot (.inl (of_decide_eq_true hpending).1)

theorem spared_enter (h : Withdrawn slotId base db) {reservation : Reservation}
    (hr : reservation ∈ db.reservations) (hne : reservation.slotId ≠ slotId) (time : ℤ) :
    Spared slotId base (DefaultParkingPolicy.enter reservation time) db now := by
  refine spared_bind ?_ fun _ db' later h' => spared_of_uses ?_ h'
  · unfold DefaultParkingPolicy.confirmIfPending
    split
    · intro choice
      change Withdrawn slotId base (query choice (now + choice.elapsed) db
        (.reservationsUpdateStatus reservation.id .CONFIRMED (some time))).2
      rw [query_reservationsUpdateStatus]
      refine h.setReservationStatus _ fun _ other ho hid => ?_
      rwa [Table.eq_of_key_eq ho hr hid]
    · exact h
  · refine Program.uses_bind (uses_ask.mpr hne) fun _ => ?_
    exact Program.uses_bind (uses_ask.mpr hne) fun _ => trivial

theorem spared_registerEntry (h : Withdrawn slotId base db) (reservationId : Id) (time : ℤ) :
    Spared slotId base (DefaultParkingPolicy.registerEntry reservationId time) db now := by
  refine wp_read_bind (fun _ _ => rfl) fun later _ => ?_
  cases hl : PrismaReservationRepository.findById db reservationId with
  | none => exact h
  | some reservation =>
      obtain ⟨hr, -⟩ := Table.lookup_eq_some.mp hl
      dsimp only
      split
      · exact h
      rename_i hclosed
      split
      · exact h
      refine wp_read_bind (fun _ _ => rfl) fun later' _ => ?_
      split
      · exact h
      refine spared_enter h hr (fun hslot => h.reservations reservation hr hslot ?_) time
      cases hs : reservation.status <;>
        simp_all [DefaultParkingPolicy.closed, ReservationStatus.Live]

theorem spared_entry (h : Withdrawn slotId base db) (token : String) :
    Spared slotId base (RegisterEntryUseCase.execute token) db now := by
  refine wp_entry token (fun _ _ _ => h) fun reservationId time _ => ?_
  refine spared_bind (spared_registerEntry h reservationId time) fun session _ _ h' => ?_
  exact spared_bind (spared_of_reads (announceEntry_reads session _) h') fun _ _ _ h' => h'

theorem spared_registerExit (h : Withdrawn slotId base db) (sessionId : Id) (time : ℤ) :
    Spared slotId base (DefaultParkingPolicy.registerExit sessionId time) db now := by
  refine wp_read_bind (fun _ _ => rfl) fun later _ => ?_
  cases hl : (PrismaParkingSessionRepository.findById db sessionId).filter
      ParkingSession.isActive with
  | none => exact h
  | some session =>
      obtain ⟨hfound, hactive⟩ := Option.filter_eq_some_iff.mp hl
      obtain ⟨hm, -⟩ := Table.lookup_eq_some.mp hfound
      have hne : session.slotId ≠ slotId := fun he =>
        h.sessions session hm he (of_decide_eq_true hactive)
      refine spared_bind (spared_of_reads (uses_ask.mpr trivial) h) fun payment _ _ h' => ?_
      split
      · refine spared_of_uses ?_ h'
        refine Program.uses_bind (uses_ask.mpr trivial) fun _ => ?_
        refine Program.uses_bind (uses_ask.mpr hne) fun _ => ?_
        refine Program.uses_bind (uses_ask.mpr (by decide : ¬_)) fun _ => ?_
        exact Program.uses_bind (uses_ask.mpr trivial) fun _ => trivial
      · exact h'

theorem spared_finish (h : Withdrawn slotId base db) (sessionId : Id) (time : ℤ)
    (reservation : Reservation) :
    Spared slotId base (RegisterExitUseCase.finish sessionId time reservation) db now := by
  refine spared_bind (spared_registerExit h sessionId time) fun result _ _ h' => ?_
  cases result with
  | REJECTED reason => cases reason <;> exact h'
  | RELEASED session =>
      cases session with
      | none => exact h'
      | some session =>
          exact spared_bind (spared_of_reads (notifyAll_reads _) h') fun _ _ _ h' => h'

theorem spared_exit (h : Withdrawn slotId base db) (token : String) :
    Spared slotId base (RegisterExitUseCase.execute token) db now :=
  wp_exit token (fun _ _ _ => h) fun sessionId time reservation _ _ =>
    spared_finish h sessionId time reservation

theorem spared_operation (h : Withdrawn slotId base db) (operation : Operation) :
    Spared slotId base (operation.execute config) db now := by
  cases operation with
  | CreateReservation input => exact spared_bind (spared_create h input) fun _ _ _ h' => h'
  | CancelReservation input => exact spared_bind (spared_cancel h input) fun _ _ _ h' => h'
  | ExpireOverdueReservations => exact spared_bind (spared_expire h) fun _ _ _ h' => h'
  | RegisterEntry token => exact spared_bind (spared_entry h token) fun _ _ _ h' => h'
  | RegisterExit token => exact spared_bind (spared_exit h token) fun _ _ _ h' => h'

end Requests

-- What a turn does.
section Turns

variable {config : Config} {world : World} {choices : ℕ → Choice}

theorem run_backend {α : Type} (p : SmartParking.Port α) (choices : ℕ → Choice) (world : World) :
    (lift p).run serve choices world = p.run SmartParking.serve choices world :=
  have hanswer : ∀ (choice : Choice) (world : World) (call : SmartParking.Call),
      (serve choice world (.backend call)).1.map id = (SmartParking.serve choice world call).1 :=
    fun _ _ _ => congrFun Except.map_id _
  Program.run_lift hanswer (fun _ _ _ => rfl) p choices world

theorem playTurn_backend (operation : Operation) :
    playTurn config world ⟨.Backend operation, choices⟩ =
      ((operation.execute config).run SmartParking.serve choices world).2 := by
  rw [playTurn, Task.execute, Program.run_map, run_backend]

theorem playTurn_report (config : Config) (world : World) (slotId : Id) (choices : ℕ → Choice) :
    ∃ later, (playTurn config world ⟨.ReportSlotBlocked slotId, choices⟩).db =
      PrismaParkingSlotRepository.setStatus world.db slotId .NO_DISPONIBLE later := by
  rw [playTurn, Task.execute, ReportSlotBlockedUseCase.execute, Program.run_perform_bind]
  cases hl : PrismaParkingSlotRepository.findById world.db slotId with
  | none =>
      refine ⟨0, ?_⟩
      simp only [serve, hl]
      exact (slots_setStatus_of_none world.db hl ..).symm
  | some slot =>
      simp only [serve, hl]
      rw [run_backend]
      have hwp : (ReportSlotBlockedUseCase.block slot slotId).wp SmartParking.serve
          ⟨world.db, world.clock + (choices 0).elapsed⟩ fun _ world' => ∃ later, world'.db =
            PrismaParkingSlotRepository.setStatus world.db slotId .NO_DISPONIBLE later := by
        refine wp_slotsUpdateStatus_bind (Option.isSome_of_eq_some hl) fun later _ => ?_
        exact Program.wp_mono (wp_of_reads (notifyAll_reads _) _) fun _ _ h => ⟨later, h.1⟩
      exact Program.run_of_wp hwp _

theorem Withdrawn.playTurn (h : Withdrawn slotId base world.db) (turn : Turn) :
    Withdrawn slotId base (playTurn config world turn).db := by
  obtain ⟨task, choices⟩ := turn
  cases task with
  | Backend operation =>
      rw [playTurn_backend]
      exact Program.run_of_wp (spared_operation h operation) choices
  | ReportSlotBlocked id =>
      obtain ⟨later, hdb⟩ := playTurn_report config world id choices
      rw [hdb]
      exact h.setSlotStatus (.inr (by decide : SlotStatus.NO_DISPONIBLE ≠ .DISPONIBLE)) later

theorem Withdrawn.playAll (h : Withdrawn slotId base world.db) (turns : List Turn) :
    Withdrawn slotId base (playAll config world turns).db := by
  induction turns generalizing world with
  | nil => exact h
  | cons turn rest ih => exact ih (h.playTurn turn)

-- A report withdraws a slot that nobody has a claim on.
theorem withdrawn_report (h : Unowned world.db slotId) :
    Withdrawn slotId (Blocking.playTurn config world ⟨.ReportSlotBlocked slotId, choices⟩).db
      (Blocking.playTurn config world ⟨.ReportSlotBlocked slotId, choices⟩).db := by
  obtain ⟨later, hdb⟩ := playTurn_report config world slotId choices
  rw [hdb]
  refine ⟨⟨fun hv => ?_, fun reservation hr _ => ⟨reservation, hr, rfl⟩⟩, h.reservations, h.sessions⟩
  rw [Vacant, slotStatus_slots_setStatus, if_pos rfl] at hv
  obtain ⟨_, -, hne⟩ := Option.map_eq_some_iff.mp hv
  cases hne

end Turns

-- What holds in every state, when the slots are of existing branches and no empty
-- uuid is drawn.
section Sound

structure Referenced (db : Database) : Prop where
  named : ∀ session ∈ db.sessions, session.id ≠ ""
  sited : ∀ slot ∈ db.slots, (db.branches.lookup slot.branchId).isSome

structure Sound (db : Database) : Prop extends Guarded db, Referenced db where
  housed : Housed db

theorem newId_ne_empty {wanted : Id} (h : wanted ≠ "") (used : List Id) : newId wanted used ≠ "" := by
  unfold newId
  split
  · intro he
    have hl := congrArg String.length he
    simp at hl
  · exact h

theorem Referenced.setSlotStatus (h : Referenced db) (id : Id) (status : SlotStatus) (now : ℤ) :
    Referenced (PrismaParkingSlotRepository.setStatus db id status now) where
  named := h.named
  sited slot hs := by
    rcases Table.mem_modify_cases hs with ⟨old, hold, -, rfl⟩ | ⟨hold, -⟩
    · exact h.sited old hold
    · exact h.sited slot hold

theorem Referenced.claim (h : Referenced db) (order : ParkingSlot → ParkingSlot → Prop)
    [DecidableRel order] (time : ℤ) (locked : Id → Bool) (branchId : Id) (type : Option SlotType) :
    Referenced (PrismaParkingSlotRepository.claim order db time locked branchId type).2 := by
  rcases PrismaParkingSlotRepository.claim_cases order db time locked branchId type with
    ⟨slot, -, -, he⟩ | he
  · rw [he]
    exact h.setSlotStatus slot.id .RESERVADA time
  · rwa [he]

theorem referenced_query {choice : Choice} (huuid : choice.uuid ≠ "") (h : Referenced db)
    (call : SmartParking.Call) : Referenced (query choice now db call).2 := by
  cases call with
  | slotsClaimAvailableSlot branchId type => exact h.claim _ _ _ _ _
  | slotsClaimLeastRecentlyUsedSlot branchId type => exact h.claim _ _ _ _ _
  | slotsUpdateStatus id status =>
      rw [query_slotsUpdateStatus]
      exact h.setSlotStatus id status now
  | reservationsCreate data =>
      obtain ⟨bigger, -, hq⟩ := query_reservationsCreate db choice now data
      rw [hq]
      exact ⟨h.named, h.sited⟩
  | reservationsUpdateStatus id status confirmedAt =>
      rw [query_reservationsUpdateStatus]
      exact ⟨h.named, h.sited⟩
  | sessionsCreate data =>
      rcases query_sessionsCreate db choice now data with ⟨bigger, hb, hq⟩ | ⟨-, text, hq⟩
      · rw [hq]
        refine ⟨fun session hs => ?_, h.sited⟩
        rcases (Table.mem_insert hb).mp hs with hs | rfl
        · exact h.named session hs
        · exact newId_ne_empty huuid _
      · rwa [hq]
  | sessionsMarkCompleted id exitAt =>
      rw [query_sessionsMarkCompleted]
      refine ⟨fun session hs => ?_, h.sited⟩
      rcases Table.mem_modify_cases hs with ⟨old, hold, -, rfl⟩ | ⟨hold, -⟩
      · exact h.named old hold
      · exact h.named session hold
  | _ => exact h

variable {config : Config} {world : World}

theorem sound_opening {branches : Table Branch.id Branch.id}
    {slots : Table ParkingSlot.id fun slot => (slot.branchId, slot.code)}
    (hsited : ∀ slot ∈ slots, (branches.lookup slot.branchId).isSome) :
    Sound (.opening branches slots) :=
  { guarded_opening branches slots with
    named := fun session hs => (Table.not_mem_empty session hs).elim
    sited := hsited
    housed := housed_opening branches slots }

theorem Sound.setSlotStatus (h : Sound db) (id : Id) (status : SlotStatus) (now : ℤ) :
    Sound (PrismaParkingSlotRepository.setStatus db id status now) :=
  { h.toReferenced.setSlotStatus id status now with
    active := h.active
    covered := h.covered
    sole := h.sole
    owned := h.owned
    live := h.live
    housed := h.housed.setSlotStatus id status now }

theorem Sound.playTurn (h : Sound world.db) {turn : Turn}
    (huuid : ∀ n, (turn.choices n).uuid ≠ "") :
    Sound (Blocking.playTurn config world turn).db := by
  obtain ⟨task, choices⟩ := turn
  cases task with
  | Backend operation =>
      rw [playTurn_backend]
      have hcall : ∀ choice : Choice, choice.uuid ≠ "" → ∀ (world : World) call,
          Referenced world.db → Referenced (SmartParking.serve choice world call).2.db :=
        fun choice hc _ call h => referenced_query hc h call
      have hreferenced := Program.run_rel_of (fun choice : Choice => choice.uuid ≠ "")
        (fun before after : World => Referenced before.db → Referenced after.db) (fun _ h => h)
        (fun _ _ _ hab hbc h => hbc (hab h)) hcall (operation.execute config) choices huuid world
        h.toReferenced
      exact { Program.run_of_wp (guards_operation h.toGuarded operation) choices, hreferenced with
              housed := housed_execute h.housed operation choices }
  | ReportSlotBlocked id =>
      obtain ⟨later, hdb⟩ := playTurn_report config world id choices
      rw [hdb]
      exact h.setSlotStatus id .NO_DISPONIBLE later

theorem Sound.playAll (h : Sound world.db) {turns : List Turn}
    (huuid : ∀ turn ∈ turns, ∀ n, (turn.choices n).uuid ≠ "") :
    Sound (Blocking.playAll config world turns).db := by
  induction turns generalizing world with
  | nil => exact h
  | cons turn rest ih =>
      refine ih (h.playTurn (huuid turn List.mem_cons_self)) fun other ho => ?_
      exact huuid other (List.mem_cons_of_mem _ ho)

end Sound

-- Who still has a claim on the slot gives it free later.
section Release

variable {config : Config} {world : World} {reservation : Reservation}

theorem vacant_setStatus (h : (db.slots.lookup slotId).isSome) (now : ℤ) :
    Vacant (PrismaParkingSlotRepository.setStatus db slotId .DISPONIBLE now) slotId := by
  obtain ⟨slot, hl⟩ := Option.isSome_iff_exists.mp h
  rw [Vacant, slotStatus_slots_setStatus, if_pos rfl, slotStatus, hl]
  rfl

-- The calls that write no slot.
def KeepsSlots : SmartParking.Call → Prop
  | .reservationsUpdateStatus _ _ _ => True
  | call => call.Reads

theorem keeps_of_reads {α : Type} {p : SmartParking.Port α} (hp : p.Uses SmartParking.Call.Reads) :
    p.Uses KeepsSlots :=
  hp.mono fun call hcall => by cases call <;> trivial

theorem vacant_of_keeps {α : Type} {p : SmartParking.Port α} (hp : p.Uses KeepsSlots)
    (h : Vacant db slotId) :
    p.wp SmartParking.serve ⟨db, now⟩ fun _ world' => Vacant world'.db slotId := by
  have hrel : ∀ world : World, p.wp SmartParking.serve world fun _ world' =>
      Vacant world.db slotId → Vacant world'.db slotId := by
    intro world
    apply Program.wp_of_uses _ _ _ hp world
    · exact fun _ h => h
    · exact fun _ _ _ hab hbc h => hbc (hab h)
    · intro call hcall choice world h
      change Vacant (query choice _ world.db call).2 slotId
      cases call with
      | reservationsUpdateStatus id status confirmedAt =>
          rw [query_reservationsUpdateStatus]
          exact h
      | _ => first | exact h | exact hcall.elim
  exact Program.wp_mono (hrel ⟨db, now⟩) fun _ _ hv => hv h

theorem vacant_cancel (h : Housed db) (hr : reservation ∈ db.reservations)
    (hlive : reservation.status.Live) :
    (CancelReservationUseCase.execute ⟨reservation.id, reservation.userId⟩).wp SmartParking.serve
      ⟨db, now⟩ fun _ world' => Vacant world'.db reservation.slotId := by
  have hfound : (PrismaReservationRepository.findById db reservation.id).filter
      (fun other => other.userId = reservation.userId) = some reservation := by
    rw [PrismaReservationRepository.findById, Table.lookup_key hr]
    simp
  have hopen : ¬(reservation.status ≠ .PENDING ∧ reservation.status ≠ .CONFIRMED) := by
    rcases hlive with hs | hs <;> simp [hs]
  refine wp_read_bind (fun _ _ => rfl) fun later _ => ?_
  rw [hfound]
  dsimp only
  rw [if_neg hopen]
  refine wp_reservationsUpdateStatus_bind (isSome_lookup_of_mem hr) fun _ _ => ?_
  have hslot := (h reservation hr).isSome
  refine wp_slotsUpdateStatus_bind hslot fun later _ => vacant_of_keeps ?_ (vacant_setStatus hslot _)
  refine Program.uses_bind ?_ fun _ => keeps_of_reads (notifyAll_reads _)
  refine Program.uses_bind (uses_ask.mpr trivial) fun _ => ?_
  exact Program.uses_bind (uses_ask.mpr trivial) fun _ => uses_ask.mpr trivial

-- An approved payment of the price of the moment.
def payment (session : ParkingSession) (amount : Soles) : Payment where
  id := "p1"
  sessionId := session.id
  userId := session.userId
  amount
  status := .APPROVED
  externalReference := none
  paidAt := none
  createdAt := 0

def exitChoice (session : ParkingSession) (amount : Soles) : Choice where
  elapsed := 0
  uuid := "x1"
  locked _ := false
  qr := .ok { type := .EXIT, reservationId := none, sessionId := some session.id, expiresAt := 0 }
  payment _ := some (payment session amount)
  user _ := none

variable {session : ParkingSession}

theorem vacant_leave (h : Housed db) (hguarded : Guarded db) (hm : session ∈ db.sessions)
    (hactive : session.status = .ACTIVE) (time : ℤ) (reservation : Reservation) (amount : Soles) :
    Vacant ((RegisterExitUseCase.finish session.id time reservation).run SmartParking.serve
      (fun _ => exitChoice session amount) ⟨db, now⟩).2.db session.slotId := by
  have hfound : PrismaParkingSessionRepository.findById db session.id = some session :=
    Table.lookup_key hm
  have hfilter : (some session).filter ParkingSession.isActive = some session := by
    simp [ParkingSession.isActive, hactive]
  unfold RegisterExitUseCase.finish DefaultParkingPolicy.registerExit
  rw [bind_assoc, run_query (by rw [query, hfound]), hfilter]
  dsimp only
  rw [bind_assoc, run_query rfl, if_pos (by rfl)]
  obtain ⟨reservation, hr, hid, -, hslotId⟩ := hguarded.owned session hm
  have hslot : (db.slots.lookup session.slotId).isSome := hslotId ▸ (h reservation hr).isSome
  have hstored : (db.sessions.lookup session.id).isSome := Option.isSome_of_eq_some hfound
  unfold DefaultParkingPolicy.leave DefaultParkingPolicy.releaseSlot
  rw [bind_assoc]
  refine Program.run_of_wp (wp_sessionsMarkCompleted_bind hstored fun later _ => ?_ :
    Program.wp SmartParking.serve _ _ fun _ world' => Vacant world'.db session.slotId) _
  rw [bind_assoc]
  refine wp_slotsUpdateStatus_bind hslot fun later _ => vacant_of_keeps ?_ (vacant_setStatus hslot _)
  refine Program.uses_bind (Program.uses_bind (uses_ask.mpr trivial) fun _ =>
    Program.uses_bind (uses_ask.mpr trivial) fun _ => trivial) fun result => ?_
  cases result with
  | REJECTED reason => cases reason <;> trivial
  | RELEASED session =>
      cases session with
      | none => trivial
      | some session =>
          exact Program.uses_bind (keeps_of_reads (notifyAll_reads _)) fun _ => trivial

theorem exists_vacant_exit (h : Sound db) (hm : session ∈ db.sessions)
    (hactive : session.status = .ACTIVE) (now : ℤ) :
    ∃ choices, Vacant ((RegisterExitUseCase.execute "").run SmartParking.serve choices
      ⟨db, now⟩).2.db session.slotId := by
  obtain ⟨reservation, hr, hid, -, -⟩ := h.owned session hm
  obtain ⟨slot, hslot, hsite⟩ := Option.map_eq_some_iff.mp (h.housed reservation hr)
  obtain ⟨hslot, -⟩ := Table.lookup_eq_some.mp hslot
  obtain ⟨branch, hbranch⟩ := Option.isSome_iff_exists.mp (hsite ▸ h.sited slot hslot)
  have hfound : PrismaParkingSessionRepository.findById db session.id = some session :=
    Table.lookup_key hm
  have hfilter : (some session).filter ParkingSession.isActive = some session := by
    simp [ParkingSession.isActive, hactive]
  have hreservation : PrismaReservationRepository.findById db session.reservationId =
      some reservation := by
    rw [PrismaReservationRepository.findById, ← hid, Table.lookup_key hr]
  have hvalid : ¬(QrType.EXIT ≠ .EXIT ∨ session.id = "") := by simp [h.named session hm]
  have hfindBranch : PrismaBranchRepository.findById db reservation.branchId = some branch := hbranch
  let pricing := HourlyPricingPolicy.price branch session.entryAt (now + ((0 : ℕ) : ℤ) + ((0 : ℕ) : ℤ))
  let amount := pricing.amount
  have happroved : (some (payment session amount)).filter Payment.isApproved =
      some (payment session amount) := rfl
  have hcovered : ¬RegisterExitUseCase.OVERSTAY_TOLERANCE <
      (RegisterExitUseCase.missingAmount pricing (payment session amount)).value := by
    rw [RegisterExitUseCase.missingAmount, payment, Decimal.toFixed_sub, sub_self]
    norm_num [RegisterExitUseCase.OVERSTAY_TOLERANCE, Decimal.value]
  refine ⟨fun _ => exitChoice session amount, ?_⟩
  unfold RegisterExitUseCase.execute
  rw [run_query rfl]
  dsimp only [exitChoice]
  rw [if_neg hvalid, run_query rfl, run_query (by rw [query, hfound]), hfilter]
  dsimp only
  rw [run_query (by rw [query, hreservation])]
  dsimp only
  unfold RegisterExitUseCase.checkPayment HourlyPricingPolicy.calculate
  rw [run_query rfl, happroved]
  dsimp only
  rw [bind_assoc, run_query (by rw [query, hfindBranch])]
  change Vacant (Program.run SmartParking.serve (if RegisterExitUseCase.OVERSTAY_TOLERANCE <
    (RegisterExitUseCase.missingAmount pricing (payment session amount)).value then _ else _)
      _ _).2.db _
  rw [if_neg hcovered]
  exact vacant_leave h.housed h.toGuarded hm hactive _ reservation amount

theorem unowned_of_not_vacant (h : Sound world.db)
    (hout : ∀ turn, ¬Vacant (playTurn config world turn).db slotId) : Unowned world.db slotId where
  reservations reservation hr hslot hlive := by
    refine hout ⟨.Backend (.CancelReservation ⟨reservation.id, reservation.userId⟩),
      fun _ => exitChoice ⟨"", "", "", "", .ACTIVE, 0, none⟩ 0⟩ ?_
    rw [playTurn_backend, ← hslot]
    refine Program.run_of_wp (Program.wp_map.mpr (vacant_cancel h.housed hr hlive) :
      ((fun _ => Outcome.Cancelled) <$> CancelReservationUseCase.execute _).wp SmartParking.serve _
        fun _ world' => Vacant world'.db reservation.slotId) _
  sessions session hs hslot hactive := by
    obtain ⟨choices, hvacant⟩ := exists_vacant_exit h hs hactive world.clock
    refine hout ⟨.Backend (.RegisterExit ""), choices⟩ ?_
    rw [playTurn_backend, ← hslot]
    change Vacant ((Outcome.Exited <$> RegisterExitUseCase.execute "").run SmartParking.serve choices
      world).2.db session.slotId
    rwa [Program.run_map]

end Release

-- A reported slot stays out of service, whatever follows, if nobody has a claim on it
-- when it is reported. Otherwise, in a database with its references and with uuids that
-- are not empty, a cancellation or an exit gives it free again.
theorem outOfService_iff (config : Config) (branches : Table Branch.id Branch.id)
    (slots : Table ParkingSlot.id fun slot => (slot.branchId, slot.code)) (clock : ℤ)
    (past : List Turn) (slotId : Id) (choices : ℕ → Choice) :
    let world := playAll config ⟨.opening branches slots, clock⟩ past
    let reported := playTurn config world ⟨.ReportSlotBlocked slotId, choices⟩
    (Unowned world.db slotId →
      ∀ later, OutOfService slotId reported.db (playAll config reported later).db) ∧
    ((∀ slot ∈ slots, (branches.lookup slot.branchId).isSome) →
      (∀ turn ∈ past, ∀ n, (turn.choices n).uuid ≠ "") →
        (∀ later, OutOfService slotId reported.db (playAll config reported later).db) →
          Unowned world.db slotId) := by
  refine ⟨fun h later => ((withdrawn_report h).playAll later).toOutOfService, ?_⟩
  intro hsited huuid hout
  obtain ⟨later, hdb⟩ := playTurn_report config
    (playAll config ⟨.opening branches slots, clock⟩ past) slotId choices
  have hpast : Sound (playAll config ⟨.opening branches slots, clock⟩ past).db :=
    (sound_opening hsited : Sound (World.mk (.opening branches slots) clock).db).playAll huuid
  have hsound := hpast.setSlotStatus slotId .NO_DISPONIBLE later
  rw [← hdb] at hsound
  have hunowned := unowned_of_not_vacant hsound fun turn => (hout [turn]).notVacant
  rw [hdb] at hunowned
  exact ⟨hunowned.reservations, hunowned.sessions⟩

-- The slot is reported before anybody asks for one.
theorem outOfService_free :
    OutOfService "s1" (playTurn Demo.config ⟨.opening Demo.branches Demo.slots, 0⟩
      ⟨.ReportSlotBlocked "s1", fun _ => Demo.choice "r1"⟩).db
    (playAll Demo.config (playTurn Demo.config ⟨.opening Demo.branches Demo.slots, 0⟩
      ⟨.ReportSlotBlocked "s1", fun _ => Demo.choice "r1"⟩)
        [⟨.Backend (.CreateReservation (Demo.request "u1")), fun _ => Demo.choice "r1"⟩]).db := by
  refine (outOfService_iff Demo.config Demo.branches Demo.slots 0 [] "s1" fun _ =>
    Demo.choice "r1").1 ⟨fun reservation hr => ?_, fun session hs => ?_⟩ _
  · exact (Table.not_mem_empty reservation hr).elim
  · exact (Table.not_mem_empty session hs).elim

-- The slot is reserved, reported, and given free by the cancellation.
theorem outOfService_fails : ¬∀ (config : Config) (branches : Table Branch.id Branch.id)
    (slots : Table ParkingSlot.id fun slot => (slot.branchId, slot.code)) (clock : ℤ)
    (past : List Turn) (slotId : Id) (choices : ℕ → Choice) (later : List Turn),
    let world := playAll config ⟨.opening branches slots, clock⟩ past
    let reported := playTurn config world ⟨.ReportSlotBlocked slotId, choices⟩
    OutOfService slotId reported.db (playAll config reported later).db := by
  intro h
  refine (h Demo.config Demo.branches Demo.slots 0
    [⟨.Backend (.CreateReservation (Demo.request "u1")), fun _ => Demo.choice "r1"⟩] "s1"
    (fun _ => Demo.choice "r1")
    [⟨.Backend (.CancelReservation ⟨"r1", "u1"⟩), fun _ => Demo.choice "r1"⟩]).notVacant ?_
  decide +kernel

end SmartParking.Blocking
