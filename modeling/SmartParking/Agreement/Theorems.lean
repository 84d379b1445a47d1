import SmartParking.Agreement
import SmartParking.Backend.Footprints
import Mathlib.Data.List.Induction

namespace SmartParking

open Async

variable {db : Database}

theorem ReservationStatus.slotStatus_ne {status : ReservationStatus} (h : status.Live) :
    status.slotStatus ≠ .DISPONIBLE := by
  rcases h with rfl | rfl <;> simp [ReservationStatus.slotStatus]

theorem Allotted.eq_of_slotId_eq (h : Allotted db) {reservation other : Reservation}
    (hr : reservation ∈ db.reservations) (ho : other ∈ db.reservations)
    (hlive : reservation.status.Live) (hother : other.status.Live)
    (he : reservation.slotId = other.slotId) : reservation = other := by
  have hid := h.exclusive reservation.id other.id other.slotId
    (he ▸ heldSlot_of_mem hr hlive) (heldSlot_of_mem ho hother)
  exact Table.eq_of_key_eq hr ho hid

theorem Consistent.confirmed_of_holds (h : Consistent db) {reservation : Reservation}
    (hr : reservation ∈ db.reservations) (hh : Holds db reservation) :
    reservation.status.Live := by
  rcases hh with hlive | ⟨session, hs, hid, hactive⟩
  · exact hlive
  · obtain ⟨other, ho, hoid, -, -, hconf⟩ := h.session session hs
    have he : other = reservation := Table.eq_of_key_eq ho hr (hoid.trans hid)
    exact .inr (he ▸ hconf hactive)

theorem slot_status_of_lookup {slot : ParkingSlot} {status : SlotStatus} (hm : slot ∈ db.slots)
    (h : slotStatus db slot.id = some status) : slot.status = status := by
  rw [slotStatus, Table.lookup_key hm, Option.map_some] at h
  exact Option.some.inj h

theorem Consistent.agreement (h : Consistent db) : Agreement db where
  occupied session hs hactive slot hslot hid := by
    obtain ⟨reservation, hr, -, hslotId, -, hconf⟩ := h.session session hs
    have hst := h.allotted reservation hr (.inr (hconf hactive))
    rw [hslotId, ← hid, hconf hactive] at hst
    exact slot_status_of_lookup hslot hst
  reserved reservation hr hpending slot hslot hid := by
    have hst := h.allotted reservation hr (.inl hpending)
    rw [← hid, hpending] at hst
    exact slot_status_of_lookup hslot hst
  taken slot hslot hfree := by
    have hlive : ∀ reservation ∈ db.reservations, reservation.status.Live →
        reservation.slotId ≠ slot.id := by
      intro reservation hr hlive hid
      have hst := h.allotted reservation hr hlive
      rw [hid] at hst
      have he := slot_status_of_lookup hslot hst
      exact ReservationStatus.slotStatus_ne hlive (he.symm.trans hfree)
    refine ⟨hlive, fun session hs hactive hid => ?_⟩
    obtain ⟨reservation, hr, -, hslotId, -, hconf⟩ := h.session session hs
    exact hlive reservation hr (.inr (hconf hactive)) (hslotId.trans hid)
  exclusive reservation hr other ho hh hh' he :=
    h.eq_of_slotId_eq hr ho (h.confirmed_of_holds hr hh) (h.confirmed_of_holds ho hh') he

theorem consistent_opening (branches : Table Branch.id Branch.id)
    (slots : Table ParkingSlot.id fun slot => (slot.branchId, slot.code)) :
    Consistent (.opening branches slots) where
  exclusive a b slotId ha := by
    obtain ⟨reservation, hm, -⟩ := heldSlot_eq_some.mp ha
    exact absurd hm (Table.not_mem_empty reservation)
  allotted reservation hm := absurd hm (Table.not_mem_empty reservation)
  attended reservation hm := absurd hm (Table.not_mem_empty reservation)
  session session hm := absurd hm (Table.not_mem_empty session)

-- What each write does to the invariants.
section Writes

open PrismaReservationRepository in
theorem mem_reservations_setStatus {reservation : Reservation} {id : Id}
    {status : ReservationStatus} {confirmedAt : Option ℤ} :
    reservation ∈ (setStatus db id status confirmedAt).reservations ↔
      ∃ old ∈ db.reservations,
        reservation = if old.id = id then withStatus status confirmedAt old else old :=
  Table.mem_modify

-- A live reservation and its slot move to another status together.
theorem Allotted.move (h : Allotted db) {reservation : Reservation}
    (hr : reservation ∈ db.reservations) (hlive : reservation.status.Live)
    (status : ReservationStatus) (confirmedAt : Option ℤ) (now : ℤ) :
    Allotted (PrismaParkingSlotRepository.setStatus
      (PrismaReservationRepository.setStatus db reservation.id status confirmedAt)
      reservation.slotId status.slotStatus now) where
  exclusive := by
    rw [heldSlot_slots_setStatus, heldSlot_reservations_setStatus, Table.lookup_key hr,
      Option.map_some]
    refine Holding.exclusive_update h.exclusive fun slotId hs other hne ho => ?_
    split at hs
    · cases hs
      exact hne (h.exclusive other reservation.id _ ho (heldSlot_of_mem hr hlive))
    · cases hs
  allotted other hother hlive' := by
    rw [slotStatus_slots_setStatus, slotStatus_reservations_setStatus]
    obtain ⟨old, hold, he⟩ := mem_reservations_setStatus.mp hother
    by_cases hid : old.id = reservation.id
    · have hsame : old = reservation := Table.eq_of_key_eq hold hr hid
      rw [if_pos hid, hsame] at he
      have hst := h.allotted reservation hr hlive
      rw [he]
      simp only [PrismaReservationRepository.withStatus, if_true, hst, Option.map_some]
    · rw [if_neg hid] at he
      subst other
      have hne : old.slotId ≠ reservation.slotId := fun hs =>
        hid (congrArg Reservation.id (h.eq_of_slotId_eq hold hr hlive' hlive hs))
      rw [if_neg hne]
      exact h.allotted old hold hlive'

-- A new PENDING reservation on a slot that was vacant.
theorem Allotted.reserve (h : Allotted db) {slotId : Id} (hv : Vacant db slotId)
    {row : Reservation} (hs : row.status = .PENDING) (hslot : row.slotId = slotId)
    {bigger : Table Reservation.id Reservation.id}
    (hb : db.reservations.insert row = some bigger) (now : ℤ) :
    Allotted { PrismaParkingSlotRepository.setStatus db slotId .RESERVADA now with
      reservations := bigger } := by
  have hheld : heldSlot { PrismaParkingSlotRepository.setStatus db slotId .RESERVADA now with
      reservations := bigger } = Function.update (heldSlot db) row.id (some row.slotId) :=
    heldSlot_insert hb hs
  have hfree : ∀ other ∈ db.reservations, other.status.Live → other.slotId ≠ slotId := by
    intro other ho hlive he
    have hst := h.allotted other ho hlive
    rw [he, hv] at hst
    exact ReservationStatus.slotStatus_ne hlive (Option.some.inj hst).symm
  constructor
  · rw [hheld]
    refine Holding.exclusive_update h.exclusive fun slot hslot' other hne ho => ?_
    obtain ⟨held, hm, -, hlive, he⟩ := heldSlot_eq_some.mp ho
    cases hslot'
    exact hfree held hm hlive (he.trans hslot)
  · intro other ho hlive
    change slotStatus (PrismaParkingSlotRepository.setStatus db slotId .RESERVADA now) _ = _
    rw [slotStatus_slots_setStatus]
    rcases (Table.mem_insert hb).mp ho with hm | rfl
    · rw [if_neg (hfree other hm hlive)]
      exact h.allotted other hm hlive
    · rw [if_pos hslot, hv, Option.map_some, hs]
      rfl

theorem Attended.reserve (h : Attended db) {row : Reservation} (hs : row.status = .PENDING)
    {bigger : Table Reservation.id Reservation.id}
    (hb : db.reservations.insert row = some bigger) :
    Attended { db with reservations := bigger } where
  attended other ho hconf := by
    rcases (Table.mem_insert hb).mp ho with hm | rfl
    · exact h.attended other hm hconf
    · rw [hs] at hconf
      cases hconf
  session session hm := by
    obtain ⟨reservation, hr, hrest⟩ := h.session session hm
    exact ⟨reservation, (Table.mem_insert hb).mpr (.inl hr), hrest⟩

-- A reservation without a session, one that is PENDING, ends.
theorem Attended.drop (h : Attended db) {reservation : Reservation}
    (hr : reservation ∈ db.reservations) (hs : reservation.status = .PENDING)
    {status : ReservationStatus} (hend : ¬status.Live) (confirmedAt : Option ℤ) :
    Attended (PrismaReservationRepository.setStatus db reservation.id status confirmedAt) where
  attended other ho hconf := by
    obtain ⟨old, hold, he⟩ := mem_reservations_setStatus.mp ho
    by_cases hid : old.id = reservation.id
    · rw [if_pos hid] at he
      subst other
      exact absurd (.inr hconf) hend
    · rw [if_neg hid] at he
      exact h.attended other (he ▸ hold) hconf
  session session hm := by
    obtain ⟨old, hold, hid, hslot, hne, hconf⟩ := h.session session hm
    have hother : old.id ≠ reservation.id := by
      intro he
      rw [Table.eq_of_key_eq hold hr he] at hne
      exact hne hs
    refine ⟨old, mem_reservations_setStatus.mpr ⟨old, hold, ?_⟩, hid, hslot, hne, hconf⟩
    rw [if_neg hother]

theorem Attended.enter (h : Attended db) {reservation : Reservation}
    (hr : reservation ∈ db.reservations) (hs : reservation.status = .PENDING)
    (confirmedAt : Option ℤ) {row : ParkingSession}
    (hid : row.reservationId = reservation.id) (hslot : row.slotId = reservation.slotId)
    (hactive : row.status = .ACTIVE)
    {bigger : Table ParkingSession.id ParkingSession.reservationId}
    (hb : db.sessions.insert row = some bigger) :
    Attended { PrismaReservationRepository.setStatus db reservation.id .CONFIRMED confirmedAt with
      sessions := bigger } where
  attended other ho hconf := by
    obtain ⟨old, hold, he⟩ := mem_reservations_setStatus.mp ho
    by_cases hsame : old.id = reservation.id
    · refine ⟨row, (Table.mem_insert hb).mpr (.inr rfl), ?_, hactive⟩
      rw [he, if_pos hsame, hid, ← hsame]
      rfl
    · rw [if_neg hsame] at he
      subst other
      obtain ⟨session, hm, hsession⟩ := h.attended old hold hconf
      exact ⟨session, (Table.mem_insert hb).mpr (.inl hm), hsession⟩
  session session hm := by
    rcases (Table.mem_insert hb).mp hm with hold | rfl
    · obtain ⟨old, ho, hoid, hoslot, hne, hconf⟩ := h.session session hold
      have hother : old.id ≠ reservation.id := by
        intro he
        rw [Table.eq_of_key_eq ho hr he] at hne
        exact hne hs
      refine ⟨old, mem_reservations_setStatus.mpr ⟨old, ho, ?_⟩, hoid, hoslot, hne, hconf⟩
      rw [if_neg hother]
    · refine ⟨_, mem_reservations_setStatus.mpr ⟨reservation, hr, rfl⟩, ?_⟩
      rw [if_pos rfl]
      refine ⟨hid.symm, hslot.symm, ?_, fun _ => rfl⟩
      intro he
      cases he

theorem Attended.leave (h : Attended db) {session : ParkingSession}
    (hm : session ∈ db.sessions) (exitAt : ℤ) :
    Attended (PrismaReservationRepository.setStatus
      (PrismaParkingSessionRepository.setCompleted db session.id exitAt)
      session.reservationId .COMPLETED none) where
  attended other ho hconf := by
    obtain ⟨old, hold, he⟩ := mem_reservations_setStatus.mp ho
    by_cases hid : old.id = session.reservationId
    · rw [if_pos hid] at he
      subst other
      cases hconf
    · rw [if_neg hid] at he
      subst other
      obtain ⟨witness, hw, hwid, hactive⟩ := h.attended old hold hconf
      have hne : witness.id ≠ session.id := by
        intro he
        rw [Table.eq_of_key_eq hw hm he] at hwid
        exact hid hwid.symm
      exact ⟨witness, (Table.mem_modify_of_ne hne).mpr hw, hwid, hactive⟩
  session other ho := by
    obtain ⟨before, hb, he⟩ := Table.mem_modify.mp ho
    obtain ⟨old, hold, hid, hslot, hne, hconf⟩ := h.session before hb
    have hsame : other.reservationId = before.reservationId ∧ other.slotId = before.slotId := by
      rw [he]
      split <;> exact ⟨rfl, rfl⟩
    refine ⟨_, mem_reservations_setStatus.mpr ⟨old, hold, rfl⟩, ?_⟩
    by_cases hend : old.id = session.reservationId
    · rw [if_pos hend]
      refine ⟨hid.trans hsame.1.symm, hslot.trans hsame.2.symm, (fun hp => by cases hp), ?_⟩
      -- the session of the reservation is the one that was completed
      intro hactive
      have hbefore : before = session := Table.eq_of_mark_eq hb hm (hid.symm.trans hend)
      rw [he, hbefore, if_pos rfl] at hactive
      cases hactive
    · rw [if_neg hend]
      refine ⟨hid.trans hsame.1.symm, hslot.trans hsame.2.symm, hne, fun hactive => ?_⟩
      have hother : before.id ≠ session.id := by
        intro hs
        rw [Table.eq_of_key_eq hb hm hs] at hid
        exact hend hid
      rw [he, if_neg hother] at hactive
      exact hconf hactive

end Writes

-- What each request keeps, executed to completion.
section Requests

variable {config : Config} {now : ℤ}

abbrev Keeps {α : Type} (p : Port α) (db : Database) (now : ℤ) : Prop :=
  p.wp serve ⟨db, now⟩ fun _ world => Consistent world.db

theorem keeps_of_reads {α : Type} {p : Port α} (hp : p.Uses Call.Reads) (h : Consistent db) :
    Keeps p db now := by
  refine Program.wp_mono (wp_of_reads hp ⟨db, now⟩) ?_
  rintro result world ⟨hdb, -⟩
  rw [hdb]
  exact h

theorem keeps_bind {α β : Type} {p : Port α} {f : α → Port β} (hp : Keeps p db now)
    (hf : ∀ value db' later, Consistent db' → Keeps (f value) db' later) :
    Keeps (p >>= f) db now := by
  unfold Keeps
  rw [Program.wp_bind]
  refine Program.wp_mono hp ?_
  rintro result ⟨db', later⟩ h
  cases result with
  | ok value => exact hf value db' later h
  | error err => exact h

theorem keeps_store (h : Consistent db) {input : CreateReservationInput} {slot : ParkingSlot}
    (hv : Vacant db slot.id) (claimedAt : ℤ) :
    Keeps (CreateReservationUseCase.store config input
        (PrismaParkingSlotRepository.withStatus .RESERVADA claimedAt slot))
      (PrismaParkingSlotRepository.setStatus db slot.id .RESERVADA claimedAt) now := by
  refine wp_clockNow_bind fun start _ => wp_reservationsCreate_bind fun uuid later bigger _ hb => ?_
  refine keeps_bind (keeps_of_reads (announce_reads _) ?_) fun _ _ _ h' => h'
  have hallotted := Allotted.reserve h.toAllotted hv rfl rfl hb claimedAt
  have hattended := Attended.reserve h.toAttended rfl hb
  exact { hallotted, hattended with }

theorem keeps_create (h : Consistent db) (input : CreateReservationInput) :
    Keeps (CreateReservationUseCase.execute config input) db now := by
  refine wp_reads_bind (canCreateReservation_reads _) (fun _ _ _ => h) fun eligibility _ _ => ?_
  cases eligibility.allowed with
  | false => exact h
  | true =>
      change Keeps (CreateReservationUseCase.reserve config input) db _
      rw [reserve_eq]
      refine wp_claimSlot_bind (fun _ _ => ?_) fun slot hm hav claimedAt _ => ?_
      · refine wp_lookElsewhere_bind (fun _ _ _ => h) fun assignment _ _ hun => ?_
        cases assignment with
        | ASSIGNED slot => exact absurd rfl (hun slot)
        | SUGGEST_OTHER_BRANCH branch distanceKm => exact h
        | NO_AVAILABILITY => exact h
      · exact keeps_store h (vacant_of_available hm hav) claimedAt

-- The end of a PENDING reservation: its status, and then its slot.
theorem keeps_drop {α : Type} (h : Consistent db) {reservation : Reservation}
    (hr : reservation ∈ db.reservations) (hs : reservation.status = .PENDING)
    {status : ReservationStatus} (hend : status.slotStatus = .DISPONIBLE) {f : Unit → Port α}
    (hf : ∀ later, Consistent (PrismaParkingSlotRepository.setStatus
        (PrismaReservationRepository.setStatus db reservation.id status none)
        reservation.slotId .DISPONIBLE later) →
      Keeps (f ()) (PrismaParkingSlotRepository.setStatus
        (PrismaReservationRepository.setStatus db reservation.id status none)
        reservation.slotId .DISPONIBLE later) later) :
    Keeps (reservations.updateStatus reservation.id status none >>= fun _ =>
      DefaultParkingPolicy.releaseSlot reservation.slotId >>= f) db now := by
  have hlive : reservation.status.Live := .inl hs
  have hfound : (db.reservations.lookup reservation.id).isSome := by
    rw [Table.lookup_key hr]
    rfl
  refine wp_reservationsUpdateStatus_bind hfound fun _ _ => ?_
  have hslot : (db.slots.lookup reservation.slotId).isSome :=
    isSome_of_slotStatus (h.allotted reservation hr hlive)
  refine wp_slotsUpdateStatus_bind hslot fun later _ => hf later ?_
  have hallotted := Allotted.move h.toAllotted hr hlive status none later
  rw [hend] at hallotted
  have hdead : ¬status.Live := fun hlive => ReservationStatus.slotStatus_ne hlive hend
  have hattended := Attended.drop h.toAttended hr hs hdead none
  exact { hallotted, hattended with }

theorem keeps_cancel (h : Consistent db) (input : CancelReservationInput)
    (hc : ¬CancelsConfirmed db (.CancelReservation input)) :
    Keeps (CancelReservationUseCase.execute input) db now := by
  refine wp_read_bind (fun _ _ => rfl) fun later _ => ?_
  cases hl : (PrismaReservationRepository.findById db input.reservationId).filter
      fun reservation => reservation.userId = input.userId with
  | none => exact h
  | some reservation =>
      obtain ⟨hfound, huser⟩ := Option.filter_eq_some_iff.mp hl
      obtain ⟨hr, hid⟩ := Table.lookup_eq_some.mp hfound
      simp only [decide_eq_true_eq] at huser
      have hne : reservation.status ≠ .CONFIRMED := by
        intro hconf
        refine hc ⟨reservation, hr, hconf, ?_⟩
        rw [hid, huser]
      by_cases hp : reservation.status = .PENDING
      · simp only [hp, ne_eq, not_true_eq_false, false_and, if_false]
        refine keeps_drop h hr hp rfl fun _ h' => ?_
        refine keeps_bind (keeps_of_reads ?_ h') fun _ _ _ h'' => keeps_of_reads (notifyAll_reads _) h''
        refine Program.uses_bind (uses_ask.mpr trivial) fun eventId => ?_
        exact Program.uses_bind (uses_ask.mpr trivial) fun occurredAt => uses_ask.mpr trivial
      · simp only [hp, hne, ne_eq, not_false_eq_true, and_self, if_true]
        exact h

theorem keeps_sweep (candidates : List Reservation) (time : ℤ) (count : ℕ)
    (hn : (candidates.map Reservation.id).Nodup) :
    ∀ db now, Consistent db → (∀ reservation ∈ candidates,
      reservation ∈ db.reservations ∧ reservation.status = .PENDING) →
    Keeps (ExpireOverdueReservationsUseCase.sweep time candidates count) db now := by
  induction candidates generalizing count with
  | nil => exact fun db now h _ => h
  | cons reservation rest ih =>
      intro db now h hmem
      obtain ⟨hr, hs⟩ := hmem reservation List.mem_cons_self
      have hrest : ∀ other ∈ rest, other ∈ db.reservations ∧ other.status = .PENDING :=
        fun other ho => hmem other (List.mem_cons_of_mem _ ho)
      rw [List.map_cons, List.nodup_cons] at hn
      unfold ExpireOverdueReservationsUseCase.sweep
      by_cases he : DefaultReservationPolicy.isExpired reservation time
      · simp only [he, Bool.not_true, Bool.false_eq_true, if_false]
        unfold ExpireOverdueReservationsUseCase.expire
        simp only [bind_assoc]
        refine keeps_drop h hr hs rfl fun later h' => ?_
        refine wp_reads_bind (notifyAll_reads _) (fun _ _ _ => h') fun _ _ _ => ?_
        -- the copies of the other candidates are still current
        refine ih (count + 1) hn.2 _ _ h' fun other ho => ?_
        have hne : other.id ≠ reservation.id := fun he => hn.1 (he ▸ List.mem_map_of_mem ho)
        exact ⟨(Table.mem_modify_of_ne hne).mpr (hrest other ho).1, (hrest other ho).2⟩
      · simp only [he, Bool.not_false, if_true]
        exact ih count hn.2 db now h hrest

theorem keeps_expire (h : Consistent db) :
    Keeps ExpireOverdueReservationsUseCase.execute db now := by
  refine wp_clockNow_bind fun time _ => wp_read_bind (fun _ _ => rfl) fun later _ => ?_
  refine keeps_sweep _ time 0 ?_ db later h fun reservation hm => ?_
  · exact db.reservations.keys_nodup.sublist (List.filter_sublist.map _)
  · have hf := List.mem_filter.mp hm
    exact ⟨hf.1, (of_decide_eq_true hf.2).1⟩

theorem keeps_enter (h : Consistent db) {reservation : Reservation}
    (hr : reservation ∈ db.reservations) (hs : reservation.status = .PENDING) (time : ℤ) :
    Keeps (DefaultParkingPolicy.enter reservation time) db now := by
  have hlive : reservation.status.Live := .inl hs
  have hfound : (db.reservations.lookup reservation.id).isSome := by
    rw [Table.lookup_key hr]
    rfl
  have hfree : ∀ session ∈ db.sessions, session.reservationId ≠ reservation.id := by
    intro session hm hid
    obtain ⟨other, ho, hoid, -, hne, -⟩ := h.session session hm
    rw [Table.eq_of_key_eq ho hr (hoid.trans hid)] at hne
    exact hne hs
  unfold DefaultParkingPolicy.enter DefaultParkingPolicy.confirmIfPending
  rw [if_pos hs]
  refine wp_reservationsUpdateStatus_bind hfound fun _ _ => ?_
  refine wp_sessionsCreate_bind hfree fun uuid _ bigger _ hb => ?_
  refine wp_slotsUpdateStatus_bind (isSome_of_slotStatus (h.allotted reservation hr hlive))
    fun later _ => ?_
  have hallotted := Allotted.move h.toAllotted hr hlive .CONFIRMED (some time) later
  have hattended := Attended.enter h.toAttended hr hs (some time) rfl rfl rfl hb
  exact { exclusive := hallotted.exclusive, allotted := hallotted.allotted,
          attended := hattended.attended, session := hattended.session }

theorem keeps_registerEntry (h : Consistent db) (reservationId : Id) (time : ℤ) :
    Keeps (DefaultParkingPolicy.registerEntry reservationId time) db now := by
  refine wp_read_bind (fun _ _ => rfl) fun later _ => ?_
  cases hl : PrismaReservationRepository.findById db reservationId with
  | none => exact h
  | some reservation =>
      obtain ⟨hr, hid⟩ := Table.lookup_eq_some.mp hl
      dsimp only
      split
      · exact h
      · rename_i hclosed
        split
        · exact h
        · refine wp_read_bind (fun _ _ => rfl) fun later' _ => ?_
          split
          · exact h
          · rename_i hactive
            refine keeps_enter h hr ?_ time
            -- a CONFIRMED reservation has an ACTIVE session, so the entry was refused
            cases hs : reservation.status with
            | PENDING => rfl
            | CONFIRMED =>
                obtain ⟨session, hm, hsid, hact⟩ := h.attended reservation hr hs
                have hfound : PrismaParkingSessionRepository.findByReservationId db reservation.id =
                    some session := Table.lookupBy_eq_some.mpr ⟨hm, hsid⟩
                rw [hfound, Option.any_some, ParkingSession.isActive, hact] at hactive
                exact absurd rfl hactive
            | EXPIRED => simp [DefaultParkingPolicy.closed, hs] at hclosed
            | CANCELLED => simp [DefaultParkingPolicy.closed, hs] at hclosed
            | COMPLETED => simp [DefaultParkingPolicy.closed, hs] at hclosed

theorem keeps_entry (h : Consistent db) (token : String) :
    Keeps (RegisterEntryUseCase.execute token) db now := by
  refine wp_entry token (fun _ _ _ => h) fun reservationId time _ => ?_
  refine keeps_bind (keeps_registerEntry h reservationId time) fun session _ _ h' => ?_
  exact keeps_bind (keeps_of_reads (announceEntry_reads session _) h') fun _ _ _ h'' => h''

theorem keeps_leave (h : Consistent db) {session : ParkingSession} (hm : session ∈ db.sessions)
    (hactive : session.status = .ACTIVE) (time : ℤ) :
    Keeps (DefaultParkingPolicy.leave session time) db now := by
  obtain ⟨reservation, hr, hid, hslot, -, hconf⟩ := h.session session hm
  have hlive : reservation.status.Live := .inr (hconf hactive)
  have hsession : (db.sessions.lookup session.id).isSome := by
    rw [Table.lookup_key hm]
    rfl
  have hfound : (db.reservations.lookup session.reservationId).isSome := by
    rw [← hid, Table.lookup_key hr]
    rfl
  have hslotFound : (db.slots.lookup session.slotId).isSome := by
    rw [← hslot]
    exact isSome_of_slotStatus (h.allotted reservation hr hlive)
  refine wp_sessionsMarkCompleted_bind hsession fun _ _ => ?_
  refine wp_slotsUpdateStatus_bind hslotFound fun released _ => ?_
  refine wp_reservationsUpdateStatus_bind hfound fun _ _ => ?_
  refine keeps_bind (keeps_of_reads (uses_ask.mpr trivial) ?_) fun _ _ _ h' => h'
  have hallotted := Allotted.move h.toAllotted hr hlive .COMPLETED none released
  rw [hid, hslot] at hallotted
  have hattended := Attended.leave h.toAttended hm time
  exact { exclusive := hallotted.exclusive, allotted := hallotted.allotted,
          attended := hattended.attended, session := hattended.session }

theorem keeps_registerExit (h : Consistent db) (sessionId : Id) (time : ℤ) :
    Keeps (DefaultParkingPolicy.registerExit sessionId time) db now := by
  refine wp_read_bind (fun _ _ => rfl) fun later _ => ?_
  cases hl : (PrismaParkingSessionRepository.findById db sessionId).filter
      ParkingSession.isActive with
  | none => exact h
  | some session =>
      obtain ⟨hfound, hactive⟩ := Option.filter_eq_some_iff.mp hl
      obtain ⟨hm, -⟩ := Table.lookup_eq_some.mp hfound
      refine wp_reads_bind (uses_ask.mpr (by trivial)) (fun _ _ _ => h) fun payment _ _ => ?_
      split
      · exact keeps_leave h hm (of_decide_eq_true hactive) time
      · exact h

theorem keeps_finish (h : Consistent db) (sessionId : Id) (time : ℤ) (reservation : Reservation) :
    Keeps (RegisterExitUseCase.finish sessionId time reservation) db now := by
  refine keeps_bind (keeps_registerExit h sessionId time) fun result _ _ h' => ?_
  cases result with
  | REJECTED reason => cases reason <;> exact h'
  | RELEASED session =>
      cases session with
      | none => exact h'
      | some session =>
          exact keeps_bind (keeps_of_reads (notifyAll_reads _) h') fun _ _ _ h'' => h''

theorem keeps_exit (h : Consistent db) (token : String) :
    Keeps (RegisterExitUseCase.execute token) db now :=
  wp_exit token (fun _ _ _ => h) fun sessionId time reservation _ _ =>
    keeps_finish h sessionId time reservation

-- One request, unless it cancels a CONFIRMED reservation.
theorem keeps_operation (h : Consistent db) (operation : Operation)
    (hc : ¬CancelsConfirmed db operation) : Keeps (operation.execute config) db now := by
  cases operation with
  | CreateReservation input => exact keeps_bind (keeps_create h input) fun _ _ _ h' => h'
  | CancelReservation input => exact keeps_bind (keeps_cancel h input hc) fun _ _ _ h' => h'
  | ExpireOverdueReservations => exact keeps_bind (keeps_expire h) fun _ _ _ h' => h'
  | RegisterEntry token => exact keeps_bind (keeps_entry h token) fun _ _ _ h' => h'
  | RegisterExit token => exact keeps_bind (keeps_exit h token) fun _ _ _ h' => h'

-- The release after the cancellation gives an occupied slot away.
theorem breaks_cancel (h : Consistent db) {operation : Operation}
    (hc : CancelsConfirmed db operation) :
    (operation.execute config).wp serve ⟨db, now⟩ fun _ world => ¬Agreement world.db := by
  obtain ⟨reservation, hr, hconf, rfl⟩ := hc
  have hlookup : (db.reservations.lookup reservation.id) = some reservation := Table.lookup_key hr
  have hst := h.allotted reservation hr (.inr hconf)
  obtain ⟨slot, hl, -⟩ := Option.map_eq_some_iff.mp hst
  obtain ⟨session, hs, hid, hactive⟩ := h.attended reservation hr hconf
  have hsession : session.slotId = reservation.slotId := by
    obtain ⟨other, ho, hoid, hslot, -⟩ := h.session session hs
    rw [← hslot, Table.eq_of_key_eq ho hr (hoid.trans hid)]
  have hbroken : ∀ released, ¬Agreement (PrismaParkingSlotRepository.setStatus
      (PrismaReservationRepository.setStatus db reservation.id .CANCELLED none)
      reservation.slotId .DISPONIBLE released) := by
    intro released ha
    obtain ⟨hmem, hslotId⟩ := Table.lookup_eq_some.mp hl
    refine (ha.taken (PrismaParkingSlotRepository.withStatus .DISPONIBLE released slot) ?_ rfl).2
      session hs hactive (hsession.trans hslotId.symm)
    exact Table.mem_modify.mpr ⟨slot, hmem, by rw [if_pos hslotId]⟩
  have hreads : (CancelReservationUseCase.publishAudit reservation reservation.userId).Uses
      Call.Reads :=
    Program.uses_bind (uses_ask.mpr trivial) fun _ =>
      Program.uses_bind (uses_ask.mpr trivial) fun _ => uses_ask.mpr trivial
  unfold Operation.execute CancelReservationUseCase.execute
  simp only [bind_assoc]
  refine wp_read_bind (fun _ _ => rfl) fun _ _ => ?_
  simp only [PrismaReservationRepository.findById, hlookup, Option.filter_some, decide_true,
    if_true, hconf, ne_eq, not_true_eq_false, and_false, if_false, CancelReservationUseCase.cancel,
    bind_assoc]
  refine wp_reservationsUpdateStatus_bind (hlookup ▸ rfl) fun _ _ => ?_
  refine wp_slotsUpdateStatus_bind (hl ▸ rfl) fun released _ => ?_
  refine wp_reads_bind hreads (fun _ _ _ => hbroken released) fun _ _ _ => ?_
  exact wp_reads_bind (notifyAll_reads _) (fun _ _ _ => hbroken released) fun _ _ _ =>
    hbroken released

end Requests

section Runs

variable {config : Config} {world : World}

theorem playAll_concat (past : List Turn) (turn : Turn) :
    playAll config world (past ++ [turn]) = playTurn config (playAll config world past) turn := by
  rw [playAll, List.foldl_append]
  rfl

theorem consistent_playTurn (h : Consistent world.db) {turn : Turn}
    (hc : ¬CancelsConfirmed world.db turn.operation) :
    Consistent (playTurn config world turn).db :=
  Program.run_of_wp (keeps_operation h turn.operation hc) turn.choices

theorem broken_playTurn (h : Consistent world.db) {turn : Turn}
    (hc : CancelsConfirmed world.db turn.operation) :
    ¬Agreement (playTurn config world turn).db :=
  Program.run_of_wp (breaks_cancel h hc) turn.choices

theorem consistent_playAll (h : Consistent world.db) (turns : List Turn)
    (hc : ∀ past turn, past ++ [turn] <+: turns →
      ¬CancelsConfirmed (playAll config world past).db turn.operation) :
    Consistent (playAll config world turns).db := by
  induction turns using List.reverseRecOn with
  | nil => exact h
  | append_singleton past turn ih =>
      rw [playAll_concat]
      refine consistent_playTurn (ih fun before next hp => ?_) (hc past turn (List.prefix_refl _))
      exact hc before next (hp.trans (List.prefix_append past [turn]))

theorem consistent_of_agreement (h : Consistent world.db) (turns : List Turn)
    (ha : ∀ past, past <+: turns → Agreement (playAll config world past).db) :
    Consistent (playAll config world turns).db := by
  induction turns using List.reverseRecOn with
  | nil => exact h
  | append_singleton past turn ih =>
      have hpast := ih fun before hp => ha before (hp.trans (List.prefix_append past [turn]))
      rw [playAll_concat]
      refine consistent_playTurn hpast fun hc => ?_
      have hafter := ha (past ++ [turn]) (List.prefix_refl _)
      rw [playAll_concat] at hafter
      exact broken_playTurn hpast hc hafter

end Runs

-- A run keeps the agreement exactly as long as no request in it cancels a
-- reservation that is CONFIRMED at that moment.
theorem agreement_iff (config : Config) (branches : Table Branch.id Branch.id)
    (slots : Table ParkingSlot.id fun slot => (slot.branchId, slot.code)) (now : ℤ)
    (turns : List Turn) :
    (∀ past, past <+: turns →
      Agreement (playAll config ⟨.opening branches slots, now⟩ past).db) ↔
    ∀ past turn, past ++ [turn] <+: turns →
      ¬CancelsConfirmed (playAll config ⟨.opening branches slots, now⟩ past).db turn.operation := by
  have hstart : Consistent (World.mk (.opening branches slots) now).db :=
    consistent_opening branches slots
  constructor
  · intro ha past turn hp hc
    have hpast : past <+: turns := (List.prefix_append past [turn]).trans hp
    have hcons := consistent_of_agreement hstart past fun before hb => ha before (hb.trans hpast)
    have hafter := ha (past ++ [turn]) hp
    rw [playAll_concat] at hafter
    exact broken_playTurn hcons hc hafter
  · intro hc past hp
    refine (consistent_playAll hstart past fun before turn hb => ?_).agreement
    exact hc before turn (hb.trans hp)

-- Reserve, enter, and cancel from the parked car.
theorem agreement_fails : ¬∀ (config : Config) (branches : Table Branch.id Branch.id)
    (slots : Table ParkingSlot.id fun slot => (slot.branchId, slot.code)) (now : ℤ)
    (turns : List Turn), Agreement (playAll config ⟨.opening branches slots, now⟩ turns).db := by
  intro h
  let turns : List Turn := [
    ⟨.CreateReservation (Demo.request "u1"), fun _ => Demo.choice "r1"⟩,
    ⟨.RegisterEntry "", fun _ => Demo.choice "r1"⟩,
    ⟨.CancelReservation ⟨"r1", "u1"⟩, fun _ => Demo.choice "r1"⟩]
  let db := (playAll Demo.config ⟨.opening Demo.branches Demo.slots, 0⟩ turns).db
  have hfreed : ∃ slot ∈ db.slots.rows, slot.status = .DISPONIBLE ∧
      ∃ session ∈ db.sessions.rows, session.status = .ACTIVE ∧ session.slotId = slot.id := by
    decide
  obtain ⟨slot, hslot, hstatus, session, hsession, hactive, hid⟩ := hfreed
  have ha : Agreement db := h Demo.config Demo.branches Demo.slots 0 turns
  exact (ha.taken slot hslot hstatus).2 session hsession hactive hid

end SmartParking
