import SmartParking.Admission
import Mathlib.Data.List.Induction

namespace SmartParking

open Async

variable {Tid : Type} {reservation : Reservation} {reservationId : Id}
  {status written : ReservationStatus} {db : Database} {history : History Tid}
  {visits : Tid → Visit} {thread : Tid} {event : Event Tid Call Answer Fault}

section History

theorem writes_unique {other : ReservationStatus} (h : Writes reservationId status event)
    (ho : Writes reservationId other event) : other = status :=
  Option.some.inj (ho.symm.trans h)

theorem not_writes_of_reads (h : event.call.Reads) : statusWritten reservationId event.call = none := by
  obtain ⟨thread, call, answer⟩ := event
  cases call <;> first | rfl | exact h.elim

theorem Traced.cons (h : Traced reservationId status history)
    (hn : statusWritten reservationId event.call = none) :
    Traced reservationId status (event :: history) where
  agrees old hm other hw := by
    rcases List.mem_cons.mp hm with rfl | hm
    · rw [Writes, hn] at hw
      cases hw
    · exact h.agrees old hm other hw
  real old hm other hw := by
    rcases List.mem_cons.mp hm with rfl | hm
    · rw [Writes, hn] at hw
      cases hw
    · exact h.real old hm other hw
  made hs := by
    obtain ⟨old, hm, hw⟩ := h.made hs
    exact ⟨old, List.mem_cons_of_mem _ hm, hw⟩

-- A write that agrees with all earlier ones.
theorem Traced.write (h : Traced reservationId status history)
    (hw : Writes reservationId written event) (hreal : written = .CONFIRMED ∨ written = .EXPIRED)
    (hold : ∀ old ∈ history, ∀ other, Writes reservationId other old → other = written) :
    Traced reservationId written (event :: history) where
  agrees old hm other ho := by
    rcases List.mem_cons.mp hm with rfl | hm
    · exact writes_unique hw ho
    · exact hold old hm other ho
  real old hm other ho := by
    rcases List.mem_cons.mp hm with rfl | hm
    · rw [writes_unique hw ho]
      exact hreal
    · exact h.real old hm other ho
  made _ := ⟨event, List.mem_cons_self, hw⟩

theorem Traced.status_cases (h : Traced reservationId status history) :
    status = .PENDING ∨ status = .CONFIRMED ∨ status = .EXPIRED := by
  by_cases hs : status = .PENDING
  · exact .inl hs
  · obtain ⟨event, hm, hw⟩ := h.made hs
    exact .inr (h.real event hm status hw)

-- From one history to a longer one the status makes at most one move.
theorem Traced.moves {later : History Tid} {after : ReservationStatus}
    (h : Traced reservationId status history) (h' : Traced reservationId after later)
    (hm : ∀ event ∈ history, event ∈ later) : Moves (some status) (some after) := by
  by_cases hs : status = .PENDING
  · rcases h'.status_cases with ha | ha
    · exact .inl (by rw [hs, ha])
    · exact .inr ⟨congrArg some hs, ha.imp (congrArg some) (congrArg some)⟩
  · obtain ⟨event, he, hw⟩ := h.made hs
    exact .inl (congrArg some (h'.agrees event (hm event he) status hw).symm)

theorem Seen.cons (h : Seen reservationId thread history) :
    Seen reservationId thread (event :: history) where
  looked := by
    obtain ⟨look, hm, hl⟩ := h.looked
    exact ⟨look, List.mem_cons_of_mem _ hm, hl⟩
  first old hm status hw := by
    rcases List.mem_cons.mp hm with rfl | hm
    · exact .inl ⟨hw, h.looked⟩
    · exact .inr (h.first old hm status hw)

-- The look at a reservation that is PENDING comes before all writes.
theorem seen_of_look (h : Traced reservationId .PENDING history)
    (hl : LooksAt reservationId thread event)
    (hn : statusWritten reservationId event.call = none) :
    Seen reservationId thread (event :: history) where
  looked := ⟨event, List.mem_cons_self, hl⟩
  first old hm status hw := by
    rcases List.mem_cons.mp hm with rfl | hm
    · rw [Writes, hn] at hw
      cases hw
    · have hpending := h.agrees old hm status hw
      rcases h.real old hm status hw with hs | hs <;> rw [hs] at hpending <;> cases hpending

-- A write that is not broken in on agrees with all writes before it.
theorem Seen.agrees (h : Seen reservationId thread history)
    (hn : ¬Since (LooksAt reservationId thread) (WritesOther reservationId written) history) :
    ∀ old ∈ history, ∀ other, Writes reservationId other old → other = written := by
  intro old hm other hw
  by_contra hne
  exact hn ((h.first old hm other hw).mono fun event he => ⟨other, he, hne⟩)

theorem Knows.cons {after : ReservationStatus} {visit : Visit}
    (h : Knows reservationId status history thread visit) (hs : status ≠ .PENDING → after = status) :
    Knows reservationId after (event :: history) thread visit := by
  cases visit with
  | outside => trivial
  | saw => exact Seen.cons h
  | inside =>
      have hsame := hs (by rw [h]; decide)
      exact hsame.trans h
  | parked =>
      obtain ⟨hc, begun, hm, ht⟩ := h
      exact ⟨(hs (by rw [hc]; decide)).trans hc, begun, List.mem_cons_of_mem _ hm, ht⟩
  | leaving =>
      obtain ⟨hseen, he⟩ := h
      exact ⟨hseen.cons, (hs (by rw [he]; decide)).trans he⟩

end History

theorem AtGate.read (h : AtGate reservation status db history visits)
    (hn : statusWritten reservation.id event.call = none) :
    AtGate reservation status db (event :: history) visits :=
  { h with
    traced := h.traced.cons hn
    knows := fun thread => (h.knows thread).cons fun _ => rfl }

theorem atGate_ignores_reads : IgnoresReads (Unbroken reservation.id : CallGuard Tid)
    (atGate reservation) := by
  rintro call hcall thread answer world history visits choice ⟨status, h⟩ _
  exact ⟨status, h.read (not_writes_of_reads hcall)⟩

variable [DecidableEq Tid] {next : Visit}

-- One step of one execution, in terms of what it does to the shared state.
theorem AtGate.step (h : AtGate reservation status db history visits) {db' : Database}
    {after : ReservationStatus} (hs : status ≠ .PENDING → after = status)
    (hrow : ∃ row ∈ db'.reservations, row.id = reservation.id ∧
      row.slotId = reservation.slotId ∧ row.status = after)
    (halone : ∀ other ∈ db'.reservations, other.slotId = reservation.slotId →
      other.status = .PENDING → other.id = reservation.id)
    (htraced : Traced reservation.id after (event :: history))
    (hknows : Knows reservation.id after (event :: history) thread next)
    (hentered : ∀ session ∈ db'.sessions, Parked reservation session → after = .CONFIRMED ∧
      (Occupied reservation db' ∨ ∃ other, Function.update visits thread next other = .parked)) :
    AtGate reservation after db' (event :: history) (Function.update visits thread next) where
  row := hrow
  alone := halone
  traced := htraced
  knows := (Function.forall_update_iff visits fun other visit =>
    Knows reservation.id after (event :: history) other visit).mpr
      ⟨hknows, fun other _ => (h.knows other).cons hs⟩
  entered := hentered

theorem parked_update (hne : visits thread ≠ .parked) (h : ∃ other, visits other = .parked) :
    ∃ other, Function.update visits thread next other = .parked := by
  obtain ⟨other, ho⟩ := h
  refine ⟨other, ?_⟩
  rw [Function.update_of_ne, ho]
  rintro rfl
  exact hne ho

-- Nothing changes but what the execution knows.
theorem AtGate.visit (h : AtGate reservation status db history visits)
    (hn : statusWritten reservation.id event.call = none) (hne : visits thread ≠ .parked)
    (hknows : Knows reservation.id status (event :: history) thread next) :
    AtGate reservation status db (event :: history) (Function.update visits thread next) := by
  refine h.step (fun _ => rfl) h.row h.alone (h.traced.cons hn) hknows fun session hm hp => ?_
  obtain ⟨hc, ho⟩ := h.entered session hm hp
  exact ⟨hc, ho.imp_right (parked_update hne)⟩

omit [DecidableEq Tid] in
-- The status that the database shows.
theorem AtGate.status_eq (h : AtGate reservation status db history visits) {row : Reservation}
    (hm : row ∈ db.reservations) (hid : row.id = reservation.id) :
    row.slotId = reservation.slotId ∧ row.status = status := by
  obtain ⟨found, hf, hfid, hslot, hs⟩ := h.row
  have he : row = found := Table.eq_of_key_eq hm hf (hid.trans hfid.symm)
  rw [he]
  exact ⟨hslot, hs⟩

theorem AtGate.write (h : AtGate reservation status db history visits) {id : Id}
    (hid : id = reservation.id) {confirmedAt : Option ℤ} (hw : Writes reservation.id written event)
    (hreal : written = .CONFIRMED ∨ written = .EXPIRED)
    (hold : ∀ old ∈ history, ∀ other, Writes reservation.id other old → other = written)
    (hne : visits thread ≠ .parked)
    (hknows : Knows reservation.id written (event :: history) thread next) :
    AtGate reservation written (PrismaReservationRepository.setStatus db id written confirmedAt)
      (event :: history) (Function.update visits thread next) := by
  subst hid
  have hs : status ≠ .PENDING → written = status := by
    intro hp
    obtain ⟨old, hm, ho⟩ := h.traced.made hp
    exact (hold old hm status ho).symm
  refine h.step hs ?_ ?_ (h.traced.write hw hreal hold) hknows fun session hm hp => ?_
  · obtain ⟨row, hm, hid, hslot, -⟩ := h.row
    refine ⟨_, Table.mem_modify.mpr ⟨row, hm, rfl⟩, ?_⟩
    rw [if_pos hid]
    exact ⟨hid, hslot, rfl⟩
  · intro other hm hslot hp
    rcases Table.mem_modify_cases hm with ⟨old, -, hid, rfl⟩ | ⟨ho, -⟩
    · exact hid
    · exact h.alone other ho hslot hp
  · obtain ⟨hc, ho⟩ := h.entered session hm hp
    exact ⟨(hs (by rw [hc]; decide)).trans hc, ho.imp_right (parked_update hne)⟩

omit [DecidableEq Tid] in
-- Another reservation expires.
theorem AtGate.expireOther (h : AtGate reservation status db history visits) {other : Id}
    (ho : other ≠ reservation.id) (hn : statusWritten reservation.id event.call = none) :
    AtGate reservation status (PrismaReservationRepository.setStatus db other .EXPIRED none)
      (event :: history) visits :=
  { h.read hn with
    row := by
      obtain ⟨row, hm, hid, hrest⟩ := h.row
      exact ⟨row, (Table.mem_modify_of_ne (by rw [hid]; exact ho.symm)).mpr hm, hid, hrest⟩
    alone := by
      intro row hm hslot hp
      rcases Table.mem_modify_cases hm with ⟨old, -, -, rfl⟩ | ⟨ho, -⟩
      · cases hp
      · exact h.alone row ho hslot hp }

omit [DecidableEq Tid] in
-- Another slot is released.
theorem AtGate.releaseOther (h : AtGate reservation status db history visits) {slotId : Id}
    (ho : slotId ≠ reservation.slotId) (hn : statusWritten reservation.id event.call = none)
    (now : ℤ) :
    AtGate reservation status (PrismaParkingSlotRepository.setStatus db slotId .DISPONIBLE now)
      (event :: history) visits :=
  { h.read hn with
    entered := fun session hm hp => by
      obtain ⟨hc, hocc⟩ := h.entered session hm hp
      refine ⟨hc, hocc.imp_left fun hocc slot hslot hid => ?_⟩
      rcases Table.mem_modify_cases hslot with ⟨old, -, hold, rfl⟩ | ⟨hslot, -⟩
      · exact absurd (hold.symm.trans hid) ho
      · exact hocc slot hslot hid }

theorem AtGate.release (h : AtGate reservation status db history visits) {slotId : Id}
    (hv : visits thread = .leaving) (hn : statusWritten reservation.id event.call = none)
    (now : ℤ) :
    AtGate reservation status (PrismaParkingSlotRepository.setStatus db slotId .DISPONIBLE now)
      (event :: history) (Function.update visits thread .saw) := by
  have hk := h.knows thread
  rw [hv] at hk
  obtain ⟨hseen, he⟩ := hk
  refine h.step (fun _ => rfl) h.row h.alone (h.traced.cons hn) hseen.cons fun session hm hp => ?_
  obtain ⟨hc, -⟩ := h.entered session hm hp
  rw [he] at hc
  cases hc

theorem AtGate.park (h : AtGate reservation status db history visits)
    (hv : visits thread = .inside) (hn : statusWritten reservation.id event.call = none)
    (ht : event.thread = thread) {row : ParkingSession}
    {bigger : Table ParkingSession.id ParkingSession.reservationId}
    (hb : db.sessions.insert row = some bigger) :
    AtGate reservation status { db with sessions := bigger } (event :: history)
      (Function.update visits thread .parked) := by
  have hc := h.knows thread
  rw [hv] at hc
  refine h.step (fun _ => rfl) h.row h.alone (h.traced.cons hn) ⟨hc, event, List.mem_cons_self, ht⟩
    fun session hm hp => ?_
  rcases (Table.mem_insert hb).mp hm with hm | rfl
  · obtain ⟨hc, ho⟩ := h.entered session hm hp
    exact ⟨hc, ho.imp_right (parked_update (by rw [hv]; nofun))⟩
  · exact ⟨hc, .inr ⟨thread, Function.update_self ..⟩⟩

theorem AtGate.occupy (h : AtGate reservation status db history visits) {slotId : Id}
    (hslot : slotId = reservation.slotId) (hn : statusWritten reservation.id event.call = none) (now : ℤ) :
    AtGate reservation status (PrismaParkingSlotRepository.setStatus db slotId .OCUPADA now)
      (event :: history) (Function.update visits thread .outside) := by
  subst hslot
  refine h.step (fun _ => rfl) h.row h.alone (h.traced.cons hn) trivial fun session hm hp => ?_
  refine ⟨(h.entered session hm hp).1, .inl fun slot hs hid => ?_⟩
  rcases Table.mem_modify_cases hs with ⟨old, -, -, rfl⟩ | ⟨-, hne⟩
  · rfl
  · exact absurd hid hne

-- Each execution is safe on its own. In the end no car waits for its slot.
section Executions

abbrev SafeVisit {α : Type} (reservation : Reservation) (thread : Tid) (p : Port α)
    (visit : Visit) : Prop :=
  SafeCall (Unbroken reservation.id) (atGate reservation) thread p visit
    fun _ visit => visit ≠ .parked

theorem safe_visit_bind {α β : Type} {p : Port α} {f : α → Port β} {visit : Visit}
    (hp : SafeVisit reservation thread p visit)
    (hf : ∀ value visit', visit' ≠ .parked → SafeVisit reservation thread (f value) visit') :
    SafeVisit reservation thread (p >>= f) visit :=
  safe_bind (fun _ visit => visit ≠ .parked)
    (safe_mono hp fun result _ h => by cases result <;> exact h) hf

-- A copy of the reservation, as an execution has read it.
structure IsCopy (reservation copy : Reservation) : Prop where
  id : copy.id = reservation.id
  slotId : copy.slotId = reservation.slotId

theorem safe_park {data : CreateParkingSessionData} {slotId : Id}
    (hslot : slotId = reservation.slotId) : SafeVisit reservation thread
      (sessions.create data >>= fun session =>
        slots.updateStatus slotId .OCUPADA >>= fun _ => pure session) .inside := by
  refine safe_ask_bind fun db history visits choice later clock hv ⟨status, h⟩ _ => ?_
  rcases query_sessionsCreate db choice later data with ⟨bigger, hb, hq⟩ | ⟨-, err, hq⟩
  · rw [hq]
    refine ⟨.parked, ⟨status, h.park hv rfl rfl hb⟩, ?_⟩
    refine safe_slotsUpdateStatus_bind fun db history visits _ now _ answer _ ⟨status, h⟩ _ => ?_
    exact ⟨.outside, ⟨status, h.occupy hslot rfl now⟩, nofun, nofun⟩
  · rw [hq]
    exact ⟨.outside, ⟨status, h.visit rfl (by rw [hv]; nofun) trivial⟩, nofun⟩

-- A write over the reservation by an execution that has seen it PENDING.
theorem safe_write {α : Type} {id : Id} (hid : id = reservation.id) {target : ReservationStatus}
    (hreal : target = .CONFIRMED ∨ target = .EXPIRED) {confirmedAt : Option ℤ} {f : Unit → Port α}
    (next : Visit) (hknows : ∀ history : History Tid, Seen reservation.id thread history →
      Knows reservation.id target history thread next)
    (hnext : next ≠ .parked) (hf : SafeVisit reservation thread (f ()) next) :
    SafeVisit reservation thread (reservations.updateStatus id target confirmedAt >>= f) .saw := by
  refine safe_reservationsUpdateStatus_bind
    fun db history visits choice clock answer ht ⟨status, h⟩ hg => ?_
  have hseen := h.knows thread
  rw [ht] at hseen
  have hwrites : Writes reservation.id target
      (⟨thread, .reservationsUpdateStatus id target confirmedAt, answer⟩ :
        Event Tid Call Answer Fault) :=
    if_pos hid
  have hold := Seen.agrees hseen (hg target hwrites)
  refine ⟨next, ⟨target, ?_⟩, hf, fun _ => hnext⟩
  exact h.write hid hwrites hreal hold (by rw [ht]; nofun) (hknows _ (Seen.cons hseen))

theorem safe_enter (now : ℤ) {copy : Reservation} (hcopy : IsCopy reservation copy) :
    SafeVisit reservation thread (DefaultParkingPolicy.enter copy now) (.after copy.status) := by
  unfold DefaultParkingPolicy.enter DefaultParkingPolicy.confirmIfPending Visit.after
  by_cases hs : copy.status = .PENDING
  · rw [if_pos hs, if_pos hs]
    exact safe_write hcopy.id (.inl rfl) .inside (fun _ _ => rfl) nofun (safe_park hcopy.slotId)
  · rw [if_neg hs, if_neg hs]
    exact safe_park hcopy.slotId

theorem safe_registerEntry :
    SafeVisit reservation thread (GateOperation.registerEntry.execute reservation.id) .outside := by
  refine safe_reads_bind atGate_ignores_reads (uses_ask.mpr (by trivial)) (Program.yields_true _)
    (fun _ _ => nofun) fun now _ => ?_
  unfold DefaultParkingPolicy.registerEntry
  simp only [bind_assoc]
  refine safe_ask_bind fun db history visits choice later clock ht ⟨status, h⟩ _ => ?_
  change ∃ visit, atGate reservation db _ (Function.update visits thread visit) ∧
    SafeVisit reservation thread _ visit
  have hne : visits thread ≠ .parked := by rw [ht]; nofun
  obtain ⟨row, hm, hid, hslot, hs⟩ := h.row
  have hfound : PrismaReservationRepository.findById db reservation.id = some row :=
    Table.lookup_eq_some.mpr ⟨hm, hid⟩
  rw [hfound]
  dsimp only
  by_cases hclosed : DefaultParkingPolicy.closed row = true
  · rw [if_pos hclosed]
    exact ⟨.outside, ⟨status, h.visit rfl hne trivial⟩, nofun⟩
  rw [if_neg hclosed]
  have hknows : ∀ answer, Knows reservation.id status
      (⟨thread, .reservationsFindById reservation.id, answer⟩ :: history) thread
      (.after row.status) := by
    intro answer
    subst hs
    rcases h.traced.status_cases with hs | hs | hs
    · rw [hs] at h ⊢
      exact seen_of_look h.traced ⟨rfl, rfl⟩ rfl
    · rw [hs]
      exact rfl
    · exact absurd (by simp [DefaultParkingPolicy.closed, hs]) hclosed
  have hvisit : Visit.after row.status ≠ .parked := by
    unfold Visit.after
    split <;> nofun
  refine ⟨.after row.status, ⟨status, h.visit rfl hne (hknows _)⟩, ?_⟩
  split
  · exact hvisit
  rw [bind_assoc]
  refine safe_reads_bind atGate_ignores_reads (uses_ask.mpr (by trivial)) (Program.yields_true _)
    (fun _ _ => hvisit) fun existing _ => ?_
  split
  · exact hvisit
  exact safe_visit_bind (safe_enter now ⟨hid, hslot⟩) fun _ _ h => h

-- The candidates of a sweep are copies of reservations that were PENDING.
theorem safe_sweep_visit (time : ℤ) {candidates : List Reservation}
    (hcopy : ∀ copy ∈ candidates, copy.id = reservation.id ↔ copy.slotId = reservation.slotId)
    {visit : Visit} (hv : visit = .saw ∨
      visit = .outside ∧ ∀ copy ∈ candidates, copy.id ≠ reservation.id) (count : ℕ) :
    SafeVisit reservation thread
      (ExpireOverdueReservationsUseCase.sweep time candidates count) visit := by
  have hne : visit ≠ .parked := by
    rintro rfl
    rcases hv with hv | ⟨hv, -⟩ <;> cases hv
  induction candidates generalizing count with
  | nil => exact hne
  | cons copy rest ih =>
      have hrest := ih (fun other ho => hcopy other (List.mem_cons_of_mem _ ho))
        (hv.imp_right fun h => ⟨h.1, fun other ho => h.2 other (List.mem_cons_of_mem _ ho)⟩)
      unfold ExpireOverdueReservationsUseCase.sweep ExpireOverdueReservationsUseCase.expire
      split
      · exact hrest count
      simp only [bind_assoc]
      have hnext : SafeVisit reservation thread (notifier.notifyAll [
          .ReservationExpired copy.id copy.branchId copy.slotId,
          .SlotStatusChanged copy.branchId copy.slotId .DISPONIBLE,
          .OccupancyUpdated copy.branchId] >>= fun _ =>
            ExpireOverdueReservationsUseCase.sweep time rest (count + 1)) visit :=
        safe_reads_bind atGate_ignores_reads (notifyAll_reads _) (Program.yields_true _)
          (fun _ _ => hne) fun _ _ => hrest (count + 1)
      have hsame := hcopy copy List.mem_cons_self
      by_cases hid : copy.id = reservation.id
      · obtain rfl : visit = .saw := hv.resolve_right fun h => h.2 copy List.mem_cons_self hid
        refine safe_write hid (.inr rfl) .leaving (fun _ hseen => ⟨hseen, rfl⟩) nofun ?_
        refine safe_slotsUpdateStatus_bind
          fun db history visits _ now _ answer ht ⟨status, h⟩ _ => ?_
        exact ⟨.saw, ⟨status, h.release ht rfl now⟩, hnext, nofun⟩
      · have hslot : copy.slotId ≠ reservation.slotId := fun he => hid (hsame.mpr he)
        refine safe_reservationsUpdateStatus_bind
          fun db history visits _ _ answer ht ⟨status, h⟩ _ => ?_
        refine ⟨visit, ⟨status, ?_⟩, ?_, fun _ => hne⟩
        · rw [← ht, Function.update_eq_self]
          exact h.expireOther hid (if_neg hid)
        refine safe_slotsUpdateStatus_bind
          fun db history visits _ now _ answer ht ⟨status, h⟩ _ => ?_
        refine ⟨visit, ⟨status, ?_⟩, hnext, fun _ => hne⟩
        rw [← ht, Function.update_eq_self]
        exact h.releaseOther hslot rfl now

theorem safe_expireOverdue : SafeVisit reservation thread
    (GateOperation.expireOverdueReservations.execute reservation.id) .outside := by
  refine safe_visit_bind ?_ fun _ _ h => h
  refine safe_reads_bind atGate_ignores_reads (uses_ask.mpr (by trivial)) (Program.yields_true _)
    (fun _ _ => nofun) fun time _ => ?_
  refine safe_ask_bind fun db history visits choice later clock ht ⟨status, h⟩ _ => ?_
  change ∃ visit, atGate reservation db _ (Function.update visits thread visit) ∧
    SafeVisit reservation thread (ExpireOverdueReservationsUseCase.sweep time
      (PrismaReservationRepository.findExpiredPending db time) 0) visit
  have hne : visits thread ≠ .parked := by rw [ht]; nofun
  have hpending : ∀ copy ∈ PrismaReservationRepository.findExpiredPending db time,
      copy ∈ db.reservations ∧ copy.status = .PENDING := by
    intro copy hc
    obtain ⟨hm, hs⟩ := List.mem_filter.mp hc
    exact ⟨hm, (of_decide_eq_true hs).1⟩
  have hcopy : ∀ copy ∈ PrismaReservationRepository.findExpiredPending db time,
      copy.id = reservation.id ↔ copy.slotId = reservation.slotId := fun copy hc =>
    ⟨fun hid => (h.status_eq (hpending copy hc).1 hid).1,
      fun hslot => h.alone copy (hpending copy hc).1 hslot (hpending copy hc).2⟩
  by_cases hs : status = .PENDING
  · subst hs
    exact ⟨.saw, ⟨.PENDING, h.visit rfl hne (seen_of_look h.traced ⟨rfl, trivial⟩ rfl)⟩,
      safe_sweep_visit time hcopy (.inl rfl) 0⟩
  · refine ⟨.outside, ⟨status, h.visit rfl hne trivial⟩, safe_sweep_visit time hcopy (.inr ⟨rfl, ?_⟩) 0⟩
    intro copy hc hid
    exact hs ((h.status_eq (hpending copy hc).1 hid).2.symm.trans (hpending copy hc).2)

end Executions

section Runs

variable {world : World} {operations : Tid → GateOperation} {pool : Requests Tid}

omit [DecidableEq Tid] in
theorem AtGate.statusOf_eq (h : AtGate reservation status db history visits) :
    statusOf db reservation.id = some status := by
  obtain ⟨row, hm, hid, -, hs⟩ := h.row
  rw [statusOf, Table.lookup_eq_some.mpr ⟨hm, hid⟩, Option.map_some, hs]

theorem statusOf_setStatus (id : Id) (status : ReservationStatus) (confirmedAt : Option ℤ) :
    statusOf (PrismaReservationRepository.setStatus db id status confirmedAt) id =
      (statusOf db id).map fun _ => status := by
  rw [statusOf, lookup_reservations_setStatus, if_pos rfl, Option.map_map, statusOf, Option.map_map]
  rfl

omit [DecidableEq Tid] in
theorem atGate_start (hr : reservation ∈ world.db.reservations)
    (hpending : reservation.status = .PENDING)
    (halone : ∀ other ∈ world.db.reservations, other.slotId = reservation.slotId →
      other.status = .PENDING → other = reservation)
    (hout : ∀ session ∈ world.db.sessions, ¬Parked reservation session) :
    atGate reservation world.db ([] : History Tid) fun _ => .outside := by
  refine ⟨.PENDING, ⟨reservation, hr, rfl, rfl, hpending⟩, ?_, ?_, fun _ => trivial, ?_⟩
  · exact fun other ho hslot hp => congrArg Reservation.id (halone other ho hslot hp)
  · constructor
    · exact fun event hm => absurd hm List.not_mem_nil
    · exact fun event hm => absurd hm List.not_mem_nil
    · exact fun hne => absurd rfl hne
  · exact fun session hm hp => absurd hp (hout session hm)

theorem atGate_of_reaches
    (hstart : atGate reservation world.db ([] : History Tid) fun _ => .outside)
    (hreach : Pool.Reaches serve (Unbroken reservation.id)
      (Requests.atGate world reservation.id operations) pool) :
    ∃ status visits, AtGate reservation status pool.world.db pool.history visits ∧
      ∀ thread, (pool.threads thread).awaited = none → visits thread ≠ .parked := by
  obtain ⟨visits, ⟨status, h⟩, hsafe⟩ := hreach.invariant (onWorld (atGate reservation))
    (fun _ _ visit => visit ≠ .parked) hstart fun thread => by
      change SafeVisit reservation thread ((operations thread).execute reservation.id) .outside
      cases operations thread with
      | registerEntry => exact safe_registerEntry
      | expireOverdueReservations => exact safe_expireOverdue
  refine ⟨status, visits, h, fun thread ha => ?_⟩
  obtain ⟨result, hdone⟩ := Pool.done_of_awaited ha
  have hthread := hsafe thread
  rw [hdone] at hthread
  exact hthread

omit [DecidableEq Tid] in
theorem admitted_of_atGate (h : AtGate reservation status pool.world.db pool.history visits)
    (hdone : ∀ thread, (pool.threads thread).awaited = none → visits thread ≠ .parked)
    (hended : Ended pool) : Admitted reservation pool.world.db := by
  intro session hm hp
  obtain ⟨hc, ho | ⟨thread, ht⟩⟩ := h.entered session hm hp
  · exact ⟨by rw [h.statusOf_eq, hc], ho⟩
  · have hbegun := h.knows thread
    rw [ht] at hbegun
    obtain ⟨-, event, he, rfl⟩ := hbegun
    exact absurd ht (hdone event.thread (hended event he))

-- A write that is broken in on makes the status move a second time.
theorem not_moves_of_broken (h : AtGate reservation status pool.world.db pool.history visits)
    {choice : Choice} (hbroken : ¬pool.Meets (Unbroken reservation.id) thread choice) :
    ¬Moves (statusOf pool.world.db reservation.id)
      (statusOf (pool.step serve thread choice).world.db reservation.id) := by
  unfold Pool.Meets at hbroken
  split at hbroken
  · exact absurd trivial hbroken
  rename_i call next hawait
  simp only [Unbroken, not_forall, not_not] at hbroken
  obtain ⟨target, htarget, hsince⟩ := hbroken
  obtain ⟨old, hm, other, hw, hne⟩ := exists_of_since hsince
  have hstatus : other = status := h.traced.agrees old hm other hw
  have hreal := h.traced.real old hm other hw
  rw [db_step hawait, h.statusOf_eq]
  cases call with
  | reservationsUpdateStatus id status' confirmedAt =>
      simp only [statusWritten, Option.mem_def, Option.ite_none_right_eq_some,
        Option.some.injEq] at htarget
      obtain ⟨rfl, rfl⟩ := htarget
      rw [query_reservationsUpdateStatus, statusOf_setStatus, h.statusOf_eq, Option.map_some]
      rintro (he | ⟨hp, -⟩)
      · exact hne (hstatus.trans (Option.some.inj he).symm)
      · rw [hstatus, Option.some.inj hp] at hreal
        rcases hreal with hreal | hreal <;> cases hreal
  | _ => cases htarget

end Runs

-- The sweep and the entries leave a PENDING reservation in order, in every
-- state of a run, exactly when no execution of the run writes a status after
-- another status was written since its own look.
theorem orderly_iff (world : World) (reservation : Reservation) (operations : Tid → GateOperation)
    (hr : reservation ∈ world.db.reservations) (hpending : reservation.status = .PENDING)
    (halone : ∀ other ∈ world.db.reservations, other.slotId = reservation.slotId →
      other.status = .PENDING → other = reservation)
    (hout : ∀ session ∈ world.db.sessions, ¬Parked reservation session)
    (schedule : List (Tid × Choice)) :
    Orderly reservation (Requests.atGate world reservation.id operations) schedule ↔
      (Requests.atGate world reservation.id operations).Follows serve (Unbroken reservation.id)
        schedule := by
  have hstart : atGate reservation world.db ([] : History Tid) fun _ => .outside :=
    atGate_start hr hpending halone hout
  constructor
  · intro horderly
    induction schedule using List.reverseRecOn with
    | nil => trivial
    | append_singleton past turn ih =>
        have hbefore := List.prefix_append past [turn]
        have hpast := ih ⟨fun before turn hb => horderly.moves before turn (hb.trans hbefore),
          fun before hb => horderly.admitted before (hb.trans hbefore)⟩
        refine Pool.follows_append.mpr ⟨hpast, ?_, trivial⟩
        by_contra hbroken
        obtain ⟨status, visits, h, -⟩ :=
          atGate_of_reaches hstart (Pool.reaches_of_follows .refl hpast)
        have hmoves := horderly.moves past turn (List.prefix_refl _)
        rw [Pool.play_append] at hmoves
        exact not_moves_of_broken h hbroken hmoves
  · intro hf
    have hinv : ∀ past, past <+: schedule → ∃ status visits, AtGate reservation status
        ((Requests.atGate world reservation.id operations).play serve past).world.db
        ((Requests.atGate world reservation.id operations).play serve past).history visits ∧
        ∀ thread, (((Requests.atGate world reservation.id operations).play serve past).threads
          thread).awaited = none → visits thread ≠ .parked := by
      rintro past ⟨rest, rfl⟩
      exact atGate_of_reaches hstart (Pool.reaches_of_follows .refl (Pool.follows_append.mp hf).1)
    constructor
    · intro past turn hp
      obtain ⟨before, _, h, -⟩ := hinv past ((List.prefix_append _ _).trans hp)
      obtain ⟨after, _, h', -⟩ := hinv (past ++ [turn]) hp
      rw [h.statusOf_eq, h'.statusOf_eq]
      refine h.traced.moves h'.traced fun event he => ?_
      rw [Pool.play_append]
      exact Pool.history_step turn.1 turn.2 he
    · intro past hp hended
      obtain ⟨status, visits, h, hdone⟩ := hinv past hp
      exact admitted_of_atGate h hdone hended

-- The car enters before the sweep begins.
theorem orderly_serial : Orderly Demo.reservation
    (Requests.atGate ⟨Demo.reserved, 40⟩ "r1" fun thread : ℕ =>
      if thread = 0 then .expireOverdueReservations else .registerEntry)
    (List.replicate 6 (1, Demo.choice "p1") ++ List.replicate 2 (0, Demo.choice "p1")) :=
  (orderly_iff ⟨Demo.reserved, 40⟩ Demo.reservation _ List.mem_cons_self rfl (by decide) (by decide)
    _).mpr (by decide)

-- The sweep lists the reservation, the car enters, and the sweep makes the
-- reservation of the car inside EXPIRED.
theorem orderly_fails : ¬∀ (world : World) (reservation : Reservation)
    (operations : ℕ → GateOperation), reservation ∈ world.db.reservations →
    reservation.status = .PENDING →
    (∀ other ∈ world.db.reservations, other.slotId = reservation.slotId →
      other.status = .PENDING → other = reservation) →
    (∀ session ∈ world.db.sessions, ¬Parked reservation session) →
    ∀ schedule, Orderly reservation (Requests.atGate world reservation.id operations) schedule := by
  intro h
  let operations : ℕ → GateOperation := fun thread =>
    if thread = 0 then .expireOverdueReservations else .registerEntry
  let past : List (ℕ × Choice) := [0, 0, 1, 1, 1, 1, 1, 1].map fun thread =>
    (thread, Demo.choice "p1")
  have horderly := h ⟨Demo.reserved, 100⟩ Demo.reservation operations List.mem_cons_self rfl
    (by decide) (by decide) (past ++ [(0, Demo.choice "p1")])
  have hmoves := horderly.moves past (0, Demo.choice "p1") (List.prefix_refl _)
  revert hmoves
  decide +kernel

end SmartParking
