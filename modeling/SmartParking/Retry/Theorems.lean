import SmartParking.Retry
import SmartParking.Backend.Footprints

namespace SmartParking

open Async

variable {db : Database}

-- The statuses after each write.
section Statuses

@[simp] theorem statusOf_reservations_setStatus (id other : Id) (status : ReservationStatus)
    (confirmedAt : Option ℤ) :
    statusOf (PrismaReservationRepository.setStatus db id status confirmedAt) other =
      if other = id then (statusOf db id).map fun _ => status else statusOf db other := by
  unfold statusOf
  rw [lookup_reservations_setStatus]
  split
  · rw [Option.map_map, Option.map_map]
    rfl
  · rfl

@[simp] theorem sessionStatus_setCompleted (id other : Id) (exitAt : ℤ) :
    sessionStatus (PrismaParkingSessionRepository.setCompleted db id exitAt) other =
      if other = id then (sessionStatus db id).map fun _ => .COMPLETED
      else sessionStatus db other := by
  unfold sessionStatus
  rw [lookup_sessions_setCompleted]
  split
  · rw [Option.map_map, Option.map_map]
    rfl
  · rfl

@[simp] theorem statusOf_slots_setStatus (id : Id) (status : SlotStatus) (now : ℤ) :
    statusOf (PrismaParkingSlotRepository.setStatus db id status now) = statusOf db := rfl

@[simp] theorem statusOf_setCompleted (id : Id) (exitAt : ℤ) :
    statusOf (PrismaParkingSessionRepository.setCompleted db id exitAt) = statusOf db := rfl

@[simp] theorem sessionStatus_slots_setStatus (id : Id) (status : SlotStatus) (now : ℤ) :
    sessionStatus (PrismaParkingSlotRepository.setStatus db id status now) = sessionStatus db := rfl

@[simp] theorem sessionStatus_reservations_setStatus (id : Id) (status : ReservationStatus)
    (confirmedAt : Option ℤ) :
    sessionStatus (PrismaReservationRepository.setStatus db id status confirmedAt) =
      sessionStatus db := rfl

@[simp] theorem slotStatus_setCompleted (id : Id) (exitAt : ℤ) :
    slotStatus (PrismaParkingSessionRepository.setCompleted db id exitAt) = slotStatus db := rfl

theorem SameStatuses.refl (db : Database) : SameStatuses db db :=
  ⟨fun _ => rfl, fun _ => rfl, fun _ => rfl⟩

-- A write of a status that was already there, if there is a row.
theorem rewrites_iff {α : Type} {status : α} {now : Option α} :
    now = (now.map fun _ => status) ↔ ∀ old, now = some old → old = status := by
  cases now <;> simp

end Statuses

-- The writes of the three operations.
section Effects

def WritesReservation (id : Id) (status : ReservationStatus) (db db' : Database) : Prop :=
  db' = PrismaReservationRepository.setStatus db id status none

def WritesSlot (slotId : Id) (status : SlotStatus) (db db' : Database) : Prop :=
  ∃ now, db' = PrismaParkingSlotRepository.setStatus db slotId status now

def CompletesSession (id : Id) (db db' : Database) : Prop :=
  ∃ exitAt, db' = PrismaParkingSessionRepository.setCompleted db id exitAt

variable {α β : Type} {effects : List (Database → Database → Prop)}

abbrev Does (p : Port α) (db : Database) (effects : List (Database → Database → Prop)) : Prop :=
  p.Performs serve Call.writes World.db db effects

-- The server of an attempt.
abbrev losingServe : Server Choice (World × Option ℕ) Call Answer Fault :=
  losing serve Call.writes (.infrastructure "Connection lost.")

section Runs

variable {p : Port α} {choices : ℕ → Choice} {now : ℤ}

theorem Does.chain_of_lost (h : Does p db effects) {lost : ℕ}
    (hlost : (p.run losingServe choices (⟨db, now⟩, some lost)).2.2 = none) :
    lost < effects.length ∧
      Chain (effects.take lost) db (p.run losingServe choices (⟨db, now⟩, some lost)).2.1.db :=
  Program.chain_of_lost (⟨db, now⟩ : World) h hlost

theorem Does.chain_of_ok (h : Does p db effects) {value : α}
    (hok : (p.run serve choices ⟨db, now⟩).1 = .ok value) :
    Chain effects db (p.run serve choices ⟨db, now⟩).2.db :=
  Program.chain_of_ok (⟨db, now⟩ : World) h hok

theorem Does.db_run (h : Does p db []) : (p.run serve choices ⟨db, now⟩).2.db = db :=
  Program.view_of_performs_nil (⟨db, now⟩ : World) h choices

end Runs

theorem writes_of_reads (call : Call) (h : call.Reads) : call.writes = false ∧
    ∀ choice world, (serve choice world call).2.db = world.db := by
  refine ⟨?_, fun choice world => query_of_reads h⟩
  cases call <;> first | rfl | exact h.elim

theorem does_reads_bind {p : Port α} (hp : p.Uses Call.Reads) {f : α → Port β}
    (hf : ∀ value, Does (f value) db effects) : Does (p >>= f) db effects :=
  Program.performs_uses_bind writes_of_reads hp hf

theorem does_reads {p : Port α} (hp : p.Uses Call.Reads) : Does p db [] := by
  have h : Does (p >>= pure) db [] := does_reads_bind hp fun _ => rfl
  rwa [bind_pure] at h

theorem does_read_bind {call : Call} {value : Answer call} {f : Answer call → Port α}
    (hw : call.writes = false) (hq : ∀ choice now, query choice now db call = (.ok value, db))
    (hf : Does (f value) db effects) : Does (ask call >>= f) db effects := by
  refine Program.performs_read_bind hw (fun choice world hdb => ?_) hf
  subst hdb
  exact ⟨congrArg Prod.fst (hq choice _), congrArg Prod.snd (hq choice _)⟩

theorem does_reservationsUpdateStatus_bind {id : Id} {status : ReservationStatus}
    {f : Unit → Port α}
    (hf : Does (f ()) (PrismaReservationRepository.setStatus db id status none) effects) :
    Does (reservations.updateStatus id status none >>= f) db
      (WritesReservation id status :: effects) := by
  refine Program.performs_write_bind rfl fun choice world hdb => ?_
  have hq : (serve choice world (.reservationsUpdateStatus id status none)).2.db =
      PrismaReservationRepository.setStatus db id status none := by
    rw [serve, query_reservationsUpdateStatus, hdb]
  rw [hq]
  exact ⟨rfl, fun _ _ => hf⟩

theorem does_slotsUpdateStatus_bind {slotId : Id} {status : SlotStatus} {f : Unit → Port α}
    (hf : ∀ now, Does (f ()) (PrismaParkingSlotRepository.setStatus db slotId status now) effects) :
    Does (slots.updateStatus slotId status >>= f) db (WritesSlot slotId status :: effects) := by
  refine Program.performs_write_bind rfl fun choice world hdb => ?_
  have hq : (serve choice world (.slotsUpdateStatus slotId status)).2.db =
      PrismaParkingSlotRepository.setStatus db slotId status (world.clock + choice.elapsed) := by
    rw [serve, query_slotsUpdateStatus, hdb]
  rw [hq]
  exact ⟨⟨_, rfl⟩, fun _ _ => hf _⟩

theorem does_sessionsMarkCompleted_bind {id : Id} {exitAt : ℤ} {f : Unit → Port α}
    (hf : Does (f ()) (PrismaParkingSessionRepository.setCompleted db id exitAt) effects) :
    Does (sessions.markCompleted id exitAt >>= f) db (CompletesSession id :: effects) := by
  refine Program.performs_write_bind rfl fun choice world hdb => ?_
  have hq : (serve choice world (.sessionsMarkCompleted id exitAt)).2.db =
      PrismaParkingSessionRepository.setCompleted db id exitAt := by
    rw [serve, query_sessionsMarkCompleted, hdb]
  rw [hq]
  exact ⟨⟨_, rfl⟩, fun _ _ => hf⟩

end Effects

section Cancel

variable {input : CancelReservationInput}

theorem cancel_reads (reservation : Reservation) (userId : Id) (messages : List Notification) :
    (CancelReservationUseCase.publishAudit reservation userId >>= fun _ =>
      notifier.notifyAll messages).Uses Call.Reads := by
  refine Program.uses_bind ?_ fun _ => notifyAll_reads _
  refine Program.uses_bind (uses_ask.mpr trivial) fun _ => ?_
  exact Program.uses_bind (uses_ask.mpr trivial) fun _ => uses_ask.mpr trivial

-- A reservation that its owner can cancel.
def Cancellable (input : CancelReservationInput) (reservation : Reservation) : Prop :=
  reservation.id = input.reservationId ∧ reservation.userId = input.userId ∧
    reservation.status.Live

theorem cancel_does {reservation : Reservation} (hm : reservation ∈ db.reservations)
    (hc : Cancellable input reservation) :
    Does (CancelReservationUseCase.execute input) db
      [WritesReservation reservation.id .CANCELLED, WritesSlot reservation.slotId .DISPONIBLE] := by
  obtain ⟨hid, hu, hlive⟩ := hc
  have hl : PrismaReservationRepository.findById db input.reservationId = some reservation :=
    Table.lookup_eq_some.mpr ⟨hm, hid⟩
  refine does_read_bind rfl (fun _ _ => rfl) ?_
  rw [hl]
  have hguard : ¬(reservation.status ≠ .PENDING ∧ reservation.status ≠ .CONFIRMED) :=
    fun h => hlive.elim h.1 h.2
  simp only [Option.filter_some, hu, decide_true, if_true, hguard, if_false]
  refine does_reservationsUpdateStatus_bind (does_slotsUpdateStatus_bind fun _ => ?_)
  exact does_reads (cancel_reads _ _ _)

theorem not_cancellable_of_cancelled {id : Id} (hid : id = input.reservationId) :
    ∀ reservation ∈ (PrismaReservationRepository.setStatus db id .CANCELLED none).reservations,
      ¬Cancellable input reservation := by
  rintro reservation hm ⟨hr, -, hlive⟩
  rcases Table.mem_modify_cases hm with ⟨old, -, -, rfl⟩ | ⟨-, hne⟩
  · rcases hlive with h | h <;> cases h
  · exact hne (hr.trans hid.symm)

-- Otherwise the cancel is refused.
theorem cancel_refused (h : ∀ reservation ∈ db.reservations, ¬Cancellable input reservation) :
    Does (CancelReservationUseCase.execute input) db [] := by
  refine does_read_bind rfl (fun _ _ => rfl) ?_
  cases hf : (PrismaReservationRepository.findById db input.reservationId).filter
      fun reservation => reservation.userId = input.userId with
  | none => exact Program.performs_throw _
  | some reservation =>
      obtain ⟨hl, hu⟩ := Option.filter_eq_some_iff.mp hf
      obtain ⟨hm, hid⟩ := Table.lookup_eq_some.mp hl
      have hend : ¬reservation.status.Live := fun hlive =>
        h reservation hm ⟨hid, of_decide_eq_true hu, hlive⟩
      dsimp only
      rw [if_pos (not_or.mp hend)]
      exact Program.performs_throw _

end Cancel

section Exit

variable {sessionId : Id}

-- The exit after its code was read.
def exitOf (sessionId : Id) : Port ParkingSession :=
  if sessionId = "" then throw (.domain .invalidQrCode)
  else do
    let now ← clock.now
    let session ← sessions.findById sessionId
    match session.filter ParkingSession.isActive with
    | none => throw (.domain .SessionNotActive)
    | some session =>
        let reservation ← reservations.findById session.reservationId
        match reservation with
        | none => throw (.domain (.NotFound "Reservation" session.reservationId))
        | some reservation => RegisterExitUseCase.checkPayment sessionId session now reservation

theorem exit_run {W C α : Type} {server : Server C W Call Answer Fault} {choices : ℕ → C}
    {world world' : W} {token : String} {expiresAt : ℤ} (f : ParkingSession → Port α)
    (h : server (choices 0) world (.qrCodeVerify token) = (.ok {
      type := .EXIT
      reservationId := none
      sessionId := some sessionId
      expiresAt }, world')) :
    (RegisterExitUseCase.execute token >>= f).run server choices world =
      (exitOf sessionId >>= f).run server (fun n => choices (n + 1)) world' := by
  unfold RegisterExitUseCase.execute
  rw [bind_assoc]
  refine (Program.run_perform_ok h).trans ?_
  unfold exitOf
  dsimp only
  congr 2
  by_cases hs : sessionId = ""
  · simp [hs]
  · exact (if_neg (not_or.mpr ⟨not_not.mpr rfl, hs⟩)).trans (if_neg hs).symm

def leaveEffects (session : ParkingSession) : List (Database → Database → Prop) :=
  [CompletesSession session.id, WritesSlot session.slotId .DISPONIBLE,
    WritesReservation session.reservationId .COMPLETED]

theorem leave_does {α : Type} (session : ParkingSession) (time : ℤ) {f : ExitResult → Port α}
    (hf : ∀ result, (f result).Uses Call.Reads) :
    Does (DefaultParkingPolicy.leave session time >>= f) db (leaveEffects session) := by
  unfold DefaultParkingPolicy.leave DefaultParkingPolicy.releaseSlot
  simp only [bind_assoc]
  refine does_sessionsMarkCompleted_bind (does_slotsUpdateStatus_bind fun _ =>
    does_reservationsUpdateStatus_bind (does_reads ?_))
  exact Program.uses_bind (uses_ask.mpr trivial) fun updatedSession => hf _

-- An exit that finds the session ACTIVE does its three writes, unless it is
-- refused for the payment.
theorem exit_does {session : ParkingSession} (hm : session ∈ db.sessions)
    (hactive : session.status = .ACTIVE) : Does (exitOf session.id) db (leaveEffects session) := by
  have hl : (PrismaParkingSessionRepository.findById db session.id).filter
      ParkingSession.isActive = some session := by
    rw [PrismaParkingSessionRepository.findById, Table.lookup_key hm, Option.filter_some]
    exact if_pos (decide_eq_true hactive)
  have hthrow : ∀ {α : Type} (err : Fault), Does (throw err : Port α) db (leaveEffects session) :=
    fun err => Program.performs_throw err
  unfold exitOf
  split
  · exact hthrow _
  refine does_reads_bind (uses_ask.mpr (by trivial)) fun now => ?_
  refine does_read_bind rfl (fun _ _ => rfl) ?_
  rw [hl]
  refine does_reads_bind (uses_ask.mpr (by trivial)) fun reservation => ?_
  cases reservation with
  | none => exact hthrow _
  | some reservation =>
      refine does_reads_bind (uses_ask.mpr (by trivial)) fun payment => ?_
      cases payment.filter Payment.isApproved with
      | none => exact hthrow _
      | some payment =>
          refine does_reads_bind (calculate_reads _) fun pricing => ?_
          split
          · exact hthrow _
          · unfold RegisterExitUseCase.finish DefaultParkingPolicy.registerExit
            simp only [bind_assoc]
            refine does_read_bind rfl (fun _ _ => rfl) ?_
            rw [hl]
            simp only [bind_assoc]
            refine does_reads_bind (uses_ask.mpr (by trivial)) fun payment => ?_
            split
            · refine leave_does session now fun result => ?_
              cases result with
              | REJECTED reason => cases reason <;> trivial
              | RELEASED session =>
                  cases session with
                  | none => trivial
                  | some session => exact Program.uses_bind (notifyAll_reads _) fun _ => trivial
            · exact hthrow _

-- Otherwise the exit is refused.
theorem exit_refused (h : ∀ session ∈ db.sessions, session.id = sessionId →
    session.status ≠ .ACTIVE) : Does (exitOf sessionId) db [] := by
  unfold exitOf
  split
  · exact Program.performs_throw _
  refine does_reads_bind (uses_ask.mpr (by trivial)) fun now => ?_
  refine does_read_bind rfl (fun _ _ => rfl) ?_
  cases hf : (PrismaParkingSessionRepository.findById db sessionId).filter
      ParkingSession.isActive with
  | none => exact Program.performs_throw _
  | some session =>
      obtain ⟨hl, hactive⟩ := Option.filter_eq_some_iff.mp hf
      obtain ⟨hm, hid⟩ := Table.lookup_eq_some.mp hl
      exact absurd (of_decide_eq_true hactive) (h session hm hid)

end Exit

section Sweep

variable {time : ℤ} {candidates : List Reservation}

def expireEffects (reservation : Reservation) : List (Database → Database → Prop) :=
  [WritesReservation reservation.id .EXPIRED, WritesSlot reservation.slotId .DISPONIBLE]

theorem sweep_does (h : ∀ reservation ∈ candidates,
      DefaultReservationPolicy.isExpired reservation time = true) (count : ℕ) :
    Does (ExpireOverdueReservationsUseCase.sweep time candidates count) db
      (candidates.flatMap expireEffects) := by
  induction candidates generalizing db count with
  | nil => rfl
  | cons reservation rest ih =>
      have hexpired := h reservation List.mem_cons_self
      have hrest := fun other ho => h other (List.mem_cons_of_mem reservation ho)
      unfold ExpireOverdueReservationsUseCase.sweep ExpireOverdueReservationsUseCase.expire
        DefaultParkingPolicy.releaseSlot
      simp only [hexpired, Bool.not_true, Bool.false_eq_true, if_false, bind_assoc]
      refine does_reservationsUpdateStatus_bind (does_slotsUpdateStatus_bind fun _ => ?_)
      exact does_reads_bind (notifyAll_reads _) fun _ => ih hrest (count + 1)

theorem mem_findExpiredPending {reservation : Reservation} :
    reservation ∈ PrismaReservationRepository.findExpiredPending db time ↔
      reservation ∈ db.reservations ∧ reservation.status = .PENDING ∧
        reservation.expiresAt < time := by
  rw [PrismaReservationRepository.findExpiredPending, List.mem_filter, decide_eq_true_eq]
  rfl

theorem isExpired_of_mem {reservation : Reservation}
    (h : reservation ∈ PrismaReservationRepository.findExpiredPending db time) :
    DefaultReservationPolicy.isExpired reservation time = true := by
  obtain ⟨-, hpending, hlt⟩ := mem_findExpiredPending.mp h
  simp [DefaultReservationPolicy.isExpired, Reservation.isPending, hpending, hlt]

-- The reservations that were given the status EXPIRED, and those whose slots were
-- released.
structure Swept (db : Database) (expired released : List Reservation) (db' : Database) : Prop where
  reservations : db'.reservations.rows = db.reservations.rows.map fun reservation =>
    if reservation.id ∈ expired.map Reservation.id then
      PrismaReservationRepository.withStatus .EXPIRED none reservation
    else reservation
  slots : ∀ slotId, slotStatus db' slotId =
    if slotId ∈ released.map Reservation.slotId then
      (slotStatus db slotId).map fun _ => .DISPONIBLE
    else slotStatus db slotId
  sessions : db'.sessions = db.sessions

namespace Swept

variable {db' db'' : Database} {expired released : List Reservation} {reservation : Reservation}

theorem refl (db : Database) : Swept db [] [] db where
  reservations := by simp
  slots _ := by simp
  sessions := rfl

theorem expire (h : Swept db expired released db')
    (hw : WritesReservation reservation.id .EXPIRED db' db'') :
    Swept db (expired ++ [reservation]) released db'' := by
  subst hw
  refine ⟨?_, h.slots, h.sessions⟩
  change db'.reservations.rows.map _ = _
  rw [h.reservations, List.map_map]
  refine List.map_congr_left fun row _ => ?_
  rw [List.map_append, List.map_singleton]
  simp only [Function.comp_apply, List.mem_append, List.mem_singleton]
  by_cases he : row.id ∈ expired.map Reservation.id
  · have hid : (PrismaReservationRepository.withStatus .EXPIRED none row).id = row.id := rfl
    simp only [he, if_true, true_or, hid]
    split <;> rfl
  · simp only [he, if_false, false_or]

theorem release (h : Swept db expired released db')
    (hw : WritesSlot reservation.slotId .DISPONIBLE db' db'') :
    Swept db expired (released ++ [reservation]) db'' := by
  obtain ⟨now, rfl⟩ := hw
  refine ⟨h.reservations, fun slotId => ?_, h.sessions⟩
  rw [slotStatus_slots_setStatus, h.slots, h.slots, List.map_append, List.map_singleton]
  simp only [List.mem_append, List.mem_singleton]
  by_cases hs : slotId = reservation.slotId
  · subst hs
    simp only [or_true, if_true]
    split
    · rw [Option.map_map]
      rfl
    · rfl
  · simp only [hs, if_false, or_false]

theorem of_chain (h : Swept db expired released db') {candidates : List Reservation}
    (hc : Chain (candidates.flatMap expireEffects) db' db'') :
    Swept db (expired ++ candidates) (released ++ candidates) db'' := by
  induction candidates generalizing db' expired released with
  | nil =>
      cases hc
      rwa [List.append_nil, List.append_nil]
  | cons reservation rest ih =>
      obtain ⟨middle, hexpire, middle', hrelease, hrest⟩ := hc
      have hnext := ih ((h.expire hexpire).release hrelease) hrest
      rwa [List.append_assoc, List.append_assoc] at hnext

theorem mem_reservations (h : Swept db expired released db') {row : Reservation}
    (hout : row.id ∉ expired.map Reservation.id) :
    row ∈ db'.reservations ↔ row ∈ db.reservations := by
  rw [← Table.mem_rows, ← Table.mem_rows, h.reservations, List.mem_map]
  constructor
  · rintro ⟨old, hold, he⟩
    by_cases ho : old.id ∈ expired.map Reservation.id
    · rw [if_pos ho] at he
      subst he
      exact absurd ho hout
    · rw [if_neg ho] at he
      exact he ▸ hold
  · exact fun hm => ⟨row, hm, if_neg hout⟩

theorem mem_findExpiredPending (h : Swept db expired released db') {time : ℤ} :
    reservation ∈ PrismaReservationRepository.findExpiredPending db' time ↔
      reservation ∈ PrismaReservationRepository.findExpiredPending db time ∧
        reservation.id ∉ expired.map Reservation.id := by
  rw [SmartParking.mem_findExpiredPending, SmartParking.mem_findExpiredPending]
  by_cases ho : reservation.id ∈ expired.map Reservation.id
  · refine iff_of_false (fun hp => ?_) fun hp => hp.2 ho
    obtain ⟨hm, hpending, -⟩ := hp
    rw [← Table.mem_rows, h.reservations, List.mem_map] at hm
    obtain ⟨old, -, rfl⟩ := hm
    split at ho
    · rename_i hin
      rw [if_pos hin] at hpending
      cases hpending
    · rename_i hin
      exact hin ho
  · rw [h.mem_reservations ho]
    exact (and_iff_left ho).symm

theorem statusOf_eq (h : Swept db expired released db') (id : Id) :
    statusOf db' id = if id ∈ expired.map Reservation.id then
      (statusOf db id).map fun _ => .EXPIRED else statusOf db id := by
  have hlookup : db'.reservations.lookup id = (db.reservations.lookup id).map fun reservation =>
      if reservation.id ∈ expired.map Reservation.id then
        PrismaReservationRepository.withStatus .EXPIRED none reservation
      else reservation := by
    unfold Table.lookup
    rw [h.reservations, List.find?_map]
    congr 2
    funext row
    dsimp only [Function.comp_apply]
    split <;> rfl
  unfold statusOf
  rw [hlookup, Option.map_map]
  cases hl : db.reservations.lookup id with
  | none => simp
  | some reservation =>
      obtain ⟨-, rfl⟩ := Table.lookup_eq_some.mp hl
      simp only [Option.map_some, Function.comp_apply]
      split <;> rfl

theorem isSome_slotStatus (h : Swept db expired released db') (slotId : Id) :
    (slotStatus db' slotId).isSome = (slotStatus db slotId).isSome := by
  rw [h.slots]
  split
  · exact Option.isSome_map
  · rfl

-- What two sweeps leave only differs in the slots that one of them released.
theorem sameStatuses_iff {db'' : Database} {expired' released' : List Reservation}
    (h : Swept db expired released db') (h' : Swept db expired' released' db'')
    (hsame : ∀ id, id ∈ expired.map Reservation.id ↔ id ∈ expired'.map Reservation.id) :
    SameStatuses db' db'' ↔ ∀ slotId, (slotId ∈ released.map Reservation.slotId ↔
      slotId ∈ released'.map Reservation.slotId) ∨ Freed db slotId := by
  have hstatus : ∀ id, statusOf db' id = statusOf db'' id := fun id => by
    rw [h.statusOf_eq, h'.statusOf_eq]
    simp only [hsame]
  have hsession : ∀ id, sessionStatus db' id = sessionStatus db'' id := fun id => by
    rw [sessionStatus, sessionStatus, h.sessions, h'.sessions]
  rw [SmartParking.sameStatuses_iff]
  simp only [hstatus, hsession, implies_true, true_and]
  refine forall_congr' fun slotId => ?_
  rw [h.slots, h'.slots, Freed, ← rewrites_iff]
  by_cases hin : slotId ∈ released.map Reservation.slotId <;>
    by_cases hin' : slotId ∈ released'.map Reservation.slotId <;>
      simp only [hin, hin', if_true, if_false, iff_self, true_or, iff_false, false_iff,
        not_true_eq_false, false_or, eq_comm]

end Swept

theorem isSome_slotStatus_setStatus (id other : Id) (status : SlotStatus) (now : ℤ) :
    (slotStatus (PrismaParkingSlotRepository.setStatus db id status now) other).isSome =
      (slotStatus db other).isSome := by
  simpa only [slotStatus, Option.isSome_map] using isSome_slots_setStatus db id other status now

-- A sweep of existing reservations only fails at a slot that is not there.
theorem sweep_settles (hexpired : ∀ reservation ∈ candidates,
      DefaultReservationPolicy.isExpired reservation time = true)
    (hfound : ∀ reservation ∈ candidates, (db.reservations.lookup reservation.id).isSome)
    (count : ℕ) (now : ℤ) :
    (ExpireOverdueReservationsUseCase.sweep time candidates count).wp serve ⟨db, now⟩
      fun result _ => (∃ value, result = .ok value) ↔
        ∀ reservation ∈ candidates, (slotStatus db reservation.slotId).isSome := by
  induction candidates generalizing db count now with
  | nil => exact iff_of_true ⟨count, rfl⟩ fun _ h => by cases h
  | cons reservation rest ih =>
      have hhead := hexpired reservation List.mem_cons_self
      unfold ExpireOverdueReservationsUseCase.sweep ExpireOverdueReservationsUseCase.expire
        DefaultParkingPolicy.releaseSlot
      simp only [hhead, Bool.not_true, Bool.false_eq_true, if_false, bind_assoc]
      refine wp_reservationsUpdateStatus_bind (hfound reservation List.mem_cons_self) fun _ _ => ?_
      by_cases hslot : (slotStatus db reservation.slotId).isSome
      · obtain ⟨status, hstatus⟩ := Option.isSome_iff_exists.mp hslot
        refine wp_slotsUpdateStatus_bind (isSome_of_slotStatus hstatus) fun _ _ =>
          wp_notifyAll_bind _ fun later _ => ?_
        refine Program.wp_mono (ih (fun other ho => hexpired other (List.mem_cons_of_mem _ ho))
          (fun other ho => ?_) (count + 1) later) fun result _ hiff => ?_
        · exact (isSome_reservations_setStatus ..).trans
            (hfound other (List.mem_cons_of_mem _ ho))
        · rw [hiff, List.forall_mem_cons]
          simp only [isSome_slotStatus_setStatus, slotStatus_reservations_setStatus]
          exact (and_iff_right hslot).symm
      · refine wp_ask_bind fun choice later _ => ?_
        rw [query_slotsUpdateStatus]
        change Program.continued serve _ _ (updated (db.slots.lookup reservation.slotId).isSome) _
        rw [updated, if_neg fun h => hslot (Option.isSome_map.trans h)]
        refine iff_of_false (fun hok => ?_) fun hall => hslot (hall reservation List.mem_cons_self)
        obtain ⟨value, hok⟩ := hok
        cases hok

-- The first writes of a sweep.
theorem take_even (candidates : List Reservation) (n : ℕ) :
    (candidates.flatMap expireEffects).take (2 * n) =
      (candidates.take n).flatMap expireEffects := by
  induction candidates generalizing n with
  | nil => simp
  | cons reservation rest ih =>
      cases n with
      | zero => simp
      | succ n => simp [expireEffects, Nat.mul_succ, ← ih]

theorem length_expireEffects (candidates : List Reservation) :
    (candidates.flatMap expireEffects).length = 2 * candidates.length := by
  simp [List.length_flatMap, expireEffects, Nat.mul_comm]

theorem take_odd {candidates : List Reservation} {n : ℕ} {reservation : Reservation}
    (h : candidates[n]? = some reservation) :
    (candidates.flatMap expireEffects).take (2 * n + 1) =
      (candidates.take n).flatMap expireEffects ++ [WritesReservation reservation.id .EXPIRED] := by
  induction candidates generalizing n with
  | nil => cases h
  | cons other rest ih =>
      cases n with
      | zero =>
          cases h
          rfl
      | succ n => simp [expireEffects, Nat.mul_succ, ← ih h]

end Sweep

section Converges

variable {config : Config} {world : World} {lost : ℕ} {first second : Try} {later : ℤ}
  {input : CancelReservationInput}

theorem freed_reservations_setStatus {id slotId : Id} {status : ReservationStatus} :
    Freed (PrismaReservationRepository.setStatus db id status none) slotId ↔ Freed db slotId :=
  Iff.rfl

theorem sameStatuses_release_iff {slotId : Id} {now : ℤ} :
    SameStatuses db (PrismaParkingSlotRepository.setStatus db slotId .DISPONIBLE now) ↔
      Freed db slotId := by
  simp [sameStatuses_iff, rewrites_iff, Freed]

abbrev cancelFrom (input : CancelReservationInput) : Port Outcome :=
  CancelReservationUseCase.execute input >>= fun _ => pure .Cancelled

theorem cancel_execute (once : Try) (start : World) :
    (Retriable.CancelReservation input).execute config once start =
      (cancelFrom input).run serve once.choices start := rfl

theorem cancel_attempt : (Retriable.CancelReservation input).attempt config lost first world =
    ((cancelFrom input).run losingServe first.choices (world, some lost)).2 := rfl

-- The second write of a cancel that was lost is not made again: the reservation
-- is already CANCELLED.
theorem converges_cancel
    (hlost : ((Retriable.CancelReservation input).attempt config lost first world).2 = none)
    (hok : ∃ outcome, ((Retriable.CancelReservation input).execute config second
      ⟨world.db, later⟩).1 = .ok outcome) :
    SameStatuses
      ((Retriable.CancelReservation input).execute config second
        ⟨((Retriable.CancelReservation input).attempt config lost first world).1.db, later⟩).2.db
      ((Retriable.CancelReservation input).execute config second ⟨world.db, later⟩).2.db ↔
    lost = 0 ∨ ∀ reservation ∈ world.db.reservations, reservation.id = input.reservationId →
      Freed world.db reservation.slotId := by
  simp only [cancel_attempt, cancel_execute] at hlost hok ⊢
  by_cases hex : ∃ reservation ∈ world.db.reservations, Cancellable input reservation
  · obtain ⟨reservation, hm, hc⟩ := hex
    have hdoes : Does (cancelFrom input) world.db _ := Program.performs_map _ (cancel_does hm hc)
    obtain ⟨hl, hchain⟩ := hdoes.chain_of_lost hlost
    obtain ⟨outcome, hok⟩ := hok
    obtain ⟨_, rfl, _, ⟨now, rfl⟩, href⟩ := hdoes.chain_of_ok hok
    rw [href]
    generalize ((cancelFrom input).run losingServe first.choices (world, some lost)).2.1.db = left
      at hchain ⊢
    obtain rfl | rfl : lost = 0 ∨ lost = 1 := by
      change lost < 2 at hl
      omega
    · cases hchain
      rw [href]
      exact iff_of_true (.refl _) (.inl rfl)
    · obtain ⟨_, rfl, rfl⟩ := hchain
      have hrefused : Does (cancelFrom input)
          (PrismaReservationRepository.setStatus world.db reservation.id .CANCELLED none) [] :=
        Program.performs_map _ (cancel_refused (not_cancellable_of_cancelled hc.1))
      rw [hrefused.db_run, sameStatuses_release_iff, freed_reservations_setStatus, ← hc.1,
        or_iff_right (Nat.succ_ne_zero 0), Table.forall_key_iff hm]
  · have hdoes : Does (cancelFrom input) world.db [] :=
      Program.performs_map _ (cancel_refused fun reservation hm hc => hex ⟨reservation, hm, hc⟩)
    exact absurd (hdoes.chain_of_lost hlost).1 (Nat.not_lt_zero _)

section Leave

variable {session : ParkingSession} {sessionId : Id}

-- An exit of the session, from its code on.
abbrev exitFrom (sessionId : Id) : Port Outcome :=
  exitOf sessionId >>= fun session => pure (.Exited session)

theorem exit_execute (once : Try) (start : World) :
    (Retriable.RegisterExit sessionId).execute config once start =
      (exitFrom sessionId).run serve
        (fun n => (Retriable.RegisterExit sessionId).choices once (n + 1))
        ⟨start.db, start.clock + (once.choices 0).elapsed⟩ :=
  exit_run _ rfl

theorem exit_attempt : (Retriable.RegisterExit sessionId).attempt config lost first world =
    ((exitFrom sessionId).run losingServe
      (fun n => (Retriable.RegisterExit sessionId).choices first (n + 1))
      (⟨world.db, world.clock + (first.choices 0).elapsed⟩, some lost)).2 :=
  congrArg Prod.snd (exit_run _ rfl)

theorem ended_of_setCompleted {id : Id} {exitAt : ℤ} :
    ∀ session ∈ (PrismaParkingSessionRepository.setCompleted db id exitAt).sessions,
      session.id = id → session.status ≠ .ACTIVE := by
  intro session hm hid
  rcases Table.mem_modify_cases hm with ⟨old, -, -, rfl⟩ | ⟨-, hne⟩
  · exact fun h => by cases h
  · exact absurd hid hne

-- What an exit leaves, for the times of its first two writes.
abbrev left (db : Database) (session : ParkingSession) (exitAt now : ℤ) : Database :=
  PrismaReservationRepository.setStatus
    (PrismaParkingSlotRepository.setStatus
      (PrismaParkingSessionRepository.setCompleted db session.id exitAt)
      session.slotId .DISPONIBLE now)
    session.reservationId .COMPLETED none

theorem sameStatuses_finish_iff {exitAt exitAt' now now' : ℤ} :
    SameStatuses
      (PrismaParkingSlotRepository.setStatus
        (PrismaParkingSessionRepository.setCompleted db session.id exitAt')
        session.slotId .DISPONIBLE now')
      (left db session exitAt now) ↔ Finished db session.reservationId := by
  simp [sameStatuses_iff, rewrites_iff, Finished]

theorem sameStatuses_leave_iff {exitAt exitAt' now : ℤ} :
    SameStatuses (PrismaParkingSessionRepository.setCompleted db session.id exitAt')
      (left db session exitAt now) ↔
        Finished db session.reservationId ∧ Freed db session.slotId := by
  simp [sameStatuses_iff, rewrites_iff, Finished, Freed]

-- The session of an exit is already COMPLETED after its first write.
theorem converges_exit
    (hlost : ((Retriable.RegisterExit sessionId).attempt config lost first world).2 = none)
    (hok : ∃ outcome, ((Retriable.RegisterExit sessionId).execute config second
      ⟨world.db, later⟩).1 = .ok outcome) :
    SameStatuses
      ((Retriable.RegisterExit sessionId).execute config second
        ⟨((Retriable.RegisterExit sessionId).attempt config lost first world).1.db, later⟩).2.db
      ((Retriable.RegisterExit sessionId).execute config second ⟨world.db, later⟩).2.db ↔
    lost = 0 ∨ ∀ session ∈ world.db.sessions, session.id = sessionId →
      Finished world.db session.reservationId ∧ (lost = 1 → Freed world.db session.slotId) := by
  simp only [exit_attempt, exit_execute] at hlost hok ⊢
  by_cases hex : ∃ session ∈ world.db.sessions, session.id = sessionId ∧ session.status = .ACTIVE
  · obtain ⟨session, hm, rfl, hactive⟩ := hex
    have hdoes : Does (exitFrom session.id) world.db (leaveEffects session) :=
      Program.performs_map _ (exit_does hm hactive)
    obtain ⟨hl, hchain⟩ := hdoes.chain_of_lost hlost
    obtain ⟨outcome, hok⟩ := hok
    obtain ⟨_, ⟨exitAt, rfl⟩, _, ⟨now, rfl⟩, _, rfl, href⟩ :=
      hdoes.chain_of_ok hok
    rw [href]
    rw [Table.forall_key_iff hm]
    generalize (Program.run losingServe _ _ _).2.1.db = left at hchain ⊢
    obtain rfl | rfl | rfl : lost = 0 ∨ lost = 1 ∨ lost = 2 := by
      change lost < 3 at hl
      omega
    · cases hchain
      rw [href]
      exact iff_of_true (.refl _) (.inl rfl)
    · obtain ⟨_, ⟨exitAt', rfl⟩, rfl⟩ := hchain
      have hrefused : Does (exitFrom session.id)
          (PrismaParkingSessionRepository.setCompleted world.db session.id exitAt') [] :=
        Program.performs_map _ (exit_refused ended_of_setCompleted)
      rw [hrefused.db_run, sameStatuses_leave_iff, or_iff_right (Nat.succ_ne_zero 0)]
      exact and_congr_right' (imp_iff_right rfl).symm
    · obtain ⟨_, ⟨exitAt', rfl⟩, _, ⟨now', rfl⟩, rfl⟩ := hchain
      have hrefused : Does (exitFrom session.id) (PrismaParkingSlotRepository.setStatus
          (PrismaParkingSessionRepository.setCompleted world.db session.id exitAt')
          session.slotId .DISPONIBLE now') [] :=
        Program.performs_map _ (exit_refused ended_of_setCompleted)
      rw [hrefused.db_run, sameStatuses_finish_iff, or_iff_right (Nat.succ_ne_zero 1)]
      exact (and_iff_left nofun).symm
  · have hdoes : Does (exitFrom sessionId) world.db [] :=
      Program.performs_map _ (exit_refused fun session hm hid hactive =>
        hex ⟨session, hm, hid, hactive⟩)
    exact absurd (hdoes.chain_of_lost hlost).1 (Nat.not_lt_zero _)

end Leave

section Overdue

-- A sweep of the copies it read at its time.
abbrev sweepFrom (db : Database) (time : ℤ) : Port Outcome :=
  ExpireOverdueReservationsUseCase.sweep time
    (PrismaReservationRepository.findExpiredPending db time) 0 >>= fun count =>
      pure (.Expired count)

theorem sweep_execute (once : Try) (start : World) :
    Retriable.ExpireOverdueReservations.execute config once start =
      (sweepFrom start.db (start.clock + (once.choices 0).elapsed)).run serve
        (fun n => once.choices (n + 2))
        ⟨start.db, start.clock + (once.choices 0).elapsed + (once.choices 1).elapsed⟩ := rfl

theorem sweep_attempt : Retriable.ExpireOverdueReservations.attempt config lost first world =
    ((sweepFrom world.db (world.clock + (first.choices 0).elapsed)).run losingServe
      (fun n => first.choices (n + 2))
      (⟨world.db, world.clock + (first.choices 0).elapsed + (first.choices 1).elapsed⟩,
        some lost)).2 := rfl

theorem sweepFrom_does (time : ℤ) : Does (sweepFrom db time) db
    ((PrismaReservationRepository.findExpiredPending db time).flatMap expireEffects) :=
  Program.performs_map _ (sweep_does (fun _ hr => isExpired_of_mem hr) 0)

-- The slots of the overdue reservations exist.
theorem sweepFrom_ok_iff {time now : ℤ} {choices : ℕ → Choice} :
    (∃ outcome, ((sweepFrom db time).run serve choices ⟨db, now⟩).1 = .ok outcome) ↔
      ∀ reservation ∈ PrismaReservationRepository.findExpiredPending db time,
        (slotStatus db reservation.slotId).isSome := by
  have hwp : (sweepFrom db time).wp serve ⟨db, now⟩ fun result _ =>
      (∃ outcome, result = .ok outcome) ↔
        ∀ reservation ∈ PrismaReservationRepository.findExpiredPending db time,
          (slotStatus db reservation.slotId).isSome := by
    refine Program.wp_bind.mpr (Program.wp_mono (sweep_settles
      (fun _ hr => isExpired_of_mem hr) (fun reservation hr => ?_) 0 now) ?_)
    · rw [Table.lookup_key (mem_findExpiredPending.mp hr).1]
      rfl
    · intro result world' hiff
      rw [← hiff]
      cases result with
      | ok count => exact iff_of_true ⟨_, rfl⟩ ⟨_, rfl⟩
      | error err =>
          refine iff_of_false ?_ ?_ <;>
            · rintro ⟨_, h⟩
              cases h
  exact Program.run_of_wp hwp choices

theorem sweepFrom_swept {time now : ℤ} {choices : ℕ → Choice} {outcome : Outcome}
    {start : Database} {expired released : List Reservation} (h : Swept start expired released db)
    (hok : ((sweepFrom db time).run serve choices ⟨db, now⟩).1 = .ok outcome) :
    Swept start (expired ++ PrismaReservationRepository.findExpiredPending db time)
      (released ++ PrismaReservationRepository.findExpiredPending db time)
      ((sweepFrom db time).run serve choices ⟨db, now⟩).2.db :=
  h.of_chain ((sweepFrom_does time).chain_of_ok hok)

theorem clock_le_losingServe (p : Port Outcome) (choices : ℕ → Choice) (start : World × Option ℕ) :
    start.1.clock ≤ (p.run losingServe choices start).2.1.clock := by
  refine Program.run_rel (fun before after => before.1.clock ≤ after.1.clock)
    (fun _ => le_refl _) (fun _ _ _ => le_trans) ?_ p choices start
  rintro choice ⟨world, left⟩ call
  dsimp only [losingServe, losing]
  split
  · split
    · exact le_refl world.clock
    · exact clock_le_serve world call
  · exact clock_le_serve world call

-- The overdue reservations of a sweep, together with those that were given the
-- status EXPIRED before it.
theorem mem_expired_append {expired released : List Reservation} {db' : Database} {time : ℤ}
    (h : Swept db expired released db')
    (hexpired : expired ⊆ PrismaReservationRepository.findExpiredPending db time)
    (reservation : Reservation) :
    reservation ∈ expired ++ PrismaReservationRepository.findExpiredPending db' time ↔
      reservation ∈ PrismaReservationRepository.findExpiredPending db time := by
  rw [List.mem_append, h.mem_findExpiredPending]
  constructor
  · rintro (hr | hr)
    · exact hexpired hr
    · exact hr.1
  · intro hr
    by_cases hid : reservation.id ∈ expired.map Reservation.id
    · obtain ⟨old, hold, he⟩ := List.mem_map.mp hid
      have hm := (mem_findExpiredPending.mp hr).1
      have hmold := (mem_findExpiredPending.mp (hexpired hold)).1
      rw [← Table.eq_of_key_eq hmold hm he]
      exact .inl hold
    · exact .inr ⟨hr, hid⟩

theorem nodup_findExpiredPending (time : ℤ) :
    (PrismaReservationRepository.findExpiredPending db time).Nodup :=
  (List.Nodup.of_map _ db.reservations.keys_nodup).filter _

theorem mem_map_congr {candidates candidates' : List Reservation} {column : Reservation → Id}
    (h : ∀ reservation, reservation ∈ candidates ↔ reservation ∈ candidates') (value : Id) :
    value ∈ candidates.map column ↔ value ∈ candidates'.map column := by
  simp only [List.mem_map, h]

-- All slots but one are released again, and that one by another reservation.
theorem released_iff {full kept : List Reservation} {reservation : Reservation}
    (hfull : reservation ∈ full)
    (hkept : ∀ other, other ∈ kept ↔ other ∈ full ∧ other ≠ reservation) :
    (∀ slotId, (slotId ∈ kept.map Reservation.slotId ↔ slotId ∈ full.map Reservation.slotId) ∨
        Freed db slotId) ↔
      Freed db reservation.slotId ∨
        ∃ other ∈ full, other ≠ reservation ∧ other.slotId = reservation.slotId := by
  simp only [List.mem_map, hkept]
  constructor
  · intro h
    rcases h reservation.slotId with hslot | hfreed
    · obtain ⟨other, ⟨ho, hne⟩, hs⟩ := hslot.mpr ⟨reservation, hfull, rfl⟩
      exact .inr ⟨other, ho, hne, hs⟩
    · exact .inl hfreed
  · intro h slotId
    by_cases hslot : slotId = reservation.slotId
    · subst hslot
      refine h.symm.imp_left fun ⟨other, ho, hne, hs⟩ => ?_
      exact iff_of_true ⟨other, ⟨ho, hne⟩, hs⟩ ⟨reservation, hfull, rfl⟩
    · refine .inl ⟨fun ⟨other, ho, hs⟩ => ⟨other, ho.1, hs⟩, fun ⟨other, ho, hs⟩ => ?_⟩
      exact ⟨other, ⟨ho, fun he => hslot (he ▸ hs.symm)⟩, hs⟩

theorem findExpiredPending_mono {time later : ℤ} (hle : time ≤ later) :
    PrismaReservationRepository.findExpiredPending db time ⊆
      PrismaReservationRepository.findExpiredPending db later := by
  intro reservation hr
  obtain ⟨hm, hpending, hlt⟩ := mem_findExpiredPending.mp hr
  exact mem_findExpiredPending.mpr ⟨hm, hpending, hlt.trans_le hle⟩

-- A sweep that lost the first write of a reservation.
theorem swept_even {candidates : List Reservation} {n : ℕ} {left : Database}
    (hchain : Chain ((candidates.flatMap expireEffects).take (2 * n)) db left) :
    Swept db (candidates.take n) (candidates.take n) left := by
  rw [take_even] at hchain
  exact (Swept.refl db).of_chain hchain

-- A sweep that lost the second write of a reservation.
theorem swept_odd {candidates : List Reservation} {n : ℕ} {left : Database}
    {reservation : Reservation} (hn : candidates[n]? = some reservation)
    (hchain : Chain ((candidates.flatMap expireEffects).take (2 * n + 1)) db left) :
    Swept db (candidates.take (n + 1)) (candidates.take n) left := by
  rw [take_odd hn, chain_append] at hchain
  obtain ⟨middle, hchain, _, hexpire, rfl⟩ := hchain
  have hswept := ((Swept.refl db).of_chain hchain).expire hexpire
  rwa [List.nil_append, ← Option.toList_some, ← hn, ← List.take_add_one] at hswept

-- The retry ends if a sweep of the first state does: no slot is gone.
theorem sweepFrom_retry {expired released : List Reservation} {left : Database} {time now : ℤ}
    {choices : ℕ → Choice} (hswept : Swept db expired released left)
    (hok : ∃ outcome, ((sweepFrom db time).run serve choices ⟨db, now⟩).1 = .ok outcome) :
    Swept db (expired ++ PrismaReservationRepository.findExpiredPending left time)
      (released ++ PrismaReservationRepository.findExpiredPending left time)
      ((sweepFrom left time).run serve choices ⟨left, now⟩).2.db := by
  have hslots := sweepFrom_ok_iff.mp hok
  obtain ⟨outcome, hok'⟩ := sweepFrom_ok_iff.mpr fun reservation hr => by
    rw [hswept.isSome_slotStatus]
    exact hslots reservation (hswept.mem_findExpiredPending.mp hr).1
  exact sweepFrom_swept hswept hok'

-- The retry does not see the reservation between its two writes.
theorem mem_released_append {sweptAt retriedAt : ℤ} {n : ℕ} {left : Database}
    {reservation : Reservation} (hle : sweptAt ≤ retriedAt)
    (hn : (PrismaReservationRepository.findExpiredPending db sweptAt)[n]? = some reservation)
    (hswept : Swept db ((PrismaReservationRepository.findExpiredPending db sweptAt).take (n + 1))
      ((PrismaReservationRepository.findExpiredPending db sweptAt).take n) left)
    (other : Reservation) :
    other ∈ (PrismaReservationRepository.findExpiredPending db sweptAt).take n ++
        PrismaReservationRepository.findExpiredPending left retriedAt ↔
      other ∈ PrismaReservationRepository.findExpiredPending db retriedAt ∧
        other ≠ reservation := by
  have htake := List.take_add_one (l := PrismaReservationRepository.findExpiredPending db sweptAt)
    (i := n)
  rw [hn, Option.toList_some] at htake
  have hmem := mem_expired_append hswept
    (List.Subset.trans (List.take_subset _ _) (findExpiredPending_mono hle)) other
  have hkept : reservation ∉
      (PrismaReservationRepository.findExpiredPending db sweptAt).take n := by
    have hnodup : ((PrismaReservationRepository.findExpiredPending db sweptAt).take
        (n + 1)).Nodup := (nodup_findExpiredPending sweptAt).sublist (List.take_sublist _ _)
    rw [htake] at hnodup
    exact fun h => (List.nodup_append.mp hnodup).2.2 _ h _ (List.mem_singleton_self _) rfl
  have hdone : reservation ∉ PrismaReservationRepository.findExpiredPending left retriedAt := by
    rw [hswept.mem_findExpiredPending, htake]
    simp
  rw [htake] at hmem
  rw [← hmem]
  simp only [List.mem_append, List.mem_singleton]
  grind

-- Of the reservations of a sweep, the retry sees those that are still PENDING.
-- The one between its two writes is EXPIRED for it and keeps its slot, unless
-- another one releases it.
theorem converges_sweep
    (hlater : (Retriable.ExpireOverdueReservations.attempt config lost first world).1.clock ≤ later)
    (hlost : (Retriable.ExpireOverdueReservations.attempt config lost first world).2 = none)
    (hok : ∃ outcome, (Retriable.ExpireOverdueReservations.execute config second
      ⟨world.db, later⟩).1 = .ok outcome) :
    SameStatuses
      (Retriable.ExpireOverdueReservations.execute config second
        ⟨(Retriable.ExpireOverdueReservations.attempt config lost first world).1.db, later⟩).2.db
      (Retriable.ExpireOverdueReservations.execute config second ⟨world.db, later⟩).2.db ↔
    Recovers world.db lost (world.clock + (first.choices 0).elapsed)
      (later + (second.choices 0).elapsed) .ExpireOverdueReservations := by
  simp only [sweep_attempt, sweep_execute] at hlater hlost hok ⊢
  set sweptAt := world.clock + (first.choices 0).elapsed
  set retriedAt := later + (second.choices 0).elapsed
  have hclock : sweptAt + (first.choices 1).elapsed ≤ later :=
    (clock_le_losingServe _ _ (_, some lost)).trans hlater
  have hle : sweptAt ≤ retriedAt := by omega
  obtain ⟨hl, hchain⟩ := (sweepFrom_does _).chain_of_lost hlost
  generalize (Program.run losingServe _ _ _).2.1.db = left at hchain ⊢
  obtain ⟨_, href⟩ := hok
  have hfull := sweepFrom_swept (.refl world.db) href
  rw [List.nil_append] at hfull
  obtain ⟨n, rfl | rfl⟩ := Nat.even_or_odd' lost
  · have hswept := swept_even hchain
    have hmem := mem_expired_append hswept
      (List.Subset.trans (List.take_subset _ _) (findExpiredPending_mono hle))
    rw [(sweepFrom_retry hswept ⟨_, href⟩).sameStatuses_iff hfull (mem_map_congr hmem)]
    refine iff_of_true (fun slotId => .inl ?_) (.inl (Nat.mul_mod_right 2 n))
    exact mem_map_congr hmem slotId
  · rw [length_expireEffects] at hl
    have hn := List.getElem?_eq_getElem
      (l := PrismaReservationRepository.findExpiredPending world.db sweptAt) (i := n) (by omega)
    have hswept := swept_odd hn hchain
    have hmem := mem_expired_append hswept
      (List.Subset.trans (List.take_subset _ _) (findExpiredPending_mono hle))
    rw [(sweepFrom_retry hswept ⟨_, href⟩).sameStatuses_iff hfull (mem_map_congr hmem),
      released_iff (findExpiredPending_mono hle (List.mem_of_getElem? hn))
        (mem_released_append hle hn hswept)]
    have hhalf : (2 * n + 1) / 2 = n := by omega
    simp [Recovers, hhalf, hn]

end Overdue

-- When the retry of an execution that lost a write ends with the statuses of an
-- execution that lost none.
theorem converges_iff (operation : Retriable)
    (hlater : (operation.attempt config lost first world).1.clock ≤ later)
    (hlost : (operation.attempt config lost first world).2 = none)
    (hok : ∃ outcome, (operation.execute config second ⟨world.db, later⟩).1 = .ok outcome) :
    SameStatuses
      (operation.execute config second
        ⟨(operation.attempt config lost first world).1.db, later⟩).2.db
      (operation.execute config second ⟨world.db, later⟩).2.db ↔
    Recovers world.db lost (world.clock + (first.choices 0).elapsed)
      (later + (second.choices 0).elapsed) operation := by
  cases operation with
  | CancelReservation input => exact converges_cancel hlost hok
  | RegisterExit sessionId => exact converges_exit hlost hok
  | ExpireOverdueReservations => exact converges_sweep hlater hlost hok

end Converges

section Examples

-- The owner of the reservation r1 cancels it, and the slot is not released.
def Demo.cancel : Retriable := .CancelReservation { reservationId := "r1", userId := "u1" }

def Demo.once : Try where
  token := "t"
  expiresAt := 0
  choices _ := choice "x"

theorem converges_iff_release :
    SameStatuses
      (Demo.cancel.execute Demo.config Demo.once
        ⟨(Demo.cancel.attempt Demo.config 0 Demo.once ⟨Demo.reserved, 0⟩).1.db, 9⟩).2.db
      (Demo.cancel.execute Demo.config Demo.once ⟨Demo.reserved, 9⟩).2.db ↔
    Recovers Demo.reserved 0 1 10 Demo.cancel :=
  converges_iff Demo.cancel (by decide) (by decide) ⟨.Cancelled, by decide⟩

theorem converges_fails :
    (Demo.cancel.attempt Demo.config 1 Demo.once ⟨Demo.reserved, 0⟩).2 = none ∧
      (Demo.cancel.execute Demo.config Demo.once ⟨Demo.reserved, 9⟩).1 = .ok .Cancelled ∧
      ¬SameStatuses
        (Demo.cancel.execute Demo.config Demo.once
          ⟨(Demo.cancel.attempt Demo.config 1 Demo.once ⟨Demo.reserved, 0⟩).1.db, 9⟩).2.db
        (Demo.cancel.execute Demo.config Demo.once ⟨Demo.reserved, 9⟩).2.db := by
  refine ⟨by decide, by decide, fun h => ?_⟩
  have hslot := h.slots "s1"
  revert hslot
  decide

end Examples

end SmartParking
