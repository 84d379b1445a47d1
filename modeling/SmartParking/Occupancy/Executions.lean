import SmartParking.Occupancy.Duties

namespace SmartParking.Occupancy

open Async

variable {Tid : Type} [DecidableEq Tid] {first : Database} {thread : Tid} {duty : Duty}
  {config : Config}

-- Each use case pays what it owes, however it ends.
section UseCases

theorem careful_publishAudit_bind {α : Type} {event : Id → ℤ → AuditEvent} {f : Unit → SmartParking.Port α}
    {post : Except Fault α → Duty → Prop} (hf : Careful first thread (f ()) duty post) :
    Careful first thread (randomUUID >>= fun eventId => clock.now >>= fun occurredAt =>
      auditEvents.publishAuditEvent (event eventId occurredAt) >>= f) duty post := by
  refine careful_sure_bind trivial rfl fun eventId => careful_sure_bind trivial rfl fun occurredAt => ?_
  exact careful_sure_bind trivial rfl fun _ => hf

theorem careful_store {input : CreateReservationInput} {slot : ParkingSlot} :
    Careful first thread (CreateReservationUseCase.store config input slot)
      ⟨some input.branchId, .located slot.id input.branchId⟩ Settles := by
  refine careful_sure_bind trivial rfl fun now => ?_
  refine careful_createReservation_bind id fun reservation hbranch => ?_
  unfold CreateReservationUseCase.announce CreateReservationUseCase.publishAudit
  simp only [bind_assoc]
  refine careful_publishAudit_bind (careful_notifyAll_bind ?_ ?_)
  · have hb : reservation.branchId = input.branchId := hbranch
    simp [hb]
  · exact careful_reads_bind (publishConfirmationEmail_reads reservation)
      (Program.yields_true _) (fun _ _ => rfl) fun _ _ => rfl

theorem careful_create {input : CreateReservationInput} (hduty : duty.owed = none) :
    Careful first thread (CreateReservationUseCase.execute config input) duty Settles := by
  obtain ⟨_, known⟩ := duty
  subst hduty
  refine careful_reads_bind (canCreateReservation_reads _) (Program.yields_true _)
    (fun _ _ => rfl) fun eligibility _ => ?_
  cases eligibility.allowed with
  | false => exact rfl
  | true =>
      change Careful first thread (CreateReservationUseCase.reserve config input) _ _
      rw [reserve_eq]
      refine careful_claimSlot_bind ?_ fun slot => careful_store
      refine careful_reads_bind (lookElsewhere_reads config _) (lookElsewhere_unassigned config _)
        (fun _ _ => rfl) fun assignment hun => ?_
      cases assignment with
      | ASSIGNED slot => exact absurd rfl (hun slot)
      | SUGGEST_OTHER_BRANCH branch distanceKm => exact rfl
      | NO_AVAILABILITY => exact rfl

theorem careful_cancel {input : CancelReservationInput} (hduty : duty.owed = none) :
    Careful first thread (CancelReservationUseCase.execute input) duty Settles := by
  obtain ⟨_, known⟩ := duty
  subst hduty
  refine careful_read_bind rfl trivial fun db choice now hp _ => ?_
  simp only [query, Onward]
  cases hl : (PrismaReservationRepository.findById db input.reservationId).filter
      fun reservation => reservation.userId = input.userId with
  | none => exact ⟨.nothing, trivial, rfl⟩
  | some reservation =>
      obtain ⟨hr, -⟩ := Table.lookup_eq_some.mp (Option.filter_eq_some_iff.mp hl).1
      refine ⟨.located reservation.slotId reservation.branchId, hp.housed reservation hr, ?_⟩
      dsimp only
      split
      · exact rfl
      unfold CancelReservationUseCase.cancel CancelReservationUseCase.publishAudit
      simp only [bind_assoc]
      refine careful_updateReservation_bind (.inl fun _ => rfl) ?_
      refine careful_updateSlot_bind id (careful_publishAudit_bind ?_)
      rw [← bind_pure (notifier.notifyAll _)]
      exact careful_notifyAll_bind (by simp) rfl

theorem careful_sweep (time : ℤ) (candidates : List Reservation) (count : ℕ) {known : Fact}
    (hlocated : ∀ {db}, known.holds db → ∀ reservation ∈ candidates,
      Located db reservation.slotId reservation.branchId) :
    Careful first thread (ExpireOverdueReservationsUseCase.sweep time candidates count)
      ⟨none, known⟩ Settles := by
  induction candidates generalizing count with
  | nil => exact rfl
  | cons reservation rest ih =>
      have hrest : ∀ count, Careful first thread
          (ExpireOverdueReservationsUseCase.sweep time rest count) ⟨none, known⟩ Settles :=
        fun count => ih count fun hk other ho => hlocated hk other (List.mem_cons_of_mem _ ho)
      unfold ExpireOverdueReservationsUseCase.sweep
      split
      · exact hrest count
      unfold ExpireOverdueReservationsUseCase.expire
      simp only [bind_assoc]
      refine careful_updateReservation_bind (.inl fun _ => rfl) ?_
      refine careful_updateSlot_bind (fun hk => hlocated hk reservation List.mem_cons_self) ?_
      exact careful_notifyAll_bind (by simp) (hrest (count + 1))

theorem careful_expire (hduty : duty.owed = none) :
    Careful first thread ExpireOverdueReservationsUseCase.execute duty Settles := by
  obtain ⟨_, known⟩ := duty
  subst hduty
  refine careful_sure_bind trivial rfl fun time => ?_
  refine careful_read_bind rfl trivial fun db _ _ hp _ => ?_
  refine ⟨.housed (PrismaReservationRepository.findExpiredPending db time), ?_, ?_⟩
  · exact fun reservation hm => hp.housed reservation (List.mem_filter.mp hm).1
  · exact careful_sweep _ _ 0 id

-- What is known of a reservation that was read.
def Fact.found (reservation : Reservation) : Fact :=
  .both (.reserved reservation) (.located reservation.slotId reservation.branchId)

theorem found_of_mem {db : Database} (hp : Placed db) {reservation : Reservation}
    (hr : reservation ∈ db.reservations) : (Fact.found reservation).holds db :=
  ⟨⟨reservation, hr, rfl, rfl, rfl⟩, hp.housed reservation hr⟩

theorem careful_enter_bind {α : Type} {reservation : Reservation} {time : ℤ}
    {f : ParkingSession → SmartParking.Port α}
    (hf : ∀ session, Careful first thread (f session)
      ⟨some reservation.branchId, .found reservation⟩ Settles) :
    Careful first thread (DefaultParkingPolicy.enter reservation time >>= f)
      ⟨none, .found reservation⟩ Settles := by
  have hstay : Careful first thread (sessions.create {
        reservationId := reservation.id
        userId := reservation.userId
        slotId := reservation.slotId
        entryAt := time } >>= fun session =>
      slots.updateStatus reservation.slotId .OCUPADA >>= fun _ => f session)
      ⟨none, .found reservation⟩ Settles := by
    refine careful_createSession_bind ?_ (fun _ => rfl) fun session => ?_
    · rintro db ⟨⟨row, hr, hid, hslot, -⟩, -⟩
      exact ⟨row, hr, hid, hslot⟩
    · exact careful_updateSlot_bind And.right (hf session)
  unfold DefaultParkingPolicy.enter DefaultParkingPolicy.confirmIfPending
  simp only [bind_assoc, pure_bind]
  split
  · exact careful_updateReservation_bind (.inl fun _ => rfl) hstay
  · exact hstay

-- The announcement reads the reservation of the entry once more.
theorem careful_announceEntry_bind {α : Type} {session : ParkingSession} {reservation : Reservation}
    {f : Unit → SmartParking.Port α}
    (hf : Careful first thread (f ()) ⟨none, .nothing⟩ Settles) :
    Careful first thread (RegisterEntryUseCase.announce session reservation.id >>= f)
      ⟨some reservation.branchId, .found reservation⟩ Settles := by
  unfold RegisterEntryUseCase.announce
  rw [bind_assoc]
  refine careful_read_bind rfl trivial fun db choice now hp hk => ⟨.nothing, trivial, ?_⟩
  obtain ⟨⟨row, hr, hid, -, hbranch⟩, -⟩ := hk
  have hfound : PrismaReservationRepository.findById db reservation.id = some row :=
    Table.lookup_eq_some.mpr ⟨hr, hid⟩
  simp only [query, Onward, hfound]
  exact careful_notifyAll_bind (by simp [hbranch]) hf

theorem careful_entry {token : String} (hduty : duty.owed = none) :
    Careful first thread (RegisterEntryUseCase.execute token) duty Settles := by
  obtain ⟨_, known⟩ := duty
  subst hduty
  refine careful_reads_bind (uses_ask.mpr (by trivial)) (Program.yields_true _) (fun _ _ => rfl)
    fun payload _ => ?_
  cases payload.reservationId with
  | none => exact rfl
  | some reservationId =>
      dsimp only
      split
      · exact rfl
      refine careful_sure_bind trivial rfl fun time => ?_
      unfold DefaultParkingPolicy.registerEntry
      rw [bind_assoc]
      refine careful_read_bind rfl trivial fun db _ _ hp _ => ?_
      simp only [query, Onward]
      cases hl : PrismaReservationRepository.findById db reservationId with
      | none => exact ⟨.nothing, trivial, rfl⟩
      | some reservation =>
          obtain ⟨hr, rfl⟩ := Table.lookup_eq_some.mp hl
          refine ⟨.found reservation, found_of_mem hp hr, ?_⟩
          dsimp only
          split
          · exact rfl
          split
          · exact rfl
          rw [bind_assoc]
          refine careful_reads_bind (uses_ask.mpr (by trivial)) (Program.yields_true _)
            (fun _ _ => rfl) fun existing _ => ?_
          split
          · exact rfl
          exact careful_enter_bind fun session => careful_announceEntry_bind rfl

-- What is known of a session and the reservation of its entry.
def Fact.stay (session : ParkingSession) (reservation : Reservation) : Fact :=
  .both (.opened session) (.both (.reserved reservation) (.located session.slotId
    reservation.branchId))

theorem stay_of_opened {db : Database} (hp : Placed db) {session : ParkingSession}
    (hs : (Fact.opened session).holds db) {reservation : Reservation}
    (hr : reservation ∈ db.reservations) (hid : reservation.id = session.reservationId) :
    (Fact.stay session reservation).holds db := by
  obtain ⟨row, hrow, -, hres, hslot⟩ := id hs
  obtain ⟨other, ho, hoid, hoslot⟩ := hp.lodged row hrow
  obtain rfl : reservation = other :=
    Table.eq_of_key_eq hr ho (hid.trans (hres.symm.trans hoid.symm))
  refine ⟨hs, ⟨reservation, hr, rfl, rfl, rfl⟩, ?_⟩
  change Located db session.slotId reservation.branchId
  rw [← hslot, ← hoslot]
  exact hp.housed reservation hr

-- The exit gives the slot of the session free, and updates the branch of the reservation.
theorem careful_leave_bind {α : Type} {session : ParkingSession} {reservation : Reservation}
    {time : ℤ} (hid : reservation.id = session.reservationId) {f : ExitResult → SmartParking.Port α}
    (hf : ∀ later, Careful first thread (f (.RELEASED (some later)))
      ⟨some reservation.branchId, .nothing⟩ Settles) :
    Careful first thread (DefaultParkingPolicy.leave session time >>= f)
      ⟨none, .stay session reservation⟩ Settles := by
  unfold DefaultParkingPolicy.leave
  simp only [bind_assoc, pure_bind]
  refine careful_completeSession_bind (fun _ => rfl) ?_
  refine careful_updateSlot_bind (fun hk => hk.2.2) ?_
  refine careful_updateReservation_bind (.inr ?_) ?_
  · rintro db ⟨-, ⟨row, hr, hrow, -⟩, -⟩
    rw [← hid, ← hrow, Table.lookup_key hr]
    rfl
  · refine careful_read_bind rfl trivial fun db _ _ _ hk => ⟨.nothing, trivial, ?_⟩
    obtain ⟨⟨row, hs, hrow, -⟩, -⟩ := hk
    have hfound : PrismaParkingSessionRepository.findById db session.id = some row :=
      Table.lookup_eq_some.mpr ⟨hs, hrow⟩
    simp only [query, Onward, hfound]
    exact hf row

theorem careful_finish {session : ParkingSession} {reservation : Reservation} {time : ℤ}
    (hid : reservation.id = session.reservationId) :
    Careful first thread (RegisterExitUseCase.finish session.id time reservation)
      ⟨none, .stay session reservation⟩ Settles := by
  unfold RegisterExitUseCase.finish DefaultParkingPolicy.registerExit
  rw [bind_assoc]
  refine careful_read_bind rfl trivial fun db _ _ _ hk => ?_
  simp only [query, Onward]
  cases hl : (PrismaParkingSessionRepository.findById db session.id).filter
      ParkingSession.isActive with
  | none => exact ⟨.nothing, trivial, rfl⟩
  | some current =>
      obtain ⟨hm, hcid⟩ := Table.lookup_eq_some.mp (Option.filter_eq_some_iff.mp hl).1
      obtain ⟨⟨row, hs, hrow, hres, hslot⟩, hr, hlocated⟩ := hk
      -- the row that is read again is the one that is known
      obtain rfl : current = row := Table.eq_of_key_eq hm hs (hcid.trans hrow.symm)
      refine ⟨.stay current reservation, ⟨⟨current, hm, rfl, rfl, rfl⟩, hr, ?_⟩, ?_⟩
      · change Located db current.slotId reservation.branchId
        rwa [hslot]
      dsimp only
      rw [bind_assoc]
      refine careful_reads_bind (uses_ask.mpr (by trivial)) (Program.yields_true _)
        (fun _ _ => rfl) fun payment _ => ?_
      split
      · refine careful_leave_bind (hid.trans hres.symm) fun later => ?_
        exact careful_notifyAll_bind (by simp) rfl
      · exact rfl

theorem careful_exit {token : String} (hduty : duty.owed = none) :
    Careful first thread (RegisterExitUseCase.execute token) duty Settles := by
  obtain ⟨_, known⟩ := duty
  subst hduty
  refine careful_reads_bind (uses_ask.mpr (by trivial)) (Program.yields_true _) (fun _ _ => rfl)
    fun payload _ => ?_
  cases payload.sessionId with
  | none => exact rfl
  | some sessionId =>
      dsimp only
      split
      · exact rfl
      refine careful_sure_bind trivial rfl fun time => ?_
      refine careful_read_bind rfl trivial fun db _ _ hp _ => ?_
      simp only [query, Onward]
      cases hl : (PrismaParkingSessionRepository.findById db sessionId).filter
          ParkingSession.isActive with
      | none => exact ⟨.nothing, trivial, rfl⟩
      | some session =>
          obtain ⟨hm, rfl⟩ := Table.lookup_eq_some.mp (Option.filter_eq_some_iff.mp hl).1
          refine ⟨.opened session, ⟨session, hm, rfl, rfl, rfl⟩, ?_⟩
          refine careful_read_bind rfl trivial fun db _ _ hp hk => ?_
          simp only [query, Onward]
          cases hl : PrismaReservationRepository.findById db session.reservationId with
          | none => exact ⟨.nothing, trivial, rfl⟩
          | some reservation =>
              obtain ⟨hr, hid⟩ := Table.lookup_eq_some.mp hl
              refine ⟨.stay session reservation, stay_of_opened hp hk hr hid, ?_⟩
              refine careful_reads_bind (uses_ask.mpr (by trivial)) (Program.yields_true _)
                (fun _ _ => rfl) fun payment _ => ?_
              cases payment.filter Payment.isApproved with
              | none => exact rfl
              | some payment =>
                  refine careful_reads_bind (calculate_reads _) (Program.yields_true _)
                    (fun _ _ => rfl) fun pricing _ => ?_
                  split
                  · exact rfl
                  · exact careful_finish hid

end UseCases

-- The executions of all processes.
section Tasks

theorem careful_bind {α β : Type} {p : SmartParking.Port α} {f : α → SmartParking.Port β}
    (hp : Careful first thread p duty Settles)
    (hf : ∀ value duty, duty.owed = none → Careful first thread (f value) duty Settles) :
    Careful first thread (p >>= f) duty Settles := by
  refine safe_bind (fun _ duty' => duty'.owed = none) (safe_mono hp ?_) hf
  rintro (err | value) duty' h <;> exact h

theorem careful_operation (operation : Operation) (hduty : duty.owed = none) :
    Careful first thread (operation.execute config) duty Settles := by
  cases operation with
  | CreateReservation input => exact careful_bind (careful_create hduty) fun _ _ h => h
  | CancelReservation input => exact careful_bind (careful_cancel hduty) fun _ _ h => h
  | ExpireOverdueReservations => exact careful_bind (careful_expire hduty) fun _ _ h => h
  | RegisterEntry token => exact careful_bind (careful_entry hduty) fun _ _ h => h
  | RegisterExit token => exact careful_bind (careful_exit hduty) fun _ _ h => h

theorem careful_tryCatch {α : Type} {p : SmartParking.Port α} {handler : Fault → SmartParking.Port α}
    (hp : Careful first thread p duty Settles)
    (hh : ∀ err duty, duty.owed = none → Careful first thread (handler err) duty Settles) :
    Careful first thread (p.tryCatch handler) duty Settles := by
  refine safe_tryCatch (fun _ duty' => duty'.owed = none) (safe_mono hp ?_) hh
  rintro (err | value) duty' h <;> exact h

-- The last call of an execution that owes nothing.
theorem careful_ask {call : SmartParking.Call} (hreads : call.Reads) (hduty : duty.owed = none) :
    Careful first thread (ask call) duty Settles := by
  refine safe_mono (safe_of_quiet quiet_reads (uses_ask.mpr hreads) duty) ?_
  rintro result duty' rfl
  exact hduty

theorem careful_reservationRequest (message : ReservationRequestMessage) (hduty : duty.owed = none) :
    Careful first thread (ReservationRequestConsumer.handle config message) duty Settles := by
  unfold ReservationRequestConsumer.handle
  split
  · exact careful_ask trivial hduty
  refine careful_tryCatch (careful_bind ?_ fun _ _ h => careful_ask trivial h) fun _ _ h =>
    careful_ask trivial h
  refine careful_bind (careful_tryCatch (careful_bind (careful_create hduty) fun _ _ h => h) ?_)
    fun resolution duty h => ?_
  · rintro (error | text) duty h <;> exact h
  · rw [← bind_pure (notifier.notifyReservationRequestResolved _)]
    exact careful_keep_bind rfl fun db _ _ _ => ⟨.refl db, h⟩

-- The same over the calls of the reports, and over all calls.
abbrev CarefulReport {α : Type} (first : Database) (thread : Tid) (p : Blocking.Port α)
    (duty : Duty) (post : Except Fault α → Duty → Prop) : Prop :=
  Safe (announcing Blocking.serve reportedUpdates) Pool.unguarded (fun feed _ => Watched first feed)
    thread p duty post

abbrev CarefulTask {α : Type} (first : Database) (thread : Tid) (p : Port α) (duty : Duty)
    (post : Except Fault α → Duty → Prop) : Prop :=
  Safe (announcing serve startedUpdates) Pool.unguarded (fun feed _ => Watched first feed) thread p
    duty post

variable {α : Type} {post : Except Fault α → Duty → Prop}

theorem careful_lift_report {p : SmartParking.Port α} (hp : Careful first thread p duty post) :
    CarefulReport first thread (Blocking.lift p) duty post :=
  safe_lift (fun _ _ _ => ⟨congrFun Except.map_id _, rfl⟩) hp

theorem careful_report {p : Blocking.Port α} (hp : CarefulReport first thread p duty post) :
    CarefulTask first thread (report p) duty post :=
  safe_lift (fun _ _ _ => ⟨congrFun Except.map_id _, rfl⟩) hp

theorem careful_reportSlotBlocked (slotId : Id) (hduty : duty.owed = none) :
    CarefulReport first thread (Blocking.ReportSlotBlockedUseCase.execute slotId) duty Settles := by
  obtain ⟨_, known⟩ := duty
  subst hduty
  have hblock : ∀ slot : ParkingSlot, Careful first thread
      (Blocking.ReportSlotBlockedUseCase.block slot slotId)
      ⟨none, .located slotId slot.branchId⟩ Settles := by
    intro slot
    refine careful_updateSlot_bind id ?_
    rw [← bind_pure (notifier.notifyAll _)]
    exact careful_notifyAll_bind (by simp) rfl
  refine safe_perform_bind fun feed history duties choice hd hi _ => ?_
  have hw : Writes none feed.world.db feed.world.db := .refl _
  have hnext : (announcing Blocking.serve reportedUpdates choice feed (.slotsFindById slotId)).2 =
      { feed with world := ⟨feed.world.db, feed.world.clock + choice.elapsed⟩ } := by
    simp only [announcing, Blocking.serve, reportedUpdates, List.append_nil]
  rw [hnext]
  change ∃ duty', _ ∧ Onward _ _ _ _ _ _
    (.ok (SmartParking.PrismaParkingSlotRepository.findById feed.world.db slotId)) duty'
  cases hl : SmartParking.PrismaParkingSlotRepository.findById feed.world.db slotId with
  | none => exact ⟨⟨none, .nothing⟩, hi.write hd hw trivial owed_of_none owed_of_none, rfl⟩
  | some slot =>
      obtain ⟨hm, rfl⟩ := Table.lookup_eq_some.mp hl
      exact ⟨⟨none, .located slot.id slot.branchId⟩,
        hi.write hd hw (located_of_mem hm) owed_of_none owed_of_none,
        careful_lift_report (hblock slot)⟩

theorem careful_simulateBranchFull (branchId : Id) (hduty : duty.owed = none) :
    CarefulTask first thread (SimulateBranchFullUseCase.execute branchId) duty Settles := by
  have hfind : Careful first thread (branches.findById branchId) duty Settles :=
    careful_ask trivial hduty
  have hnotify : ∀ known, Careful first thread (notifier.notify (.OccupancyUpdated branchId))
      ⟨some branchId, known⟩ Settles := by
    intro known
    rw [← bind_pure (notifier.notify _)]
    exact careful_notify_bind rfl
  refine safe_bind (fun _ duty' => duty'.owed = none)
    (safe_mono (careful_report (careful_lift_report hfind)) ?_) fun branch duty' hduty' => ?_
  · rintro (err | value) duty' h <;> exact h
  cases branch with
  | none => exact hduty'
  | some branch =>
      obtain ⟨_, known⟩ := duty'
      subst hduty'
      refine safe_perform_bind fun feed history duties choice hd hi _ => ?_
      have hk := hi.known thread
      rw [hd] at hk
      have hw := writes_markAllOccupied feed.world.db (feed.world.clock + choice.elapsed) branchId
      have hnext : (announcing serve startedUpdates choice feed (.slotsMarkAllOccupied branchId)).2 =
          { feed with world := (serve choice feed.world (.slotsMarkAllOccupied branchId)).2 } := by
        simp only [announcing, startedUpdates, List.append_nil]
      refine ⟨⟨some branchId, known⟩, ?_, careful_report (careful_lift_report (hnotify known))⟩
      rw [hnext]
      exact hi.write hd hw (known.lasts hw.toLasts hk) owed_of_none fun _ h => h

theorem careful_task (task : Task) (hduty : duty.owed = none) :
    CarefulTask first thread (task.execute config) duty Settles := by
  cases task with
  | Request task =>
      refine careful_report ?_
      cases task with
      | Backend operation =>
          refine safe_bind (fun _ duty' => duty'.owed = none)
            (safe_mono (careful_lift_report (careful_operation operation hduty)) ?_) fun _ _ h => h
          rintro (err | value) duty' h <;> exact h
      | ReportSlotBlocked slotId => exact careful_reportSlotBlocked slotId hduty
  | ReservationRequest message =>
      exact careful_report (careful_lift_report (careful_reservationRequest message hduty))
  | SimulateBranchFull branchId => exact careful_simulateBranchFull branchId hduty

end Tasks

end SmartParking.Occupancy
