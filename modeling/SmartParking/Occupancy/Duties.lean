import SmartParking.Backend.Footprints
import SmartParking.Backend.Modular
import SmartParking.Occupancy.Tracking

namespace SmartParking.Occupancy

open Async

-- What stays true of the database once it is true.
structure Fact where
  holds : Database → Prop
  lasts : ∀ {db db' : Database}, Lasts db db' → holds db → holds db'

namespace Fact

def nothing : Fact where
  holds _ := True
  lasts _ h := h

def both (fact other : Fact) : Fact where
  holds db := fact.holds db ∧ other.holds db
  lasts hl h := ⟨fact.lasts hl h.1, other.lasts hl h.2⟩

def located (slotId branchId : Id) : Fact where
  holds db := Located db slotId branchId
  lasts hl h := hl.located h

-- The row of a reservation that was read, whatever its status is now.
def reserved (reservation : Reservation) : Fact where
  holds db := ∃ row ∈ db.reservations, row.id = reservation.id ∧
    row.slotId = reservation.slotId ∧ row.branchId = reservation.branchId
  lasts hl h := by
    obtain ⟨row, hr, hid, hslot, hbranch⟩ := h
    obtain ⟨later, hm, hid', hslot', hbranch'⟩ := hl.reservations row hr
    exact ⟨later, hm, hid'.trans hid, hslot'.trans hslot, hbranch'.trans hbranch⟩

def opened (session : ParkingSession) : Fact where
  holds db := ∃ row ∈ db.sessions, row.id = session.id ∧
    row.reservationId = session.reservationId ∧ row.slotId = session.slotId
  lasts hl h := by
    obtain ⟨row, hr, hid, hres, hslot⟩ := h
    obtain ⟨later, hm, hid', hres', hslot'⟩ := hl.sessions row hr
    exact ⟨later, hm, hid'.trans hid, hres'.trans hres, hslot'.trans hslot⟩

-- Each of the reservations has its slot in its branch.
def housed (reservations : List Reservation) : Fact where
  holds db := ∀ reservation ∈ reservations, Located db reservation.slotId reservation.branchId
  lasts hl h reservation hm := hl.located (h reservation hm)

end Fact

-- The branch whose update an execution still owes, and what it knows.
structure Duty where
  owed : Option Id
  known : Fact

variable {Tid α β : Type}

structure Watched (first : Database) (feed : Feed) (duties : Tid → Duty) : Prop where
  tracked : Tracked first (fun branchId => ∃ thread, (duties thread).owed = some branchId) feed
  known : ∀ thread, (duties thread).known.holds feed.world.db

-- The calls of a use case start the updates.
abbrev notifying : Server Choice Feed SmartParking.Call SmartParking.Answer Fault :=
  announcing SmartParking.serve RabbitRealtimePublisherAdapter.notifyOccupancyUpdated

variable [DecidableEq Tid] {first db : Database} {feed : Feed} {world : World} {duties : Tid → Duty}
  {thread : Tid} {duty duty' : Duty} {branchId slotId : Id} {touched : Option Id}

abbrev Careful (first : Database) (thread : Tid) (p : SmartParking.Port α) (duty : Duty)
    (post : Except Fault α → Duty → Prop) : Prop :=
  Safe notifying Pool.unguarded (fun feed _ => Watched first feed) thread p duty post

-- What comes after a call, from its answer on.
abbrev CarefulAfter (first : Database) (thread : Tid) (f : β → SmartParking.Port α)
    (post : Except Fault α → Duty → Prop) : Except Fault β → Duty → Prop :=
  Onward notifying Pool.unguarded (fun feed _ => Watched first feed) thread f post

-- Every execution ends with nothing owed.
def Settles (_ : Except Fault α) (duty : Duty) : Prop := duty.owed = none

namespace Watched

theorem owed_update {b : Id} (hd : duties thread = duty)
    (hkept : ∀ b, duty.owed = some b → duty'.owed = some b)
    (h : ∃ other, (duties other).owed = some b) :
    ∃ other, (Function.update duties thread duty' other).owed = some b := by
  obtain ⟨other, ho⟩ := h
  refine ⟨other, ?_⟩
  by_cases he : other = thread
  · subst he
    rw [Function.update_self]
    exact hkept b (hd ▸ ho)
  · rwa [Function.update_of_ne he]

theorem known_update (h : Watched first feed duties) (hl : Lasts feed.world.db world.db)
    (hknown : duty'.known.holds world.db) (other : Tid) :
    (Function.update duties thread duty' other).known.holds world.db := by
  by_cases he : other = thread
  · subst he
    rwa [Function.update_self]
  · rw [Function.update_of_ne he]
    exact (duties other).known.lasts hl (h.known other)

theorem write (h : Watched first feed duties) (hd : duties thread = duty)
    (hw : Writes touched feed.world.db world.db) (hknown : duty'.known.holds world.db)
    (hkept : ∀ b, duty.owed = some b → duty'.owed = some b)
    (htouched : ∀ b, touched = some b → duty'.owed = some b) :
    Watched first { feed with world } (Function.update duties thread duty') where
  tracked := h.tracked.write hw (fun _ => owed_update hd hkept) fun b hb =>
    ⟨thread, by rw [Function.update_self]; exact htouched b hb⟩
  known := h.known_update hw.toLasts hknown

-- The update of the branch is all that the execution owed.
theorem notify (h : Watched first feed duties) (hd : duties thread = duty)
    (hdb : world.db = feed.world.db) (hknown : duty'.known.holds feed.world.db)
    (hkept : ∀ b, duty.owed = some b → duty'.owed = some b ∨ b = branchId) :
    Watched first { feed with world, updates := feed.updates ++ [.countsSlots branchId] }
      (Function.update duties thread duty') where
  tracked := by
    refine h.tracked.notify hdb branchId ?_
    rintro other ⟨owing, ho⟩
    by_cases he : owing = thread
    · refine (hkept other (by rw [← hd, ← he, ho])).imp_left fun hb => ⟨thread, ?_⟩
      rwa [Function.update_self]
    · exact .inl ⟨owing, by rwa [Function.update_of_ne he]⟩
  known := by
    have hl : Lasts feed.world.db world.db := hdb ▸ (Writes.refl _ : Writes none _ _).toLasts
    exact h.known_update hl (hdb ▸ hknown)

end Watched

theorem owed_of_none {owed : Option Id} (b : Id) (h : none = some b) : owed = some b :=
  absurd h (Option.some_ne_none b).symm

-- The rules of the calls.
section Calls

variable {call : SmartParking.Call} {f : SmartParking.Answer call → SmartParking.Port α}
  {post : Except Fault α → Duty → Prop}

-- A call can touch the branch that the execution owes from then on.
theorem careful_ask_bind
    (hsilent : RabbitRealtimePublisherAdapter.notifyOccupancyUpdated call = [])
    (h : ∀ db choice now, Placed db → duty.known.holds db → ∃ touched duty',
      Writes touched db (query choice now db call).2 ∧
      duty'.known.holds (query choice now db call).2 ∧
      (∀ b, duty.owed = some b → duty'.owed = some b) ∧
      (∀ b, touched = some b → duty'.owed = some b) ∧
      CarefulAfter first thread f post (query choice now db call).1 duty') :
    Careful first thread (ask call >>= f) duty post := by
  refine safe_perform_bind fun feed history duties choice hd hi _ => ?_
  obtain ⟨touched, duty', hw, hknown, hkept, htouched, hs⟩ :=
    h feed.world.db choice (feed.world.clock + choice.elapsed) hi.tracked.placed
      (hd ▸ hi.known thread)
  refine ⟨duty', ?_, hs⟩
  have hnext : (notifying choice feed call).2 =
      { feed with world := (SmartParking.serve choice feed.world call).2 } := by
    simp only [announcing, hsilent, List.append_nil]
  rw [hnext]
  exact hi.write hd hw hknown hkept htouched

-- A call that touches no branch.
theorem careful_keep_bind
    (hsilent : RabbitRealtimePublisherAdapter.notifyOccupancyUpdated call = [])
    (h : ∀ db choice now, duty.known.holds db → Writes none db (query choice now db call).2 ∧
      CarefulAfter first thread f post (query choice now db call).1 duty) :
    Careful first thread (ask call >>= f) duty post := by
  refine careful_ask_bind hsilent fun db choice now _ hk => ?_
  obtain ⟨hw, hs⟩ := h db choice now hk
  exact ⟨none, duty, hw, duty.known.lasts hw.toLasts hk, fun _ h => h, owed_of_none, hs⟩

-- A read from which the execution learns something.
theorem careful_read_bind (hsilent : RabbitRealtimePublisherAdapter.notifyOccupancyUpdated call = [])
    (hreads : call.Reads) (h : ∀ db choice now, Placed db → duty.known.holds db →
      ∃ learned : Fact, learned.holds db ∧
        CarefulAfter first thread f post (query choice now db call).1 ⟨duty.owed, learned⟩) :
    Careful first thread (ask call >>= f) duty post := by
  refine careful_ask_bind hsilent fun db choice now hp hk => ?_
  obtain ⟨learned, hlearned, hs⟩ := h db choice now hp hk
  have hdb : (query choice now db call).2 = db := query_of_reads hreads
  rw [hdb]
  exact ⟨none, ⟨duty.owed, learned⟩, .refl db, hlearned, fun _ h => h, owed_of_none, hs⟩

theorem started_cases (call : SmartParking.Call) :
    RabbitRealtimePublisherAdapter.notifyOccupancyUpdated call = [] ∨
      ∃ branchId, RabbitRealtimePublisherAdapter.notifyOccupancyUpdated call =
        [.countsSlots branchId] := by
  unfold RabbitRealtimePublisherAdapter.notifyOccupancyUpdated
  split
  · exact .inr ⟨_, rfl⟩
  · exact .inl rfl

-- A call that writes nothing needs no duty. One update more does no harm.
theorem quiet_reads (call : SmartParking.Call) (hreads : call.Reads) :
    Quiet notifying Pool.unguarded (fun feed _ => Watched first feed) thread call := by
  intro feed history duties choice hi _
  have hdb : (SmartParking.serve choice feed.world call).2.db = feed.world.db :=
    query_of_reads hreads
  have hknown := hdb ▸ hi.known thread
  rcases started_cases call with hs | ⟨branchId, hs⟩
  · have hw : Writes none feed.world.db (SmartParking.serve choice feed.world call).2.db :=
      hdb ▸ .refl _
    have hnext := hi.write rfl hw hknown (fun _ h => h) owed_of_none
    rw [Function.update_eq_self] at hnext
    simpa only [announcing, hs, List.append_nil] using hnext
  · have hnext := hi.notify rfl hdb (hi.known thread) fun b h => (.inl h : _ ∨ b = branchId)
    rw [Function.update_eq_self] at hnext
    simpa only [announcing, hs] using hnext

theorem settled_notifying (choice : Choice) (feed : Feed) (call : SmartParking.Call) :
    Settled call (notifying choice feed call).1 :=
  settled_serve choice feed.world call

-- A call that neither writes nor fails.
theorem careful_sure_bind (hreads : call.Reads) (hsure : call.fallible = false)
    (hf : ∀ value, Careful first thread (f value) duty post) :
    Careful first thread (ask call >>= f) duty post := by
  refine safe_quiet_bind (quiet_reads call hreads) fun choice feed => ?_
  obtain ⟨value, hv⟩ := settled_notifying choice feed call hsure
  rw [hv]
  exact hf value

theorem careful_reads_bind {p : SmartParking.Port β} (hp : p.Uses Call.Reads)
    {good : Except Fault β → Prop} (hy : p.Yields Settled good) {f : β → SmartParking.Port α}
    (herr : ∀ err, good (.error err) → post (.error err) duty)
    (hf : ∀ value, good (.ok value) → Careful first thread (f value) duty post) :
    Careful first thread (p >>= f) duty post := by
  refine safe_bind (fun value duty' => good (.ok value) ∧ duty' = duty)
    (safe_mono (safe_of_uses settled_notifying quiet_reads hp hy duty) ?_) ?_
  · rintro result duty' ⟨hgood, rfl⟩
    cases result with
    | ok value => exact ⟨hgood, rfl⟩
    | error err => exact herr err hgood
  · rintro value duty' ⟨hgood, rfl⟩
    exact hf value hgood

theorem careful_notify_bind {f : Unit → SmartParking.Port α} {known : Fact}
    (hf : Careful first thread (f ()) ⟨none, known⟩ post) :
    Careful first thread (notifier.notify (.OccupancyUpdated branchId) >>= f)
      ⟨some branchId, known⟩ post := by
  refine safe_perform_bind fun feed history duties choice hd hi _ => ⟨⟨none, known⟩, ?_, hf⟩
  have hk := hi.known thread
  rw [hd] at hk
  exact hi.notify hd rfl hk fun b hb => .inr (Option.some.inj hb).symm

-- One of several messages is the update that is owed.
theorem careful_notifyAll_bind {messages : List Notification} {f : Unit → SmartParking.Port α}
    {known : Fact} (hm : .OccupancyUpdated branchId ∈ messages)
    (hf : Careful first thread (f ()) ⟨none, known⟩ post) :
    Careful first thread (notifier.notifyAll messages >>= f) ⟨some branchId, known⟩ post := by
  induction messages with
  | nil => cases hm
  | cons message rest ih =>
      rw [notifier.notifyAll, bind_assoc]
      by_cases he : message = .OccupancyUpdated branchId
      · subst he
        refine careful_notify_bind (careful_reads_bind (notifyAll_reads rest)
          (notifyAll_settles rest) (fun err he => by cases he) fun _ _ => hf)
      · refine safe_quiet_bind (quiet_reads _ trivial) fun _ _ => ih ?_
        exact (List.mem_cons.mp hm).resolve_left (Ne.symm he)

variable {f : Unit → SmartParking.Port α}

theorem careful_updateSlot_bind {status : SlotStatus} {known : Fact}
    (hlocated : ∀ {db}, known.holds db → Located db slotId branchId)
    (hf : Careful first thread (f ()) ⟨some branchId, known⟩ post) :
    Careful first thread (slots.updateStatus slotId status >>= f) ⟨none, known⟩ post := by
  refine careful_ask_bind rfl fun db choice now hp hk => ?_
  have hw := writes_setSlotStatus (hlocated hk) status now
  rw [query_slotsUpdateStatus, updated, if_pos (hlocated hk).isSome]
  exact ⟨some branchId, ⟨some branchId, known⟩, hw, known.lasts hw.toLasts hk,
    owed_of_none, fun _ h => h, hf⟩

-- Who owes an update must know that the reservation is there.
theorem careful_updateReservation_bind {id : Id} {status : ReservationStatus}
    {confirmedAt : Option ℤ}
    (hfound : (∀ err, post (.error err) duty) ∨
      ∀ {db}, duty.known.holds db → (db.reservations.lookup id).isSome)
    (hf : Careful first thread (f ()) duty post) :
    Careful first thread (reservations.updateStatus id status confirmedAt >>= f) duty post := by
  refine careful_keep_bind rfl fun db choice now hk => ?_
  rw [query_reservationsUpdateStatus]
  refine ⟨writes_setReservationStatus id status confirmedAt, ?_⟩
  rcases hfound with herr | hsome
  · cases (db.reservations.lookup id).isSome with
    | true => exact hf
    | false => exact herr recordNotFound
  · rw [updated, if_pos (hsome hk)]
    exact hf

theorem careful_createReservation_bind {data : CreateReservationData}
    {f : Reservation → SmartParking.Port α}
    (hlocated : ∀ {db}, duty.known.holds db → Located db data.slotId data.branchId)
    (hf : ∀ reservation : Reservation, reservation.branchId = data.branchId →
      Careful first thread (f reservation) duty post) :
    Careful first thread (reservations.create data >>= f) duty post := by
  refine careful_keep_bind rfl fun db choice now hk => ?_
  obtain ⟨bigger, hb, hq⟩ := query_reservationsCreate db choice now data
  rw [hq]
  exact ⟨writes_insertReservation hb (hlocated hk), hf _ rfl⟩

theorem careful_createSession_bind {data : CreateParkingSessionData}
    {f : ParkingSession → SmartParking.Port α}
    (hlodged : ∀ {db}, duty.known.holds db → ∃ reservation ∈ db.reservations,
      reservation.id = data.reservationId ∧ reservation.slotId = data.slotId)
    (herr : ∀ err, post (.error err) duty)
    (hf : ∀ session, Careful first thread (f session) duty post) :
    Careful first thread (sessions.create data >>= f) duty post := by
  refine careful_keep_bind rfl fun db choice now hk => ?_
  rcases query_sessionsCreate db choice now data with ⟨bigger, hb, hq⟩ | ⟨-, text, hq⟩
  · rw [hq]
    exact ⟨writes_insertSession hb (hlodged hk), hf _⟩
  · rw [hq]
    exact ⟨.refl db, herr _⟩

theorem careful_completeSession_bind {id : Id} {exitAt : ℤ} (herr : ∀ err, post (.error err) duty)
    (hf : Careful first thread (f ()) duty post) :
    Careful first thread (sessions.markCompleted id exitAt >>= f) duty post := by
  refine careful_keep_bind rfl fun db choice now _ => ?_
  rw [query_sessionsMarkCompleted]
  refine ⟨writes_setCompleted id exitAt, ?_⟩
  cases (db.sessions.lookup id).isSome with
  | true => exact hf
  | false => exact herr recordNotFound

-- A claim finds a slot of its branch, which the execution then owes an update.
theorem careful_claimSlot_bind {config : Config} {input : SlotAssignmentInput} {known : Fact}
    {f : Option ParkingSlot → SmartParking.Port α}
    (hnone : Careful first thread (f none) ⟨none, known⟩ post)
    (hsome : ∀ slot, Careful first thread (f (some slot))
      ⟨some input.branchId, .located slot.id input.branchId⟩ post) :
    Careful first thread (claimSlot config input >>= f) ⟨none, known⟩ post := by
  have hclaim : ∀ (order : ParkingSlot → ParkingSlot → Prop) [DecidableRel order] (db : Database)
      (choice : Choice) (now : ℤ), known.holds db → ∃ touched duty',
        Writes touched db (PrismaParkingSlotRepository.claim order db now choice.locked
          input.branchId input.slotType).2 ∧
        duty'.known.holds (PrismaParkingSlotRepository.claim order db now choice.locked
          input.branchId input.slotType).2 ∧
        (∀ b, none = some b → duty'.owed = some b) ∧
        (∀ b, touched = some b → duty'.owed = some b) ∧
        Careful first thread (f (PrismaParkingSlotRepository.claim order db now choice.locked
          input.branchId input.slotType).1) duty' post := by
    intro order _ db choice now hk
    rcases PrismaParkingSlotRepository.claim_cases order db now choice.locked input.branchId
      input.slotType with ⟨slot, hm, ha, he⟩ | he
    · have hbranch : slot.branchId = input.branchId := by
        simp only [PrismaParkingSlotRepository.available, Bool.and_eq_true, decide_eq_true_eq] at ha
        exact ha.1.1
      have hlocated : Located db slot.id input.branchId := hbranch ▸ located_of_mem hm
      have hw := writes_setSlotStatus hlocated .RESERVADA now
      rw [he]
      exact ⟨some input.branchId, ⟨some input.branchId, .located slot.id input.branchId⟩, hw,
        hw.located hlocated, owed_of_none, fun _ h => h, hsome _⟩
    · rw [he]
      exact ⟨none, ⟨none, known⟩, .refl db, hk, owed_of_none, owed_of_none, hnone⟩
  unfold claimSlot
  cases config.strategy with
  | default => exact careful_ask_bind rfl fun db choice now _ hk => hclaim _ db choice now hk
  | balanced => exact careful_ask_bind rfl fun db choice now _ hk => hclaim _ db choice now hk

end Calls

end SmartParking.Occupancy
