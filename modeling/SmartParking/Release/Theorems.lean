import SmartParking.Release

namespace SmartParking

open Async

variable {Tid : Type} [DecidableEq Tid] {db : Database} {errands : Tid → Errand} {thread : Tid}

abbrev releasing : Database → History Tid → (Tid → Errand) → Prop :=
  fun db _ errands => Releasing db errands

omit [DecidableEq Tid] in
theorem releasing_ignores_reads (guard : CallGuard Tid) : IgnoresReads guard releasing :=
  fun _ _ _ _ _ _ _ _ h _ => h

theorem update_errand (errand : Errand) :
    Sum.elim (heldSlot db) (Errand.slotId ∘ Function.update errands thread errand) =
      Function.update (Sum.elim (heldSlot db) (Errand.slotId ∘ errands)) (.inr thread)
        errand.slotId := by
  rw [Function.comp_update, Sum.update_elim_inr]

-- The errand of one execution moves, and the reservations keep their slots.
theorem current_update {db' : Database} (h : Releasing db errands)
    (hkept : ∀ reservation ∈ db.reservations, ∃ after ∈ db'.reservations,
      after.id = reservation.id ∧ after.slotId = reservation.slotId)
    {errand : Errand} (hseen : ∀ copy ∈ errand.seen, ∃ reservation ∈ db.reservations,
      reservation.id = copy.id ∧ reservation.slotId = copy.slotId) :
    ∀ other, ∀ copy ∈ (Function.update errands thread errand other).seen,
      ∃ reservation ∈ db'.reservations,
        reservation.id = copy.id ∧ reservation.slotId = copy.slotId := by
  intro other copy hc
  have hbefore : ∃ reservation ∈ db.reservations,
      reservation.id = copy.id ∧ reservation.slotId = copy.slotId := by
    by_cases ho : other = thread
    · subst other
      rw [Function.update_self] at hc
      exact hseen copy hc
    · rw [Function.update_of_ne ho] at hc
      exact h.current other copy hc
  obtain ⟨reservation, hm, hid, hslot⟩ := hbefore
  obtain ⟨after, ha, hid', hslot'⟩ := hkept reservation hm
  exact ⟨after, ha, hid'.trans hid, hslot'.trans hslot⟩

omit [DecidableEq Tid] in
theorem held_errand (slotId : Option Id) (ht : (errands thread).slotId = slotId) :
    (Sum.elim (heldSlot db) (Errand.slotId ∘ errands)) (.inr thread) = slotId := by
  rw [Sum.elim_inr, Function.comp_apply, ht]

theorem Releasing.read (h : Releasing db errands) (ht : (errands thread).slotId = none)
    {copies : List Reservation} (hc : ∀ copy ∈ copies, copy ∈ db.reservations) :
    Releasing db (Function.update errands thread ⟨none, copies⟩) where
  sound := by
    have hself := Function.update_eq_self (Sum.inr thread)
      (Sum.elim (heldSlot db) (Errand.slotId ∘ errands))
    rw [held_errand none ht] at hself
    rw [update_errand, hself]
    exact h.sound
  current := current_update h (fun reservation hm => ⟨reservation, hm, rfl, rfl⟩)
    fun copy hm => ⟨copy, hc copy hm, rfl, rfl⟩

theorem Releasing.claim (h : Releasing db errands) {slot : ParkingSlot}
    (hv : Vacant db slot.id) (now : ℤ) :
    Releasing (PrismaParkingSlotRepository.setStatus db slot.id .RESERVADA now)
      (Function.update errands thread ⟨some slot.id, (errands thread).seen⟩) where
  sound := by
    rw [update_errand, heldSlot_slots_setStatus]
    exact h.sound.acquire hv fun other => vacant_reserve
  current := current_update h (fun reservation hm => ⟨reservation, hm, rfl, rfl⟩)
    fun copy hm => h.current thread copy hm

-- The slot goes from the execution to the new reservation.
theorem Releasing.store (h : Releasing db errands) {row : Reservation}
    (ht : (errands thread).slotId = some row.slotId) (hs : row.status = .PENDING)
    {bigger : Table Reservation.id Reservation.id}
    (hb : db.reservations.insert row = some bigger) :
    Releasing { db with reservations := bigger }
      (Function.update errands thread ⟨none, (errands thread).seen⟩) where
  sound := by
    rw [heldSlot_insert hb hs, ← Sum.update_elim_inl, update_errand]
    exact h.sound.transfer (held_errand _ ht) fun _ hv => hv
  current := current_update h
    (fun reservation hm => ⟨reservation, (Table.mem_insert hb).mpr (.inl hm), rfl, rfl⟩)
    fun copy hm => h.current thread copy hm

-- The slot goes from the reservation that ends to the execution that ended it.
theorem Releasing.finish (h : Releasing db errands) {copy : Reservation}
    (hcopy : copy ∈ (errands thread).seen) {status : ReservationStatus} (hend : ¬status.Live)
    (hlive : ∃ reservation ∈ db.reservations, reservation.id = copy.id ∧
      reservation.status.Live) :
    Releasing (PrismaReservationRepository.setStatus db copy.id status none)
      (Function.update errands thread ⟨some copy.slotId, (errands thread).seen⟩) where
  sound := by
    obtain ⟨live, hm, hid, hl⟩ := hlive
    obtain ⟨reservation, hm', hid', hslot⟩ := h.current thread copy hcopy
    have hsame : live = reservation := Table.eq_of_key_eq hm hm' (hid.trans hid'.symm)
    have hheld : (Sum.elim (heldSlot db) (Errand.slotId ∘ errands)) (.inl copy.id) =
        some copy.slotId := by
      rw [Sum.elim_inl, ← hid, heldSlot_of_mem hm hl, hsame, hslot]
    rw [update_errand, heldSlot_reservations_setStatus, if_neg hend, ← Sum.update_elim_inl]
    exact h.sound.transfer hheld fun _ hv => hv
  current := current_update h (fun reservation hm => by
    refine ⟨_, Table.mem_modify.mpr ⟨reservation, hm, rfl⟩, ?_⟩
    split <;> exact ⟨rfl, rfl⟩) fun copy hm => h.current thread copy hm

theorem Releasing.release (h : Releasing db errands) {slotId : Id}
    (ht : (errands thread).slotId = some slotId) (now : ℤ) :
    Releasing (PrismaParkingSlotRepository.setStatus db slotId .DISPONIBLE now)
      (Function.update errands thread ⟨none, (errands thread).seen⟩) where
  sound := by
    rw [update_errand, heldSlot_slots_setStatus]
    exact h.sound.release (held_errand _ ht) fun other => vacant_release
  current := current_update h (fun reservation hm => ⟨reservation, hm, rfl, rfl⟩)
    fun copy hm => h.current thread copy hm

-- Each request is safe on its own.
section Requests

abbrev SafeRequest {α : Type} (thread : Tid) (p : Port α) (errand : Errand) : Prop :=
  SafeCall StillLive releasing thread p errand fun _ _ => True

theorem safe_request_reads {α : Type} {p : Port α} (hp : p.Uses Call.Reads) (errand : Errand) :
    SafeRequest thread p errand :=
  safe_mono (safe_reads (releasing_ignores_reads _) hp (Program.yields_true _))
    fun _ _ _ => trivial

theorem safe_request_bind {α β : Type} {p : Port α} {f : α → Port β} {errand : Errand}
    (hp : SafeRequest thread p errand) (hf : ∀ value errand', SafeRequest thread (f value) errand') :
    SafeRequest thread (p >>= f) errand :=
  safe_bind (fun _ _ => True) (safe_mono hp fun result _ _ => by cases result <;> trivial)
    fun value errand' _ => hf value errand'

-- The end of a reservation that was read before, and the release of its slot.
theorem safe_end {α : Type} {copy : Reservation} {seen : List Reservation} (hc : copy ∈ seen)
    {status : ReservationStatus} (hend : ¬status.Live) {f : Unit → Port α}
    (hf : SafeRequest thread (f ()) ⟨none, seen⟩) :
    SafeRequest thread (reservations.updateStatus copy.id status none >>= fun _ =>
      DefaultParkingPolicy.releaseSlot copy.slotId >>= f) ⟨none, seen⟩ := by
  refine safe_reservationsUpdateStatus_bind fun db _ errands _ _ _ ht h hlive => ?_
  refine ⟨⟨some copy.slotId, seen⟩, ?_, ?_, fun _ => trivial⟩
  · have hcopy : copy ∈ (errands thread).seen := by rw [ht]; exact hc
    have hfinish := h.finish hcopy hend hlive
    rwa [ht] at hfinish
  refine safe_slotsUpdateStatus_bind fun db _ errands _ now _ _ ht h _ => ?_
  refine ⟨⟨none, seen⟩, ?_, hf, fun _ => trivial⟩
  have hrelease := h.release (by rw [ht]) now
  rwa [ht] at hrelease

theorem safe_create_request (config : Config) (input : CreateReservationInput) :
    SafeRequest thread (CreateReservationUseCase.execute config input) ⟨none, []⟩ := by
  refine safe_create (releasing_ignores_reads _) (fun _ => trivial)
    (safe_reserve (releasing_ignores_reads _) (fun slot errand =>
      errand = ⟨some slot.id, []⟩) (fun _ _ => trivial) (fun _ _ _ _ _ h _ _ _ => h) ?_ ?_)
  · intro db _ errands _ now slot ht h hm ha _ _ _
    refine ⟨⟨some slot.id, []⟩, ?_, rfl⟩
    have hclaim : Releasing _ (Function.update errands thread _) :=
      h.claim (vacant_of_available hm ha) now
    rwa [ht] at hclaim
  · rintro slot errand rfl
    refine safe_store (releasing_ignores_reads _) ?_
    intro db _ errands _ start now _ bigger ht h _ hb
    refine ⟨⟨none, []⟩, ?_, trivial⟩
    have hstore : Releasing _ (Function.update errands thread _) :=
      h.store (by rw [ht]; rfl) rfl hb
    rwa [ht] at hstore

theorem safe_cancel_request (input : CancelReservationInput) :
    SafeRequest thread (CancelReservationUseCase.execute input) ⟨none, []⟩ := by
  refine safe_ask_bind fun db _ errands choice now _ ht h _ => ?_
  change ∃ errand, Releasing db (Function.update errands thread errand) ∧ _
  let found := PrismaReservationRepository.findById db input.reservationId
  refine ⟨⟨none, found.toList⟩, h.read (by rw [ht]) fun copy hc => ?_, ?_⟩
  · exact (Table.lookup_eq_some.mp (Option.mem_toList.mp hc)).1
  rw [query]
  dsimp only [Onward]
  cases hfound : found.filter fun reservation => reservation.userId = input.userId with
  | none => trivial
  | some reservation =>
      have hseen : reservation ∈ found.toList :=
        Option.mem_toList.mpr (Option.filter_eq_some_iff.mp hfound).1
      dsimp only
      split
      · trivial
      · refine safe_end hseen (by decide) ?_
        refine safe_request_bind (safe_request_reads ?_ _) fun _ _ =>
          safe_request_reads (notifyAll_reads _) _
        refine Program.uses_bind (uses_ask.mpr trivial) fun eventId => ?_
        exact Program.uses_bind (uses_ask.mpr trivial) fun occurredAt => uses_ask.mpr trivial

theorem safe_sweep (time : ℤ) (seen candidates : List Reservation) (hc : candidates ⊆ seen)
    (count : ℕ) : SafeRequest thread
      (ExpireOverdueReservationsUseCase.sweep time candidates count) ⟨none, seen⟩ := by
  induction candidates generalizing count with
  | nil => trivial
  | cons reservation rest ih =>
      have hrest : rest ⊆ seen := fun other ho => hc (List.mem_cons_of_mem _ ho)
      unfold ExpireOverdueReservationsUseCase.sweep ExpireOverdueReservationsUseCase.expire
      split
      · exact ih hrest count
      · simp only [bind_assoc]
        refine safe_end (hc List.mem_cons_self) (by decide) ?_
        exact safe_reads_bind (releasing_ignores_reads _) (notifyAll_reads _)
          (Program.yields_true _) (fun _ _ => trivial) fun _ _ => ih hrest (count + 1)

theorem safe_expire_request :
    SafeRequest thread ExpireOverdueReservationsUseCase.execute ⟨none, []⟩ := by
  refine safe_reads_bind (releasing_ignores_reads _) (uses_ask.mpr (by trivial))
    (Program.yields_true _) (fun _ _ => trivial) fun time _ => ?_
  refine safe_ask_bind fun db _ errands choice now _ ht h _ => ?_
  refine ⟨⟨none, PrismaReservationRepository.findExpiredPending db time⟩, ?_, ?_⟩
  · exact h.read (by rw [ht]) fun copy hc => (List.mem_filter.mp hc).1
  · exact safe_sweep time _ _ (List.Subset.refl _) 0

theorem safe_operation (config : Config) (operation : ReservationOperation) :
    SafeRequest thread (operation.toOperation.execute config) ⟨none, []⟩ := by
  cases operation with
  | CreateReservation input =>
      exact safe_request_bind (safe_create_request config input) fun _ _ => trivial
  | CancelReservation input =>
      exact safe_request_bind (safe_cancel_request input) fun _ _ => trivial
  | ExpireOverdueReservations =>
      exact safe_request_bind safe_expire_request fun _ _ => trivial

end Requests

omit [DecidableEq Tid] in
theorem releasing_start (world : World) (hdistinct : DistinctSlots world.db)
    (hvacant : ∀ reservation ∈ world.db.reservations, reservation.status.Live →
      ¬Vacant world.db reservation.slotId) :
    Releasing world.db fun _ : Tid => ⟨none, []⟩ where
  sound := by
    have hheld : ∀ holder slotId,
        Sum.elim (heldSlot world.db) (Errand.slotId ∘ fun _ : Tid => ⟨none, []⟩) holder =
          some slotId → ∃ id, holder = .inl id ∧ heldSlot world.db id = some slotId := by
      intro holder slotId hs
      cases holder with
      | inl id => exact ⟨id, rfl, hs⟩
      | inr thread => cases hs
    constructor
    · intro a b slotId ha hb
      obtain ⟨id, rfl, hid⟩ := hheld a slotId ha
      obtain ⟨id', rfl, hid'⟩ := hheld b slotId hb
      obtain ⟨reservation, hm, rfl, hl, hs⟩ := heldSlot_eq_some.mp hid
      obtain ⟨other, ho, rfl, hl', hs'⟩ := heldSlot_eq_some.mp hid'
      rw [hdistinct reservation hm other ho hl hl' (hs.trans hs'.symm)]
    · intro slotId hv holder hs
      obtain ⟨id, rfl, hid⟩ := hheld holder slotId hs
      obtain ⟨reservation, hm, rfl, hl, rfl⟩ := heldSlot_eq_some.mp hid
      exact hvacant reservation hm hl hv
  current _ copy hc := absurd hc List.not_mem_nil

theorem releasing_of_reaches {config : Config} {world : World}
    {operations : Tid → ReservationOperation} {pool : Requests Tid}
    (hstart : Releasing world.db fun _ : Tid => ⟨none, []⟩)
    (hreach : Pool.Reaches serve StillLive
      (Requests.start config world fun thread => (operations thread).toOperation) pool) :
    ∃ errands : Tid → Errand, Releasing pool.world.db errands := by
  obtain ⟨errands, h, -⟩ := hreach.invariant (onWorld releasing) (fun _ _ _ => True) hstart
    fun thread => safe_operation config (operations thread)
  exact ⟨errands, h⟩

-- A release never frees the slot of another live reservation, as long as each
-- status is written over a reservation that is still live.
theorem release_safe (config : Config) (world : World) (operations : Tid → ReservationOperation)
    (hdistinct : DistinctSlots world.db)
    (hvacant : ∀ reservation ∈ world.db.reservations, reservation.status.Live →
      ¬Vacant world.db reservation.slotId)
    (schedule : List (Tid × Choice))
    (hlive : (Requests.start config world fun thread => (operations thread).toOperation).Follows
      serve StillLive schedule) :
    ReleaseSafe ((Requests.start config world fun thread =>
      (operations thread).toOperation).play serve schedule) := by
  have hstart : Releasing world.db fun _ : Tid => ⟨none, []⟩ :=
    releasing_start world hdistinct hvacant
  have hreach := Pool.reaches_of_follows .refl hlive
  generalize (Requests.start config world fun thread =>
    (operations thread).toOperation).play serve schedule = pool at *
  intro thread slotId hcall slot hm hid reservation hr hl hslot
  obtain ⟨next, hawait⟩ := Program.exists_of_awaited hcall
  -- after the release the slot would be vacant and held at once
  have hmeets : pool.Meets StillLive thread (Demo.choice "") := by
    unfold Pool.Meets
    rw [hawait]
    trivial
  obtain ⟨errands, h⟩ := releasing_of_reaches hstart (hreach.step thread (Demo.choice "") hmeets)
  rw [db_step hawait, query_slotsUpdateStatus] at h
  have hv : ∀ now, Vacant (PrismaParkingSlotRepository.setStatus pool.world.db slotId .DISPONIBLE
      now) slotId := by
    intro now
    have hst : slotStatus pool.world.db slotId = some slot.status := by
      rw [← hid, slotStatus, Table.lookup_key hm, Option.map_some]
    rw [Vacant, slotStatus_slots_setStatus, if_pos rfl, hst, Option.map_some]
  refine absurd ?_ (h.sound.unheld slotId (hv _) (.inl reservation.id))
  rw [Sum.elim_inl, heldSlot_slots_setStatus, heldSlot_of_mem hr hl, hslot]

-- The sweep expires `r1` while the owner of `r2` cancels, step by step in turns. Then
-- another user reserves the slot of `r1`, and the owner is about to release that of `r2`.
def inTurns : ℕ → ReservationOperation
  | 0 => .ExpireOverdueReservations
  | 1 => .CancelReservation ⟨"r2", "u2"⟩
  | _ => .CreateReservation (Demo.request "u3")

def Demo.turns : List (ℕ × Choice) :=
  [0, 1, 0, 1, 0, 0, 2, 2, 2, 2, 2].map fun thread => (thread, choice "r3")

theorem release_safe_inTurns :
    let pool := (Requests.start Demo.config ⟨Demo.twoReserved, 100⟩ fun thread =>
      (inTurns thread).toOperation).play serve Demo.turns
    (pool.threads 1).awaited = some (.slotsUpdateStatus "s2" .DISPONIBLE) ∧
      (∃ reservation ∈ pool.world.db.reservations,
        reservation.id = "r3" ∧ reservation.status.Live ∧ reservation.slotId = "s1") ∧
      ReleaseSafe pool :=
  ⟨by decide +kernel, by decide +kernel,
    release_safe Demo.config ⟨Demo.twoReserved, 100⟩ inTurns (by decide) (by decide) Demo.turns
      (by decide +kernel)⟩

-- The sweep, the owner who cancels, and another user who reserves.
def racing : ℕ → ReservationOperation
  | 0 => .ExpireOverdueReservations
  | 1 => .CancelReservation ⟨"r1", "u1"⟩
  | _ => .CreateReservation (Demo.request "u2")

-- The owner reads, the sweep expires and releases, another user reserves the
-- slot, and the owner's cancellation releases it again.
theorem release_unsafe : ¬∀ (config : Config) (world : World)
    (operations : ℕ → ReservationOperation), DistinctSlots world.db →
    ∀ schedule : List (ℕ × Choice), ReleaseSafe ((Requests.start config world fun thread =>
      (operations thread).toOperation).play serve schedule) := by
  intro h
  let schedule : List (ℕ × Choice) := [1, 0, 0, 0, 0, 2, 2, 2, 2, 2, 1].map fun thread =>
    (thread, Demo.choice "r2")
  let pool := (Requests.start Demo.config ⟨Demo.reserved, 100⟩ fun thread =>
    (racing thread).toOperation).play serve schedule
  have hsafe : ReleaseSafe pool := h Demo.config ⟨Demo.reserved, 100⟩ racing (by decide) schedule
  have hcall : (pool.threads 1).awaited = some (.slotsUpdateStatus "s1" .DISPONIBLE) := by
    decide +kernel
  have hother : ∃ reservation ∈ pool.world.db.reservations, reservation.status.Live ∧
      reservation.slotId = "s1" ∧ onBehalfOf pool.history 1 ≠ some reservation.id := by
    decide +kernel
  have hexists : ∃ slot ∈ pool.world.db.slots, slot.id = "s1" := by
    decide +kernel
  obtain ⟨reservation, hm, hlive, hslot, hne⟩ := hother
  obtain ⟨slot, hs, hid⟩ := hexists
  exact hne (hsafe 1 "s1" hcall slot hs hid reservation hm hlive hslot)

end SmartParking
