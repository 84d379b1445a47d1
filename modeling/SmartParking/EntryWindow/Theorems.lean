import SmartParking.EntryWindow
import SmartParking.Reentry.Theorems

namespace SmartParking

open Async

variable {db before after : Database} {reservation : Reservation} {candidates : List Reservation}
  {now : ℤ}

-- What the sweep does to the rows of its candidates, by their ids.
structure Clears (candidates : List Reservation) (before after : Database) : Prop where
  expired : ∀ reservation ∈ candidates, after.reservations.lookup reservation.id =
    (before.reservations.lookup reservation.id).map (PrismaReservationRepository.withStatus .EXPIRED none)
  released : ∀ reservation ∈ candidates, ∃ updatedAt, after.slots.lookup reservation.slotId =
    (before.slots.lookup reservation.slotId).map
      (PrismaParkingSlotRepository.withStatus .DISPONIBLE updatedAt)
  reservations : ∀ id, (∀ reservation ∈ candidates, reservation.id ≠ id) →
    after.reservations.lookup id = before.reservations.lookup id
  slots : ∀ id, (∀ reservation ∈ candidates, reservation.slotId ≠ id) →
    after.slots.lookup id = before.slots.lookup id
  sessions : after.sessions = before.sessions
  branches : after.branches = before.branches

namespace Clears

theorem refl (db : Database) : Clears [] db db where
  expired _ hm := absurd hm List.not_mem_nil
  released _ hm := absurd hm List.not_mem_nil
  reservations _ _ := rfl
  slots _ _ := rfl
  sessions := rfl
  branches := rfl

-- One candidate, and the rest. A second write of a row gives it the same status.
theorem cons (h : Clears candidates (PrismaParkingSlotRepository.setStatus
      (PrismaReservationRepository.setStatus before reservation.id .EXPIRED none)
        reservation.slotId .DISPONIBLE now) after) :
    Clears (reservation :: candidates) before after where
  expired other ho := by
    have hlookup := lookup_reservations_setStatus before reservation.id other.id .EXPIRED none
    by_cases hrest : ∃ later ∈ candidates, later.id = other.id
    · obtain ⟨later, hm, hid⟩ := hrest
      rw [← hid, h.expired later hm, hid]
      refine (congrArg (Option.map _) hlookup).trans ?_
      split
      · rename_i he
        rw [Option.map_map, he]
        rfl
      · rfl
    · have hne : ∀ later ∈ candidates, later.id ≠ other.id :=
        fun later hm hid => hrest ⟨later, hm, hid⟩
      obtain rfl := (List.mem_cons.mp ho).resolve_right fun hm => hrest ⟨other, hm, rfl⟩
      exact (h.reservations other.id hne).trans (hlookup.trans (if_pos rfl))
  released other ho := by
    have hlookup := lookup_slots_setStatus (PrismaReservationRepository.setStatus before
      reservation.id .EXPIRED none) reservation.slotId other.slotId .DISPONIBLE now
    by_cases hrest : ∃ later ∈ candidates, later.slotId = other.slotId
    · obtain ⟨later, hm, hslot⟩ := hrest
      obtain ⟨updatedAt, hreleased⟩ := h.released later hm
      refine ⟨updatedAt, ?_⟩
      rw [← hslot, hreleased, hslot, hlookup]
      split
      · rename_i he
        rw [Option.map_map, he]
        rfl
      · rfl
    · have hne : ∀ later ∈ candidates, later.slotId ≠ other.slotId :=
        fun later hm hslot => hrest ⟨later, hm, hslot⟩
      obtain rfl := (List.mem_cons.mp ho).resolve_right fun hm => hrest ⟨other, hm, rfl⟩
      exact ⟨now, (h.slots other.slotId hne).trans (hlookup.trans (if_pos rfl))⟩
  reservations id hne := by
    obtain ⟨hhead, hrest⟩ := List.forall_mem_cons.mp hne
    refine (h.reservations id hrest).trans ?_
    exact (lookup_reservations_setStatus before ..).trans (if_neg (Ne.symm hhead))
  slots id hne := by
    obtain ⟨hhead, hrest⟩ := List.forall_mem_cons.mp hne
    exact (h.slots id hrest).trans ((lookup_slots_setStatus ..).trans (if_neg (Ne.symm hhead)))
  sessions := h.sessions
  branches := h.branches

end Clears

-- A sweep of due reservations whose rows are there ends, and counts them.
theorem wp_clears (time : ℤ) (hcandidates : ∀ reservation ∈ candidates,
      (reservation.status = .PENDING ∧ reservation.expiresAt < time) ∧
        (db.reservations.lookup reservation.id).isSome ∧
          (db.slots.lookup reservation.slotId).isSome) (count : ℕ) :
    (ExpireOverdueReservationsUseCase.sweep time candidates count).wp serve ⟨db, now⟩
      fun result world' => result = .ok (count + candidates.length) ∧
        Clears candidates db world'.db := by
  induction candidates generalizing db count now with
  | nil => exact ⟨rfl, .refl db⟩
  | cons reservation rest ih =>
      obtain ⟨⟨hpending, hlate⟩, hr, hs⟩ := hcandidates reservation List.mem_cons_self
      have hexpired : DefaultReservationPolicy.isExpired reservation time = true := by
        simp [DefaultReservationPolicy.isExpired, Reservation.isPending, hpending, hlate]
      unfold ExpireOverdueReservationsUseCase.sweep ExpireOverdueReservationsUseCase.expire
        DefaultParkingPolicy.releaseSlot
      simp only [hexpired, Bool.not_true, Bool.false_eq_true, if_false, bind_assoc]
      refine wp_reservationsUpdateStatus_bind hr fun _ _ => wp_slotsUpdateStatus_bind hs
        fun _ _ => wp_notifyAll_bind _ fun _ _ => ?_
      refine Program.wp_mono (ih (fun other ho => ?_) (count + 1)) fun result world' hclears => ?_
      · obtain ⟨hdue, hr', hs'⟩ := hcandidates other (List.mem_cons_of_mem _ ho)
        refine ⟨hdue, (isSome_reservations_setStatus ..).trans hr', ?_⟩
        exact (isSome_slots_setStatus ..).trans hs'
      · refine ⟨hclears.1.trans (congrArg Except.ok ?_), hclears.2.cons⟩
        rw [List.length_cons]
        omega

-- What sweeps do: some reservations are EXPIRED afterwards, and the others and
-- all sessions are as they were.
section Expires

structure Expires (expired : Id → Prop) (before after : Database) : Prop where
  housed : Housed after
  sessions : after.sessions = before.sessions
  kept : ∀ id, ¬expired id → after.reservations.lookup id = before.reservations.lookup id
  closed : ∀ id, expired id → ∃ row, after.reservations.lookup id = some row ∧ row.status = .EXPIRED

-- The sweep moves no slot and no reservation to another branch.
theorem Clears.located (h : Clears candidates before after) {slotId branchId : Id}
    (hslot : Located before slotId branchId) : Located after slotId branchId := by
  unfold Located at *
  by_cases hc : ∃ reservation ∈ candidates, reservation.slotId = slotId
  · obtain ⟨reservation, hm, rfl⟩ := hc
    obtain ⟨updatedAt, hreleased⟩ := h.released reservation hm
    rwa [hreleased, Option.map_map]
  · rwa [h.slots slotId fun reservation hm hid => hc ⟨reservation, hm, hid⟩]

theorem Clears.housed (h : Clears candidates before after) (hhoused : Housed before) :
    Housed after := by
  intro row hr
  have hlookup := Table.lookup_key hr
  by_cases hc : ∃ reservation ∈ candidates, reservation.id = row.id
  · obtain ⟨reservation, hm, hid⟩ := hc
    rw [← hid, h.expired reservation hm] at hlookup
    obtain ⟨old, hold, rfl⟩ := Option.map_eq_some_iff.mp hlookup
    exact h.located (hhoused old (Table.lookup_eq_some.mp hold).1)
  · rw [h.reservations row.id fun reservation hm hid => hc ⟨reservation, hm, hid⟩] at hlookup
    exact h.located (hhoused row (Table.lookup_eq_some.mp hlookup).1)

theorem Clears.expires (h : Clears candidates before after) (hhoused : Housed before)
    (hfound : ∀ reservation ∈ candidates, (before.reservations.lookup reservation.id).isSome) :
    Expires (fun id => ∃ reservation ∈ candidates, reservation.id = id) before after where
  housed := h.housed hhoused
  sessions := h.sessions
  kept id hne := h.reservations id fun reservation hm hid => hne ⟨reservation, hm, hid⟩
  closed := by
    rintro _ ⟨reservation, hm, rfl⟩
    obtain ⟨row, hl⟩ := Option.isSome_iff_exists.mp (hfound reservation hm)
    exact ⟨PrismaReservationRepository.withStatus .EXPIRED none row, by
      rw [h.expired reservation hm, hl, Option.map_some], rfl⟩

-- The reservations that a sweep at the time ends.
def Overdue (db : Database) (time : ℤ) (id : Id) : Prop :=
  ∃ reservation ∈ PrismaReservationRepository.findExpiredPending db time, reservation.id = id

theorem overdue_iff (hr : reservation ∈ db.reservations) (time : ℤ) :
    Overdue db time reservation.id ↔
      reservation.status = .PENDING ∧ reservation.expiresAt < time := by
  constructor
  · rintro ⟨other, ho, hid⟩
    obtain ⟨hm, hlate⟩ := List.mem_filter.mp ho
    obtain rfl := Table.eq_of_key_eq hm hr hid
    exact of_decide_eq_true hlate
  · exact fun hlate => ⟨reservation, List.mem_filter.mpr ⟨hr, decide_eq_true hlate⟩, rfl⟩

theorem expires_play (h : Housed db) (sweep : Sweep) :
    Expires (Overdue db sweep.time) db (sweep.play db) := by
  have hwp : ∀ later, (ExpireOverdueReservationsUseCase.sweep sweep.time
      (PrismaReservationRepository.findExpiredPending db sweep.time) 0).wp serve ⟨db, later⟩
        fun _ world' => Expires (Overdue db sweep.time) db world'.db := by
    intro later
    have hcandidates : ∀ reservation ∈ PrismaReservationRepository.findExpiredPending db sweep.time,
        reservation ∈ db.reservations ∧
          reservation.status = .PENDING ∧ reservation.expiresAt < sweep.time :=
      fun reservation hc => ⟨(List.mem_filter.mp hc).1, of_decide_eq_true (List.mem_filter.mp hc).2⟩
    refine Program.wp_mono (wp_clears sweep.time (fun reservation hc => ?_) 0)
      fun _ world' hclears => hclears.2.expires h fun reservation hc => ?_
    · obtain ⟨hr, hdue⟩ := hcandidates reservation hc
      exact ⟨hdue, isSome_lookup_of_mem hr, (h reservation hr).isSome⟩
    · exact isSome_lookup_of_mem (hcandidates reservation hc).1
  exact Program.run_of_wp (hwp (sweep.time + (sweep.choices 1).elapsed))
    fun n => sweep.choices (n + 2)

-- The reservation is as it was, or its window has passed and it is EXPIRED.
structure Visited (reservation : Reservation) (before : Database) (now : ℤ) (after : Database) :
    Prop where
  housed : Housed after
  sessions : after.sessions = before.sessions
  reservation : reservation ∈ after.reservations ∨ (reservation.expiresAt < now ∧
    reservation.status = .PENDING ∧ ∃ row ∈ after.reservations, row.id = reservation.id ∧
      row.status = .EXPIRED)

theorem Visited.sweep {after : Database} (h : Visited reservation db now after) {sweep : Sweep}
    (hlate : sweep.time ≤ now) : Visited reservation db now (sweep.play after) := by
  have hexpires := expires_play h.housed sweep
  refine ⟨hexpires.housed, hexpires.sessions.trans h.sessions, ?_⟩
  rcases h.reservation with hr | ⟨hexpired, hs, row, hrow, hid, hrowStatus⟩
  · by_cases hover : Overdue after sweep.time reservation.id
    · obtain ⟨hs, hexpired⟩ := (overdue_iff hr _).mp hover
      obtain ⟨row, hl, hrow⟩ := hexpires.closed _ hover
      obtain ⟨hm, hid⟩ := Table.lookup_eq_some.mp hl
      exact .inr ⟨hexpired.trans_le hlate, hs, row, hm, hid, hrow⟩
    · have hl := (hexpires.kept _ hover).trans (Table.lookup_key hr)
      exact .inl (Table.lookup_eq_some.mp hl).1
  · refine .inr ⟨hexpired, hs, row, ?_, hid, hrowStatus⟩
    have hover : ¬Overdue after sweep.time row.id := by
      rw [overdue_iff hrow, hrowStatus]
      exact fun h => by cases h.1
    have hl := (hexpires.kept _ hover).trans (Table.lookup_key hrow)
    exact (Table.lookup_eq_some.mp hl).1

theorem Visited.sweeps {after : Database} (h : Visited reservation db now after)
    {sweeps : List Sweep} (hlate : ∀ sweep ∈ sweeps, sweep.time ≤ now) :
    Visited reservation db now (Sweep.playAll after sweeps) := by
  induction sweeps generalizing after with
  | nil => exact h
  | cons sweep rest ih =>
      refine ih (h.sweep (hlate sweep List.mem_cons_self)) fun other ho => ?_
      exact hlate other (List.mem_cons_of_mem _ ho)

end Expires

theorem accepts_iff (h : Housed db) (id : Id) (choices : ℕ → Choice) (clock : ℤ) :
    Accepts db id now choices clock ↔ Admissible db id now := by
  have hanswers := Program.run_of_wp (wp_registerEntry h id now :
    (DefaultParkingPolicy.registerEntry id now).wp serve ⟨db, clock⟩ _) choices
  unfold Accepts
  generalize (DefaultParkingPolicy.registerEntry id now).run serve choices ⟨db, clock⟩ = after at *
  obtain ⟨result, world⟩ := after
  cases hanswers with
  | entered hopen hentered => exact iff_of_true ⟨_, rfl⟩ hopen
  | refused hopen hspent => exact iff_of_false (fun ⟨_, he⟩ => by cases he) hopen
  | broken hspent =>
      refine iff_of_false (fun ⟨_, he⟩ => by cases he) ?_
      obtain ⟨reservation, hr, rfl, -, -, session, hm, hid, -⟩ := hspent
      exact fun hopen => ((admissible_iff hr).mp hopen).2.2 session hm hid

-- Sweeps change the decision only where it was to accept after the window.
theorem admissible_visited {after : Database} (hr : reservation ∈ db.reservations)
    (h : Visited reservation db now after) (hlapsed : ¬Lapsed db reservation now) :
    Admissible after reservation.id now ↔ Admissible db reservation.id now := by
  rcases h.reservation with hr' | ⟨hexpired, hs, row, hrow, hid, hrowStatus⟩
  · rw [admissible_iff hr, admissible_iff hr', h.sessions]
  · refine iff_of_false (fun hopen => ?_) fun hopen => ?_
    · rw [← hid, admissible_iff hrow, hrowStatus] at hopen
      exact absurd hopen.1 (by decide)
    · obtain ⟨-, hstart, hfree⟩ := (admissible_iff hr).mp hopen
      exact hlapsed ⟨hs, hstart, hexpired, hfree⟩

theorem punctual_iff_of_housed (h : Housed db) (hr : reservation ∈ db.reservations) :
    Punctual db reservation now ↔ ¬Lapsed db reservation now := by
  constructor
  · rintro hpunctual ⟨hs, hstart, hexpired, hfree⟩
    refine hpunctual.overdue hs hexpired (fun _ => Demo.choice "") 0 ?_
    exact (accepts_iff h ..).mpr ((admissible_iff hr).mpr ⟨.inl hs, hstart, hfree⟩)
  · intro hlapsed
    refine ⟨fun sweeps hsweeps choices clock choices' clock' => ?_, fun hs hexpired choices clock => ?_,
      fun hs hstart _ hfree choices clock => ?_⟩
    · have hvisited : Visited reservation db now (Sweep.playAll db sweeps) :=
        Visited.sweeps ⟨h, rfl, .inl hr⟩ fun sweep hm => (hsweeps sweep hm).2
      rw [accepts_iff hvisited.housed, accepts_iff h]
      exact admissible_visited hr hvisited hlapsed
    · rw [accepts_iff h, admissible_iff hr]
      exact fun ⟨_, hstart, hfree⟩ => hlapsed ⟨hs, hstart, hexpired, hfree⟩
    · exact (accepts_iff h ..).mpr ((admissible_iff hr).mpr ⟨.inl hs, hstart, hfree⟩)

section Runs

variable {config : Config} {world : World}

theorem housed_turns (h : Housed world.db) (turns : List Turn) :
    Housed (playAll config world turns).db := by
  induction turns generalizing world with
  | nil => exact h
  | cons turn rest ih => exact ih (housed_execute h turn.operation turn.choices)

end Runs

-- In every state that requests leave, the entry of a reservation is decided by its
-- window, unless the window has passed unnoticed.
theorem punctual_iff (config : Config) (branches : Table Branch.id Branch.id)
    (slots : Table ParkingSlot.id fun slot => (slot.branchId, slot.code)) (clock : ℤ)
    (turns : List Turn) (reservation : Reservation)
    (hr : reservation ∈ (playAll config ⟨.opening branches slots, clock⟩ turns).db.reservations)
    (now : ℤ) :
    let db := (playAll config ⟨.opening branches slots, clock⟩ turns).db
    Punctual db reservation now ↔ ¬Lapsed db reservation now :=
  punctual_iff_of_housed (housed_turns (housed_opening branches slots) turns) hr

-- A reservation of twenty minutes from the time 4 on, which nobody enters.
def Demo.booked : List Turn := [⟨.CreateReservation (request "u1"), fun _ => choice "r1"⟩]

def Demo.unattended : Reservation where
  id := "r1"
  userId := "u1"
  branchId := "b1"
  slotId := "s1"
  requestedType := .REGULAR
  status := .PENDING
  createdAt := 5
  startAt := 4
  expiresAt := 1200004
  confirmedAt := none

theorem Demo.unattended_mem : unattended ∈
    (playAll config ⟨.opening branches slots, 0⟩ booked).db.reservations.rows := by
  decide +kernel

-- Within the window.
theorem punctual_booked :
    Punctual (playAll Demo.config ⟨.opening Demo.branches Demo.slots, 0⟩ Demo.booked).db
      Demo.unattended 1200004 := by
  refine (punctual_iff Demo.config Demo.branches Demo.slots 0 Demo.booked Demo.unattended
    Demo.unattended_mem 1200004).mpr ?_
  rintro ⟨-, -, hexpired, -⟩
  exact absurd hexpired (by decide)

-- A millisecond after the window.
theorem punctual_fails : ¬∀ (config : Config) (branches : Table Branch.id Branch.id)
    (slots : Table ParkingSlot.id fun slot => (slot.branchId, slot.code)) (clock : ℤ)
    (turns : List Turn) (reservation : Reservation),
    reservation ∈ (playAll config ⟨.opening branches slots, clock⟩ turns).db.reservations →
      ∀ now, Punctual (playAll config ⟨.opening branches slots, clock⟩ turns).db reservation now := by
  intro h
  refine (h Demo.config Demo.branches Demo.slots 0 Demo.booked Demo.unattended Demo.unattended_mem
    1200005).overdue rfl (by decide) (fun _ => Demo.choice "x1") 0 ?_
  exact ⟨{
    id := "x1"
    reservationId := "r1"
    userId := "u1"
    slotId := "s1"
    status := .ACTIVE
    entryAt := 1200005
    exitAt := none }, by decide +kernel⟩

end SmartParking
