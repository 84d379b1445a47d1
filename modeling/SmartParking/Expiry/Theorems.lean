import SmartParking.Expiry
import SmartParking.EntryWindow.Theorems

namespace SmartParking

open Async

variable {db before after : Database} {reservation : Reservation} {now : ℤ}

theorem mem_candidates_iff : reservation ∈ PrismaReservationRepository.findExpiredPending db now ↔
    reservation ∈ db.reservations ∧ reservation.Due now := by
  rw [PrismaReservationRepository.findExpiredPending, List.mem_filter, decide_eq_true_eq]
  rfl

theorem Clears.expiresDue
    (h : Clears (PrismaReservationRepository.findExpiredPending before now) before after)
    (hslots : Slotted before) : ExpiresDue now before after where
  expired reservation hm hdue := by
    have hlookup := h.expired reservation (mem_candidates_iff.mpr ⟨hm, hdue⟩)
    rw [Table.lookup_key hm, Option.map_some] at hlookup
    exact (Table.lookup_eq_some.mp hlookup).1
  released reservation hm hdue := by
    obtain ⟨slot, hslot, hid⟩ := hslots reservation hm hdue.1
    obtain ⟨updatedAt, hlookup⟩ := h.released reservation (mem_candidates_iff.mpr ⟨hm, hdue⟩)
    rw [← hid, Table.lookup_key hslot, Option.map_some] at hlookup
    exact ⟨slot, hslot, hid, updatedAt, (Table.lookup_eq_some.mp hlookup).1⟩
  reservations id hne := h.reservations id fun reservation hc =>
    hne reservation (mem_candidates_iff.mp hc).1 (mem_candidates_iff.mp hc).2
  slots id hne := h.slots id fun reservation hc =>
    hne reservation (mem_candidates_iff.mp hc).1 (mem_candidates_iff.mp hc).2
  sessions := h.sessions
  branches := h.branches

-- Nothing is due any more.
theorem not_due_of_expiresDue (h : ExpiresDue now before after) {row : Reservation}
    (hr : row ∈ after.reservations) : ¬row.Due now := by
  intro hdue
  have hlookup := Table.lookup_key hr
  by_cases hone : ∃ reservation ∈ before.reservations, reservation.Due now ∧ reservation.id = row.id
  · obtain ⟨reservation, hm, hd, hid⟩ := hone
    have hexpired := h.expired reservation hm hd
    obtain rfl := Table.eq_of_key_eq hexpired hr hid
    cases hdue.1
  · have hne : ∀ reservation ∈ before.reservations, reservation.Due now → reservation.id ≠ row.id :=
      fun reservation hm hd hid => hone ⟨reservation, hm, hd, hid⟩
    rw [h.reservations row.id hne] at hlookup
    exact hone ⟨row, (Table.lookup_eq_some.mp hlookup).1, hdue, rfl⟩

theorem sweep_run (sweep : Sweep) (hslots : Slotted db) :
    (sweep.run db).1 = .ok (countDue sweep.time db) ∧ ExpiresDue sweep.time db (sweep.run db).2.db := by
  have hwp : ∀ later, (ExpireOverdueReservationsUseCase.sweep sweep.time
      (PrismaReservationRepository.findExpiredPending db sweep.time) 0).wp serve ⟨db, later⟩
        fun result world' => result = .ok (countDue sweep.time db) ∧
          ExpiresDue sweep.time db world'.db := by
    intro later
    refine Program.wp_mono (wp_clears sweep.time (fun reservation hc => ?_) 0)
      fun result world' hclears => ⟨?_, hclears.2.expiresDue hslots⟩
    · obtain ⟨hm, hdue⟩ := mem_candidates_iff.mp hc
      obtain ⟨slot, hslot, hid⟩ := hslots reservation hm hdue.1
      refine ⟨hdue, isSome_lookup_of_mem hm, ?_⟩
      rw [← hid, Table.lookup_key hslot]
      rfl
    · rw [hclears.1, Nat.zero_add]
      rfl
  exact Program.run_of_wp (hwp (sweep.time + (sweep.choices 1).elapsed))
    fun n => sweep.choices (n + 2)

-- Without a due reservation the sweep does nothing.
theorem sweep_run_idle (sweep : Sweep) (hnone : ∀ row ∈ db.reservations, ¬row.Due sweep.time) :
    (sweep.run db).1 = .ok 0 ∧ (sweep.run db).2.db = db := by
  have hempty : PrismaReservationRepository.findExpiredPending db sweep.time = [] :=
    List.eq_nil_iff_forall_not_mem.mpr fun reservation hc =>
      hnone reservation (mem_candidates_iff.mp hc).1 (mem_candidates_iff.mp hc).2
  have hwp : ∀ later, (ExpireOverdueReservationsUseCase.sweep sweep.time
      (PrismaReservationRepository.findExpiredPending db sweep.time) 0).wp serve ⟨db, later⟩
        fun result world' => result = .ok 0 ∧ world'.db = db := by
    intro later
    rw [hempty]
    exact ⟨rfl, rfl⟩
  exact Program.run_of_wp (hwp (sweep.time + (sweep.choices 1).elapsed))
    fun n => sweep.choices (n + 2)

-- The sweep expires the due reservations and no others, and a second one at the
-- same time finds nothing to do.
theorem expiry_exact (db : Database) (hslots : Slotted db) (sweep again : Sweep)
    (hsame : again.time = sweep.time) :
    (sweep.run db).1 = .ok (countDue sweep.time db) ∧
      ExpiresDue sweep.time db (sweep.run db).2.db ∧
      (again.run (sweep.run db).2.db).1 = .ok 0 ∧
      (again.run (sweep.run db).2.db).2.db = (sweep.run db).2.db := by
  obtain ⟨hcount, hexpires⟩ := sweep_run sweep hslots
  have hnone : ∀ row ∈ (sweep.run db).2.db.reservations, ¬row.Due again.time := by
    rw [hsame]
    exact fun row hr => not_due_of_expiresDue hexpires hr
  obtain ⟨hzero, hdb⟩ := sweep_run_idle again hnone
  exact ⟨hcount, hexpires, hzero, hdb⟩

-- A sweep a millisecond after the window of the reservation.
def Demo.sweep : Sweep := ⟨50, fun _ => choice "x1"⟩

theorem Demo.slotted_twoReserved : Slotted twoReserved := by
  intro reservation hm _
  rcases List.mem_pair.mp hm with rfl | rfl
  · exact ⟨{ slot with status := .RESERVADA }, List.mem_cons_self, rfl⟩
  · exact ⟨{ slot with id := "s2", code := "A2", status := .RESERVADA },
      List.mem_cons_of_mem _ List.mem_cons_self, rfl⟩

-- One of two reservations is due.
theorem expiry_exact_twoReserved :
    (Demo.sweep.run Demo.twoReserved).1 = .ok 1 ∧
      ExpiresDue 51 Demo.twoReserved (Demo.sweep.run Demo.twoReserved).2.db ∧
      (Demo.sweep.run (Demo.sweep.run Demo.twoReserved).2.db).1 = .ok 0 ∧
      (Demo.sweep.run (Demo.sweep.run Demo.twoReserved).2.db).2.db =
        (Demo.sweep.run Demo.twoReserved).2.db :=
  expiry_exact Demo.twoReserved Demo.slotted_twoReserved Demo.sweep Demo.sweep rfl

end SmartParking
