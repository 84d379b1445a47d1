import SmartParking.Backend.Effects
import SmartParking.Backend.Operations
import SmartParking.Wear

namespace SmartParking

variable {db : Database} {branchId : Id} {slot : ParkingSlot} {world : World} {event : SlotEvent}
  {events : List SlotEvent} {type : Option SlotType} {now : ℤ} {id : Id}

-- A claim returns a slot that was written the longest time ago.

theorem le_of_select {other : ParkingSlot}
    (h : PrismaParkingSlotRepository.select PrismaParkingSlotRepository.byUpdatedAt db
      (fun _ => false) branchId type = some slot)
    (hm : other ∈ db.slots)
    (ha : PrismaParkingSlotRepository.available branchId type other = true) :
    slot.updatedAt ≤ other.updatedAt := by
  have : Std.Total PrismaParkingSlotRepository.byUpdatedAt :=
    ⟨fun a b => le_total a.updatedAt b.updatedAt⟩
  have : IsTrans ParkingSlot PrismaParkingSlotRepository.byUpdatedAt := ⟨fun _ _ _ => le_trans⟩
  obtain ⟨rest, hsorted⟩ := List.head?_eq_some_iff.mp h
  have hpairwise := List.pairwise_insertionSort PrismaParkingSlotRepository.byUpdatedAt
    (db.slots.rows.filter fun slot =>
      PrismaParkingSlotRepository.available branchId type slot && !(fun _ => false) slot.id)
  have hother : other ∈ slot :: rest := by
    rw [← hsorted, List.mem_insertionSort, List.mem_filter, ha]
    exact ⟨hm, rfl⟩
  rw [hsorted] at hpairwise
  rcases List.mem_cons.mp hother with rfl | hrest
  · exact le_rfl
  · exact (List.pairwise_cons.mp hpairwise).1 other hrest

theorem available_iff : PrismaParkingSlotRepository.available branchId type slot = true ↔
    slot.branchId = branchId ∧ slot.status = .DISPONIBLE ∧
      PrismaParkingSlotRepository.ofType type slot = true := by
  simp only [PrismaParkingSlotRepository.available, Bool.and_eq_true, decide_eq_true_eq, and_assoc]

-- A slot of the branch that was last written before the one that waits.
def Older (db : Database) (slot : ParkingSlot) (id : Id) : Prop :=
  ∃ row ∈ db.slots, row.id = id ∧ row.branchId = slot.branchId ∧ row.updatedAt ≤ slot.updatedAt

theorem older_setStatus {written : Id} {status : SlotStatus} (hnow : slot.updatedAt < now)
    (h : Older (PrismaParkingSlotRepository.setStatus db written status now) slot id) :
    Older db slot id ∧ id ≠ written := by
  obtain ⟨row, hm, rfl, hbranch, hold⟩ := h
  rcases Table.mem_modify_cases hm with ⟨old, -, -, rfl⟩ | ⟨hrow, hne⟩
  · exact absurd hold (not_le.mpr hnow)
  · exact ⟨⟨row, hrow, rfl, hbranch, hold⟩, hne⟩

-- What an event does: it writes a slot, with a later stamp than all before.

def selected (db : Database) (branchId : Id) (type : Option SlotType) : Option ParkingSlot :=
  PrismaParkingSlotRepository.select PrismaParkingSlotRepository.byUpdatedAt db (fun _ => false)
    branchId type

theorem claim_eq (branchId : Id) (world : World) (elapsed : ℕ) (type : Option SlotType) :
    SlotEvent.claim branchId world elapsed type =
      match selected world.db branchId type with
      | some row => (some (PrismaParkingSlotRepository.withStatus .RESERVADA
          (world.clock + elapsed + 1) row),
        PrismaParkingSlotRepository.setStatus world.db row.id .RESERVADA (world.clock + elapsed + 1))
      | none => (none, world.db) := rfl

structure Rewrites (world : World) (written : Option Id) (world' : World) : Prop where
  later : world.clock < world'.clock
  stamped : ∀ id ∈ written, ∃ status,
    world'.db = PrismaParkingSlotRepository.setStatus world.db id status world'.clock
  kept : written = none → world'.db = world.db

theorem rewrites_claim (elapsed : ℕ) : Rewrites world ((selected world.db branchId type).map
    ParkingSlot.id) (SlotEvent.step branchId world (.claimLeastRecentlyUsedSlot elapsed type)) := by
  have hstep : SlotEvent.step branchId world (.claimLeastRecentlyUsedSlot elapsed type) =
      ⟨(SlotEvent.claim branchId world elapsed type).2, world.clock + elapsed + 1⟩ := rfl
  rw [hstep, claim_eq]
  cases selected world.db branchId type with
  | some row => exact ⟨by dsimp only; omega, fun id hid => ⟨.RESERVADA, by cases hid; rfl⟩, nofun⟩
  | none => exact ⟨by dsimp only; omega, nofun, fun _ => rfl⟩

theorem step_updateStatus (elapsed : ℕ) (slotId : Id) (status : SlotStatus) :
    SlotEvent.step branchId world (.updateStatus elapsed slotId status) =
      ⟨PrismaParkingSlotRepository.setStatus world.db slotId status (world.clock + elapsed + 1),
        world.clock + elapsed + 1⟩ := by
  simp only [SlotEvent.step, PrismaParkingSlotRepository.updateStatus]
  cases hfound : world.db.slots.lookup slotId with
  | some row => rfl
  | none => rw [slots_setStatus_of_none _ hfound]

theorem rewrites_updateStatus (elapsed : ℕ) (slotId : Id) (status : SlotStatus) :
    Rewrites world (some slotId) (SlotEvent.step branchId world
      (.updateStatus elapsed slotId status)) := by
  rw [step_updateStatus]
  exact ⟨by dsimp only; omega, fun id hid => ⟨status, by cases hid; rfl⟩, nofun⟩

-- A write to another slot leaves the one that waits where it was, and makes the
-- slot it writes a later one.

theorem Waits.write {world' : World} {written : Option Id} (h : Waits branchId slot world)
    (hrewrites : Rewrites world written world') (hne : written ≠ some slot.id) :
    Waits branchId slot world' := by
  cases written with
  | none =>
      have hdb := hrewrites.kept rfl
      refine ⟨hdb ▸ h.stored, h.branch, h.free, fun row hm => ?_⟩
      rw [hdb] at hm
      exact (h.past row hm).trans hrewrites.later.le
  | some id =>
      obtain ⟨status, hdb⟩ := hrewrites.stamped id rfl
      have hother : slot.id ≠ id := fun he => hne (congrArg some he.symm)
      refine ⟨?_, h.branch, h.free, fun row hm => ?_⟩
      · rw [hdb]
        exact (Table.mem_modify_of_ne hother).mpr h.stored
      · rw [hdb] at hm
        rcases Table.mem_modify_cases hm with ⟨old, -, -, rfl⟩ | ⟨hrow, -⟩
        · exact le_rfl
        · exact (h.past row hrow).trans hrewrites.later.le

theorem older_write {world' : World} {written : Option Id} (h : Waits branchId slot world)
    (hrewrites : Rewrites world written world') (holder : Older world'.db slot id) :
    Older world.db slot id ∧ written ≠ some id := by
  cases written with
  | none => exact ⟨hrewrites.kept rfl ▸ holder, nofun⟩
  | some other =>
      obtain ⟨status, hdb⟩ := hrewrites.stamped other rfl
      rw [hdb] at holder
      have hnow := (h.past slot h.stored).trans_lt hrewrites.later
      exact (older_setStatus hnow holder).imp_right fun hne he => hne (Option.some.inj he).symm

-- A claim that the waiting slot satisfies returns it, or an older one.
theorem Waits.selected (h : Waits branchId slot world)
    (htype : PrismaParkingSlotRepository.ofType type slot = true) :
    ∃ row, SmartParking.selected world.db branchId type = some row ∧ Older world.db slot row.id := by
  have ha : PrismaParkingSlotRepository.available branchId type slot = true :=
    available_iff.mpr ⟨h.branch, h.free, htype⟩
  cases hs : SmartParking.selected world.db branchId type with
  | some row =>
      obtain ⟨hm, hrow⟩ := PrismaParkingSlotRepository.select_eq_some hs
      refine ⟨row, rfl, row, hm, rfl, ?_, le_of_select hs h.stored ha⟩
      exact (available_iff.mp hrow).1.trans h.branch.symm
  | none =>
      have hempty := List.head?_eq_none_iff.mp hs
      have hm : slot ∈ world.db.slots.rows.filter fun row =>
          PrismaParkingSlotRepository.available branchId type row && !(fun _ => false) row.id :=
        List.mem_filter.mpr ⟨h.stored, by rw [ha]; rfl⟩
      rw [← List.mem_insertionSort PrismaParkingSlotRepository.byUpdatedAt, hempty] at hm
      exact absurd hm List.not_mem_nil

-- The claims of a run return older slots, each of them once.

theorem answers_cons : SlotEvent.answers branchId slot world (event :: events) =
    (event.answer branchId slot world).toList ++
      SlotEvent.answers branchId slot (event.step branchId world) events := rfl

-- The slot that an event writes.
def writtenBy (branchId : Id) (db : Database) : SlotEvent → Option Id
  | .claimLeastRecentlyUsedSlot _ type => (selected db branchId type).map ParkingSlot.id
  | .updateStatus _ slotId _ => some slotId

theorem rewrites_step (branchId : Id) (world : World) (event : SlotEvent) :
    Rewrites world (writtenBy branchId world.db event) (event.step branchId world) := by
  cases event with
  | claimLeastRecentlyUsedSlot elapsed type => exact rewrites_claim elapsed
  | updateStatus elapsed slotId status => exact rewrites_updateStatus elapsed slotId status

theorem Waits.answer (h : Waits branchId slot world) {returned : Option Id}
    (ha : event.answer branchId slot world = some returned) :
    returned = writtenBy branchId world.db event ∧
      ∃ id, returned = some id ∧ Older world.db slot id := by
  cases event with
  | updateStatus elapsed slotId status => cases ha
  | claimLeastRecentlyUsedSlot elapsed type =>
      obtain ⟨htype, hreturned⟩ := Option.ite_none_right_eq_some.mp ha
      obtain ⟨row, hs, holder⟩ := h.selected htype
      rw [claim_eq, hs] at hreturned
      obtain rfl := Option.some.inj hreturned
      exact ⟨by rw [writtenBy, hs]; rfl, row.id, rfl, holder⟩

-- A claim whose filter the slot does not satisfy does not write it.
theorem Waits.not_written (h : Waits branchId slot world)
    (hunwritten : ∀ elapsed status, event ≠ .updateStatus elapsed slot.id status)
    (hanswer : event.answer branchId slot world ≠ some (some slot.id)) :
    writtenBy branchId world.db event ≠ some slot.id := by
  cases event with
  | updateStatus elapsed slotId status =>
      rintro he
      cases he
      exact hunwritten elapsed status rfl
  | claimLeastRecentlyUsedSlot elapsed type =>
      intro he
      obtain ⟨row, hs, hid⟩ := Option.map_eq_some_iff.mp he
      obtain ⟨hm, ha⟩ := PrismaParkingSlotRepository.select_eq_some hs
      obtain rfl := Table.eq_of_key_eq hm h.stored hid
      refine hanswer ?_
      rw [SlotEvent.answer, if_pos (available_iff.mp ha).2.2, claim_eq, hs]
      rfl

theorem answers_spec (h : Waits branchId slot world)
    (hunwritten : ∀ elapsed status, .updateStatus elapsed slot.id status ∉ events)
    (hkept : some slot.id ∉ SlotEvent.answers branchId slot world events) :
    (SlotEvent.answers branchId slot world events).Nodup ∧
      ∀ returned ∈ SlotEvent.answers branchId slot world events,
        ∃ id, returned = some id ∧ Older world.db slot id := by
  induction events generalizing world with
  | nil => exact ⟨.nil, fun _ hm => absurd hm List.not_mem_nil⟩
  | cons event rest ih =>
      rw [answers_cons, List.mem_append, not_or] at hkept
      have hrewrites := rewrites_step branchId world event
      have hne : writtenBy branchId world.db event ≠ some slot.id := by
        refine h.not_written (fun elapsed status he => ?_) fun ha => hkept.1 ?_
        · exact hunwritten elapsed status (he ▸ List.mem_cons_self)
        · rw [ha]
          exact List.mem_singleton_self _
      obtain ⟨hnodup, hold⟩ := ih (h.write hrewrites hne)
        (fun elapsed status hm => hunwritten elapsed status (List.mem_cons_of_mem _ hm)) hkept.2
      rw [answers_cons]
      cases ha : event.answer branchId slot world with
      | none =>
          refine ⟨hnodup, fun returned hm => ?_⟩
          obtain ⟨id, rfl, holder⟩ := hold returned hm
          exact ⟨id, rfl, (older_write h hrewrites holder).1⟩
      | some first =>
          obtain ⟨hwritten, id, hid, holder⟩ := h.answer ha
          refine ⟨List.nodup_cons.mpr ⟨fun hm => ?_, hnodup⟩, fun returned hm => ?_⟩
          · obtain ⟨other, hother, hlater⟩ := hold first hm
            exact (older_write h hrewrites hlater).2 (hwritten.symm.trans hother)
          · rcases List.mem_cons.mp hm with rfl | hm
            · exact ⟨id, hid, holder⟩
            · obtain ⟨other, rfl, hlater⟩ := hold returned hm
              exact ⟨other, rfl, (older_write h hrewrites hlater).1⟩

-- There are fewer of them than slots in the branch.
theorem length_answers_lt (h : Waits branchId slot world)
    (hunwritten : ∀ elapsed status, .updateStatus elapsed slot.id status ∉ events)
    (hkept : some slot.id ∉ SlotEvent.answers branchId slot world events) :
    (SlotEvent.answers branchId slot world events).length <
      (slotsIn world.db branchId).length := by
  obtain ⟨hnodup, hold⟩ := answers_spec h hunwritten hkept
  have hsubset : SlotEvent.answers branchId slot world events ⊆
      ((slotsIn world.db branchId).filter fun row => row.id ≠ slot.id).map
        fun row => some row.id := by
    intro returned hm
    obtain ⟨id, rfl, row, hrow, rfl, hbranch, -⟩ := hold returned hm
    have hne : row.id ≠ slot.id := fun he => hkept (he ▸ hm)
    refine List.mem_map.mpr ⟨row, List.mem_filter.mpr ⟨List.mem_filter.mpr ⟨hrow, ?_⟩, ?_⟩, rfl⟩
    · exact decide_eq_true (hbranch.trans h.branch)
    · exact decide_eq_true hne
  have hle := (List.subperm_of_subset hnodup hsubset).length_le
  rw [List.length_map] at hle
  refine hle.trans_lt (List.length_filter_lt_length_iff_exists.mpr ⟨slot, ?_, ?_⟩)
  · exact List.mem_filter.mpr ⟨h.stored, decide_eq_true h.branch⟩
  · exact fun hne => of_decide_eq_true hne rfl

theorem exists_answers_take {n : ℕ}
    (hn : n ≤ (SlotEvent.answers branchId slot world events).length) :
    ∃ past, past <+: events ∧ SlotEvent.answers branchId slot world past =
      (SlotEvent.answers branchId slot world events).take n := by
  induction events generalizing world n with
  | nil => exact ⟨[], List.nil_prefix, by rw [Nat.le_zero.mp hn]; rfl⟩
  | cons event rest ih =>
      rw [answers_cons] at hn ⊢
      cases n with
      | zero => exact ⟨[], List.nil_prefix, rfl⟩
      | succ n =>
          cases ha : event.answer branchId slot world with
          | none =>
              rw [ha] at hn
              obtain ⟨past, hpast, htake⟩ := ih hn
              refine ⟨event :: past, List.cons_prefix_cons.mpr ⟨rfl, hpast⟩, ?_⟩
              rw [answers_cons, ha]
              exact htake
          | some returned =>
              rw [ha] at hn
              obtain ⟨past, hpast, htake⟩ := ih (Nat.le_of_succ_le_succ hn)
              refine ⟨event :: past, List.cons_prefix_cons.mpr ⟨rfl, hpast⟩, ?_⟩
              rw [answers_cons, ha]
              exact congrArg (returned :: ·) htake

-- The least recently used slot is the next one, before long.
theorem rotates (branchId : Id) (slot : ParkingSlot) (world : World) (events : List SlotEvent)
    (h : Waits branchId slot world)
    (hunwritten : ∀ elapsed status, .updateStatus elapsed slot.id status ∉ events) :
    Rotates branchId slot world events where
  once hkept other := List.nodup_iff_count_le_one.mp (answers_spec h hunwritten hkept).1 _
  served hlength := by
    by_contra hkept
    obtain ⟨past, hpast, htake⟩ := exists_answers_take hlength
    have hlt := length_answers_lt h
      (fun elapsed status hm => hunwritten elapsed status (hpast.subset hm)) (htake ▸ hkept)
    rw [htake, List.length_take_of_le hlength] at hlt
    exact lt_irrefl _ hlt

theorem rotates_twoSlots : Rotates "b1" Demo.slot
    ⟨Database.opening Demo.branches Demo.twoSlots, 0⟩ [.claimLeastRecentlyUsedSlot 0 none,
      .updateStatus 0 "s2" .DISPONIBLE, .claimLeastRecentlyUsedSlot 0 (some .REGULAR)] := by
  refine rotates _ _ _ _ ⟨List.mem_cons_self, rfl, rfl, by decide +kernel⟩ ?_
  intro elapsed status hm
  simp [Demo.slot] at hm

end SmartParking
