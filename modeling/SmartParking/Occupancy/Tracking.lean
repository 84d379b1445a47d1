import SmartParking.Occupancy.Writes

namespace SmartParking.Occupancy

open Async

variable {first db : Database} {feed : Feed} {world : World} {branchId : Id} {owed owed' : Id → Prop}
  {reading : Reading} {update : Update} {index : ℕ}

-- The events that were counted, on the exchange or on the way to it.
def Feed.Has (feed : Feed) (reading : Reading) : Prop :=
  .publishes reading ∈ feed.updates ∨ reading ∈ feed.published

-- No event of the branch was counted later.
structure Feed.Newest (feed : Feed) (reading : Reading) : Prop where
  has : feed.Has reading
  latest : ∀ other, feed.Has other → other.event.branchId = reading.event.branchId →
    other.query ≤ reading.query

-- The update has not counted the occupied slots of the branch yet.
def Update.Counts (branchId : Id) : Update → Prop
  | .countsSlots other | .countsOccupied other _ => other = branchId
  | .publishes _ => False

def Feed.Awaits (feed : Feed) (branchId : Id) : Prop :=
  ∃ update ∈ feed.updates, update.Counts branchId

-- The newest event of the branch is its occupancy.
structure Current (first : Database) (feed : Feed) (branchId : Id) : Prop where
  newest : ∀ reading, feed.Newest reading → reading.event.branchId = branchId →
    reading.event = occupancyEvent branchId (occupiedSlots feed.world.db branchId)
      (totalSlots feed.world.db branchId)
  untold : (∀ reading, feed.Has reading → reading.event.branchId ≠ branchId) →
    occupiedSlots feed.world.db branchId = occupiedSlots first branchId

-- The answer of a query that counts the given number of slots of one branch.
def groupOf (branchId : Id) (count : ℕ) : List (Id × ℕ) :=
  if count = 0 then [] else [(branchId, count)]

-- The invariant: what is not told of a branch yet is owed by an execution, or will be
-- counted.
structure Tracked (first : Database) (owed : Id → Prop) (feed : Feed) : Prop where
  placed : Placed feed.world.db
  total : ∀ branchId, totalSlots feed.world.db branchId = totalSlots first branchId
  counted : ∀ branchId totals, .countsOccupied branchId totals ∈ feed.updates →
    totals = groupOf branchId (totalSlots first branchId)
  numbered : ∀ reading, feed.Has reading → reading.query < feed.queries
  told : ∀ branchId, owed branchId ∨ feed.Awaits branchId ∨ Current first feed branchId

section Summary

theorem groupBy_singleton (db : Database) (branchId : Id) (keep : ParkingSlot → Bool) :
    PrismaParkingSlotRepository.groupBy db [branchId] keep = groupOf branchId
      (db.slots.rows.filter fun slot => slot.branchId = branchId && keep slot).length := by
  simp only [PrismaParkingSlotRepository.groupBy, groupOf, List.dedup_cons_of_notMem,
    List.not_mem_nil, not_false_iff, List.dedup_nil, List.filterMap_cons, List.filterMap_nil,
    List.length_eq_zero_iff]
  split <;> simp_all

theorem groupBy_total (db : Database) (branchId : Id) :
    (PrismaParkingSlotRepository.groupBy db [branchId] fun _ => true) =
      groupOf branchId (totalSlots db branchId) := by
  rw [groupBy_singleton]
  simp only [Bool.and_true]
  rfl

theorem groupBy_occupied (db : Database) (branchId : Id) :
    PrismaParkingSlotRepository.groupBy db [branchId]
      PrismaParkingSlotRepository.occupiedOrReserved =
        groupOf branchId (occupiedSlots db branchId) := by
  rw [groupBy_singleton]
  simp only [occupiedSlots, PrismaParkingSlotRepository.occupiedOrReserved, Bool.decide_and,
    Bool.decide_or]

theorem occupiedSlots_le (db : Database) (branchId : Id) :
    occupiedSlots db branchId ≤ totalSlots db branchId := by
  unfold occupiedSlots totalSlots
  rw [← List.countP_eq_length_filter, ← List.countP_eq_length_filter]
  exact List.countP_mono_left fun slot _ h => decide_eq_true (of_decide_eq_true h).1

theorem summarize_groupOf {branchId : Id} {occupied total : ℕ} (h : occupied ≤ total) :
    RabbitRealtimePublisherAdapter.summarize branchId (PrismaParkingSlotRepository.summaries
      (groupOf branchId total) (groupOf branchId occupied)) =
        occupancyEvent branchId occupied total := by
  unfold RabbitRealtimePublisherAdapter.summarize PrismaParkingSlotRepository.summaries groupOf
  by_cases ht : total = 0
  · obtain rfl : occupied = 0 := by omega
    simp [ht]
  · by_cases ho : occupied = 0 <;> simp [ht, ho]

-- A group of the answer, and 0 for a branch without one.
theorem lookup_groups {count : Id → List ParkingSlot} (branchIds : List Id) (branchId : Id) :
    ((branchIds.filterMap fun id => if count id = [] then none else some (id, (count id).length)).lookup
      branchId).getD 0 = if branchId ∈ branchIds then (count branchId).length else 0 := by
  induction branchIds with
  | nil => rfl
  | cons id rest ih =>
      by_cases hid : branchId = id
      · subst hid
        by_cases hempty : count branchId = []
        · simp [hempty, ih]
        · simp [hempty]
      · have hne : (branchId == id) = false := by simp [hid]
        by_cases hempty : count id = [] <;>
          simp [hempty, ih, hid, List.lookup_cons, hne]

-- With no write between its queries the summary is that of one moment.
theorem summaries_groupBy (db : Database) (branchIds : List Id) :
    PrismaParkingSlotRepository.summaries
      (PrismaParkingSlotRepository.groupBy db branchIds fun _ => true)
      (PrismaParkingSlotRepository.groupBy db branchIds
        PrismaParkingSlotRepository.occupiedOrReserved) =
      PrismaParkingSlotRepository.getOccupancySummary db branchIds := by
  simp only [PrismaParkingSlotRepository.summaries, PrismaParkingSlotRepository.groupBy,
    PrismaParkingSlotRepository.getOccupancySummary, List.map_filterMap]
  refine List.filterMap_congr fun branchId hm => ?_
  simp only [Bool.and_true, List.filter_filter]
  split
  · rfl
  · simp only [Option.map_some, lookup_groups, if_pos hm, Bool.and_comm]

end Summary

-- A list around one of its elements.
theorem exists_around {α : Type} {xs : List α} {x : α} {index : ℕ} (h : xs[index]? = some x) :
    ∃ before after, xs = before ++ x :: after ∧ xs.eraseIdx index = before ++ after ∧
      ∀ y, xs.set index y = before ++ y :: after := by
  obtain ⟨hlt, rfl⟩ := List.getElem?_eq_some_iff.mp h
  refine ⟨xs.take index, xs.drop (index + 1), ?_, List.eraseIdx_eq_take_drop_succ .., fun y => ?_⟩
  · rw [List.getElem_cons_drop, List.take_append_drop]
  · rw [List.set_eq_take_append_cons_drop, if_pos hlt]

-- What is known of a branch does not change with other things.
section Frame

theorem Feed.Newest.of_imp {feed' : Feed} (h : feed'.Newest reading) (hhas : feed.Has reading)
    (himp : ∀ other, other.event.branchId = reading.event.branchId → feed.Has other →
      feed'.Has other) : feed.Newest reading where
  has := hhas
  latest other ho hbranch := h.latest other (himp other hbranch ho) hbranch

theorem Current.of_same {feed' : Feed} (h : Current first feed branchId)
    (hhas : ∀ reading, reading.event.branchId = branchId → (feed'.Has reading ↔ feed.Has reading))
    (hoccupied : occupiedSlots feed'.world.db branchId = occupiedSlots feed.world.db branchId)
    (htotal : totalSlots feed'.world.db branchId = totalSlots feed.world.db branchId) :
    Current first feed' branchId where
  newest reading hn hb := by
    rw [hoccupied, htotal]
    refine h.newest reading (hn.of_imp ((hhas reading hb).mp hn.has) fun other hbranch => ?_) hb
    exact (hhas other (hbranch.trans hb)).mpr
  untold hnone := by
    rw [hoccupied]
    exact h.untold fun reading hr hb => hnone reading ((hhas reading hb).mpr hr) hb

end Frame

theorem awaits_around {before after : List Update}
    (hupdates : feed.updates = before ++ update :: after) :
    feed.Awaits branchId ↔
      update.Counts branchId ∨ ∃ other ∈ before ++ after, other.Counts branchId := by
  unfold Feed.Awaits
  rw [hupdates]
  simp only [List.mem_append, List.mem_cons]
  constructor
  · rintro ⟨other, hm | rfl | hm, hc⟩
    · exact .inr ⟨other, .inl hm, hc⟩
    · exact .inl hc
    · exact .inr ⟨other, .inr hm, hc⟩
  · rintro (hc | ⟨other, hm, hc⟩)
    · exact ⟨update, .inr (.inl rfl), hc⟩
    · exact ⟨other, hm.imp_right .inr, hc⟩

namespace Tracked

theorem start (first : World) (hplaced : Placed first.db) (owed : Id → Prop) :
    Tracked first.db owed (.start first) where
  placed := hplaced
  total _ := rfl
  counted _ _ h := absurd h List.not_mem_nil
  numbered _ h := h.elim (absurd · List.not_mem_nil) (absurd · List.not_mem_nil)
  told _ := .inr (.inr {
    newest := fun _ h => h.has.elim (absurd · List.not_mem_nil) (absurd · List.not_mem_nil)
    untold := fun _ => rfl })

-- An execution that writes to a branch owes it an update from then on.
theorem write (h : Tracked first owed feed) {touched : Option Id}
    (hw : Writes touched feed.world.db world.db) (hkept : ∀ branchId, owed branchId → owed' branchId)
    (htouched : ∀ branchId, touched = some branchId → owed' branchId) :
    Tracked first owed' { feed with world } where
  placed := hw.placed h.placed
  total branchId := (hw.total branchId).trans (h.total branchId)
  counted := h.counted
  numbered := h.numbered
  told branchId := by
    by_cases ht : touched = some branchId
    · exact .inl (htouched branchId ht)
    rcases h.told branchId with ho | ha | hc
    · exact .inl (hkept branchId ho)
    · exact .inr (.inl ha)
    · exact .inr (.inr (hc.of_same (fun _ _ => Iff.rfl) (hw.occupied branchId ht)
        (hw.total branchId)))

-- The update that it starts takes the debt over.
theorem notify (h : Tracked first owed feed) (hdb : world.db = feed.world.db) (branchId : Id)
    (hkept : ∀ other, owed other → owed' other ∨ other = branchId) :
    Tracked first owed' { feed with world, updates := feed.updates ++ [.countsSlots branchId] } where
  placed := hdb ▸ h.placed
  total := hdb ▸ h.total
  counted other totals hm := by
    rcases List.mem_append.mp hm with hm | hm
    · exact h.counted other totals hm
    · cases List.mem_singleton.mp hm
  numbered reading hr := by
    refine h.numbered reading (hr.imp_left fun hm => ?_)
    simpa using hm
  told other := by
    have hnew : other = branchId → Feed.Awaits
        { feed with world, updates := feed.updates ++ [.countsSlots branchId] } other :=
      fun he => ⟨.countsSlots branchId, List.mem_append_right _ (List.mem_singleton_self _), he.symm⟩
    rcases h.told other with ho | ⟨update, hm, hu⟩ | hc
    · exact (hkept other ho).imp_right fun he => .inl (hnew he)
    · exact .inr (.inl ⟨update, List.mem_append_left _ hm, hu⟩)
    · refine .inr (.inr (hc.of_same (fun reading _ => ?_) ?_ ?_))
      · simp [Feed.Has]
      · rw [hdb]
      · rw [hdb]

variable {before after : List Update}

theorem countSlots (h : Tracked first owed feed)
    (hupdates : feed.updates = before ++ .countsSlots branchId :: after) :
    Tracked first owed { feed with
      updates := before ++ .countsOccupied branchId
        (PrismaParkingSlotRepository.groupBy feed.world.db [branchId] fun _ => true) :: after } where
  placed := h.placed
  total := h.total
  counted other totals hm := by
    rcases List.mem_append.mp hm with hm | hm | hm
    · exact h.counted other totals (hupdates ▸ List.mem_append_left _ hm)
    · rw [groupBy_total, h.total]
    · rename_i hm
      exact h.counted other totals (hupdates ▸ List.mem_append_right _ (.tail _ hm))
  numbered reading hr := h.numbered reading (by simpa [Feed.Has, hupdates] using hr)
  told other := by
    rcases h.told other with ho | ha | hc
    · exact .inl ho
    · refine .inr (.inl ((awaits_around rfl).mpr ?_))
      exact (awaits_around hupdates).mp ha
    · exact .inr (.inr (hc.of_same (fun reading _ => by simp [Feed.Has, hupdates]) rfl rfl))

-- The event that is counted now is newer than the others, and is the occupancy.
theorem countOccupied (h : Tracked first owed feed)
    (hupdates : feed.updates = before ++
      .countsOccupied branchId (groupOf branchId (totalSlots first branchId)) :: after)
    {event : OccupancyEvent} (hevent : event = occupancyEvent branchId
      (occupiedSlots feed.world.db branchId) (totalSlots feed.world.db branchId)) :
    Tracked first owed { feed with
      updates := before ++ .publishes ⟨feed.queries, event⟩ :: after
      queries := feed.queries + 1 } := by
  have hhas : ∀ reading, Feed.Has { feed with
      updates := before ++ .publishes ⟨feed.queries, event⟩ :: after
      queries := feed.queries + 1 } reading ↔ feed.Has reading ∨ reading = ⟨feed.queries, event⟩ := by
    intro reading
    simp only [Feed.Has, hupdates, List.mem_append, List.mem_cons, Update.publishes.injEq,
      reduceCtorEq, false_or]
    tauto
  refine {
    placed := h.placed
    total := h.total
    counted := fun other totals hm => h.counted other totals ?_
    numbered := fun reading hr => ?_
    told := fun other => ?_ }
  · rw [hupdates]
    rcases List.mem_append.mp hm with hm | hm
    · exact List.mem_append_left _ hm
    · exact List.mem_append_right _ (.tail _ ((List.mem_cons.mp hm).resolve_left nofun))
  · rcases (hhas reading).mp hr with hr | rfl
    · exact Nat.lt_succ_of_lt (h.numbered reading hr)
    · exact Nat.lt_succ_self _
  · by_cases hother : other = branchId
    · subst hother
      refine .inr (.inr ⟨fun reading hn hb => ?_, fun hnone => ?_⟩)
      · rcases (hhas reading).mp hn.has with hold | rfl
        · have hlt := h.numbered reading hold
          have hle := hn.latest ⟨feed.queries, event⟩ ((hhas _).mpr (.inr rfl))
            (by rw [hb, hevent]; rfl)
          exact absurd hle (Nat.not_le_of_lt hlt)
        · exact hevent
      · exact absurd (by rw [hevent]; rfl) (hnone _ ((hhas _).mpr (.inr rfl)))
    rcases h.told other with ho | ha | hc
    · exact .inl ho
    · refine .inr (.inl ((awaits_around rfl).mpr (.inr ?_)))
      exact ((awaits_around hupdates).mp ha).resolve_left fun he => hother he.symm
    · refine .inr (.inr (hc.of_same (fun reading hb => (hhas reading).trans ?_) rfl rfl))
      refine or_iff_left fun he => hother ?_
      rw [← hb, he, hevent]
      rfl

theorem publish (h : Tracked first owed feed)
    (hupdates : feed.updates = before ++ .publishes reading :: after) :
    Tracked first owed { feed with
      updates := before ++ after
      published := reading :: feed.published } := by
  have hhas : ∀ other, Feed.Has { feed with
      updates := before ++ after
      published := reading :: feed.published } other ↔ feed.Has other := by
    intro other
    simp only [Feed.Has, hupdates, List.mem_append, List.mem_cons, Update.publishes.injEq]
    tauto
  refine {
    placed := h.placed
    total := h.total
    counted := fun other totals hm => h.counted other totals ?_
    numbered := fun other ho => h.numbered other ((hhas other).mp ho)
    told := fun other => ?_ }
  · rw [hupdates]
    exact (List.mem_append.mp hm).elim (List.mem_append_left _) fun hm =>
      List.mem_append_right _ (.tail _ hm)
  · rcases h.told other with ho | ha | hc
    · exact .inl ho
    · exact .inr (.inl (((awaits_around hupdates).mp ha).resolve_left id))
    · exact .inr (.inr (hc.of_same (fun other _ => hhas other) rfl rfl))

theorem advance (h : Tracked first owed feed) (index : ℕ) : Tracked first owed (feed.advance index) := by
  unfold Feed.advance
  split
  · exact h
  · rename_i branchId hindex
    obtain ⟨before, after, hupdates, -, hset⟩ := exists_around hindex
    dsimp only
    rw [hset]
    exact h.countSlots hupdates
  · rename_i branchId totals hindex
    obtain ⟨before, after, hupdates, -, hset⟩ := exists_around hindex
    have hm : .countsOccupied branchId totals ∈ feed.updates := List.mem_of_getElem? hindex
    obtain rfl := h.counted branchId totals hm
    dsimp only
    rw [hset]
    refine h.countOccupied hupdates ?_
    rw [groupBy_occupied, ← h.total, summarize_groupOf (occupiedSlots_le _ _)]
  · rename_i reading hindex
    obtain ⟨before, after, hupdates, herase, -⟩ := exists_around hindex
    rw [herase]
    exact h.publish hupdates

end Tracked

end SmartParking.Occupancy
