import SmartParking.Handout

namespace SmartParking

open Async

variable {Tid : Type} {start db : Database}
  {inputs : Tid → CreateReservationInput} {history : History Tid} {stages : Tid → Stage}
  {thread : Tid}

theorem Assigned.cons {slotId : Id} (h : Assigned history slotId)
    (event : Event Tid Call Answer Fault) : Assigned (event :: history) slotId := by
  obtain ⟨earlier, hm, hslot⟩ := h
  exact ⟨earlier, List.mem_cons_of_mem _ hm, hslot⟩

-- A new event of the history changes nothing else.
theorem Handing.cons (h : Handing start inputs db history stages)
    (event : Event Tid Call Answer Fault) :
    Handing start inputs db (event :: history) stages where
  sound := h.sound
  suits := h.suits
  kept := h.kept
  stored := h.stored
  source := h.source
  slots slot hm := by
    obtain ⟨before, hb, hid, hbranch, htype, hs⟩ := h.slots slot hm
    refine ⟨before, hb, hid, hbranch, htype, ?_⟩
    rcases hs with hs | ⟨ha, hheld⟩
    · exact .inl hs
    · exact .inr ⟨ha.cons event, hheld⟩

theorem handing_ignores_reads :
    IgnoresReads (Pool.unguarded : CallGuard Tid) (Handing start inputs) :=
  fun _ _ _ _ _ _ _ _ h _ => h.cons _

-- A slot that is vacant now was vacant at the start.
theorem Handing.suits_of_available (h : Handing start inputs db history stages)
    {input : CreateReservationInput} {slot : ParkingSlot} (hm : slot ∈ db.slots)
    (ha : PrismaParkingSlotRepository.available input.branchId input.slotType slot = true) :
    Suits start input slot.id := by
  obtain ⟨before, hb, hid, hbranch, htype, hs⟩ := h.slots slot hm
  simp only [PrismaParkingSlotRepository.available, Bool.and_eq_true, decide_eq_true_eq] at ha
  obtain ⟨⟨hbr, hst⟩, hty⟩ := ha
  refine ⟨before, hb, hid, hbranch.trans hbr, ?_, fun type ht => ?_⟩
  · rcases hs with hs | ⟨-, thread, hheld⟩
    · exact hs.trans hst
    · have hv : Vacant db slot.id := by
        rw [Vacant, slotStatus, Table.lookup_key hm, Option.map_some, hst]
      exact absurd hheld (h.sound.unheld slot.id hv thread)
  · simp only [PrismaParkingSlotRepository.ofType, ht, decide_eq_true_eq] at hty
    exact htype.trans hty

theorem handing_start (world : World) :
    Handing world.db inputs world.db [] fun _ => .before where
  sound := ⟨(fun _ _ _ h => by cases h), (fun _ _ _ h => by cases h)⟩
  suits _ _ h := by cases h
  kept _ hm := hm
  stored _ _ h := by cases h
  source _ hm := .inl hm
  slots slot hm := ⟨slot, hm, rfl, rfl, rfl, .inl rfl⟩

theorem Handing.suits_stored (h : Handing start inputs db history stages)
    {reservation : Reservation} (hs : stages thread = .stored reservation) :
    Suits start (inputs thread) reservation.slotId := by
  refine h.suits thread reservation.slotId ?_
  rw [hs]
  rfl

-- Each reservation was stored by one execution.
theorem Handing.stored_of_new (h : Handing start inputs db history stages)
    {reservation : Reservation} (hm : reservation ∈ db.reservations)
    (hn : reservation ∉ start.reservations) : ∃ thread, stages thread = .stored reservation := by
  rcases h.source reservation hm with hold | hs
  · exact absurd hold hn
  · exact hs

theorem Handing.eq_of_slotId_eq (h : Handing start inputs db history stages) {other : Tid}
    {slotId : Id} (hs : (stages thread).slotId = some slotId)
    (ho : (stages other).slotId = some slotId) : thread = other :=
  h.sound.exclusive thread other slotId hs ho

-- New reservations of one slot are one.
theorem Handing.eq_of_new (h : Handing start inputs db history stages)
    {reservation other : Reservation} (hm : reservation ∈ db.reservations)
    (hn : reservation ∉ start.reservations) (ho : other ∈ db.reservations)
    (hn' : other ∉ start.reservations) (hslot : reservation.slotId = other.slotId) :
    reservation = other := by
  obtain ⟨thread, hs⟩ := h.stored_of_new hm hn
  obtain ⟨thread', hs'⟩ := h.stored_of_new ho hn'
  have hheld : (stages thread).slotId = some other.slotId := by rw [hs, Stage.slotId, hslot]
  have hheld' : (stages thread').slotId = some other.slotId := by rw [hs', Stage.slotId]
  rw [h.eq_of_slotId_eq hheld hheld', hs'] at hs
  cases hs
  rfl

-- An execution that has ended and holds a slot has stored its reservation.
theorem Handing.new_of_ended (h : Handing start inputs db history stages)
    {result : Except Fault CreateReservationResult} {slotId : Id}
    (hends : Ends result (stages thread)) (hheld : (stages thread).slotId = some slotId) :
    ∃ reservation ∈ db.reservations, reservation ∉ start.reservations ∧
      reservation.slotId = slotId := by
  by_cases hr : ∃ reservation, result = .ok (.CREATED reservation)
  · obtain ⟨reservation, hcreated⟩ := hr
    have hstored := hends.1 reservation hcreated
    obtain ⟨hmem, hn, -⟩ := h.stored thread reservation hstored
    rw [hstored] at hheld
    exact ⟨reservation, hmem, hn, Option.some.inj hheld⟩
  · rw [hends.2 fun reservation he => hr ⟨reservation, he⟩] at hheld
    cases hheld

-- The executions that hold a slot of a branch are no more than its free slots.
theorem Handing.card_le (h : Handing start inputs db history stages) (branchId : Id)
    (holders : Finset Tid) (hb : ∀ thread ∈ holders, (inputs thread).branchId = branchId)
    (hheld : ∀ thread ∈ holders, ∃ slotId, (stages thread).slotId = some slotId) :
    holders.card ≤ (start.slots.rows.filter fun slot =>
      slot.branchId = branchId ∧ slot.status = .DISPONIBLE).length := by
  classical
  let free := start.slots.rows.filter fun slot =>
    slot.branchId = branchId ∧ slot.status = .DISPONIBLE
  let slotOf : Tid → Id := fun thread => (stages thread).slotId.getD ""
  have hslot : ∀ thread ∈ holders, (stages thread).slotId = some (slotOf thread) := by
    intro thread ht
    obtain ⟨slotId, hs⟩ := hheld thread ht
    simp only [slotOf, hs, Option.getD_some]
  have hmaps : ∀ thread ∈ holders, slotOf thread ∈ (free.map ParkingSlot.id).toFinset := by
    intro thread ht
    obtain ⟨slot, hm, hid, hbranch, hstatus, -⟩ := h.suits thread _ (hslot thread ht)
    rw [List.mem_toFinset, ← hid]
    refine List.mem_map_of_mem (List.mem_filter.mpr ⟨hm, ?_⟩)
    exact decide_eq_true ⟨hbranch.trans (hb thread ht), hstatus⟩
  have hinj : Set.InjOn slotOf holders := by
    intro a ha b hb' he
    exact h.eq_of_slotId_eq (hslot a ha) (he ▸ hslot b hb')
  calc holders.card ≤ (free.map ParkingSlot.id).toFinset.card :=
        Finset.card_le_card_of_injOn slotOf hmaps hinj
    _ ≤ (free.map ParkingSlot.id).length := List.toFinset_card_le _
    _ = free.length := List.length_map ..

variable [DecidableEq Tid]

theorem Handing.claim (h : Handing start inputs db history stages)
    (hstage : stages thread = .before) {slot : ParkingSlot} (hm : slot ∈ db.slots)
    (ha : PrismaParkingSlotRepository.available (inputs thread).branchId (inputs thread).slotType
      slot = true) {now : ℤ} {event : Event Tid Call Answer Fault}
    (hevent : claimed event = some (PrismaParkingSlotRepository.withStatus .RESERVADA now slot)) :
    Handing start inputs (PrismaParkingSlotRepository.setStatus db slot.id .RESERVADA now)
      (event :: history) (Function.update stages thread (.claimed slot.id)) where
  sound := by
    rw [Function.comp_update]
    exact h.sound.acquire (vacant_of_available hm ha) fun other => vacant_reserve
  suits other slotId hs := by
    by_cases ho : other = thread
    · subst other
      rw [Function.update_self] at hs
      cases hs
      exact h.suits_of_available hm ha
    · rw [Function.update_of_ne ho] at hs
      exact h.suits other slotId hs
  kept := h.kept
  stored other reservation hs := by
    by_cases ho : other = thread
    · subst other
      rw [Function.update_self] at hs
      cases hs
    · rw [Function.update_of_ne ho] at hs
      exact h.stored other reservation hs
  source reservation hr := by
    rcases h.source reservation hr with hold | ⟨other, hs⟩
    · exact .inl hold
    · refine .inr ⟨other, ?_⟩
      have ho : other ≠ thread := fun he => by rw [he, hstage] at hs; cases hs
      rw [Function.update_of_ne ho, hs]
  slots after hafter := by
    obtain ⟨old, hold, rfl⟩ := Table.mem_modify.mp hafter
    obtain ⟨before, hb, hid, hbranch, htype, hs⟩ := h.slots old hold
    by_cases he : old.id = slot.id
    · rw [if_pos he]
      refine ⟨before, hb, hid, hbranch, htype, .inr ⟨⟨event, List.mem_cons_self, _, hevent, ?_⟩,
        thread, ?_⟩⟩
      · exact he.symm
      · rw [Function.update_self]
        exact congrArg some he.symm
    · rw [if_neg he]
      refine ⟨before, hb, hid, hbranch, htype, ?_⟩
      rcases hs with hs | ⟨hassigned, other, hheld⟩
      · exact .inl hs
      · have ho : other ≠ thread := fun he => by rw [he, hstage] at hheld; cases hheld
        refine .inr ⟨hassigned.cons event, other, ?_⟩
        rw [Function.update_of_ne ho, hheld]

theorem Handing.store (h : Handing start inputs db history stages) {row : Reservation}
    (hstage : stages thread = .claimed row.slotId)
    (huser : row.userId = (inputs thread).userId)
    (hbranch : row.branchId = (inputs thread).branchId)
    {bigger : Table Reservation.id Reservation.id}
    (hb : db.reservations.insert row = some bigger) (event : Event Tid Call Answer Fault) :
    Handing start inputs { db with reservations := bigger } (event :: history)
      (Function.update stages thread (.stored row)) := by
  have hsame : Stage.slotId ∘ Function.update stages thread (.stored row) =
      Stage.slotId ∘ stages := by
    have hslot : (Stage.stored row).slotId = (Stage.slotId ∘ stages) thread := by
      rw [Function.comp_apply, hstage]
      rfl
    rw [Function.comp_update, hslot, Function.update_eq_self]
  have hheld : ∀ other, (Function.update stages thread (.stored row) other).slotId =
      (stages other).slotId := fun other => congrFun hsame other
  have hfresh : row ∉ start.reservations := fun hm =>
    (Table.insert_fresh hb).1 row (h.kept row hm) rfl
  refine {
    sound := hsame ▸ h.sound
    suits := fun other slotId hs => h.suits other slotId ((hheld other).symm.trans hs)
    kept := fun reservation hm => (Table.mem_insert hb).mpr (.inl (h.kept reservation hm))
    stored := ?_
    source := ?_
    slots := ?_ }
  · intro other reservation hs
    by_cases ho : other = thread
    · subst other
      rw [Function.update_self] at hs
      cases hs
      exact ⟨(Table.mem_insert hb).mpr (.inr rfl), hfresh, huser, hbranch⟩
    · rw [Function.update_of_ne ho] at hs
      obtain ⟨hm, hrest⟩ := h.stored other reservation hs
      exact ⟨(Table.mem_insert hb).mpr (.inl hm), hrest⟩
  · intro reservation hm
    rcases (Table.mem_insert hb).mp hm with hold | rfl
    · rcases h.source reservation hold with hs | ⟨other, hs⟩
      · exact .inl hs
      · have ho : other ≠ thread := fun he => by rw [he, hstage] at hs; cases hs
        exact .inr ⟨other, by rw [Function.update_of_ne ho, hs]⟩
    · exact .inr ⟨thread, Function.update_self ..⟩
  · intro slot hm
    obtain ⟨before, hbefore, hid, hbr, htype, hs⟩ := h.slots slot hm
    refine ⟨before, hbefore, hid, hbr, htype, ?_⟩
    rcases hs with hs | ⟨hassigned, other, hslot⟩
    · exact .inl hs
    · exact .inr ⟨hassigned.cons event, other, (hheld other).trans hslot⟩

theorem safe_execute (config : Config) (start : Database) (inputs : Tid → CreateReservationInput)
    (thread : Tid) :
    SafeCall Pool.unguarded (Handing start inputs) thread
      (CreateReservationUseCase.execute config (inputs thread)) .before Ends := by
  have herr : ∀ err, Ends (.error err) .before :=
    fun err => ⟨(fun reservation he => by cases he), fun _ => rfl⟩
  refine safe_create handing_ignores_reads herr (safe_reserve handing_ignores_reads
    (fun slot stage => stage = .claimed slot.id) ?_ ?_ ?_ ?_)
  · exact fun result hne => ⟨fun reservation he => absurd he (hne reservation), fun _ => rfl⟩
  · exact fun db history stages event _ h _ _ _ => h.cons event
  · intro db history stages event now slot hg h hm ha _ _ hc
    exact ⟨.claimed slot.id, h.claim hg hm ha hc, rfl⟩
  · rintro slot stage rfl
    refine safe_store handing_ignores_reads ?_
    intro db history stages choice start now clock bigger hg h _ hb
    refine ⟨.stored _, h.store hg rfl rfl hb _, ?_, ?_⟩
    · intro reservation he
      cases he
      rfl
    · exact fun hne => absurd rfl (hne _)

-- No interleaving of reservation requests gives a slot out twice.
theorem handout (config : Config) (world : World) (inputs : Tid → CreateReservationInput)
    (schedule : List (Tid × Choice)) :
    Handout world.db inputs ((Creations.start config world inputs).play serve schedule) := by
  have hreach : Pool.Reaches serve Pool.unguarded (Creations.start config world inputs)
      ((Creations.start config world inputs).play serve schedule) :=
    Pool.reaches_of_follows .refl (Pool.follows_unguarded schedule)
  obtain ⟨stages, h, hsafe⟩ := hreach.invariant (onWorld (Handing world.db inputs))
    (fun _ => Ends) (handing_start world) (safe_execute config world.db inputs)
  generalize (Creations.start config world inputs).play serve schedule = pool at *
  have hdone : ∀ thread result, pool.threads thread = .done result → Ends result (stages thread) := by
    intro thread result hd
    have hs := hsafe thread
    rw [hd] at hs
    exact hs
  have hcreated : ∀ thread reservation,
      pool.threads thread = .done (.ok (.CREATED reservation)) →
      stages thread = .stored reservation :=
    fun thread reservation hd => (hdone thread _ hd).1 reservation rfl
  constructor
  · exact fun reservation hm other ho hn hn' => h.eq_of_new hm hn ho hn'
  · intro reservation hm hn
    obtain ⟨thread, hs⟩ := h.stored_of_new hm hn
    obtain ⟨-, -, huser, hbranch⟩ := h.stored thread reservation hs
    exact ⟨thread, huser, hbranch, h.suits_stored hs⟩
  · intro thread reservation hd
    have hs := hcreated thread reservation hd
    obtain ⟨hm, hn, -, hbranch⟩ := h.stored thread reservation hs
    exact ⟨hm, hn, hbranch, h.suits_stored hs⟩
  · intro slot hm hn
    obtain ⟨before, hb, hid, -, -, hs⟩ := h.slots slot hm
    exact ⟨before, hb, hid, hs.resolve_right fun ha => hn ha.1⟩
  · intro hended slot hm hfree
    obtain ⟨before, hb, hid, -, -, hs⟩ := h.slots slot hm
    refine ⟨before, hb, hid, hs.resolve_right ?_⟩
    rintro ⟨-, thread, hheld⟩
    obtain ⟨result, hd⟩ := hended thread
    obtain ⟨reservation, hmem, hn, hslot⟩ := h.new_of_ended (hdone thread result hd) hheld
    exact hfree reservation hmem hn hslot
  · intro branchId created hc
    refine h.card_le branchId created (fun thread ht => (hc thread ht).1) fun thread ht => ?_
    obtain ⟨-, reservation, hd⟩ := hc thread ht
    exact ⟨reservation.slotId, by rw [hcreated thread reservation hd]; rfl⟩

end SmartParking
