import SmartParking.Backend.Ports

namespace SmartParking

open Async

variable {db : Database} {choice : Choice} {now : ℤ}

section Tables

variable (db)

@[simp] theorem lookup_slots_setStatus (id other : Id) (status : SlotStatus) (now : ℤ) :
    (PrismaParkingSlotRepository.setStatus db id status now).slots.lookup other =
      if other = id then
        (db.slots.lookup id).map (PrismaParkingSlotRepository.withStatus status now)
      else db.slots.lookup other :=
  Table.lookup_modify other

@[simp] theorem lookup_reservations_setStatus (id other : Id) (status : ReservationStatus)
    (confirmedAt : Option ℤ) :
    (PrismaReservationRepository.setStatus db id status confirmedAt).reservations.lookup other =
      if other = id then
        (db.reservations.lookup id).map (PrismaReservationRepository.withStatus status confirmedAt)
      else db.reservations.lookup other :=
  Table.lookup_modify other

@[simp] theorem lookup_sessions_setCompleted (id other : Id) (exitAt : ℤ) :
    (PrismaParkingSessionRepository.setCompleted db id exitAt).sessions.lookup other =
      if other = id then
        (db.sessions.lookup id).map (PrismaParkingSessionRepository.completed exitAt)
      else db.sessions.lookup other :=
  Table.lookup_modify other

theorem isSome_reservations_setStatus (id other : Id) (status : ReservationStatus)
    (confirmedAt : Option ℤ) :
    ((PrismaReservationRepository.setStatus db id status confirmedAt).reservations.lookup
      other).isSome = (db.reservations.lookup other).isSome := by
  rw [lookup_reservations_setStatus]
  split
  · rename_i hid
    rw [hid, Option.isSome_map]
  · rfl

theorem isSome_slots_setStatus (id other : Id) (status : SlotStatus) (now : ℤ) :
    ((PrismaParkingSlotRepository.setStatus db id status now).slots.lookup other).isSome =
      (db.slots.lookup other).isSome := by
  rw [lookup_slots_setStatus]
  split
  · rename_i hid
    rw [hid, Option.isSome_map]
  · rfl

theorem slots_setStatus_of_none {id : Id} (h : db.slots.lookup id = none) (status : SlotStatus)
    (now : ℤ) : PrismaParkingSlotRepository.setStatus db id status now = db := by
  unfold PrismaParkingSlotRepository.setStatus
  exact congrArg (fun slots => { db with slots }) (Table.modify_of_lookup_eq_none h)

theorem reservations_setStatus_of_none {id : Id} (h : db.reservations.lookup id = none)
    (status : ReservationStatus) (confirmedAt : Option ℤ) :
    PrismaReservationRepository.setStatus db id status confirmedAt = db := by
  unfold PrismaReservationRepository.setStatus
  exact congrArg (fun reservations => { db with reservations }) (Table.modify_of_lookup_eq_none h)

theorem sessions_setCompleted_of_none {id : Id} (h : db.sessions.lookup id = none)
    (exitAt : ℤ) : PrismaParkingSessionRepository.setCompleted db id exitAt = db := by
  unfold PrismaParkingSessionRepository.setCompleted
  exact congrArg (fun sessions => { db with sessions }) (Table.modify_of_lookup_eq_none h)

end Tables

-- The answer of an update by id.
def updated (found : Bool) : Except Fault Unit := if found then .ok () else .error recordNotFound

theorem query_slotsUpdateStatus (slotId : Id) (status : SlotStatus) :
    query choice now db (.slotsUpdateStatus slotId status) =
      (updated (db.slots.lookup slotId).isSome,
        PrismaParkingSlotRepository.setStatus db slotId status now) := by
  cases h : db.slots.lookup slotId with
  | some slot =>
      simp [query, PrismaParkingSlotRepository.updateStatus, h, written, committed, updated,
        Except.map]
  | none =>
      rw [slots_setStatus_of_none db h]
      simp [query, PrismaParkingSlotRepository.updateStatus, h, written, committed, updated,
        Except.map]

theorem query_reservationsUpdateStatus (id : Id) (status : ReservationStatus)
    (confirmedAt : Option ℤ) :
    query choice now db (.reservationsUpdateStatus id status confirmedAt) =
      (updated (db.reservations.lookup id).isSome,
        PrismaReservationRepository.setStatus db id status confirmedAt) := by
  cases h : db.reservations.lookup id with
  | some reservation =>
      simp [query, PrismaReservationRepository.updateStatus, h, written, committed, updated,
        Except.map]
  | none =>
      rw [reservations_setStatus_of_none db h]
      simp [query, PrismaReservationRepository.updateStatus, h, written, committed, updated,
        Except.map]

theorem query_sessionsMarkCompleted (id : Id) (exitAt : ℤ) :
    query choice now db (.sessionsMarkCompleted id exitAt) =
      (updated (db.sessions.lookup id).isSome,
        PrismaParkingSessionRepository.setCompleted db id exitAt) := by
  cases h : db.sessions.lookup id with
  | some session =>
      simp [query, PrismaParkingSessionRepository.markCompleted, h, written, committed, updated,
        Except.map]
  | none =>
      rw [sessions_setCompleted_of_none db h]
      simp [query, PrismaParkingSessionRepository.markCompleted, h, written, committed, updated,
        Except.map]

-- A new uuid violates no constraint of the reservations.
theorem query_reservationsCreate (db : Database) (choice : Choice) (now : ℤ)
    (data : CreateReservationData) :
    ∃ bigger, db.reservations.insert
        (PrismaReservationRepository.newRow db choice.uuid now data) = some bigger ∧
      query choice now db (.reservationsCreate data) =
        (.ok (PrismaReservationRepository.newRow db choice.uuid now data),
          { db with reservations := bigger }) := by
  have hfresh : ∀ old ∈ db.reservations,
      old.id ≠ (PrismaReservationRepository.newRow db choice.uuid now data).id := by
    intro old hold he
    have hm : old.id ∈ db.reservations.rows.map Reservation.id := List.mem_map_of_mem hold
    rw [he] at hm
    exact newId_not_mem choice.uuid _ hm
  obtain ⟨bigger, hb⟩ := Table.insert_isSome hfresh hfresh
  refine ⟨bigger, hb, ?_⟩
  simp [query, PrismaReservationRepository.create, hb, committed]

-- A second session of a reservation is refused.
theorem query_sessionsCreate (db : Database) (choice : Choice) (now : ℤ)
    (data : CreateParkingSessionData) :
    (∃ bigger, db.sessions.insert
        (PrismaParkingSessionRepository.newRow db choice.uuid data) = some bigger ∧
      query choice now db (.sessionsCreate data) =
        (.ok (PrismaParkingSessionRepository.newRow db choice.uuid data),
          { db with sessions := bigger })) ∨
    (∃ old ∈ db.sessions, old.reservationId = data.reservationId) ∧
      ∃ text, query choice now db (.sessionsCreate data) = (.error (.infrastructure text), db) := by
  cases h : db.sessions.insert (PrismaParkingSessionRepository.newRow db choice.uuid data) with
  | some bigger =>
      left
      refine ⟨bigger, rfl, ?_⟩
      simp [query, PrismaParkingSessionRepository.create, h, committed]
  | none =>
      right
      refine ⟨?_, ?_⟩
      · rcases Table.insert_eq_none.mp h with ⟨old, hold, he⟩ | ⟨old, hold, he⟩
        · have hm : old.id ∈ db.sessions.rows.map ParkingSession.id := List.mem_map_of_mem hold
          rw [he] at hm
          exact absurd hm (newId_not_mem choice.uuid _)
        · exact ⟨old, hold, he⟩
      · simp [query, PrismaParkingSessionRepository.create, h, committed]

namespace PrismaParkingSlotRepository

variable {order : ParkingSlot → ParkingSlot → Prop} [DecidableRel order] {branchId : Id}
  {type : Option SlotType}

theorem select_eq_some {locked : Id → Bool} {slot : ParkingSlot}
    (h : select order db locked branchId type = some slot) :
    slot ∈ db.slots ∧ available branchId type slot = true := by
  have hm := List.mem_of_mem_head? (Option.mem_def.mpr h)
  rw [List.mem_insertionSort, List.mem_filter, Bool.and_eq_true] at hm
  exact ⟨hm.1, hm.2.1⟩

-- What one claim can do: it reserves one available slot of the branch and type,
-- or it changes nothing.
theorem claim_cases (order : ParkingSlot → ParkingSlot → Prop) [DecidableRel order] (db : Database)
    (now : ℤ) (locked : Id → Bool) (branchId : Id) (type : Option SlotType) :
    (∃ slot ∈ db.slots, available branchId type slot = true ∧
      claim order db now locked branchId type =
        (some (withStatus .RESERVADA now slot), setStatus db slot.id .RESERVADA now)) ∨
    claim order db now locked branchId type = (none, db) := by
  unfold claim
  cases h : select order db locked branchId type with
  | some slot => exact .inl ⟨slot, (select_eq_some h).1, (select_eq_some h).2, rfl⟩
  | none => exact .inr rfl

end PrismaParkingSlotRepository

-- The calls that leave the database as it is, but for the answer to a request.
def Call.Reads : Call → Prop
  | .slotsClaimAvailableSlot _ _ | .slotsClaimLeastRecentlyUsedSlot _ _ | .slotsUpdateStatus _ _ => False
  | .reservationsCreate _ | .reservationsUpdateStatus _ _ _ => False
  | .sessionsCreate _ | .sessionsMarkCompleted _ _ => False
  | .notifyReservationRequestResolved _ => False
  | _ => True

theorem query_of_reads {call : Call} (h : call.Reads) : (query choice now db call).2 = db := by
  cases call <;> first | rfl | exact h.elim

-- The calls that can fail. The others are not awaited, or do no more than read
-- the clock or draw a number.
def Call.fallible : Call → Bool
  | .clockNow | .randomUUID | .notify _ | .notifyReservationRequestResolved _ => false
  | .publishAuditEvent _ | .channelAck | .channelNack _ => false
  | _ => true

def Settled (call : Call) (answer : Except Fault (Answer call)) : Prop :=
  call.fallible = false → ∃ value, answer = .ok value

theorem settled_serve (choice : Choice) (world : World) (call : Call) :
    Settled call (serve choice world call).1 := by
  intro hf
  cases call <;> first | exact ⟨_, rfl⟩ | cases hf

theorem settled_faulty (choice : Option Fault × Choice) (world : World) (call : Call) :
    Settled call (faulty serve Call.fallible choice world call).1 := by
  intro hf
  obtain ⟨lost, choice⟩ := choice
  cases lost with
  | none => exact settled_serve choice world call hf
  | some err =>
      simp only [faulty, hf, Bool.false_eq_true, if_false]
      exact settled_serve choice world call hf

theorem clock_le_serve (world : World) (call : Call) :
    world.clock ≤ (serve choice world call).2.clock := by
  change world.clock ≤ world.clock + (choice.elapsed : ℤ)
  omega

-- One call of a sequential execution, and the rest of it at a later time.
theorem wp_ask_bind {α : Type} {call : Call} {f : Answer call → Port α}
    {post : Except Fault α → World → Prop}
    (h : ∀ choice : Choice, ∀ later, now ≤ later → Program.continued serve f post
      (query choice later db call).1 ⟨(query choice later db call).2, later⟩) :
    (ask call >>= f).wp serve ⟨db, now⟩ post := by
  rw [Program.wp_bind]
  intro choice
  exact h choice (now + choice.elapsed) (by omega)

-- One call of a given run.
theorem run_query {α : Type} {choices : ℕ → Choice} {call : Call} {f : Answer call → Port α}
    {value : Answer call} {db' : Database}
    (hq : query (choices 0) (now + (choices 0).elapsed) db call = (.ok value, db')) :
    (ask call >>= f).run serve choices ⟨db, now⟩ =
      (f value).run serve (fun n => choices (n + 1)) ⟨db', now + (choices 0).elapsed⟩ :=
  Program.run_perform_ok (by simp only [serve, hq])

theorem wp_of_reads {α : Type} {p : Port α} (hp : p.Uses Call.Reads) (world : World) :
    p.wp serve world fun _ world' => world'.db = world.db ∧ world.clock ≤ world'.clock := by
  apply Program.wp_of_uses (fun _ => ⟨rfl, le_refl _⟩) _ _ hp world
  · rintro a b c ⟨hab, hlab⟩ ⟨hbc, hlbc⟩
    exact ⟨hbc.trans hab, hlab.trans hlbc⟩
  · exact fun call hcall choice world => ⟨query_of_reads hcall, clock_le_serve world call⟩

theorem wp_reads_bind {α β : Type} {p : Port α} (hp : p.Uses Call.Reads) {f : α → Port β}
    {post : Except Fault β → World → Prop}
    (herr : ∀ err later, now ≤ later → post (.error err) ⟨db, later⟩)
    (hf : ∀ value later, now ≤ later → (f value).wp serve ⟨db, later⟩ post) :
    (p >>= f).wp serve ⟨db, now⟩ post := by
  rw [Program.wp_bind]
  refine Program.wp_mono (wp_of_reads hp ⟨db, now⟩) ?_
  rintro result ⟨db', later⟩ ⟨hdb, hl⟩
  subst hdb
  cases result with
  | ok value => exact hf value later hl
  | error err => exact herr err later hl

-- The rule of each kind of call in a sequential execution.
section Rules

variable {α : Type} {post : Except Fault α → World → Prop}

theorem wp_read_bind {call : Call} {f : Answer call → Port α} {value : Answer call}
    (hq : ∀ choice later, query choice later db call = (.ok value, db))
    (h : ∀ later, now ≤ later → (f value).wp serve ⟨db, later⟩ post) :
    (ask call >>= f).wp serve ⟨db, now⟩ post := by
  refine wp_ask_bind fun choice later hl => ?_
  rw [hq]
  exact h later hl

theorem wp_clockNow_bind {f : ℤ → Port α}
    (h : ∀ later, now ≤ later → (f later).wp serve ⟨db, later⟩ post) :
    (clock.now >>= f).wp serve ⟨db, now⟩ post :=
  wp_ask_bind fun _ later hl => h later hl

theorem wp_reservationsCreate_bind {data : CreateReservationData} {f : Reservation → Port α}
    (h : ∀ uuid later bigger, now ≤ later → db.reservations.insert
        (PrismaReservationRepository.newRow db uuid later data) = some bigger →
      (f (PrismaReservationRepository.newRow db uuid later data)).wp serve
        ⟨{ db with reservations := bigger }, later⟩ post) :
    (reservations.create data >>= f).wp serve ⟨db, now⟩ post := by
  refine wp_ask_bind fun choice later hl => ?_
  obtain ⟨bigger, hb, hq⟩ := query_reservationsCreate db choice later data
  rw [hq]
  exact h choice.uuid later bigger hl hb

theorem wp_slotsUpdateStatus_bind {slotId : Id} {status : SlotStatus} {f : Unit → Port α}
    (hfound : (db.slots.lookup slotId).isSome)
    (h : ∀ later, now ≤ later → (f ()).wp serve
      ⟨PrismaParkingSlotRepository.setStatus db slotId status later, later⟩ post) :
    (slots.updateStatus slotId status >>= f).wp serve ⟨db, now⟩ post := by
  refine wp_ask_bind fun choice later hl => ?_
  rw [query_slotsUpdateStatus, updated, if_pos hfound]
  exact h later hl

theorem wp_reservationsUpdateStatus_bind {id : Id} {status : ReservationStatus}
    {confirmedAt : Option ℤ} {f : Unit → Port α} (hfound : (db.reservations.lookup id).isSome)
    (h : ∀ later, now ≤ later → (f ()).wp serve
      ⟨PrismaReservationRepository.setStatus db id status confirmedAt, later⟩ post) :
    (reservations.updateStatus id status confirmedAt >>= f).wp serve ⟨db, now⟩ post := by
  refine wp_ask_bind fun choice later hl => ?_
  rw [query_reservationsUpdateStatus, updated, if_pos hfound]
  exact h later hl

theorem wp_sessionsMarkCompleted_bind {id : Id} {exitAt : ℤ} {f : Unit → Port α}
    (hfound : (db.sessions.lookup id).isSome)
    (h : ∀ later, now ≤ later → (f ()).wp serve
      ⟨PrismaParkingSessionRepository.setCompleted db id exitAt, later⟩ post) :
    (sessions.markCompleted id exitAt >>= f).wp serve ⟨db, now⟩ post := by
  refine wp_ask_bind fun choice later hl => ?_
  rw [query_sessionsMarkCompleted, updated, if_pos hfound]
  exact h later hl

theorem wp_sessionsCreate_bind {data : CreateParkingSessionData} {f : ParkingSession → Port α}
    (hfree : ∀ old ∈ db.sessions, old.reservationId ≠ data.reservationId)
    (h : ∀ uuid later bigger, now ≤ later →
      db.sessions.insert (PrismaParkingSessionRepository.newRow db uuid data) = some bigger →
      (f (PrismaParkingSessionRepository.newRow db uuid data)).wp serve
        ⟨{ db with sessions := bigger }, later⟩ post) :
    (sessions.create data >>= f).wp serve ⟨db, now⟩ post := by
  refine wp_ask_bind fun choice later hl => ?_
  rcases query_sessionsCreate db choice later data with
    ⟨bigger, hb, hq⟩ | ⟨⟨old, hold, he⟩, -⟩
  · rw [hq]
    exact h choice.uuid later bigger hl hb
  · exact absurd he (hfree old hold)

end Rules

end SmartParking
