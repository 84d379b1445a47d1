import SmartParking.Leak
import SmartParking.Backend.Operations

namespace SmartParking

open Async

variable (config : Config) (input : CreateReservationInput)
  {faults : ℕ → Option Fault × Choice} {world : World} {log : Log} {db : Database} {now : ℤ}

theorem lossy_lost {call : Call} {err : Fault} {choice : Choice} (hf : call.fallible = true) :
    lossy (some err, choice) (world, log) call =
      (.error err, world, ⟨call, .error err⟩ :: log) := by
  simp only [lossy, logged, faulty, hf, if_true]

theorem lossy_served {call : Call} {choice : Choice} :
    lossy (none, choice) (⟨db, now⟩, log) call =
      ((query choice (now + choice.elapsed) db call).1,
        ⟨(query choice (now + choice.elapsed) db call).2, now + choice.elapsed⟩,
        ⟨call, (query choice (now + choice.elapsed) db call).1⟩ :: log) := rfl

-- The insert that a log shows, if any.
def Inserted (log : Log) (reservation : Reservation) : Prop :=
  ∃ data, ⟨.reservationsCreate data, .ok reservation⟩ ∈ log

theorem inserted_cons {call : Call} {answer : Except Fault (Answer call)}
    (hne : ∀ data, call ≠ .reservationsCreate data) {reservation : Reservation}
    (h : Inserted (⟨call, answer⟩ :: log) reservation) : Inserted log reservation := by
  obtain ⟨data, hm⟩ := h
  rcases List.mem_cons.mp hm with he | hm
  · cases he
    exact absurd rfl (hne data)
  · exact ⟨data, hm⟩

theorem inserted_cons_of_reads {call : Call} (hc : call.Reads) {answer : Except Fault (Answer call)}
    {reservation : Reservation} (h : Inserted (⟨call, answer⟩ :: log) reservation) :
    Inserted log reservation :=
  inserted_cons (fun data he => by rw [he] at hc; exact hc) h

-- A part of the request that only reads: the slots stay, and the log shows no
-- new insert.
def Idle (before after : World × Log) : Prop :=
  after.1.db = before.1.db ∧ ∀ reservation, Inserted after.2 reservation →
    Inserted before.2 reservation

theorem idle_lossy {call : Call} (hc : call.Reads) (choice : Option Fault × Choice)
    (state : World × Log) : Idle state (lossy choice state call).2 := by
  refine ⟨?_, fun reservation h => inserted_cons_of_reads hc h⟩
  obtain ⟨⟨db, now⟩, log⟩ := state
  obtain ⟨lost, choice⟩ := choice
  cases lost with
  | none => exact query_of_reads hc
  | some err =>
      simp only [lossy, logged, faulty]
      split
      · rfl
      · exact query_of_reads hc

theorem idle_wp {α : Type} {p : Port α} (hp : p.Uses Call.Reads) (state : World × Log) :
    p.wp lossy state fun _ after => Idle state after := by
  refine Program.wp_of_uses (fun _ => ⟨rfl, fun _ h => h⟩) ?_ (fun call hc => idle_lossy hc) hp state
  rintro a b c ⟨hab, hia⟩ ⟨hbc, hib⟩
  exact ⟨hbc.trans hab, fun reservation h => hia reservation (hib reservation h)⟩

theorem idle_run {α : Type} {p : Port α} (hp : p.Uses Call.Reads) (state : World × Log)
    (faults : ℕ → Option Fault × Choice) : Idle state (p.run lossy faults state).2 :=
  Program.run_of_wp (idle_wp hp state) faults

theorem yields_wp {α : Type} {p : Port α} {post : Except Fault α → Prop}
    (hp : p.Yields Settled post) (state : World × Log) :
    p.wp lossy state fun result _ => post result := by
  have hserve : ∀ choice (state : World × Log) call, Settled call (lossy choice state call).1 :=
    fun choice state call => settled_faulty choice state.1 call
  exact Program.wp_of_yields hserve hp state

theorem yields_run {α : Type} {p : Port α} {post : Except Fault α → Prop}
    (hp : p.Yields Settled post) (state : World × Log) (faults : ℕ → Option Fault × Choice) :
    post (p.run lossy faults state).1 :=
  Program.run_of_wp (yields_wp hp state) faults

-- Without a slot of its own the request only looks, and proposes or gives up.
theorem idle_elsewhere (state : World × Log) (faults : ℕ → Option Fault × Choice) :
    Idle state ((afterClaim config input none).run lossy faults state).2 := by
  have hwp : (afterClaim config input none).wp lossy state fun _ after => Idle state after := ?_
  · exact Program.run_of_wp hwp faults
  unfold afterClaim
  rw [Program.wp_bind]
  refine Program.wp_mono (Program.wp_and (idle_wp (lookElsewhere_reads config _) state)
    (yields_wp (lookElsewhere_unassigned config _) state)) ?_
  rintro result after ⟨hidle, hun⟩
  cases result with
  | error err => exact hidle
  | ok assignment =>
      cases assignment with
      | ASSIGNED slot => exact absurd rfl (hun slot)
      | SUGGEST_OTHER_BRANCH branch distanceKm => exact hidle
      | NO_AVAILABILITY => exact hidle

theorem noTrace_of_idle {before : Database}
    {after : Except Fault CreateReservationResult × World × Log} (hdb : after.2.1.db = before)
    (hlog : ∀ reservation, ¬Inserted after.2.2 reservation) : NoTrace before after where
  untouched _ slotId := by rw [hdb]
  truthful data reservation hm := absurd ⟨data, hm⟩ (hlog reservation)

theorem lossy_clock (choice : Option Fault × Choice) :
    lossy choice (⟨db, now⟩, log) .clockNow = (.ok (now + choice.2.elapsed),
      ⟨db, now + choice.2.elapsed⟩, ⟨.clockNow, .ok (now + choice.2.elapsed)⟩ :: log) := by
  obtain ⟨lost, choice⟩ := choice
  cases lost <;> rfl

-- After the claim, the clock is read and the insert is made.
section Store

theorem run_store (slot : ParkingSlot) (db : Database) (now : ℤ)
    (faults : ℕ → Option Fault × Choice) (h : (faults 1).1 = none)
    (hlog : ∀ reservation, ¬Inserted log reservation)
    (before : Database) : NoTrace before
      ((CreateReservationUseCase.store config input slot).run lossy faults (⟨db, now⟩, log)) := by
  obtain ⟨choice, hc⟩ : ∃ choice, faults 1 = (none, choice) := ⟨_, Prod.ext h rfl⟩
  rw [store_eq, Program.run_perform_bind, lossy_clock]
  simp only [Program.run_perform_bind, Nat.zero_add, hc, lossy_served]
  obtain ⟨bigger, -, hq⟩ := query_reservationsCreate db choice
    (now + (faults 0).2.elapsed + choice.elapsed)
    (reservationData config input slot (now + (faults 0).2.elapsed))
  rw [hq]
  have hresult := yields_run (announced_settles (PrismaReservationRepository.newRow db choice.uuid
    (now + (faults 0).2.elapsed + choice.elapsed) (reservationData config input slot
      (now + (faults 0).2.elapsed))))
  have hidle := idle_run (announced_reads (PrismaReservationRepository.newRow db choice.uuid
    (now + (faults 0).2.elapsed + choice.elapsed) (reservationData config input slot
      (now + (faults 0).2.elapsed))))
  constructor
  · exact fun hne => absurd (hresult _ _) (hne _)
  · intro data reservation hm
    obtain ⟨data', hm'⟩ := (hidle _ _).2 reservation ⟨data, hm⟩
    rcases List.mem_cons.mp hm' with he | hm'
    · cases he
      exact hresult _ _
    · exact absurd (inserted_cons_of_reads (by trivial) ⟨data', hm'⟩) (hlog reservation)

theorem run_store_lost (slot : ParkingSlot) (db : Database) (now : ℤ) (log : Log)
    (faults : ℕ → Option Fault × Choice) {err : Fault} (h : (faults 1).1 = some err) :
    ∃ later log', (CreateReservationUseCase.store config input slot).run lossy faults
      (⟨db, now⟩, log) = (.error err, ⟨db, later⟩, log') := by
  obtain ⟨choice, hc⟩ : ∃ choice, faults 1 = (some err, choice) := ⟨_, Prod.ext h rfl⟩
  rw [store_eq, Program.run_perform_bind, lossy_clock]
  simp only [Program.run_perform_bind, Nat.zero_add, hc]
  rw [lossy_lost rfl]
  exact ⟨_, _, rfl⟩

end Store

section Reserve

theorem run_claim_lost {α : Type} (f : Option ParkingSlot → Port α) {err : Fault}
    (h : (faults 0).1 = some err) (state : World × Log) :
    Idle state ((claimSlot config (wanted input) >>= f).run lossy faults state).2 := by
  obtain ⟨choice, hc⟩ : ∃ choice, faults 0 = (some err, choice) := ⟨_, Prod.ext h rfl⟩
  obtain ⟨world, log⟩ := state
  unfold claimSlot
  cases config.strategy with
  | default =>
      simp only [Program.run_perform_bind, hc]
      rw [lossy_lost rfl]
      exact ⟨rfl, fun _ => inserted_cons fun _ he => by cases he⟩
  | balanced =>
      simp only [Program.run_perform_bind, hc]
      rw [lossy_lost rfl]
      exact ⟨rfl, fun _ => inserted_cons fun _ he => by cases he⟩

-- The claim of the run, and what it leaves to the rest.
theorem run_claim {α : Type} (db : Database) (now : ℤ) (log : Log)
    (f : Option ParkingSlot → Port α) (h : (faults 0).1 = none) :
    ∃ event : Record Call Answer Fault, (∀ data, event.call ≠ .reservationsCreate data) ∧
      (claimSlot config (wanted input) >>= f).run lossy faults (⟨db, now⟩, log) =
        match firstFree config db (faults 0).2.locked input with
        | some slot => (f (some (PrismaParkingSlotRepository.withStatus .RESERVADA
            (now + (faults 0).2.elapsed) slot))).run lossy (fun n => faults (n + 1))
            (⟨PrismaParkingSlotRepository.setStatus db slot.id .RESERVADA
              (now + (faults 0).2.elapsed), now + (faults 0).2.elapsed⟩, event :: log)
        | none => (f none).run lossy (fun n => faults (n + 1))
            (⟨db, now + (faults 0).2.elapsed⟩, event :: log) := by
  obtain ⟨choice, hc⟩ : ∃ choice, faults 0 = (none, choice) := ⟨_, Prod.ext h rfl⟩
  unfold claimSlot firstFree
  cases config.strategy with
  | default =>
      refine ⟨⟨_, (query choice (now + choice.elapsed) db
        (.slotsClaimAvailableSlot input.branchId input.slotType)).1⟩, ?_, ?_⟩
      · exact fun _ he => by cases he
      · simp only [Program.run_perform_bind, hc, lossy_served, query,
          PrismaParkingSlotRepository.claimAvailableSlot, PrismaParkingSlotRepository.claim]
        cases PrismaParkingSlotRepository.select PrismaParkingSlotRepository.byCode db choice.locked
          input.branchId input.slotType <;> rfl
  | balanced =>
      refine ⟨⟨_, (query choice (now + choice.elapsed) db
        (.slotsClaimLeastRecentlyUsedSlot input.branchId input.slotType)).1⟩, ?_, ?_⟩
      · exact fun _ he => by cases he
      · simp only [Program.run_perform_bind, hc, lossy_served, query,
          PrismaParkingSlotRepository.claimLeastRecentlyUsedSlot, PrismaParkingSlotRepository.claim]
        cases PrismaParkingSlotRepository.select PrismaParkingSlotRepository.byUpdatedAt db
          choice.locked input.branchId input.slotType <;> rfl

theorem vacant_of_firstFree {locked : Id → Bool} {slot : ParkingSlot}
    (h : firstFree config db locked input = some slot) : Vacant db slot.id := by
  unfold firstFree at h
  cases hs : config.strategy with
  | default =>
      rw [hs] at h
      obtain ⟨hm, ha⟩ := PrismaParkingSlotRepository.select_eq_some h
      exact vacant_of_available hm ha
  | balanced =>
      rw [hs] at h
      obtain ⟨hm, ha⟩ := PrismaParkingSlotRepository.select_eq_some h
      exact vacant_of_available hm ha

-- After the claim of a slot, it is lost exactly when the insert fails.
theorem store_noTrace_iff (hlog : ∀ reservation, ¬Inserted log reservation) {slot : ParkingSlot}
    (hv : Vacant db slot.id) (later : ℤ) (faults : ℕ → Option Fault × Choice) :
    NoTrace db ((CreateReservationUseCase.store config input
        (PrismaParkingSlotRepository.withStatus .RESERVADA later slot)).run lossy faults
      (⟨PrismaParkingSlotRepository.setStatus db slot.id .RESERVADA later, later⟩, log)) ↔
    ¬(faults 1).1.isSome := by
  cases hstore : (faults 1).1 with
  | none =>
      have htrace := run_store config input
        (PrismaParkingSlotRepository.withStatus .RESERVADA later slot)
        (PrismaParkingSlotRepository.setStatus db slot.id .RESERVADA later) later faults hstore hlog db
      simp only [htrace, Option.isSome_none, Bool.false_eq_true, not_false_eq_true]
  | some err =>
      obtain ⟨after, log', hlost⟩ := run_store_lost config input
        (PrismaParkingSlotRepository.withStatus .RESERVADA later slot)
        (PrismaParkingSlotRepository.setStatus db slot.id .RESERVADA later) later log faults hstore
      simp only [hlost, Option.isSome_some, not_true_eq_false, iff_false]
      intro htrace
      have hstatus := htrace.untouched (fun _ he => by cases he) slot.id
      rw [slotStatus_slots_setStatus, if_pos rfl, hv, Option.map_some] at hstatus
      cases hstatus

-- After an eligibility check that passed, a slot is lost exactly when it was
-- claimed and its insert fails.
theorem reserve_noTrace_iff (hlog : ∀ reservation, ¬Inserted log reservation) :
    NoTrace db ((CreateReservationUseCase.reserve config input).run lossy faults
      (⟨db, now⟩, log)) ↔
    ¬((faults 0).1 = none ∧ (firstFree config db (faults 0).2.locked input).isSome ∧
      (faults 2).1.isSome) := by
  rw [reserve_eq]
  cases hclaim : (faults 0).1 with
  | some err =>
      obtain ⟨hdb, hinserted⟩ := run_claim_lost config input
        (afterClaim config input) hclaim (⟨db, now⟩, log)
      have htrace := noTrace_of_idle hdb fun reservation h => hlog reservation (hinserted _ h)
      simp only [htrace, reduceCtorEq, false_and, not_false_eq_true]
  | none =>
      obtain ⟨event, hevent, hrun⟩ := run_claim config input db now log
        (afterClaim config input) hclaim
      have hlog' : ∀ reservation, ¬Inserted (event :: log) reservation :=
        fun reservation h => hlog reservation (inserted_cons hevent h)
      rw [hrun]
      cases hfree : firstFree config db (faults 0).2.locked input with
      | none =>
          obtain ⟨hdb, hinserted⟩ := idle_elsewhere config input
            (⟨db, now + (faults 0).2.elapsed⟩, event :: log) fun n => faults (n + 1)
          have htrace := noTrace_of_idle hdb fun reservation h => hlog' reservation (hinserted _ h)
          simp only [htrace, Option.isSome_none, Bool.false_eq_true, false_and, and_false,
            not_false_eq_true]
      | some slot =>
          have hv := vacant_of_firstFree config input hfree
          have hstore := store_noTrace_iff config input hlog' hv
            (now + (faults 0).2.elapsed) fun n => faults (n + 1)
          dsimp only [afterClaim]
          rw [hstore]
          simp only [Option.isSome_some, true_and]

end Reserve

-- A lookup of the eligibility check: when it is lost nothing has happened yet.
theorem lookup_noTrace_iff {call : Call} (hreads : call.Reads) (hfallible : call.fallible = true)
    {value : Answer call} (hq : ∀ choice later, query choice later db call = (.ok value, db))
    {f : Answer call → Port CreateReservationResult} (leaks : Prop)
    (hrest : ∀ later log, (∀ reservation, ¬Inserted log reservation) →
      (NoTrace db ((f value).run lossy (fun n => faults (n + 1)) (⟨db, later⟩, log)) ↔ ¬leaks))
    (hlog : ∀ reservation, ¬Inserted log reservation) :
    NoTrace db ((ask call >>= f).run lossy faults (⟨db, now⟩, log)) ↔
      ¬((faults 0).1 = none ∧ leaks) := by
  have hmore : ∀ answer reservation, ¬Inserted (⟨call, answer⟩ :: log) reservation :=
    fun _ reservation h => hlog reservation (inserted_cons_of_reads hreads h)
  rw [Program.run_perform_bind]
  rcases hfirst : faults 0 with ⟨_ | err, choice⟩
  · rw [lossy_served, hq]
    simp only [true_and]
    exact hrest _ _ (hmore _)
  · rw [lossy_lost hfallible]
    simp only [reduceCtorEq, false_and, not_false_eq_true, iff_true]
    exact noTrace_of_idle rfl (hmore (.error err))

-- A request leaves no trace of a failure, and tells the truth about its insert,
-- exactly when it does not lose the insert of a slot it has claimed.
theorem no_trace_iff (config : Config) (input : CreateReservationInput)
    (faults : ℕ → Option Fault × Choice) (world : World) :
    NoTrace world.db (attempt config input faults world) ↔
      ¬InsertLost config input faults world.db := by
  obtain ⟨db, now⟩ := world
  unfold attempt InsertLost CreateReservationUseCase.execute
    DefaultReservationPolicy.canCreateReservation
  simp only [bind_assoc]
  have hrefused : ∀ later log, (∀ reservation, ¬Inserted log reservation) →
      NoTrace db ((throw (.domain .ReservationAlreadyActive) :
        Port CreateReservationResult).run lossy faults (⟨db, later⟩, log)) :=
    fun _ _ hlog => noTrace_of_idle rfl hlog
  refine lookup_noTrace_iff (by trivial) rfl (fun _ _ => rfl) _ ?_
    fun _ ⟨_, hm⟩ => absurd hm List.not_mem_nil
  intro later log hlog
  cases PrismaReservationRepository.findActiveByUser db input.userId with
  | some reservation =>
      simp only [reduceCtorEq, false_and, not_false_eq_true, iff_true]
      exact hrefused later log hlog
  | none =>
      simp only [bind_assoc, true_and]
      refine lookup_noTrace_iff (by trivial) rfl (fun _ _ => rfl) _ ?_ hlog
      intro later log hlog
      cases PrismaParkingSessionRepository.findActiveByUser db input.userId with
      | some session =>
          simp only [reduceCtorEq, false_and, not_false_eq_true, iff_true]
          exact hrefused later log hlog
      | none =>
          simp only [true_and]
          exact reserve_noTrace_iff config input hlog

-- The slot is claimed and the insert is lost: the slot stays RESERVADA.
theorem no_trace_fails : ¬∀ (config : Config) (input : CreateReservationInput)
    (faults : ℕ → Option Fault × Choice) (world : World),
    NoTrace world.db (attempt config input faults world) := by
  intro h
  let faults : ℕ → Option Fault × Choice := fun n =>
    (if n = 4 then some (.infrastructure "Connection lost.") else none, Demo.choice "r1")
  let world : World := ⟨.opening Demo.branches Demo.slots, 0⟩
  have htrace : NoTrace world.db (attempt Demo.config (Demo.request "u1") faults world) :=
    h Demo.config (Demo.request "u1") faults world
  have hlost : (attempt Demo.config (Demo.request "u1") faults world).1 =
      .error (.infrastructure "Connection lost.") := by
    decide +kernel
  have hstatus := htrace.untouched (fun reservation he => by rw [hlost] at he; cases he) "s1"
  revert hstatus
  decide +kernel

end SmartParking
