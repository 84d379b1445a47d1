import SmartParking.Announcement.Theorems

namespace SmartParking

open Async

-- How often an execution makes a reservation known on one way.
section Weights

def Channel.weight (channel : Channel) (call : Call) : ℕ :=
  if (madeKnown channel call).isSome then 1 else 0

def Channel.is (channel other : Channel) : ℕ := if channel = other then 1 else 0

variable {channel : Channel} {call : Call}

theorem weight_of_looks (h : call.Looks) : channel.weight call = 0 := by
  cases call <;> first | exact h.elim | (cases channel <;> rfl)

theorem weight_publishAuditEvent (event : AuditEvent) :
    channel.weight (.publishAuditEvent event) ≤ channel.is .audit := by
  cases channel
  case audit =>
    unfold Channel.weight
    split <;> decide
  all_goals rfl

theorem weight_publishReservationConfirmation (event : ReservationConfirmationEvent) :
    channel.weight (.publishReservationConfirmation event) = channel.is .mail := by
  cases channel <;> rfl

theorem weight_notifyReservationRequestResolved (payload : ReservationRequestResolvedPayload) :
    channel.weight (.notifyReservationRequestResolved payload) ≤ channel.is .reply := by
  cases channel
  case reply =>
    unfold Channel.weight
    split <;> decide
  all_goals rfl

-- An execution that has created nothing has nothing to make known.

theorem weight_of_permits {known : Set Fact} (hknown : ∀ reservation, .created reservation ∉ known)
    (hpermits : reporting.permits known call) : channel.weight call = 0 := by
  cases call with
  | notify message =>
      cases hpermits with
      | created h | reserved h _ _ | filled h => exact absurd h (hknown _)
      | _ => cases channel <;> rfl
  | publishAuditEvent event =>
      cases hpermits with
      | created h => exact absurd h (hknown _)
      | cancelled _ _ => cases channel <;> rfl
  | publishReservationConfirmation event =>
      obtain ⟨h, -⟩ := hpermits
      exact absurd h (hknown _)
  | notifyReservationRequestResolved payload =>
      obtain ⟨requestId, userId, resolution⟩ := payload
      cases resolution with
      | CREATED id branchId slotId startAt expiresAt =>
          obtain ⟨reservation, h, -⟩ := hpermits
          exact absurd h (hknown _)
      | SUGGEST_OTHER_BRANCH id name address distanceKm => cases channel <;> rfl
      | REJECTED code message => cases channel <;> rfl
  | _ => cases channel <;> rfl

def Call.Creates : Call → Prop
  | .reservationsCreate _ => True
  | _ => False

theorem created_notMem_teaches {call : Call} (hcall : ¬call.Creates)
    (answer : Except Fault (Answer call)) (reservation : Reservation) :
    .created reservation ∉ reporting.teaches call answer := by
  intro h
  cases shows_of_teaches h
  exact hcall trivial

end Weights

section Bounds

variable {channel : Channel} {α β : Type}

abbrev Makes (channel : Channel) (p : Port α) (most : ℕ) : Prop :=
  p.AtMost reporting.possible channel.weight most

theorem makes_ask {call : Call} {most : ℕ} (h : channel.weight call ≤ most) :
    Makes channel (ask call) most :=
  ⟨h, fun _ _ => trivial⟩

theorem makes_quiet_bind {p : Port α} {f : α → Port β} {most : ℕ}
    (hp : p.Uses fun call => channel.weight call = 0)
    (hf : ∀ value, Makes channel (f value) most) : Makes channel (p >>= f) most := by
  have hquiet : Makes channel p 0 := Program.atMost_of_uses hp
  have h := Program.atMost_bind hquiet hf
  rwa [Nat.zero_add] at h

theorem makes_looks_bind {p : Port α} {f : α → Port β} {most : ℕ} (hp : p.Uses Call.Looks)
    (hf : ∀ value, Makes channel (f value) most) : Makes channel (p >>= f) most :=
  makes_quiet_bind (hp.mono fun _ => weight_of_looks) hf

theorem makes_bind {p : Port α} {f : α → Port β} {most : ℕ} (hp : Makes channel p most)
    (hf : ∀ value, Makes channel (f value) 0) : Makes channel (p >>= f) most :=
  Program.atMost_bind hp hf

theorem makes_tryCatch {p : Port α} {handler : Fault → Port α} {most : ℕ}
    (hp : Makes channel p most) (hh : ∀ err, Makes channel (handler err) 0) :
    Makes channel (p.tryCatch handler) most :=
  Program.atMost_tryCatch hp hh

theorem makes_notifyAll (messages : List Notification) :
    Makes channel (notifier.notifyAll messages)
      (messages.map fun message => channel.weight (.notify message)).sum := by
  induction messages with
  | nil => trivial
  | cons message rest ih => exact Program.atMost_bind (makes_ask le_rfl) fun _ => ih

-- All but the storing of a reservation leaves an execution with nothing to make known.
theorem makes_of_reports {p : Port α} {post : Except Fault α → Set Fact → Prop}
    (hp : Reports p ∅ post) (huses : p.Uses fun call => ¬call.Creates) :
    Makes channel p 0 := by
  refine Program.atMost_of_obeys (fun known => ∀ reservation, .created reservation ∉ known)
    (fun known call hknown _ hpermits => weight_of_permits hknown hpermits) ?_ hp huses
    fun _ => Set.notMem_empty _
  rintro known call answer hknown hcall reservation (h | h)
  · exact created_notMem_teaches hcall answer reservation h
  · exact hknown reservation h

namespace CreateReservationUseCase

theorem makes_publishConfirmationEmail (reservation : Reservation) :
    Makes channel (publishConfirmationEmail reservation) (channel.is .mail) := by
  refine makes_tryCatch ?_ fun _ => trivial
  refine makes_looks_bind (Program.uses_both (uses_ask.mpr trivial) (uses_ask.mpr trivial))
    fun pair => ?_
  obtain ⟨user, branch⟩ := pair
  cases user <;> cases branch
  all_goals try trivial
  refine makes_looks_bind (uses_ask.mpr trivial) fun eventId => ?_
  refine makes_looks_bind (uses_ask.mpr trivial) fun occurredAt => ?_
  exact makes_ask (weight_publishReservationConfirmation _).le

theorem makes_announce (reservation : Reservation) :
    Makes channel (announce reservation)
      (channel.is .audit + (channel.is .realtime + channel.is .mail)) := by
  refine Program.atMost_bind ?_ fun _ => Program.atMost_bind ?_ fun _ =>
    makes_publishConfirmationEmail reservation
  · refine makes_looks_bind (uses_ask.mpr trivial) fun eventId => ?_
    refine makes_looks_bind (uses_ask.mpr trivial) fun occurredAt => ?_
    exact makes_ask (weight_publishAuditEvent _)
  · refine Program.atMost_mono (makes_notifyAll _) (le_of_eq ?_)
    cases channel <;> rfl

theorem makes_execute (config : Config) (input : CreateReservationInput) :
    Makes channel (execute config input)
      (channel.is .audit + (channel.is .realtime + channel.is .mail)) := by
  have hstore (slot : ParkingSlot) : Makes channel (store config input slot)
      (channel.is .audit + (channel.is .realtime + channel.is .mail)) := by
    refine makes_looks_bind (uses_ask.mpr trivial) fun now => ?_
    refine makes_quiet_bind (uses_ask.mpr ?_) fun reservation => ?_
    · cases channel <;> rfl
    · exact makes_bind (makes_announce reservation) fun _ => trivial
  refine makes_looks_bind (canCreateReservation_looks _) fun eligibility => ?_
  split
  · trivial
  rw [reserve_eq]
  refine makes_quiet_bind ?_ fun claimed => ?_
  · unfold claimSlot
    split <;> exact uses_ask.mpr (by cases channel <;> rfl)
  cases claimed with
  | some slot => exact hstore slot
  | none =>
      refine makes_looks_bind (lookElsewhere_looks config _) fun assignment => ?_
      cases assignment with
      | ASSIGNED slot => exact hstore slot
      | SUGGEST_OTHER_BRANCH branch distanceKm => trivial
      | NO_AVAILABILITY => trivial

end CreateReservationUseCase

theorem makes_task (config : Config) (task : Task) : Makes channel (task.execute config) 1 := by
  have hone : channel.is .audit + (channel.is .realtime + channel.is .mail) + channel.is .reply = 1 := by
    cases channel <;> rfl
  have hreads : ∀ call : Call, call.Reads → ¬call.Creates := fun call hr hc => by
    cases call <;> first | exact hr.elim | exact hc.elim
  cases task with
  | deliver message =>
      change Makes channel (ReservationRequestConsumer.handle config message) 1
      have hack {call : Call} (h : channel.weight call = 0) : Makes channel (ask call) 0 :=
        makes_ask h.le
      have hquiet : channel.weight .channelAck = 0 ∧
          ∀ requeue, channel.weight (.channelNack requeue) = 0 := by
        cases channel <;> exact ⟨rfl, fun _ => rfl⟩
      unfold ReservationRequestConsumer.handle
      split
      · exact Program.atMost_mono (hack (hquiet.2 _)) (Nat.zero_le _)
      · refine makes_tryCatch ?_ fun _ => hack (hquiet.2 _)
        refine makes_bind ?_ fun _ => hack hquiet.1
        rw [← hone]
        refine Program.atMost_bind ?_ fun resolution =>
          makes_ask (weight_notifyReservationRequestResolved _)
        refine makes_tryCatch ?_ fun err => by cases err <;> trivial
        exact makes_bind (CreateReservationUseCase.makes_execute config _)
          fun _ => trivial
  | operate operation =>
      refine makes_bind ?_ fun _ => trivial
      have hquiet {p : Port Outcome} (hp : Makes channel p 0) : Makes channel p 1 :=
        Program.atMost_mono hp (Nat.zero_le 1)
      have hreports := @reports_operation ∅ config operation
      cases operation with
      | CreateReservation input =>
          refine makes_bind ?_ fun _ => trivial
          refine Program.atMost_mono (CreateReservationUseCase.makes_execute config input) ?_
          omega
      | CancelReservation input =>
          exact hquiet (makes_of_reports hreports (Program.uses_bind
            (uses_cancel hreads input (fun _ => id) fun _ => id) fun _ => trivial))
      | ExpireOverdueReservations =>
          exact hquiet (makes_of_reports hreports (Program.uses_bind
            (uses_expire hreads (fun _ => id) fun _ => id) fun _ => trivial))
      | RegisterEntry token =>
          exact hquiet (makes_of_reports hreports (Program.uses_bind
            (uses_entry hreads token (fun _ _ => id) (fun _ => id) fun _ => id) fun _ => trivial))
      | RegisterExit token =>
          exact hquiet (makes_of_reports hreports (Program.uses_bind
            (uses_exit hreads token (fun _ _ => id) (fun _ => id) fun _ => id) fun _ => trivial))

end Bounds

section Runs

variable {Tid : Type} [DecidableEq Tid] {first pool : Workers Tid}

abbrev Unsure := Option (Fault × Bool) × Choice

theorem possible_unreliable (choice : Unsure) (world : World) (call : Call) :
    reporting.possible call (unreliable serve choice world call).1 := by
  refine unreliable_cases (fun answer _ => reporting.possible call answer) (fun choice => ?_) ?_ ?_
    choice
  · exact possible_query world.db choice (world.clock + choice.elapsed) call
  · exact fun _ _ => by cases call <;> trivial
  · exact fun _ => by cases call <;> trivial

theorem preserves_unreliable (choice : Unsure) (world : World) (call : Call) :
    Preserves world.db (unreliable serve choice world call).2.db :=
  unreliable_cases (fun _ (after : World) => Preserves world.db after.db)
    (fun choice => preserves_query world.db choice (world.clock + choice.elapsed) call)
    (fun choice _ => preserves_query world.db choice (world.clock + choice.elapsed) call)
    (fun _ => .refl world.db) choice

def TrueIn (world : World) (fact : Fact) : Prop := fact.Holds world.db

theorem holds_unreliable (choice : Unsure) (world : World) (call : Call) (fact : Fact)
    (hfact : fact ∈ reporting.teaches call (unreliable serve choice world call).1) :
    TrueIn (unreliable serve choice world call).2 fact := by
  revert hfact
  refine unreliable_cases (fun answer after => fact ∈ reporting.teaches call answer →
    TrueIn after fact) (fun choice => ?_) (fun choice err hfact => ?_)
      (fun err hfact => ?_) choice
  · exact holds_query world.db choice (world.clock + choice.elapsed) call fact
  · exact nomatch shows_of_teaches hfact
  · exact nomatch shows_of_teaches hfact

theorem linked_unreliable (choice : Unsure) (world : World) (call : Call) (known : Set Fact)
    (hpermits : reporting.permits known call) (hknown : ∀ fact ∈ known, TrueIn world fact)
    (h : (Linked ∘ World.db) world) : (Linked ∘ World.db) (unreliable serve choice world call).2 :=
  unreliable_cases (fun _ (after : World) => Linked after.db)
    (fun _ => linked_query h hpermits hknown) (fun _ _ => linked_query h hpermits hknown)
    (fun _ => h) choice

-- All that was ever told is still so.
theorem upheld_unreliable (h : Pool.Reaches (unreliable serve) Pool.unguarded first pool)
    (hstart : first.history = []) : ∀ event ∈ pool.history,
      ∀ fact ∈ reporting.teaches event.call event.answer, TrueIn pool.world fact :=
  h.upheld hstart holds_unreliable fun choice world call _ =>
    holds_preserved (preserves_unreliable choice world call)

-- The id of the reservation that a call has stored.
def createdId (event : Event Tid Call Answer Fault) : Option Id :=
  match event with
  | ⟨_, .reservationsCreate _, .ok reservation⟩ => some reservation.id
  | _ => none

omit [DecidableEq Tid] in
theorem createdId_eq_some {event : Event Tid Call Answer Fault} {id : Id} :
    createdId event = some id ↔ ∃ reservation : Reservation,
      .created reservation ∈ reporting.teaches event.call event.answer ∧ reservation.id = id := by
  constructor
  · intro h
    unfold createdId at h
    split at h
    · exact ⟨_, rfl, Option.some.inj h⟩
    · cases h
  · obtain ⟨thread, call, answer⟩ := event
    rintro ⟨reservation, h, rfl⟩
    cases shows_of_teaches h
    rfl

-- A stored reservation gets an id that no row has.
theorem fresh_created {choice : Unsure} {world : World} {call : Call} {reservation : Reservation}
    (h : .created reservation ∈ reporting.teaches call (unreliable serve choice world call).1) :
    ∀ row ∈ world.db.reservations, row.id ≠ reservation.id := by
  revert h
  refine unreliable_cases (fun answer _ => .created reservation ∈ reporting.teaches call answer →
    ∀ row ∈ world.db.reservations, row.id ≠ reservation.id) (fun choice h => ?_) ?_ ?_ choice
  · generalize hanswer : (serve choice world call).1 = answer at h
    cases shows_of_teaches h
    rename_i data
    obtain ⟨bigger, hb, hq⟩ :=
      query_reservationsCreate world.db choice (world.clock + choice.elapsed) data
    have hnew : (serve choice world (.reservationsCreate data)).1 = .ok
        (PrismaReservationRepository.newRow world.db choice.uuid
          (world.clock + choice.elapsed) data) := congrArg Prod.fst hq
    obtain rfl := Except.ok.inj (hnew.symm.trans hanswer)
    exact (Table.insert_fresh hb).1
  · exact fun _ _ h => nomatch shows_of_teaches h
  · exact fun _ h => nomatch shows_of_teaches h

-- No two reservations are stored under one id.
theorem created_once (h : Pool.Reaches (unreliable serve) Pool.unguarded first pool)
    (hstart : first.history = []) (id : Id) :
    pool.history.countP (fun event => createdId event = some id) ≤ 1 := by
  induction h with
  | refl => simp [hstart]
  | @step pool thread choice hr _ ih =>
      cases ht : pool.threads thread with
      | done result =>
          rw [Pool.step_done ht]
          exact ih
      | await call next =>
          rw [Pool.step_await ht, List.countP_cons]
          split
          · rename_i hnew
            obtain ⟨reservation, hteaches, hid⟩ := createdId_eq_some.mp (of_decide_eq_true hnew)
            have hnone : pool.history.countP (fun event => createdId event = some id) = 0 := by
              rw [List.countP_eq_zero]
              intro event hevent hold
              obtain ⟨old, hold, hid'⟩ := createdId_eq_some.mp (of_decide_eq_true hold)
              obtain ⟨row, hm, hsame⟩ := upheld_unreliable hr hstart event hevent _ hold
              exact fresh_created hteaches row hm (hsame.id.trans (hid'.trans hid.symm))
            omega
          · exact ih

-- Who makes a reservation known has stored it.
theorem created_of_madeKnown {channel : Channel} {known : Set Fact} {call : Call} {id : Id}
    (hpermits : reporting.permits known call) (h : madeKnown channel call = some id) :
    ∃ reservation : Reservation, .created reservation ∈ known ∧ reservation.id = id := by
  cases call with
  | notify message =>
      cases channel <;> cases message <;> cases h
      cases hpermits with
      | created hr => exact ⟨_, hr, rfl⟩
  | publishAuditEvent event =>
      cases channel <;> try cases h
      unfold madeKnown at h
      cases hpermits with
      | created hr => exact ⟨_, hr, Option.some.inj h⟩
      | cancelled _ _ => cases h
  | publishReservationConfirmation event =>
      cases channel <;> cases h
      obtain ⟨hr, -⟩ := hpermits
      exact ⟨_, hr, rfl⟩
  | notifyReservationRequestResolved payload =>
      obtain ⟨requestId, userId, resolution⟩ := payload
      cases channel <;> cases resolution <;> cases h
      obtain ⟨reservation, hr, hid, -⟩ := hpermits
      exact ⟨reservation, hr, hid⟩
  | _ => cases channel <;> cases h

theorem eq_of_countP_le_one {Ev : Type} {holds : Ev → Bool} {events : List Ev} {a b : Ev}
    (hcount : events.countP holds ≤ 1) (ha : a ∈ events) (hb : b ∈ events) (hha : holds a = true)
    (hhb : holds b = true) : a = b := by
  rw [List.countP_eq_length_filter] at hcount
  have hfa := List.mem_filter.mpr ⟨ha, hha⟩
  have hfb := List.mem_filter.mpr ⟨hb, hhb⟩
  match hf : events.filter holds, hcount with
  | [], _ =>
      rw [hf] at hfa
      cases hfa
  | [event], _ =>
      rw [hf, List.mem_singleton] at hfa hfb
      exact hfa.trans hfb.symm

theorem countP_le_spent {channel : Channel} {id : Id} {thread : Tid} {history : History Tid}
    (h : ∀ event ∈ history, madeKnown channel event.call = some id → event.thread = thread) :
    history.countP (fun event => madeKnown channel event.call = some id) ≤
      spent channel.weight history thread := by
  induction history with
  | nil => exact Nat.zero_le _
  | cons event earlier ih =>
      obtain ⟨hevent, hearlier⟩ := List.forall_mem_cons.mp h
      have hrest := ih hearlier
      unfold spent at hrest ⊢
      rw [List.countP_cons, List.filter_cons]
      by_cases hknown : madeKnown channel event.call = some id
      · have hweight : channel.weight event.call = 1 := by simp [Channel.weight, hknown]
        simp only [hknown, hevent hknown, decide_true, if_true, List.map_cons, List.sum_cons, hweight]
        omega
      · simp only [hknown, decide_false, Bool.false_eq_true, if_false, Nat.add_zero]
        split
        · rw [List.map_cons, List.sum_cons]
          exact hrest.trans (Nat.le_add_left _ _)
        · exact hrest

variable {config : Config} {world : World} {tasks : Tid → Task}

theorem backed_of_reaches
    (h : Pool.Reaches (unreliable serve) Pool.unguarded (Workers.start config world tasks) pool) :
    Along (fun event earlier =>
      reporting.permits (reporting.taught earlier event.thread) event.call) pool.history :=
  (h.obeys rfl possible_unreliable fun thread => reports_task config (tasks thread)).1

theorem linked_of_reaches (hlinked : Linked world.db)
    (h : Pool.Reaches (unreliable serve) Pool.unguarded (Workers.start config world tasks) pool) :
    Linked pool.world.db := by
  have hlinked' : (Linked ∘ World.db) pool.world :=
    h.sustained rfl possible_unreliable (fun thread => reports_task config (tasks thread))
      holds_unreliable (fun choice world call _ => holds_preserved (preserves_unreliable choice world call))
      hlinked linked_unreliable
  exact hlinked'

-- What an execution went by when it made a call is still so.
theorem trueIn_of_taught
    (h : Pool.Reaches (unreliable serve) Pool.unguarded (Workers.start config world tasks) pool)
    {later earlier : History Tid} {event : Event Tid Call Answer Fault}
    (hsplit : pool.history = later ++ event :: earlier) :
    ∀ fact ∈ reporting.taught earlier event.thread, TrueIn pool.world fact := by
  rintro fact ⟨told, htold, -, hteaches⟩
  refine upheld_unreliable h rfl told ?_ fact hteaches
  rw [hsplit]
  exact List.mem_append_right _ (List.mem_cons_of_mem _ htold)

-- Who makes a reservation known is the one that has stored it.
theorem creator_of_madeKnown
    (h : Pool.Reaches (unreliable serve) Pool.unguarded (Workers.start config world tasks) pool)
    {channel : Channel} {id : Id} {event : Event Tid Call Answer Fault}
    (hevent : event ∈ pool.history) (hknown : madeKnown channel event.call = some id) :
    ∃ created ∈ pool.history, created.thread = event.thread ∧ createdId created = some id := by
  obtain ⟨later, earlier, hsplit, hpermits⟩ := (backed_of_reaches h).mem hevent
  obtain ⟨reservation, ⟨created, hm, hthread, hteaches⟩, hid⟩ :=
    created_of_madeKnown hpermits hknown
  refine ⟨created, ?_, hthread, createdId_eq_some.mpr ⟨reservation, hteaches, hid⟩⟩
  rw [hsplit]
  exact List.mem_append_right _ (List.mem_cons_of_mem _ hm)

theorem madeKnown_once
    (h : Pool.Reaches (unreliable serve) Pool.unguarded (Workers.start config world tasks) pool)
    (channel : Channel) (id : Id) :
    pool.history.countP (fun event => madeKnown channel event.call = some id) ≤ 1 := by
  by_cases hany : ∃ event ∈ pool.history, madeKnown channel event.call = some id
  · obtain ⟨event, hevent, hknown⟩ := hany
    obtain ⟨created, hcreated, hthread, hid⟩ := creator_of_madeKnown h hevent hknown
    refine (countP_le_spent fun other hother hknown' => ?_).trans
      (h.spent_le rfl possible_unreliable (fun thread => makes_task config (tasks thread))
        event.thread)
    obtain ⟨created', hcreated', hthread', hid'⟩ := creator_of_madeKnown h hother hknown'
    have hsame := eq_of_countP_le_one (created_once h rfl id) hcreated hcreated'
      (decide_eq_true hid) (decide_eq_true hid')
    rw [← hthread', ← hsame, hthread]
  · rw [List.countP_eq_zero.mpr]
    · exact Nat.zero_le _
    · exact fun event hevent hknown => hany ⟨event, hevent, of_decide_eq_true hknown⟩

theorem announced_of_reaches (config : Config) (world : World) (tasks : Tid → Task)
    (hlinked : Linked world.db)
    (h : Pool.Reaches (unreliable serve) Pool.unguarded (Workers.start config world tasks) pool) :
    Announced pool where
  backed := backed_of_reaches h
  linked := linked_of_reaches hlinked h
  accurate event hevent := by
    obtain ⟨later, earlier, hsplit, hpermits⟩ := (backed_of_reaches h).mem hevent
    exact accurate_of_permits (linked_of_reaches hlinked h) (trueIn_of_taught h hsplit) hpermits
  once := madeKnown_once h

end Runs

theorem linked_opening (branches : Table Branch.id Branch.id)
    (slots : Table ParkingSlot.id fun slot => (slot.branchId, slot.code)) :
    Linked (Database.opening branches slots) where
  housed := housed_opening branches slots
  seated _ hm := absurd hm (Table.not_mem_empty _)

def Demo.known : Choice :=
  { Demo.choice "r1" with user := fun userId => some ⟨userId, "ana@example.com", "Ana"⟩ }

def Demo.cancellation : CancelReservationInput where
  reservationId := "r1"
  userId := "u1"

def Demo.message : ReservationRequestMessage where
  requestId := "q1"
  userId := "u1"
  branchId := "b1"
  slotType := none
  startAt := none
  requestedAt := 0

def Demo.tasks : Bool → Task
  | false => .deliver message
  | true => .operate (.CancelReservation cancellation)

-- A user cancels a reservation that is not yet announced, and what the broker answers
-- to the confirmation is lost.
def Demo.announced : Workers Bool :=
  (Workers.start Demo.config ⟨.opening Demo.branches Demo.twoSlots, 0⟩ Demo.tasks).play
    (unreliable serve)
    (List.replicate 6 (false, none, Demo.known) ++ List.replicate 9 (true, none, { Demo.known with uuid := "e1" }) ++
      List.replicate 9 (false, none, Demo.known) ++
      [(false, some (.infrastructure "Connection lost.", true), Demo.known)] ++
      List.replicate 2 (false, none, Demo.known))

theorem announced_demo : Announced Demo.announced ∧
    Demo.announced.history.countP (fun event => madeKnown .mail event.call = some "r1") = 1 := by
  refine ⟨?_, by decide⟩
  exact announced_of_reaches Demo.config ⟨.opening Demo.branches Demo.twoSlots, 0⟩ Demo.tasks
    (linked_opening _ _) (Pool.reaches_of_follows .refl (Pool.follows_unguarded _))

end SmartParking
