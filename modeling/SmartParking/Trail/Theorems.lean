import SmartParking.Announcement.Once
import SmartParking.Audit.History.Theorems
import SmartParking.Trail

namespace SmartParking

open Async KafkaAuditEventPublisherAdapter

-- Whom an execution acts for, where, and on which reservation, can be seen from its calls.
section Requests

def Task.wanted : Task → Option (Id × Id)
  | .deliver message => some (message.userId, message.branchId)
  | .operate (.CreateReservation input) => some (input.userId, input.branchId)
  | _ => none

def Task.May (task : Task) : Call → Prop :=
  match task with
  | .operate (.CancelReservation input) => fun
      | .reservationsCreate _ => False
      | .reservationsFindById id => id = input.reservationId
      | .reservationsFindExpiredPending _ => False
      | .publishAuditEvent event => event.actorUserId = input.userId
      | _ => True
  | task => fun
      | .reservationsCreate data => task.wanted = some (data.userId, data.branchId)
      | .reservationsUpdateStatus _ .CANCELLED _ => False
      | _ => True

theorem wanted_of_may {task : Task} {data : CreateReservationData}
    (h : task.May (.reservationsCreate data)) :
    task.wanted = some (data.userId, data.branchId) := by
  cases task with
  | deliver message => exact h
  | operate operation =>
      cases operation with
      | CancelReservation input => exact h.elim
      | _ => exact h

theorem cancels_of_may {task : Task} {id : Id} {confirmedAt : Option ℤ}
    (h : task.May (.reservationsUpdateStatus id .CANCELLED confirmedAt)) :
    ∃ input, task = .operate (.CancelReservation input) := by
  cases task with
  | deliver message => exact h.elim
  | operate operation =>
      cases operation with
      | CancelReservation input => exact ⟨input, rfl⟩
      | _ => exact h.elim

theorem asksFor_of_wanted {task : Task} {reservation : Reservation}
    (h : task.wanted = some (reservation.userId, reservation.branchId)) :
    task.AsksFor .reservationCreated reservation := by
  cases task with
  | deliver message => exact Prod.mk.inj (Option.some.inj h)
  | operate operation =>
      cases operation with
      | CreateReservation input => exact Prod.mk.inj (Option.some.inj h)
      | _ => cases h

theorem uses_notifyAll {allowed : Call → Prop} (h : ∀ message, allowed (.notify message))
    (messages : List Notification) : (notifier.notifyAll messages).Uses allowed := by
  induction messages with
  | nil => trivial
  | cons message rest ih => exact Program.uses_bind (uses_ask.mpr (h message)) fun _ => ih

theorem uses_handle {allowed : Call → Prop} (config : Config) (message : ReservationRequestMessage)
    (hreads : ∀ call, call.Reads → allowed call)
    (hreply : ∀ payload : ReservationRequestResolvedPayload, payload.requestId = message.requestId →
      payload.userId = message.userId → allowed (.notifyReservationRequestResolved payload))
    (hcreate : ∀ input : CreateReservationInput, input.userId = message.userId →
      input.branchId = message.branchId →
        (CreateReservationUseCase.execute config input).Uses allowed) :
    (ReservationRequestConsumer.handle config message).Uses allowed := by
  have hnack : ∀ requeue, (channel.nack requeue).Uses allowed := fun _ =>
    uses_ask.mpr (hreads _ trivial)
  unfold ReservationRequestConsumer.handle
  split
  · exact hnack _
  · refine Program.uses_tryCatch ?_ fun _ => hnack _
    refine Program.uses_bind ?_ fun _ => uses_ask.mpr (hreads _ trivial)
    refine Program.uses_bind ?_ fun resolution => uses_ask.mpr (hreply _ rfl rfl)
    refine Program.uses_tryCatch (Program.uses_bind (hcreate _ rfl rfl) fun _ => trivial) fun err => ?_
    cases err <;> trivial

theorem uses_cancel_own (input : CancelReservationInput) :
    (CancelReservationUseCase.execute input).Uses
      (Task.operate (.CancelReservation input)).May := by
  refine Program.uses_bind (uses_ask.mpr rfl) fun found => ?_
  cases found.filter fun reservation => reservation.userId = input.userId with
  | none => trivial
  | some reservation =>
      dsimp only
      split
      · trivial
      refine Program.uses_bind (uses_ask.mpr trivial) fun _ => ?_
      refine Program.uses_bind (uses_ask.mpr trivial) fun _ => ?_
      refine Program.uses_bind ?_ fun _ => uses_notifyAll (fun _ => trivial) _
      refine Program.uses_bind (uses_ask.mpr trivial) fun eventId => ?_
      exact Program.uses_bind (uses_ask.mpr trivial) fun occurredAt => uses_ask.mpr rfl

theorem uses_may (config : Config) (task : Task) : (task.execute config).Uses task.May := by
  cases task with
  | deliver message =>
      have hreads : ∀ call : Call, call.Reads → (Task.deliver message).May call := fun call hr => by
        cases call <;> first | exact hr.elim | exact trivial
      refine uses_handle config message hreads (fun _ _ _ => trivial) fun input huser hbranch => ?_
      refine uses_create_for hreads config input (fun _ _ => ⟨trivial, trivial⟩)
        fun data huser' hbranch' => ?_
      exact congrArg some (Prod.ext (huser'.trans huser).symm (hbranch'.trans hbranch).symm)
  | operate operation =>
      refine Program.uses_bind ?_ fun _ => trivial
      cases operation with
      | CreateReservation input =>
          refine Program.uses_bind ?_ fun _ => trivial
          refine uses_create_for (fun call hr => ?_) config input (fun _ _ => ⟨trivial, trivial⟩)
            fun data huser hbranch => congrArg some (Prod.ext huser.symm hbranch.symm)
          cases call <;> first | exact hr.elim | exact trivial
      | CancelReservation input => exact Program.uses_bind (uses_cancel_own input) fun _ => trivial
      | ExpireOverdueReservations =>
          refine Program.uses_bind (uses_expire (fun call hr => ?_) (fun _ => trivial) fun _ => trivial)
            fun _ => trivial
          cases call <;> first | exact hr.elim | exact trivial
      | RegisterEntry token =>
          refine Program.uses_bind (uses_entry (fun call hr => ?_) token (fun _ _ => trivial)
            (fun _ => trivial) fun _ => trivial) fun _ => trivial
          cases call <;> first | exact hr.elim | exact trivial
      | RegisterExit token =>
          refine Program.uses_bind (uses_exit (fun call hr => ?_) token (fun _ _ => trivial)
            (fun _ => trivial) fun _ => trivial) fun _ => trivial
          cases call <;> first | exact hr.elim | exact trivial

end Requests

-- What audit-service makes of a message of the backend.
section Wire

variable {Jsonb : Type} {env : Audit.Environment Jsonb}

theorem event?_publishAuditEvent (event : AuditEvent) (time : JsDate.Time) :
    Audit.event? env (some (publishAuditEvent event (JsDate.toISOString time))) =
      (Audit.AuditEventType.ofText event.eventType).map fun eventType => {
        eventId := event.eventId
        eventType
        occurredAt := JsDate.toISOString time
        aggregateId := event.aggregateId
        actorUserId := event.actorUserId
        payload := payload event.payload } := by
  simp only [Audit.event?, publishAuditEvent, Option.bind_eq_bind, Option.bind_some,
    Utf8.decode_encode, Json.parse_stringify]
  cases htype : Audit.AuditEventType.ofText event.eventType <;>
    simp [Audit.auditEvent?, Json.get?, htype, JsDate.parse_toISOString]

theorem text_of_ofText {text : String} {eventType : Audit.AuditEventType}
    (h : Audit.AuditEventType.ofText text = some eventType) : eventType.text = text := by
  have hfound := List.find?_some h
  exact of_decide_eq_true hfound

theorem text_injective {a b : Audit.AuditEventType} (h : a.text = b.text) : a = b := by
  cases a <;> cases b <;> first | rfl | exact absurd h (by decide)

theorem jsonb_columns {event : Audit.AuditEvent} {record : Audit.AuditRecord Jsonb}
    (h : Audit.AuditStore.columns env event = some record) :
    env.jsonb (.object event.payload) = some record.payload ∧
      record.aggregateId = event.aggregateId ∧ record.actorUserId = event.actorUserId := by
  unfold Audit.AuditStore.columns at h
  split at h
  · obtain ⟨occurredAt, -, h⟩ := Option.bind_eq_some_iff.mp h
    obtain ⟨payload, hpayload, h⟩ := Option.bind_eq_some_iff.mp h
    obtain rfl := Option.some.inj h
    exact ⟨hpayload, rfl, rfl⟩
  · cases h

-- A record of an event that was published.
structure Copies (env : Audit.Environment Jsonb) (event : AuditEvent)
    (record : Audit.AuditRecord Jsonb) : Prop where
  eventId : record.eventId = event.eventId
  eventType : record.eventType.text = event.eventType
  aggregateId : record.aggregateId = event.aggregateId
  actorUserId : record.actorUserId = event.actorUserId
  payload : env.jsonb (.object (payload event.payload)) = some record.payload

theorem exists_of_mem_auditTopic {Tid : Type} {history : History Tid}
    {message : Option (List UInt8)} (h : message ∈ auditTopic history) :
    ∃ thread event answer time, ⟨thread, .publishAuditEvent event, answer⟩ ∈ history ∧
      message = some (publishAuditEvent event (JsDate.toISOString time)) := by
  obtain ⟨⟨thread, call, answer⟩, hm, hmessage⟩ := List.mem_filterMap.mp h
  obtain ⟨event, hcall, htime⟩ := Option.bind_eq_some_iff.mp hmessage
  obtain ⟨time, -, hvalue⟩ := Option.bind_eq_some_iff.mp htime
  have hcall : call = .publishAuditEvent event := by
    cases call <;> cases hcall
    rfl
  subst hcall
  exact ⟨thread, event, answer, time, List.mem_reverse.mp hm, (Option.some.inj hvalue).symm⟩

theorem exists_copied {Tid : Type} {history : History Tid} {message : Option (List UInt8)}
    {read : Audit.AuditEvent} {record : Audit.AuditRecord Jsonb} (h : message ∈ auditTopic history)
    (hread : Audit.event? env message = some read)
    (hcolumns : Audit.AuditStore.columns env read = some record) :
    ∃ thread event answer, ⟨thread, .publishAuditEvent event, answer⟩ ∈ history ∧
      Copies env event record := by
  obtain ⟨thread, event, answer, time, hm, rfl⟩ := exists_of_mem_auditTopic h
  rw [event?_publishAuditEvent] at hread
  obtain ⟨eventType, htype, rfl⟩ := Option.map_eq_some_iff.mp hread
  obtain ⟨hpayload, haggregate, hactor⟩ := jsonb_columns hcolumns
  refine ⟨thread, event, answer, hm, ?_⟩
  constructor
  case eventId => exact Audit.eventId_columns hcolumns
  case eventType => rw [Audit.eventType_columns hcolumns, text_of_ofText htype]
  case aggregateId => exact haggregate
  case actorUserId => exact hactor
  case payload => exact hpayload

end Wire

section Published

variable {Tid : Type} [DecidableEq Tid] {config : Config} {world : World} {tasks : Tid → Task}
  {pool : Workers Tid} {Jsonb : Type} {env : Audit.Environment Jsonb}

theorem may_of_mem
    (h : Pool.Reaches (unreliable serve) Pool.unguarded (Workers.start config world tasks) pool)
    {event : Event Tid Call Answer Fault} (hm : event ∈ pool.history) :
    (tasks event.thread).May event.call :=
  (h.uses rfl fun thread => uses_may config (tasks thread)).1 event hm

theorem possible_of_mem
    (h : Pool.Reaches (unreliable serve) Pool.unguarded (Workers.start config world tasks) pool)
    {event : Event Tid Call Answer Fault} (hm : event ∈ pool.history) :
    reporting.possible event.call event.answer := by
  have halong : Along (fun event _ => reporting.possible event.call event.answer) pool.history :=
    h.along rfl fun world _ _ call choice _ => possible_unreliable choice world call
  obtain ⟨_, _, _, hpossible⟩ := halong.mem hm
  exact hpossible

-- Who has stored a reservation was asked for it, by its user and in its branch.
theorem wanted_of_created
    (h : Pool.Reaches (unreliable serve) Pool.unguarded (Workers.start config world tasks) pool)
    {event : Event Tid Call Answer Fault} (hm : event ∈ pool.history) {reservation : Reservation}
    (hteaches : .created reservation ∈ reporting.teaches event.call event.answer) :
    (tasks event.thread).wanted = some (reservation.userId, reservation.branchId) := by
  have hmay := may_of_mem h hm
  have hpossible := possible_of_mem h hm
  obtain ⟨thread, call, answer⟩ := event
  cases shows_of_teaches hteaches
  obtain ⟨huser, hbranch, -⟩ := hpossible
  rw [wanted_of_may hmay, huser, hbranch]

-- Who has marked a reservation as cancelled was asked to cancel one.
theorem cancels_of_marked
    (h : Pool.Reaches (unreliable serve) Pool.unguarded (Workers.start config world tasks) pool)
    {event : Event Tid Call Answer Fault} (hm : event ∈ pool.history) {id : Id}
    (hteaches : .marked id .CANCELLED ∈ reporting.teaches event.call event.answer) :
    ∃ input, tasks event.thread = .operate (.CancelReservation input) := by
  have hmay := may_of_mem h hm
  obtain ⟨thread, call, answer⟩ := event
  cases shows_of_teaches hteaches
  exact cancels_of_may hmay

-- The only reservation that a cancellation reads is the one that it was asked to cancel.
theorem id_of_found
    (h : Pool.Reaches (unreliable serve) Pool.unguarded (Workers.start config world tasks) pool)
    {event : Event Tid Call Answer Fault} (hm : event ∈ pool.history)
    {input : CancelReservationInput}
    (htask : tasks event.thread = .operate (.CancelReservation input)) {reservation : Reservation}
    (hteaches : .found reservation ∈ reporting.teaches event.call event.answer) :
    reservation.id = input.reservationId := by
  have hmay := may_of_mem h hm
  have hpossible := possible_of_mem h hm
  rw [htask] at hmay
  obtain ⟨thread, call, answer⟩ := event
  cases shows_of_teaches hteaches with
  | found => exact hpossible.trans hmay
  | foundExpired _ => exact hmay.elim

theorem recorded_of_copies
    (h : Pool.Reaches (unreliable serve) Pool.unguarded (Workers.start config world tasks) pool)
    {thread : Tid} {event : AuditEvent} {answer : Except Fault Unit}
    (hm : ⟨thread, .publishAuditEvent event, answer⟩ ∈ pool.history)
    {record : Audit.AuditRecord Jsonb} (hcopies : Copies env event record) :
    ∃ reservation ∈ pool.world.db.reservations,
      Recorded env tasks pool.history record reservation := by
  obtain ⟨later, earlier, hsplit, hpermits⟩ := (backed_of_reaches h).mem hm
  have htrue := trueIn_of_taught h hsplit
  have hearlier : ∀ told ∈ earlier, told ∈ pool.history := fun told htold => by
    rw [hsplit]
    exact List.mem_append_right _ (List.mem_cons_of_mem _ htold)
  cases hpermits with
  | @created reservation eventId occurredAt hcreated =>
      obtain ⟨row, hrow, hsame⟩ := htrue _ hcreated
      obtain ⟨⟨_, call, _⟩, htold, rfl, hteaches⟩ := hcreated
      have hwanted := wanted_of_created h (hearlier _ htold) hteaches
      have htype : record.eventType = .reservationCreated :=
        text_injective (hcopies.eventType.trans rfl)
      refine ⟨row, hrow, ?_⟩
      constructor
      case id => exact hsame.id.trans hcopies.aggregateId.symm
      case actor => exact hsame.userId.trans hcopies.actorUserId.symm
      case payload =>
        refine ⟨reservation.status, ?_, ?_⟩
        · rw [htype]
          exact nofun
        · rw [hsame.id, hsame.branchId, hsame.slotId]
          exact hcopies.payload
      case asked =>
        cases shows_of_teaches hteaches
        rw [htype]
        refine ⟨_, asksFor_of_wanted ?_, _, _, hearlier _ htold, hsame⟩
        rw [hsame.userId, hsame.branchId]
        exact hwanted
  | @cancelled reservation eventId occurredAt hfound hmarked =>
      obtain ⟨row, hrow, hsame⟩ := htrue _ hfound
      obtain ⟨⟨_, call, _⟩, hmarkedAt, rfl, hmarks⟩ := hmarked
      obtain ⟨found, hfoundAt, hfoundBy, hfinds⟩ := hfound
      obtain ⟨input, htask⟩ := cancels_of_marked h (hearlier _ hmarkedAt) hmarks
      have htype : record.eventType = .reservationCancelled :=
        text_injective (hcopies.eventType.trans rfl)
      refine ⟨row, hrow, ?_⟩
      constructor
      case id => exact hsame.id.trans hcopies.aggregateId.symm
      case actor => exact hsame.userId.trans hcopies.actorUserId.symm
      case payload =>
        refine ⟨.CANCELLED, fun _ => rfl, ?_⟩
        rw [hsame.id, hsame.branchId, hsame.slotId]
        exact hcopies.payload
      case asked =>
        dsimp only at htask hfoundBy
        have hactor := may_of_mem h hm
        rw [htask] at hactor
        have hid := id_of_found h (hearlier found hfoundAt) (hfoundBy ▸ htask) hfinds
        cases shows_of_teaches hmarks
        rw [htype]
        refine ⟨_, ?_, _, hsame.id ▸ hearlier _ hmarkedAt⟩
        rw [htask]
        exact ⟨hid.symm.trans hsame.id.symm, hactor.symm.trans hsame.userId.symm⟩

-- Two records of the creation of a reservation are of one event.
theorem eventId_of_created
    (h : Pool.Reaches (unreliable serve) Pool.unguarded (Workers.start config world tasks) pool)
    {thread other : Tid} {event event' : AuditEvent} {answer answer' : Except Fault Unit}
    (hm : ⟨thread, .publishAuditEvent event, answer⟩ ∈ pool.history)
    (hm' : ⟨other, .publishAuditEvent event', answer'⟩ ∈ pool.history)
    (htype : event.eventType = "reservation.created")
    (htype' : event'.eventType = "reservation.created")
    (hid : event.aggregateId = event'.aggregateId) : event = event' := by
  have hsame := eq_of_countP_le_one (madeKnown_once h .audit event.aggregateId) hm hm'
    (decide_eq_true (if_pos htype)) (decide_eq_true ?_)
  · cases hsame
    rfl
  · rw [hid]
    exact if_pos htype'

omit [DecidableEq Tid] in
-- A row about a reservation copies what an execution has published.
theorem copies_of_row
    {deliveries : List Audit.Delivery} (hsource : ∀ delivery ∈ deliveries,
      delivery.value ∈ auditTopic pool.history ∨
        ∀ event ∈ Audit.event? env delivery.value, event.eventType = .paymentRegistered)
    {row : Audit.AuditRow Jsonb} (hrow : row ∈ Audit.consumeAll env deliveries)
    (htype : row.record.eventType ≠ .paymentRegistered) :
    ∃ thread event answer, ⟨thread, .publishAuditEvent event, answer⟩ ∈ pool.history ∧
      Copies env event row.record := by
  rcases Audit.mem_of_mem_foldl hrow with hm | ⟨delivery, hm, hstored⟩
  · exact absurd hm (Table.not_mem_empty row)
  obtain ⟨read, hread, hcolumns⟩ := Audit.stored?_eq_some.mp hstored
  rcases hsource delivery hm with haudited | hpayment
  · exact exists_copied haudited hread hcolumns
  · exact absurd ((Audit.eventType_columns hcolumns).trans (hpayment read hread)) htype

theorem limitOf_le (numberOf : String → Option ℚ) (limit : Option String) :
    Audit.Http.limitOf numberOf limit ≤ 100 := by
  unfold Audit.Http.limitOf
  split
  · decide
  · split
    · exact Int.toNat_le.mpr (min_le_left _ _)
    · decide

-- What an administrator is shown of a reservation is so, and was asked for by its user.
theorem history_shown (config : Config) (world : World) (tasks : Tid → Task)
    (h : Pool.Reaches (unreliable serve) Pool.unguarded (Workers.start config world tasks) pool)
    (env : Audit.Environment Jsonb) (deliveries : List Audit.Delivery)
    (hsource : ∀ delivery ∈ deliveries, delivery.value ∈ auditTopic pool.history ∨
      ∀ event ∈ Audit.event? env delivery.value, event.eventType = .paymentRegistered)
    (rows : Option (List (Audit.AuditRow Jsonb)))
    (hrows : ∀ scan ∈ rows, scan.Perm (Audit.consumeAll env deliveries).rows)
    (isAdmin : Option String → Bool) (numberOf : String → Option ℚ) (request : Audit.Http.Request)
    (items : List (Audit.AuditRecord Jsonb))
    (hitems : (Audit.Http.handle isAdmin numberOf rows request).body = .items items) :
    isAdmin request.authorization = true ∧
      Shown env tasks pool.history pool.world.db request.eventType items := by
  unfold Audit.Http.handle at hitems
  split_ifs at hitems with hhealth hpath hadmin
  cases rows with
  | none => cases hitems
  | some scan =>
      obtain rfl := Audit.Http.Body.items.inj hitems
      have hscan := hrows scan rfl
      have hcopies : ∀ record ∈ Audit.AuditStore.list scan
          (Audit.Http.limitOf numberOf request.limit) request.eventType,
          record.eventType ≠ .paymentRegistered →
            ∃ thread event answer, ⟨thread, .publishAuditEvent event, answer⟩ ∈ pool.history ∧
              Copies env event record := by
        intro record hm htype
        obtain ⟨row, hrow, rfl⟩ := List.mem_map.mp (Audit.mem_list hm).1
        exact copies_of_row hsource (hscan.mem_iff.mp hrow) htype
      refine ⟨by simpa using hadmin, ?_⟩
      constructor
      case asked => exact fun record hm => (Audit.mem_list hm).2
      case bounded => exact (List.length_take_le _ _).trans (limitOf_le _ _)
      case ordered => exact Audit.pairwise_list
      case once => exact Audit.nodup_list hscan
      case recorded =>
        intro record hm htype
        obtain ⟨thread, event, answer, hpublished, hcopy⟩ := hcopies record hm htype
        exact recorded_of_copies h hpublished hcopy
      case created =>
        intro record hm other ho htype htype' haggregate
        have hnot : (.reservationCreated : Audit.AuditEventType) ≠ .paymentRegistered := by decide
        obtain ⟨thread, event, answer, hpublished, hcopy⟩ := hcopies record hm (htype ▸ hnot)
        obtain ⟨thread', event', answer', hpublished', hcopy'⟩ := hcopies other ho (htype' ▸ hnot)
        have hsame := eventId_of_created h hpublished hpublished'
          (hcopy.eventType.symm.trans (congrArg _ htype))
          (hcopy'.eventType.symm.trans (congrArg _ htype'))
          (hcopy.aggregateId.symm.trans (haggregate.trans hcopy'.aggregateId))
        refine List.inj_on_of_nodup_map (Audit.nodup_list hscan) hm ho ?_
        rw [hcopy.eventId, hcopy'.eventId, hsame]

end Published

def Demo.audits : List Audit.Delivery :=
  (auditTopic Demo.announced.history ++ auditTopic Demo.announced.history).map fun value =>
    { now := 0, value }

def Demo.audit : Audit.Http.Request where
  method := "GET"
  pathname := "/audit/events"
  authorization := some "Bearer token of an administrator"
  limit := some "500"
  eventType := none

-- The creation and the cancellation of the reservation, each delivered twice.
theorem history_shown_demo : Shown Audit.Demo.env Demo.tasks Demo.announced.history
    Demo.announced.world.db none
      (Audit.AuditStore.list (Audit.consumeAll Audit.Demo.env Demo.audits).rows 100 none) := by
  refine (history_shown Demo.config ⟨.opening Demo.branches Demo.twoSlots, 0⟩ Demo.tasks
    (Pool.reaches_of_follows .refl (Pool.follows_unguarded _)) Audit.Demo.env Demo.audits ?_
    (some (Audit.consumeAll Audit.Demo.env Demo.audits).rows) ?_ Option.isSome (fun _ => some 500)
    Demo.audit _ rfl).2
  · intro delivery hm
    obtain ⟨value, hvalue, rfl⟩ := List.mem_map.mp hm
    exact .inl (or_self_iff.mp (List.mem_append.mp hvalue))
  · intro scan hscan
    rw [← Option.some.inj hscan]

end SmartParking
