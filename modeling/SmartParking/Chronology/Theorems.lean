import SmartParking.Audit.History.Theorems
import SmartParking.Chronology

namespace SmartParking

namespace Payments

open Machine

variable {state after : World × Log} {turn : Id × Turn} {turns : List (Id × Turn)}

-- When each payment was created, which no request changes.
def ages (db : Database) : List (Id × ℤ) :=
  db.payments.rows.map fun payment => (payment.id, payment.createdAt)

theorem ages_insert {db : Database} {row : Payment}
    {bigger : Table Payment.id Payment.sessionId} (h : db.payments.insert row = some bigger) :
    ages ⟨bigger⟩ = ages db ++ [(row.id, row.createdAt)] := by
  rw [ages, Table.rows_insert h, List.map_append]
  rfl

theorem ages_modify (db : Database) (id : Id) (data : UpdatePaymentData) :
    ages ⟨db.payments.modify id (PrismaPaymentRepository.withData data)⟩ = ages db := by
  change (List.map _ db.payments.rows).map _ = _
  rw [List.map_map]
  refine List.map_congr_left fun payment _ => ?_
  rw [Function.comp_apply]
  split <;> rfl

-- Every event has the time of its payment, and no payment is of the future.
structure Chronicle (state : World × Log) : Prop where
  stored : ∀ event ∈ published state.2, (event.paymentId, event.occurredAt) ∈ ages state.1.db
  past : ∀ age ∈ ages state.1.db, age.2 ≤ state.1.clock

theorem Chronicle.extend (h : Chronicle state) (hclock : state.1.clock ≤ after.1.clock)
    {fresh : List (Id × ℤ)} (hages : ages after.1.db = ages state.1.db ++ fresh)
    (hfresh : ∀ age ∈ fresh, age.2 ≤ after.1.clock) {more : List PaymentRegisteredAudit}
    (hpublished : published after.2 = published state.2 ++ more)
    (hmore : ∀ event ∈ more, (event.paymentId, event.occurredAt) ∈ ages after.1.db) :
    Chronicle after where
  stored event hm := by
    rw [hpublished] at hm
    rcases List.mem_append.mp hm with hm | hm
    · rw [hages]
      exact List.mem_append_left _ (h.stored event hm)
    · exact hmore event hm
  past age hm := by
    rw [hages] at hm
    rcases List.mem_append.mp hm with hm | hm
    · exact (h.past age hm).trans hclock
    · exact hfresh age hm

theorem Chronicle.playOne (h : Chronicle state) (turn : Id × Turn) :
    Chronicle (playOne state turn) := by
  cases played_playTurn turn.1 state turn.2 with
  | kept _ hdb hclock hpublished =>
      have hages : ages (Payments.playOne state turn).1.db = ages state.1.db ++ [] := by
        rw [List.append_nil]
        exact congrArg ages hdb
      exact h.extend hclock hages (by simp) (hpublished.trans (List.append_nil _).symm) (by simp)
  | registered row bigger _ hinsert hdb hrow hclock hpublished =>
      have hages := (congrArg ages hdb).trans (ages_insert hinsert)
      have hnow : state.1.clock ≤ row.createdAt := by omega
      refine h.extend (hnow.trans hclock) hages (fun age hm => ?_) hpublished fun event hm => ?_
      · obtain rfl := List.mem_singleton.mp hm
        exact hclock
      · obtain rfl := List.mem_singleton.mp hm
        rw [Payments.playOne, hages]
        exact List.mem_append_right _ List.mem_cons_self
  | toppedUp payment missing data htops _ _ hdb hclock hpublished =>
      have hages := (congrArg ages hdb).trans (ages_modify _ _ _)
      refine h.extend hclock (hages.trans (List.append_nil _).symm) (by simp) hpublished
        fun event hm => ?_
      obtain rfl := List.mem_singleton.mp hm
      rw [Payments.playOne, hages]
      exact List.mem_map.mpr ⟨payment, htops.1, rfl⟩

def Chronological (events : List PaymentRegisteredAudit) : Prop :=
  events.Pairwise fun event later => event.occurredAt < later.occurredAt

theorem chronological_append {events : List PaymentRegisteredAudit}
    {event : PaymentRegisteredAudit} : Chronological (events ++ [event]) ↔
      Chronological events ∧ ∀ earlier ∈ events, earlier.occurredAt < event.occurredAt := by
  simp [Chronological, List.pairwise_append]

-- One request keeps the order of the times unless it tops up a payment that is not the
-- newest.
theorem chronological_playOne (h : Chronicle state) (hclock : 0 < (turn.2.choices 0).elapsed) :
    Chronological (published (playOne state turn).2) ↔
      Chronological (published state.2) ∧ NewestTopUps state turn := by
  cases played_playTurn turn.1 state turn.2 with
  | kept hnone _ _ hpublished =>
      rw [playOne, hpublished]
      exact (and_iff_left fun payment missing htops => absurd htops (hnone payment missing)).symm
  | registered row bigger hnone _ _ hrow _ hpublished =>
      rw [playOne, hpublished, chronological_append]
      refine and_congr_right fun _ => iff_of_true (fun event hm => ?_)
        fun payment missing htops => absurd htops (hnone payment missing)
      have hpast := h.past _ (h.stored event hm)
      change event.occurredAt < row.createdAt
      dsimp only at hpast
      omega
  | toppedUp payment missing data htops _ _ _ _ hpublished =>
      rw [playOne, hpublished, chronological_append]
      have hage : ∀ event ∈ published state.2, ∃ earlier ∈ state.1.db.payments,
          earlier.id = event.paymentId ∧ earlier.createdAt = event.occurredAt := by
        intro event hm
        obtain ⟨earlier, he, hage⟩ := List.mem_map.mp (h.stored event hm)
        exact ⟨earlier, he, Prod.ext_iff.mp hage⟩
      refine and_congr_right fun _ => ⟨fun hnewest other missing hother event hm earlier he hid => ?_,
        fun hnewest event hm => ?_⟩
      · obtain ⟨rfl, -⟩ := htops.unique hother
        obtain ⟨same, hs, hsame, htime⟩ := hage event hm
        obtain rfl := Table.eq_of_key_eq he hs (hid.trans hsame.symm)
        rw [htime]
        exact hnewest event hm
      · obtain ⟨earlier, he, hid, htime⟩ := hage event hm
        rw [← htime]
        exact hnewest payment missing htops event hm earlier he hid

theorem chronological_play_iff (h : Chronicle state)
    (hclock : ∀ turn ∈ turns, 0 < (turn.2.choices 0).elapsed) :
    Chronological (published (play playOne state turns).2) ↔
      Chronological (published state.2) ∧ Always playOne NewestTopUps state turns := by
  induction turns generalizing state with
  | nil => exact (and_iff_left trivial).symm
  | cons turn turns ih =>
      obtain ⟨hturn, hrest⟩ := List.forall_mem_cons.mp hclock
      refine (ih (h.playOne turn) hrest).trans ?_
      rw [chronological_playOne h hturn, and_assoc]
      rfl

theorem chronicle_start {world : World}
    (hpast : ∀ payment ∈ world.db.payments, payment.createdAt ≤ world.clock) :
    Chronicle (world, []) where
  stored event hm := absurd hm List.not_mem_nil
  past age hm := by
    obtain ⟨payment, hp, rfl⟩ := List.mem_map.mp hm
    exact hpast payment hp

end Payments

namespace Audit

open Payments Payments.KafkaAuditEventPublisherAdapter

variable {Jsonb : Type} {env : Environment Jsonb} {uuids : ℕ → String}
  {others : List (Option (List UInt8))} {events : List PaymentRegisteredAudit}
  {deliveries : List Delivery} {record : AuditRecord Jsonb}

-- The consumer reads what was published.
theorem event?_publish (uuid : String) (event : PaymentRegisteredAudit) (time : JsDate.Time) :
    event? env (some (publishPaymentRegistered uuid event (JsDate.toISOString time))) =
      some (registered uuid event time) := by
  simp only [event?, publishPaymentRegistered, Option.bind_eq_bind, Option.bind_some,
    Utf8.decode_encode, Json.parse_stringify]
  have htype : AuditEventType.ofText "payment.registered" = some .paymentRegistered := by decide
  simp [auditEvent?, Json.get?, htype, JsDate.parse_toISOString, registered]

-- The records and the messages, by the place of their event.

theorem mem_recordsOf : record ∈ recordsOf env uuids events ↔ ∃ n event time,
    events[n]? = some event ∧ JsDate.ofMs event.occurredAt = some time ∧
      AuditStore.columns env (registered (uuids n) event time) = some record := by
  simp only [recordsOf, List.mem_filterMap, Prod.exists, List.mem_zipIdx_iff_getElem?,
    Option.bind_eq_some_iff]
  constructor
  · rintro ⟨event, n, hevent, time, htime, hcolumns⟩
    exact ⟨n, event, time, hevent, htime, hcolumns⟩
  · rintro ⟨n, event, time, hevent, htime, hcolumns⟩
    exact ⟨event, n, hevent, time, htime, hcolumns⟩

theorem mem_messagesOf {value : Option (List UInt8)} : value ∈ messagesOf uuids events ↔
    ∃ n event time, events[n]? = some event ∧ JsDate.ofMs event.occurredAt = some time ∧
      some (publishPaymentRegistered (uuids n) event (JsDate.toISOString time)) = value := by
  simp only [messagesOf, List.mem_filterMap, Prod.exists, List.mem_zipIdx_iff_getElem?,
    Option.map_eq_some_iff]
  constructor
  · rintro ⟨event, n, hevent, time, htime, hvalue⟩
    exact ⟨n, event, time, hevent, htime, hvalue⟩
  · rintro ⟨n, event, time, hevent, htime, hvalue⟩
    exact ⟨event, n, hevent, time, htime, hvalue⟩

-- What a delivery stores is the record of a published event, or of another type.
theorem Reaches.stored (h : Reaches env uuids others events)
    (hdelivers : Delivers (messagesOf uuids events ++ others) deliveries) {delivery : Delivery}
    (hm : delivery ∈ deliveries) (hstored : stored? env delivery = some record) :
    record ∈ recordsOf env uuids events ∨
      record.eventType ≠ .paymentRegistered ∧ ∀ n, record.eventId ≠ uuids n := by
  obtain ⟨event, hevent, hcolumns⟩ := stored?_eq_some.mp hstored
  rcases List.mem_append.mp ((hdelivers _).mp (List.mem_map_of_mem hm)) with hvalue | hvalue
  · obtain ⟨n, published, time, hpublished, htime, hmessage⟩ := mem_messagesOf.mp hvalue
    rw [← hmessage, event?_publish] at hevent
    obtain rfl := Option.some.inj hevent
    exact .inl (mem_recordsOf.mpr ⟨n, published, time, hpublished, htime, hcolumns⟩)
  · obtain ⟨htype, hid⟩ := h.foreign _ hvalue event hevent
    rw [← eventType_columns hcolumns] at htype
    exact .inr ⟨htype, fun n => eventId_columns hcolumns ▸ hid n⟩

theorem isPayment_of_mem (hm : record ∈ recordsOf env uuids events) :
    record.isPayment = true := by
  obtain ⟨n, event, time, -, -, hcolumns⟩ := mem_recordsOf.mp hm
  exact decide_eq_true (eventType_columns hcolumns)

-- A record is known by its id.
theorem Reaches.eq_of_eventId (h : Reaches env uuids others events) {other : AuditRecord Jsonb}
    (hm : record ∈ recordsOf env uuids events) (hother : other ∈ recordsOf env uuids events)
    (hid : record.eventId = other.eventId) : record = other := by
  obtain ⟨n, event, time, hevent, htime, hcolumns⟩ := mem_recordsOf.mp hm
  obtain ⟨n', event', time', hevent', htime', hcolumns'⟩ := mem_recordsOf.mp hother
  rw [eventId_columns hcolumns, eventId_columns hcolumns'] at hid
  obtain rfl := h.distinct hid
  obtain rfl := Option.some.inj (hevent.symm.trans hevent')
  obtain rfl := Option.some.inj (htime.symm.trans htime')
  exact Option.some.inj (hcolumns.symm.trans hcolumns')

theorem Reaches.nodup (h : Reaches env uuids others events) :
    (recordsOf env uuids events).Nodup := by
  have hplaces : events.zipIdx.Pairwise fun place other => place.2 ≠ other.2 := by
    refine List.pairwise_map.mp (?_ : (events.zipIdx.map Prod.snd).Pairwise (· ≠ ·))
    rw [List.zipIdx_map_snd]
    exact List.nodup_range'
  refine List.pairwise_filterMap.mpr (hplaces.imp fun {place other} hne record hm same hs heq => ?_)
  obtain ⟨time, -, hcolumns⟩ := Option.bind_eq_some_iff.mp hm
  obtain ⟨time', -, hcolumns'⟩ := Option.bind_eq_some_iff.mp hs
  rw [heq] at hcolumns
  exact hne (h.distinct ((eventId_columns hcolumns).symm.trans (eventId_columns hcolumns')))

-- The payments of the table are the published events.
theorem Reaches.perm (h : Reaches env uuids others events)
    (hdelivers : Delivers (messagesOf uuids events ++ others) deliveries)
    {scan : List (AuditRow Jsonb)} (hscan : scan.Perm (consumeAll env deliveries).rows) :
    ((scan.map AuditRow.record).filter AuditRecord.isPayment).Perm (recordsOf env uuids events) := by
  have hrows : ∀ row ∈ consumeAll env deliveries, row.record ∈ recordsOf env uuids events ∨
      row.record.eventType ≠ .paymentRegistered ∧ ∀ n, row.record.eventId ≠ uuids n := by
    intro row hrow
    rcases mem_of_mem_foldl hrow with hm | ⟨delivery, hm, hstored⟩
    · exact absurd hm (Table.not_mem_empty row)
    · exact h.stored hdelivers hm hstored
  have hnodup : (scan.map AuditRow.record).Nodup := List.Nodup.of_map AuditRecord.eventId
    (nodup_eventId ((hscan.map AuditRow.eventId).nodup_iff.mpr (consumeAll env deliveries).keys_nodup))
  refine (List.perm_ext_iff_of_nodup (hnodup.filter _) h.nodup).mpr fun record => ?_
  constructor
  · intro hm
    obtain ⟨hrecord, hpayment⟩ := List.mem_filter.mp hm
    obtain ⟨row, hrow, rfl⟩ := List.mem_map.mp hrecord
    exact (hrows row (hscan.mem_iff.mp hrow)).resolve_right fun hno =>
      hno.1 (of_decide_eq_true hpayment)
  · intro hm
    obtain ⟨n, event, time, hevent, htime, hcolumns⟩ := mem_recordsOf.mp hm
    have hvalue : some (publishPaymentRegistered (uuids n) event (JsDate.toISOString time)) ∈
        messagesOf uuids events := mem_messagesOf.mpr ⟨n, event, time, hevent, htime, rfl⟩
    obtain ⟨delivery, hdelivery, hsame⟩ :=
      List.mem_map.mp ((hdelivers _).mpr (List.mem_append_left others hvalue))
    have hstored : stored? env delivery = some record := by
      rw [stored?, hsame, event?_publish]
      exact hcolumns
    obtain ⟨row, hrow, hid⟩ := exists_row_foldl .empty hdelivery hstored
    have hfound : row.record ∈ recordsOf env uuids events :=
      (hrows row hrow).resolve_right fun hno =>
        hno.2 n (hid.trans (eventId_columns hcolumns))
    obtain rfl := h.eq_of_eventId hfound hm hid
    exact List.mem_filter.mpr ⟨List.mem_map_of_mem (hscan.mem_iff.mpr hrow), isPayment_of_mem hm⟩

-- The records are in the order of their times just as the events are.
theorem Reaches.rises_iff (h : Reaches env uuids others events) :
    Ranking.Rises AuditStore.newest (recordsOf env uuids events) ↔ Chronological events := by
  have hplaces := List.pairwise_map (f := Prod.fst) (l := events.zipIdx)
    (R := fun event later : PaymentRegisteredAudit => event.occurredAt < later.occurredAt)
  rw [List.zipIdx_map_fst] at hplaces
  rw [Chronological, hplaces, Ranking.Rises, recordsOf, List.pairwise_filterMap]
  refine List.Pairwise.iff_of_mem fun {place later} hp hl => ?_
  obtain ⟨time, htime, hsome⟩ := h.taken _ _ (List.mem_zipIdx_iff_getElem?.mp hp)
  obtain ⟨time', htime', hsome'⟩ := h.taken _ _ (List.mem_zipIdx_iff_getElem?.mp hl)
  obtain ⟨record, hrecord⟩ := Option.isSome_iff_exists.mp hsome
  obtain ⟨record', hrecord'⟩ := Option.isSome_iff_exists.mp hsome'
  have hinstants := h.instants time time' _ _ (occurredAt_columns hrecord)
    (occurredAt_columns hrecord')
  rw [JsDate.ms_of_ofMs htime, JsDate.ms_of_ofMs htime'] at hinstants
  simp only [htime, htime', hrecord, hrecord', Option.bind_some, Option.some.injEq, forall_eq',
    AuditStore.newest]
  rw [← hinstants]
  omega

theorem asked_payments : AuditStore.asked (some "payment.registered") =
    (AuditRecord.isPayment : AuditRecord Jsonb → Bool) := by
  funext record
  cases hrecord : record.eventType <;>
    simp [AuditStore.asked, AuditRecord.isPayment, hrecord, AuditEventType.text]

-- A filter shows all payments or none.
theorem filter_asked (eventType : Option String) (records : List (AuditRecord Jsonb)) :
    (records.filter (AuditStore.asked eventType)).filter AuditRecord.isPayment =
        records.filter AuditRecord.isPayment ∨
      (records.filter (AuditStore.asked eventType)).filter AuditRecord.isPayment = [] := by
  have hasked : ∀ record : AuditRecord Jsonb, record.isPayment = true →
      AuditStore.asked eventType record =
        eventType.all fun eventType => eventType = "" || "payment.registered" = eventType := by
    intro record hpayment
    have htype : record.eventType = .paymentRegistered := of_decide_eq_true hpayment
    cases eventType with
    | none => rfl
    | some eventType => rw [AuditStore.asked, htype]; rfl
  rw [List.filter_filter]
  cases hall : eventType.all fun eventType => eventType = "" || "payment.registered" = eventType with
  | true =>
      refine .inl (List.filter_congr fun record _ => ?_)
      cases hpayment : record.isPayment with
      | true => rw [hasked record hpayment, hall]; rfl
      | false => rfl
  | false =>
      refine .inr (List.filter_eq_nil_iff.mpr fun record _ => ?_)
      cases hpayment : record.isPayment with
      | true => rw [hasked record hpayment, hall]; simp
      | false => simp

theorem Reaches.inOrder (h : Reaches env uuids others events)
    (hrises : Ranking.Rises AuditStore.newest (recordsOf env uuids events)) :
    InOrder env uuids others events := by
  intro deliveries hdelivers scan hscan limit
  have hperm := h.perm hdelivers hscan
  constructor
  · unfold AuditStore.list
    rw [asked_payments, hrises.eq_reverse (List.pairwise_insertionSort _ _)
      ((List.perm_insertionSort _ _).trans hperm)]
  · intro eventType
    unfold AuditStore.list
    refine ((List.take_prefix _ _).filter _).trans ?_
    have hsorted := (List.pairwise_insertionSort AuditStore.newest
      ((scan.map AuditRow.record).filter (AuditStore.asked eventType))).filter AuditRecord.isPayment
    have hsame := (List.perm_insertionSort AuditStore.newest
      ((scan.map AuditRow.record).filter (AuditStore.asked eventType))).filter AuditRecord.isPayment
    rcases filter_asked eventType (scan.map AuditRow.record) with hfilter | hfilter
    · rw [hfilter] at hsame
      rw [hrises.eq_reverse hsorted (hsame.trans hperm)]
    · rw [hfilter] at hsame
      rw [hsame.eq_nil]
      exact List.nil_prefix

theorem Reaches.rises_of_inOrder (h : Reaches env uuids others events)
    (hinOrder : InOrder env uuids others events) :
    Ranking.Rises AuditStore.newest (recordsOf env uuids events) := by
  -- One delivery for each message, and the rows in one order and in its reverse.
  let deliveries : List Delivery := (messagesOf uuids events ++ others).map fun value => ⟨0, value⟩
  have hdelivers : Delivers (messagesOf uuids events ++ others) deliveries := by
    intro value
    simp [deliveries]
  have hsort : ∀ scan : List (AuditRow Jsonb), scan.Perm (consumeAll env deliveries).rows →
      ((scan.map AuditRow.record).filter AuditRecord.isPayment).insertionSort AuditStore.newest =
        (recordsOf env uuids events).reverse := by
    intro scan hscan
    have hlist := (hinOrder deliveries hdelivers scan hscan (recordsOf env uuids events).length).1
    have hlength := ((List.perm_insertionSort AuditStore.newest _).trans
      (h.perm hdelivers hscan)).length_eq
    unfold AuditStore.list at hlist
    rwa [asked_payments, List.take_of_length_le hlength.le, List.take_of_length_le (by simp)] at hlist
  refine Ranking.rises_of_insertionSort h.nodup (h.perm hdelivers (List.Perm.refl _))
    (hsort _ (List.Perm.refl _)) ?_
  rw [← List.filter_reverse, ← List.map_reverse]
  exact hsort _ (List.reverse_perm _)

theorem Reaches.inOrder_iff (h : Reaches env uuids others events) :
    InOrder env uuids others events ↔ Chronological events :=
  ⟨fun hinOrder => h.rises_iff.mp (h.rises_of_inOrder hinOrder),
    fun hchronological => h.inOrder (h.rises_iff.mpr hchronological)⟩

theorem reaches_demo (htaken : ∀ event ∈ events, (JsDate.ofMs event.occurredAt).isSome = true ∧
    Demo.env.holdsText event.paymentId = true ∧ Demo.env.holdsText event.userId = true) :
    Reaches Demo.env Demo.uuids [Demo.valid] events where
  distinct n m hsame := by simpa [Demo.uuids] using congrArg String.length hsame
  taken n event hevent := by
    obtain ⟨htime, hpayment, huser⟩ := htaken event (List.mem_of_getElem? hevent)
    obtain ⟨time, htime⟩ := Option.isSome_iff_exists.mp htime
    have huuid : Demo.env.holdsText (Demo.uuids n) = true := by simp [Demo.env, Demo.uuids]
    have hinstant : Demo.env.timestamptz (JsDate.toISOString time) = some (1000 * time.ms) := by
      simp [Demo.env, JsDate.parse_toISOString]
    have hpayload : ∀ value, Demo.env.jsonb value = some value := fun _ => rfl
    refine ⟨time, htime, ?_⟩
    simp [AuditStore.columns, registered, huuid, hpayment, huser, hinstant, hpayload]
  instants time later instant other hinstant hother := by
    simp only [Demo.env, JsDate.parse_toISOString, Option.map_some, Option.some.injEq] at hinstant hother
    omega
  foreign value hm event hevent := by
    obtain rfl := List.mem_singleton.mp hm
    obtain rfl := Option.some.inj (event?_valid.symm.trans hevent)
    refine ⟨by decide, fun n hsame => ?_⟩
    have hm : 'e' ∈ (Demo.uuids n).toList := hsame ▸ (by decide : 'e' ∈ Demo.event.eventId.toList)
    simp [Demo.uuids] at hm

end Audit

open Payments

-- The history has the payments in the order of the executions if and only if no execution
-- of the run tops up a payment that is not the newest so far.
theorem history_inOrder_iff {Jsonb : Type} (env : Audit.Environment Jsonb) (world : Payments.World)
    (turns : List (Id × Payments.Turn)) (uuids : ℕ → String) (others : List (Option (List UInt8)))
    (hclock : ∀ turn ∈ turns, 0 < (turn.2.choices 0).elapsed)
    (hpast : ∀ payment ∈ world.db.payments, payment.createdAt ≤ world.clock)
    (hreaches : Audit.Reaches env uuids others
      (published (Machine.play playOne (world, []) turns).2)) :
    Audit.InOrder env uuids others (published (Machine.play playOne (world, []) turns).2) ↔
      Machine.Always playOne NewestTopUps (world, []) turns := by
  rw [hreaches.inOrder_iff, chronological_play_iff (chronicle_start hpast) hclock]
  exact and_iff_right .nil

-- The second payment of the first session covers nothing more.
theorem history_inOrder_paid : Audit.InOrder Audit.Demo.env Audit.Demo.uuids [Audit.Demo.valid]
    (published (Machine.play playOne (Payments.Demo.world, []) (Payments.Demo.payers ⟨500⟩)).2) := by
  have hchronological : Chronological (published
      (Machine.play playOne (Payments.Demo.world, []) (Payments.Demo.payers ⟨500⟩)).2) := by
    unfold Chronological
    decide +kernel
  exact (history_inOrder_iff Audit.Demo.env Payments.Demo.world (Payments.Demo.payers ⟨500⟩)
    Audit.Demo.uuids [Audit.Demo.valid] (by decide) (by decide)
    (Audit.reaches_demo (by decide +kernel))).mpr
      ((chronological_play_iff (chronicle_start (by decide)) (by decide)).mp hchronological).2

-- The top-up of the first payment is listed below the second one, as if it were of its time.
theorem history_inOrder_fails : ¬∀ (env : Audit.Environment Json) (world : Payments.World)
    (turns : List (Id × Payments.Turn)) (uuids : ℕ → String) (others : List (Option (List UInt8))),
      (∀ turn ∈ turns, ∀ n, 0 < (turn.2.choices n).elapsed) →
        (∀ payment ∈ world.db.payments, payment.createdAt ≤ world.clock) →
          Audit.Reaches env uuids others
              (published (Machine.play playOne (world, []) turns).2) →
            Audit.InOrder env uuids others
              (published (Machine.play playOne (world, []) turns).2) := by
  intro h
  have hreaches : Audit.Reaches Audit.Demo.env Audit.Demo.uuids [Audit.Demo.valid]
      (published (Machine.play playOne (Payments.Demo.world, []) (Payments.Demo.payers ⟨800⟩)).2) :=
    Audit.reaches_demo (by decide +kernel)
  have hclock : ∀ turn ∈ Payments.Demo.payers ⟨800⟩, ∀ n, 0 < (turn.2.choices n).elapsed := by
    simp [Payments.Demo.payers, Payments.Demo.turn, Payments.Demo.choice]
  have hinOrder := hreaches.inOrder_iff.mp (h Audit.Demo.env Payments.Demo.world
    (Payments.Demo.payers ⟨800⟩) Audit.Demo.uuids [Audit.Demo.valid] hclock (by decide) hreaches)
  unfold Chronological at hinOrder
  exact absurd hinOrder (by decide +kernel)

end SmartParking
