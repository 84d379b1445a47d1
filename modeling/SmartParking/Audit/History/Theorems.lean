import SmartParking.Audit.History
import SmartParking.Json.RoundTrip
import SmartParking.Ranking

namespace SmartParking.Audit

variable {Jsonb : Type} {env : Environment Jsonb} {table : AuditEvents Jsonb}
  {deliveries : List Delivery} {delivery : Delivery} {event : AuditEvent}
  {record : AuditRecord Jsonb} {messages : List (Option (List UInt8))}

section Consume

theorem parse_empty : Json.parse "" = none := by decide

-- What a delivery stores, if anything.
def stored? (env : Environment Jsonb) (delivery : Delivery) : Option (AuditRecord Jsonb) :=
  (event? env delivery.value).bind (AuditStore.columns env)

theorem stored?_eq_some : stored? env delivery = some record ↔
    ∃ event, event? env delivery.value = some event ∧
      AuditStore.columns env event = some record :=
  Option.bind_eq_some_iff

-- A delivery stores the columns of its event, and nothing when it carries none, when they
-- are not taken or when the event has a row.
theorem consume_eq : consume env table delivery =
    match stored? env delivery with
    | some record => (table.insert { record, recordedAt := delivery.now }).getD table
    | none => table := by
  obtain ⟨now, value⟩ := delivery
  unfold consume eachMessage stored? event?
  cases value with
  | none => rfl
  | some bytes =>
      dsimp only [Option.map_some]
      by_cases hraw : Utf8.decode bytes = ""
      · simp [hraw, parse_empty]
      · rw [if_neg hraw]
        simp only [Option.bind_eq_bind, Option.bind_some]
        cases Json.parse (Utf8.decode bytes) with
        | none => rfl
        | some parsed =>
            simp only [Option.bind_some]
            cases auditEvent? env parsed with
            | none => rfl
            | some event =>
                simp only [Option.bind_some, AuditStore.append]
                cases AuditStore.columns env event <;> rfl

theorem mem_consume_of_mem {row : AuditRow Jsonb} (h : row ∈ table) :
    row ∈ consume env table delivery := by
  rw [consume_eq]
  split
  · exact Table.mem_getD_insert_of_mem h
  · exact h

theorem mem_of_mem_consume {row : AuditRow Jsonb} (h : row ∈ consume env table delivery) :
    row ∈ table ∨ stored? env delivery = some row.record := by
  rw [consume_eq] at h
  split at h
  · rename_i record hstored
    rcases Table.mem_of_mem_getD_insert h with hm | rfl
    · exact .inl hm
    · exact .inr hstored
  · exact .inl h

theorem exists_row_consume (table : AuditEvents Jsonb) (h : stored? env delivery = some record) :
    ∃ row ∈ consume env table delivery, row.eventId = record.eventId := by
  rw [consume_eq, h]
  exact Table.exists_key_getD_insert table { record, recordedAt := delivery.now }

end Consume

-- The same for a whole sequence, from any table on.
section Run

theorem mem_foldl_of_mem {row : AuditRow Jsonb} (h : row ∈ table) :
    row ∈ deliveries.foldl (consume env) table := by
  induction deliveries generalizing table with
  | nil => exact h
  | cons delivery rest ih => exact ih (mem_consume_of_mem h)

theorem mem_of_mem_foldl {row : AuditRow Jsonb} (h : row ∈ deliveries.foldl (consume env) table) :
    row ∈ table ∨ ∃ delivery ∈ deliveries, stored? env delivery = some row.record := by
  induction deliveries generalizing table with
  | nil => exact .inl h
  | cons delivery rest ih =>
      rcases ih h with hm | ⟨later, hm, hstored⟩
      · exact (mem_of_mem_consume hm).imp_right fun hstored =>
          ⟨delivery, List.mem_cons_self, hstored⟩
      · exact .inr ⟨later, List.mem_cons_of_mem _ hm, hstored⟩

theorem exists_row_foldl (table : AuditEvents Jsonb) (hm : delivery ∈ deliveries) (h : stored? env delivery = some record) :
    ∃ row ∈ deliveries.foldl (consume env) table, row.eventId = record.eventId := by
  induction deliveries generalizing table with
  | nil => cases hm
  | cons first rest ih =>
      rcases List.mem_cons.mp hm with rfl | hm
      · obtain ⟨row, hrow, hid⟩ := exists_row_consume table h
        rw [List.foldl_cons]
        exact ⟨row, mem_foldl_of_mem hrow, hid⟩
      · exact ih _ hm

end Run

-- The columns of an event are its own but for its time and its payload.
theorem of_columns (h : AuditStore.columns env event = some record) :
    ∃ occurredAt payload, env.timestamptz event.occurredAt = some occurredAt ∧
      record = ⟨event.eventId, event.eventType, occurredAt, event.aggregateId, event.actorUserId,
        payload⟩ := by
  unfold AuditStore.columns at h
  split at h
  · obtain ⟨occurredAt, htime, h⟩ := Option.bind_eq_some_iff.mp h
    obtain ⟨payload, -, h⟩ := Option.bind_eq_some_iff.mp h
    exact ⟨occurredAt, payload, htime, (Option.some.inj h).symm⟩
  · cases h

theorem eventId_columns (h : AuditStore.columns env event = some record) :
    record.eventId = event.eventId := by
  obtain ⟨_, _, -, rfl⟩ := of_columns h
  rfl

theorem eventType_columns (h : AuditStore.columns env event = some record) :
    record.eventType = event.eventType := by
  obtain ⟨_, _, -, rfl⟩ := of_columns h
  rfl

theorem occurredAt_columns (h : AuditStore.columns env event = some record) :
    env.timestamptz event.occurredAt = some record.occurredAt := by
  obtain ⟨_, _, htime, rfl⟩ := of_columns h
  exact htime

theorem carried_of_stored? (hdelivers : Delivers messages deliveries) (hm : delivery ∈ deliveries)
    (h : stored? env delivery = some record) :
    ∃ event, Carried env messages event ∧ AuditStore.columns env event = some record := by
  obtain ⟨event, hevent, hcolumns⟩ := stored?_eq_some.mp h
  exact ⟨event, ⟨delivery.value, (hdelivers _).mp (List.mem_map_of_mem hm), hevent⟩, hcolumns⟩

theorem complete_consumeAll (hdelivers : Delivers messages deliveries)
    (hids : ∀ event other, Carried env messages event → Carried env messages other →
      event.eventId = other.eventId →
        AuditStore.columns env event = AuditStore.columns env other)
    (haccepts : ∀ event, Carried env messages event →
      (AuditStore.columns env event).isSome = true) :
    Complete env messages (consumeAll env deliveries) := by
  have hcarried : ∀ row ∈ consumeAll env deliveries, ∃ event, Carried env messages event ∧
      AuditStore.columns env event = some row.record := by
    intro row hrow
    rcases mem_of_mem_foldl hrow with hm | ⟨delivery, hm, hstored⟩
    · exact absurd hm (Table.not_mem_empty row)
    · exact carried_of_stored? hdelivers hm hstored
  refine ⟨fun event hevent => ?_, fun row hrow other ho => Table.eq_of_key_eq hrow ho, hcarried⟩
  obtain ⟨value, hvalue, hparsed⟩ := hevent
  obtain ⟨delivery, hm, rfl⟩ := List.mem_map.mp ((hdelivers value).mpr hvalue)
  obtain ⟨record, hcolumns⟩ := Option.isSome_iff_exists.mp
    (haccepts event ⟨_, hvalue, hparsed⟩)
  obtain ⟨row, hrow, hid⟩ :=
    exists_row_foldl .empty hm (stored?_eq_some.mpr ⟨event, hparsed, hcolumns⟩)
  obtain ⟨other, hother, hrecord⟩ := hcarried row hrow
  -- The row may come from another message with the same id.
  have hsame := hids event other ⟨_, hvalue, hparsed⟩ hother
    ((eventId_columns hcolumns).symm.trans (hid.symm.trans (eventId_columns hrecord)))
  exact ⟨row, hrow, hsame.trans hrecord⟩

theorem nodup_eventId {rows : List (AuditRow Jsonb)} (h : (rows.map AuditRow.eventId).Nodup) :
    ((rows.map AuditRow.record).map AuditRecord.eventId).Nodup := by
  rw [List.map_map]
  exact h

-- Complete tables have the same rows, but for the times they were recorded.
theorem Complete.perm {first second : AuditEvents Jsonb} (hfirst : Complete env messages first)
    (hsecond : Complete env messages second) :
    (first.rows.map AuditRow.record).Perm (second.rows.map AuditRow.record) := by
  have hmem : ∀ {table : AuditEvents Jsonb}, Complete env messages table → ∀ record,
      record ∈ table.rows.map AuditRow.record ↔
        ∃ event, Carried env messages event ∧ AuditStore.columns env event = some record := by
    intro table hcomplete record
    constructor
    · intro hm
      obtain ⟨row, hrow, rfl⟩ := List.mem_map.mp hm
      exact hcomplete.carried row hrow
    · rintro ⟨event, hevent, hcolumns⟩
      obtain ⟨row, hrow, hrecord⟩ := hcomplete.stored event hevent
      exact List.mem_map.mpr ⟨row, hrow, Option.some.inj (hrecord.symm.trans hcolumns)⟩
  have hnodup : ∀ table : AuditEvents Jsonb, (table.rows.map AuditRow.record).Nodup := fun table =>
    List.Nodup.of_map AuditRecord.eventId (nodup_eventId table.keys_nodup)
  exact (List.perm_ext_iff_of_nodup (hnodup first) (hnodup second)).mpr fun record =>
    (hmem hfirst record).trans (hmem hsecond record).symm

instance : Std.Total (AuditStore.newest : AuditRecord Jsonb → AuditRecord Jsonb → Prop) :=
  ⟨fun a b => Int.le_total b.occurredAt a.occurredAt⟩

instance : IsTrans (AuditRecord Jsonb) AuditStore.newest :=
  ⟨fun _ _ _ hab hbc => Int.le_trans hbc hab⟩

-- What the listing of a table consists of.
section Listing

variable {scan : List (AuditRow Jsonb)} {limit : ℕ} {eventType : Option String}

theorem mem_list (h : record ∈ AuditStore.list scan limit eventType) :
    record ∈ scan.map AuditRow.record ∧ AuditStore.asked eventType record = true :=
  List.mem_filter.mp ((List.mem_insertionSort _).mp (List.mem_of_mem_take h))

theorem nodup_list (hscan : scan.Perm table.rows) :
    ((AuditStore.list scan limit eventType).map AuditRecord.eventId).Nodup := by
  have hscanned : ((scan.map AuditRow.record).map AuditRecord.eventId).Nodup :=
    nodup_eventId ((hscan.map AuditRow.eventId).nodup_iff.mpr table.keys_nodup)
  have hsorted := ((List.perm_insertionSort AuditStore.newest
    ((scan.map AuditRow.record).filter (AuditStore.asked eventType))).map
      AuditRecord.eventId).nodup_iff.mpr (hscanned.sublist (List.filter_sublist.map _))
  exact hsorted.sublist ((List.take_sublist _ _).map _)

theorem pairwise_list : (AuditStore.list scan limit eventType).Pairwise AuditStore.newest :=
  (List.pairwise_insertionSort _ _).sublist (List.take_sublist _ _)

end Listing

theorem Complete.mostRecent (h : Complete env messages table) {scan : List (AuditRow Jsonb)}
    (hscan : scan.Perm table.rows) (limit : ℕ) (eventType : Option String) :
    MostRecent env messages limit eventType (AuditStore.list scan limit eventType) := by
  refine ⟨fun record hm => ?_, nodup_list hscan, pairwise_list, List.length_take_le _ _, ?_⟩
  · obtain ⟨hrecord, hasked⟩ := mem_list hm
    obtain ⟨row, hrow, rfl⟩ := List.mem_map.mp hrecord
    exact ⟨hasked, h.carried row (hscan.mem_iff.mp hrow)⟩
  · intro event record hevent hcolumns hasked
    obtain ⟨row, hrow, hrecord⟩ := h.stored event hevent
    obtain rfl : row.record = record := Option.some.inj (hrecord.symm.trans hcolumns)
    refine or_iff_not_imp_left.mpr fun hout => Ranking.take_insertionSort ?_ hout
    exact List.mem_filter.mpr ⟨List.mem_map_of_mem (hscan.mem_iff.mpr hrow), hasked⟩

-- Whatever the order and the repetitions of the deliveries, the history is that of the
-- messages; so its most recent events are.
theorem audit_insensitive (env : Environment Jsonb) (messages : List (Option (List UInt8)))
    (hids : ∀ event other, Carried env messages event → Carried env messages other →
      event.eventId = other.eventId →
        AuditStore.columns env event = AuditStore.columns env other)
    (haccepts : ∀ event, Carried env messages event →
      (AuditStore.columns env event).isSome = true) :
    (∀ deliveries, Delivers messages deliveries →
      Complete env messages (consumeAll env deliveries) ∧
        ∀ scan, scan.Perm (consumeAll env deliveries).rows → ∀ limit eventType,
          MostRecent env messages limit eventType (AuditStore.list scan limit eventType)) ∧
    ∀ first second, Delivers messages first → Delivers messages second →
      ((consumeAll env first).rows.map AuditRow.record).Perm
        ((consumeAll env second).rows.map AuditRow.record) :=
  ⟨fun _ hdelivers => ⟨complete_consumeAll hdelivers hids haccepts,
      fun _ hscan => (complete_consumeAll hdelivers hids haccepts).mostRecent hscan⟩,
    fun _ _ hfirst hsecond => (complete_consumeAll hfirst hids haccepts).perm
      (complete_consumeAll hsecond hids haccepts)⟩

section Demo

theorem event?_stringify (value : Json) :
    event? Demo.env (some (Utf8.encode (Json.stringify value))) = auditEvent? Demo.env value := by
  simp only [event?, Option.bind_eq_bind, Option.bind_some, Utf8.decode_encode,
    Json.parse_stringify]

theorem event?_valid : event? Demo.env Demo.valid = some Demo.event := by
  rw [Demo.valid, event?_stringify]
  rfl

theorem event?_shapeless : event? Demo.env Demo.shapeless = none := by
  rw [Demo.shapeless, event?_stringify]
  rfl

theorem event?_broken : event? Demo.env Demo.broken = none := by
  simp only [event?, Demo.broken, Option.bind_eq_bind, Option.bind_some, Utf8.decode_encode]
  rfl

theorem carried_demo : Carried Demo.env [Demo.valid, Demo.shapeless, Demo.broken] event ↔
    event = Demo.event := by
  simp [Carried, event?_valid, event?_shapeless, event?_broken, eq_comm]

end Demo

-- Twice with other messages in between, and once at the end.
theorem audit_insensitive_redelivered :
    ((consumeAll Demo.env [⟨1, Demo.valid⟩, ⟨2, Demo.broken⟩, ⟨3, Demo.shapeless⟩,
        ⟨4, Demo.valid⟩]).rows.map AuditRow.record).Perm
      ((consumeAll Demo.env [⟨7, Demo.shapeless⟩, ⟨8, Demo.broken⟩, ⟨9, Demo.valid⟩]).rows.map
        AuditRow.record) := by
  have hdelivers : ∀ valid shapeless broken,
      Delivers [valid, shapeless, broken] [⟨1, valid⟩, ⟨2, broken⟩, ⟨3, shapeless⟩, ⟨4, valid⟩] ∧
        Delivers [valid, shapeless, broken] [⟨7, shapeless⟩, ⟨8, broken⟩, ⟨9, valid⟩] := by
    intro valid shapeless broken
    constructor <;> intro value <;> simp <;> tauto
  refine (audit_insensitive Demo.env [Demo.valid, Demo.shapeless, Demo.broken]
    (fun event other hevent hother _ => ?_) fun event hevent => ?_).2 _ _ (hdelivers _ _ _).1
      (hdelivers _ _ _).2
  · rw [carried_demo.mp hevent, carried_demo.mp hother]
  · rw [carried_demo.mp hevent]
    rfl

end SmartParking.Audit
