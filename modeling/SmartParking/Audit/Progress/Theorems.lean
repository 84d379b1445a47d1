import SmartParking.Audit.Progress
import SmartParking.Audit.History.Theorems

namespace SmartParking.Audit

variable {Jsonb : Type} {env : Environment Jsonb} {table : AuditEvents Jsonb} {now : ℤ}
  {value : Option (List UInt8)} {messages before after : List (Option (List UInt8))}
  {consumer : Consumer Jsonb} {event : AuditEvent} {record : AuditRecord Jsonb}

theorem decode_ne_empty {bytes : List UInt8} (h : bytes ≠ []) : Utf8.decode bytes ≠ "" := by
  intro hempty
  have hnil := congrArg String.toList hempty
  rw [Utf8.decode, String.toList_ofList, String.toList_empty] at hnil
  cases bytes with
  | nil => exact h rfl
  | cons byte rest =>
      rw [Utf8.decodeFrom] at hnil
      split at hnil <;> cases hnil

-- The handler returns when there is something to handle, with what its delivery stores.
theorem eachMessage_of_content (havailable : Available env) (h : HasContent value) :
    eachMessage env table now value = .ok (consume env table ⟨now, value⟩) := by
  obtain ⟨bytes, rfl, hbytes⟩ := h
  unfold consume eachMessage
  dsimp only [Option.map_some]
  rw [if_neg (decode_ne_empty hbytes)]
  cases Json.parse (Utf8.decode bytes) with
  | none => rfl
  | some parsed =>
      dsimp only
      cases hevent : auditEvent? env parsed with
      | none => rfl
      | some event =>
          obtain ⟨record, hrecord⟩ := Option.isSome_iff_exists.mp (havailable parsed event hevent)
          simp only [AuditStore.append, hrecord]

theorem eachMessage_of_no_content (h : ¬HasContent value) :
    eachMessage env table now value = .error "Evento de auditoria sin contenido." := by
  cases value with
  | none => rfl
  | some bytes =>
      obtain rfl : bytes = [] := by
        by_contra hne
        exact h ⟨bytes, rfl, hne⟩
      rfl

theorem content_of_returns {after : AuditEvents Jsonb}
    (h : eachMessage env table now value = .ok after) : HasContent value := by
  by_contra hno
  rw [eachMessage_of_no_content hno] at h
  cases h

section Run

variable {times : List ℤ}

theorem run_at (h : messages = before ++ value :: after) (hoffset : consumer.offset = before.length) :
    consumer.run env messages now =
      match eachMessage env consumer.table now value with
      | .ok table => ⟨table, consumer.offset + 1⟩
      | .error _ => consumer := by
  have hnext : messages[consumer.offset]? = some value := by
    rw [h, hoffset, List.getElem?_append_right (Nat.le_refl _), Nat.sub_self]
    rfl
  cases heach : eachMessage env consumer.table now value with
  | ok table => simp only [Consumer.run, hnext, heach]
  | error error => simp only [Consumer.run, hnext, heach]

-- At the end of the log nothing more is delivered.
theorem play_at_end (h : consumer.offset = messages.length) (times : List ℤ) :
    Machine.play (Consumer.run env messages) consumer times = consumer := by
  induction times with
  | nil => rfl
  | cons now times ih =>
      have hnone : messages[consumer.offset]? = none := List.getElem?_eq_none h.ge
      have hrun : consumer.run env messages now = consumer := by rw [Consumer.run, hnone]
      rw [Machine.play, List.foldl_cons, hrun]
      exact ih

-- The messages from the offset on are consumed in turn.
theorem play_of_content (havailable : Available env) (hcontent : ∀ value ∈ after, HasContent value)
    (h : messages = before ++ after) (hoffset : consumer.offset = before.length)
    (hlength : after.length ≤ times.length) :
    Machine.play (Consumer.run env messages) consumer times =
      ⟨(List.zipWith Delivery.mk times after).foldl (consume env) consumer.table,
        messages.length⟩ := by
  induction after generalizing before consumer times with
  | nil =>
      have hend : consumer.offset = messages.length := by rw [h, hoffset, List.append_nil]
      rw [play_at_end hend, List.zipWith_nil_right, ← hend]
      rfl
  | cons value after ih =>
      obtain ⟨hvalue, hrest⟩ := List.forall_mem_cons.mp hcontent
      cases times with
      | nil => cases Nat.le_zero.mp hlength
      | cons now times =>
          have hsplit : messages = (before ++ [value]) ++ after := by
            rw [h, List.append_assoc]
            rfl
          rw [Machine.play, List.foldl_cons, run_at h hoffset,
            eachMessage_of_content havailable hvalue]
          refine ih hrest hsplit ?_ (Nat.le_of_succ_le_succ hlength)
          rw [hoffset, List.length_append]
          rfl

-- The offset never passes a message without content.
theorem offset_le_of_no_content (h : messages = before ++ value :: after)
    (hno : ¬HasContent value) (hoffset : consumer.offset ≤ before.length) (times : List ℤ) :
    (Machine.play (Consumer.run env messages) consumer times).offset ≤ before.length := by
  refine Machine.play_invariant (fun next : Consumer Jsonb => next.offset ≤ before.length)
    hoffset (fun next now hle _ => ?_) (Machine.always_true : Machine.Always _ _ _ times)
  rcases Nat.lt_or_eq_of_le hle with hlt | heq
  · unfold Consumer.run
    split
    · exact hle
    · split
      · exact hlt
      · exact hle
  · rw [run_at h heq, eachMessage_of_no_content hno]
    exact hle

end Run

theorem exists_of_event? (h : event? env value = some event) :
    ∃ parsed, auditEvent? env parsed = some event := by
  obtain ⟨bytes, -, h⟩ := Option.bind_eq_some_iff.mp h
  obtain ⟨parsed, -, h⟩ := Option.bind_eq_some_iff.mp h
  exact ⟨parsed, h⟩

theorem mem_of_mem_zipWith {delivery : Delivery} {times : List ℤ}
    (h : delivery ∈ List.zipWith Delivery.mk times messages) : delivery.value ∈ messages := by
  obtain ⟨i, hi, rfl⟩ := List.mem_iff_getElem.mp h
  rw [List.getElem_zipWith]
  exact List.getElem_mem _

-- A row that deliveries have left has the id of one of their events.
theorem exists_event_of_mem {row : AuditRow Jsonb} {times : List ℤ}
    (h : row ∈ (List.zipWith Delivery.mk times messages).foldl (consume env) .empty) :
    ∃ value ∈ messages, ∃ event ∈ event? env value, row.eventId = event.eventId := by
  rcases mem_of_mem_foldl h with hm | ⟨delivery, hm, hstored⟩
  · exact absurd hm (Table.not_mem_empty row)
  · obtain ⟨event, hevent, hcolumns⟩ := stored?_eq_some.mp hstored
    exact ⟨delivery.value, mem_of_mem_zipWith hm, event, hevent, eventId_columns hcolumns⟩

-- The first event with its id gets a row with its columns.
theorem recorded_consume (hevent : event? env value = some event)
    (hcolumns : AuditStore.columns env event = some record)
    (hfresh : ∀ row ∈ table, row.eventId ≠ event.eventId) :
    ⟨record, now⟩ ∈ consume env table ⟨now, value⟩ := by
  have hstored : stored? env ⟨now, value⟩ = some record :=
    stored?_eq_some.mpr ⟨event, hevent, hcolumns⟩
  have hid : (⟨record, now⟩ : AuditRow Jsonb).eventId = event.eventId := eventId_columns hcolumns
  rw [consume_eq, hstored]
  dsimp only
  have hnew : ∀ row ∈ table, row.eventId ≠ (⟨record, now⟩ : AuditRow Jsonb).eventId :=
    fun row hrow => hid ▸ hfresh row hrow
  obtain ⟨bigger, hinsert⟩ := Table.insert_isSome hnew hnew
  rw [hinsert]
  exact (Table.mem_insert hinsert).mpr (.inr rfl)

-- Where every message has content, the first event with each id is recorded.
theorem recorded_of_content (havailable : Available env)
    (hcontent : ∀ value ∈ messages, HasContent value) {times : List ℤ}
    (hlength : messages.length ≤ times.length) (h : messages = before ++ value :: after)
    (hevent : event? env value = some event)
    (hfirst : ∀ earlier ∈ before, ∀ other ∈ event? env earlier, other.eventId ≠ event.eventId) :
    ∃ row ∈ (consumed env messages times).table,
      AuditStore.columns env event = some row.record := by
  obtain ⟨record, hcolumns⟩ : ∃ record, AuditStore.columns env event = some record := by
    obtain ⟨parsed, hparsed⟩ := exists_of_event? hevent
    exact Option.isSome_iff_exists.mp (havailable parsed event hparsed)
  rw [consumed, play_of_content havailable hcontent (List.nil_append messages).symm rfl hlength]
  have hbefore : before.length < times.length := by
    rw [h, List.length_append, List.length_cons] at hlength
    omega
  have htimes : times.take before.length ++
      times[before.length] :: times.drop (before.length + 1) = times := by
    rw [← List.drop_eq_getElem_cons hbefore, List.take_append_drop]
  rw [h, ← htimes, List.zipWith_append (List.length_take_of_le hbefore.le), List.zipWith_cons_cons,
    List.foldl_append, List.foldl_cons]
  refine ⟨_, mem_foldl_of_mem (recorded_consume hevent hcolumns fun row hrow => ?_), hcolumns⟩
  obtain ⟨earlier, hm, other, hother, hid⟩ := exists_event_of_mem hrow
  exact hid ▸ hfirst earlier hm other hother

-- What is an event has a date that the language reads.
theorem exists_date {value : Json} (h : auditEvent? env value = some event) :
    ∃ time, JsDate.parse env.dateOfText event.occurredAt = some time := by
  unfold auditEvent? at h
  split at h
  · obtain ⟨eventType, -, h⟩ := Option.bind_eq_some_iff.mp h
    obtain ⟨time, htime, h⟩ := Option.bind_eq_some_iff.mp h
    cases h
    exact ⟨time, htime⟩
  · cases h

-- The audit log is never blocked when all messages have content, and only then.
theorem unblocked_iff (env : Environment Jsonb) (havailable : Available env)
    (messages : List (Option (List UInt8))) :
    Unblocked env messages ↔ ∀ value ∈ messages, HasContent value := by
  constructor
  · intro h value hm
    obtain ⟨after, hreturns⟩ := h.returns value hm .empty 0
    exact content_of_returns hreturns
  · intro hcontent
    refine ⟨fun value hm table now => ?_, fun times hlength => ?_, ?_⟩
    · exact ⟨_, eachMessage_of_content havailable (hcontent value hm)⟩
    · rw [consumed, play_of_content havailable hcontent (List.nil_append messages).symm rfl hlength]
    · exact fun times hlength before value after event h hevent hfirst =>
        recorded_of_content havailable hcontent hlength h hevent hfirst

namespace Demo

theorem available_available : Available available := by
  intro value event hevent
  obtain ⟨time, htime⟩ := exists_date hevent
  have hread : JsDate.parse (fun _ => none) event.occurredAt = some time := htime
  simp [AuditStore.columns, available, env, hread]

theorem hasContent_encode {text : String} (h : text ≠ "") : HasContent (some (Utf8.encode text)) :=
  ⟨_, rfl, Utf8.encode_ne_nil h⟩

end Demo

theorem unblocked_discarded : Unblocked Demo.available [Demo.broken, Demo.shapeless, Demo.valid] := by
  refine (unblocked_iff Demo.available Demo.available_available _).mpr ?_
  intro value hm
  simp only [List.mem_cons, List.not_mem_nil, or_false] at hm
  rcases hm with rfl | rfl | rfl
  · exact Demo.hasContent_encode (by decide)
  · exact Demo.hasContent_encode (Json.stringify_ne_empty _)
  · exact Demo.hasContent_encode (Json.stringify_ne_empty _)

-- An empty message before an event.
theorem unblocked_fails : ¬∀ (env : Environment Json), Available env →
    ∀ messages, Unblocked env messages := by
  intro h
  have hends := (h Demo.available Demo.available_available [some [], Demo.valid]).ends [1, 2]
    (Nat.le_refl 2)
  have hempty : ¬HasContent (some []) := by
    rintro ⟨bytes, hsome, hne⟩
    exact hne (Option.some.inj hsome).symm
  have hstuck : (consumed Demo.available [some [], Demo.valid] [1, 2]).offset ≤ 0 :=
    offset_le_of_no_content (List.nil_append _).symm hempty (Nat.le_refl 0) [1, 2]
  rw [hends] at hstuck
  cases hstuck

end SmartParking.Audit
