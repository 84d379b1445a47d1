import SmartParking.Audit.History
import SmartParking.Machine

namespace SmartParking.Audit

variable {Jsonb : Type}

-- The consumer at a place of the log.
structure Consumer (Jsonb : Type) where
  table : AuditEvents Jsonb
  offset : ℕ

def Consumer.start : Consumer Jsonb where
  table := .empty
  offset := 0

-- The message at the offset is delivered at a time. While its handler throws it is
-- delivered again, and none after it is.
def Consumer.run (env : Environment Jsonb) (messages : List (Option (List UInt8)))
    (consumer : Consumer Jsonb) (now : ℤ) : Consumer Jsonb :=
  match messages[consumer.offset]? with
  | none => consumer
  | some value =>
      match eachMessage env consumer.table now value with
      | .ok table => { table, offset := consumer.offset + 1 }
      | .error _ => consumer

-- The consumer after deliveries at these times.
def consumed (env : Environment Jsonb) (messages : List (Option (List UInt8)))
    (times : List ℤ) : Consumer Jsonb :=
  Machine.play (Consumer.run env messages) .start times

-- The database is there, and takes what isAuditEvent accepts.
def Available (env : Environment Jsonb) : Prop :=
  ∀ value event, auditEvent? env value = some event → (AuditStore.columns env event).isSome = true

-- No message stops the others: every handler returns, one delivery for each message is
-- enough to come to the end, and then each event has its row. Of several events with one
-- id the first has it.
structure Unblocked (env : Environment Jsonb) (messages : List (Option (List UInt8))) : Prop where
  returns : ∀ value ∈ messages, ∀ table now, ∃ after,
    eachMessage env table now value = .ok after
  ends : ∀ times, messages.length ≤ times.length →
    (consumed env messages times).offset = messages.length
  recorded : ∀ times, messages.length ≤ times.length →
    ∀ before value after event, messages = before ++ value :: after →
      event? env value = some event →
        (∀ earlier ∈ before, ∀ other ∈ event? env earlier, other.eventId ≠ event.eventId) →
          ∃ row ∈ (consumed env messages times).table,
            AuditStore.columns env event = some row.record

-- A message with at least one byte.
def HasContent (value : Option (List UInt8)) : Prop := ∃ bytes, value = some bytes ∧ bytes ≠ []

-- A database that takes every text.
def Demo.available : Environment Json := { Demo.env with holdsText _ := true }

end SmartParking.Audit
