import SmartParking.Notifications.Consumer

namespace SmartParking.Notifications

section

variable (host : Host) (settings : Settings) (messages : List (Option (List UInt8)))

-- The mail that a message asks for, with the switch on.
def mail? (value : Option (List UInt8)) : Option Mail :=
  if settings.enabled then (event? value).bind (buildEmail host settings) else none

def mailAt (place : ℕ) : Option Mail := messages[place]?.bind (mail? host settings)

-- What a message comes to after these attempts.
def verdict (value : Option (List UInt8)) (attempts : List Attempt) : Outcome :=
  match event? value with
  | none => .invalid
  | some event =>
      match buildEmail host settings event with
      | none => .failed
      | some _ =>
          if settings.enabled then
            if attempts.any (·.smtp = .accepted) then .sent else .failed
          else .skipped

end

-- The attempts of one delivery are all for one mail. None follows an accepted one, and
-- the pauses between them grow.
structure WellSent (mail : Option Mail) (attempts : List Attempt) : Prop where
  same : ∀ attempt ∈ attempts, mail = some attempt.mail
  few : attempts.length ≤ MAX_SEND_ATTEMPTS
  stops : ∀ attempt ∈ attempts.dropLast, attempt.smtp ≠ .accepted
  spaced : ∀ (n : ℕ) (first second : Attempt), attempts[n]? = some first →
    attempts[n + 1]? = some second →
    first.sentAt + (RETRY_BASE_DELAY_MS * (n + 1) : ℕ) ≤ second.sentAt

-- A mail was accepted, or all the attempts were made.
def Finished (mail : Option Mail) (attempts : List Attempt) : Prop :=
  mail.isSome → attempts.length = MAX_SEND_ATTEMPTS ∨ ∃ attempt ∈ attempts, attempt.smtp = .accepted

-- One delivery of the message at a place: the attempts that were made, and the outcome
-- unless the process stopped.
structure Turn where
  place : ℕ
  attempts : List Attempt
  outcome : Option Outcome

-- Where the consumer can be after a turn. A process that stopped is followed by one that
-- begins at an earlier place, or at the same.
def Turn.Leads (turn : Turn) (offset : ℕ) : Prop :=
  match turn.outcome with
  | some _ => offset = turn.place + 1
  | none => offset ≤ turn.place

-- The turns lead from one place to the other, message by message.
def Visits : (start : ℕ) → List Turn → (stop : ℕ) → Prop
  | start, [], stop => start = stop
  | start, turn :: rest, stop =>
      turn.place = start ∧ ∃ next, turn.Leads next ∧ Visits next rest stop

-- The last turn of a message has come to its end.
def PassedAt (turns : List Turn) (place : ℕ) : Prop :=
  ∃ earlier last later, turns = earlier ++ last :: later ∧ last.place = place ∧
    last.outcome.isSome ∧ ∀ turn ∈ later, turn.place ≠ place

-- The mail server's record and the reports, taken apart by the deliveries.
structure Mailed (host : Host) (settings : Settings) (messages : List (Option (List UInt8)))
    (crashes : ℕ) (consumer : Consumer) (turns : List Turn) : Prop where
  record : consumer.world.attempts = turns.flatMap Turn.attempts
  reported : consumer.outcomes = turns.filterMap fun turn => turn.outcome.map (turn.place, ·)
  ordered : Visits 0 turns consumer.offset
  wellSent : ∀ turn ∈ turns, WellSent (mailAt host settings messages turn.place) turn.attempts
  ended : ∀ turn ∈ turns, ∀ outcome ∈ turn.outcome, ∃ value, messages[turn.place]? = some value ∧
    outcome = verdict host settings value turn.attempts ∧
      Finished (mailAt host settings messages turn.place) turn.attempts
  passed : ∀ place < consumer.offset, PassedAt turns place
  crashed : turns.countP (·.outcome.isNone) = crashes
  repeated : ∀ place, turns.countP (·.place = place) ≤
    crashes + if place < consumer.offset then 1 else 0

def crashesIn (deliveries : List Delivery) : ℕ := (deliveries.filter (·.crash.isSome)).length

-- No mail is lost on the way to the mail server or back.
def Heard (deliveries : List Delivery) : Prop :=
  ∀ delivery ∈ deliveries, ∀ n, (delivery.choices n).smtp ≠ .unheard

def Reachable (deliveries : List Delivery) : Prop :=
  ∀ delivery ∈ deliveries, ∀ n, (delivery.choices n).smtp = .accepted

-- Every delivery that is not cut short comes to an end and passes a message. Nothing but
-- the mails of the log is sent, in its order from where a process begins, and where
-- nothing is cut short or lost each is taken at most once, and just once when the mail
-- server takes all it is given.
structure Served (host : Host) (settings : Settings) (messages : List (Option (List UInt8)))
    (clock : ℤ) (deliveries : List Delivery) : Prop where
  advances : ∀ past delivery, past ++ [delivery] <+: deliveries → delivery.crash = none →
    (consumed host settings messages clock (past ++ [delivery])).offset =
      min messages.length ((consumed host settings messages clock past).offset + 1)
  mailed : ∃ turns, Mailed host settings messages (crashesIn deliveries)
    (consumed host settings messages clock deliveries) turns
  once : crashesIn deliveries = 0 → Heard deliveries →
    (consumed host settings messages clock deliveries).world.outbox.Sublist
      (messages.filterMap (mail? host settings))
  all : crashesIn deliveries = 0 → Reachable deliveries → messages.length ≤ deliveries.length →
    (consumed host settings messages clock deliveries).world.outbox =
      messages.filterMap (mail? host settings)

-- A host that writes every date alike, a mail server that takes all, and the message of
-- a reservation.
def Demo.host : Host where
  numberText _ _ := "0"
  dateOfNumber _ _ := none
  dateOfText _ := none
  toLocaleString _ := "1 de enero de 2026, 12:00"

def Demo.settings : Settings := { enabled := true, fromEmail := "notificaciones@motoya.com.pe" }

def Demo.message : Option (List UInt8) := some (Utf8.encode (Json.stringify (.object [
  ("eventType", .string "reservation.confirmation.email"),
  ("reservationId", .string "reservation-1"),
  ("userEmail", .string "ana@example.com")])))

def Demo.delivery : Delivery where
  choices _ := { smtp := .accepted, elapsed := 0 }
  crash := none

-- The process stops after one call, with nothing committed.
def Demo.restart : Delivery := { Demo.delivery with crash := some { calls := 1, committed := 0 } }

end SmartParking.Notifications
