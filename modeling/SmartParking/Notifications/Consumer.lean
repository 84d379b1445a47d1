import SmartParking.Async.Interrupted
import SmartParking.Machine
import SmartParking.Notifications.Mailer
import SmartParking.Utf8

namespace SmartParking.Notifications

open Async

inductive Outcome where
  | sent | skipped | failed | invalid
  deriving DecidableEq

def MAX_SEND_ATTEMPTS : ℕ := 3

def RETRY_BASE_DELAY_MS : ℕ := 1000

-- The loop when some attempts are left after this one.
def sendWithRetries (host : Host) (settings : Settings) (event : ReservationConfirmationEvent) :
    (left : ℕ) → Process Outcome
  | 0 => do
      match ← (sendConfirmationEmail host settings event).settle with
      | .ok () => return if settings.enabled then .sent else .skipped
      | .error _ => return .failed
  | left + 1 => do
      match ← (sendConfirmationEmail host settings event).settle with
      | .ok () => return if settings.enabled then .sent else .skipped
      | .error _ =>
          let attempt := MAX_SEND_ATTEMPTS - (left + 1)
          Program.perform (Call.sleep (RETRY_BASE_DELAY_MS * attempt))
          sendWithRetries host settings event left

-- The event of a message. A message without a value, or an empty one, has none.
def event? (value : Option (List UInt8)) : Option ReservationConfirmationEvent := do
  let raw := Utf8.decode (← value)
  if raw = "" then none else confirmation? (← Json.parse raw)

def processMessage (host : Host) (settings : Settings) (value : Option (List UInt8)) :
    Process Outcome :=
  match event? value with
  | none => pure .invalid
  | some event => sendWithRetries host settings event (MAX_SEND_ATTEMPTS - 1)

-- What comes of a mail: the mail server takes it, or it does not, or it does and the
-- answer is lost.
inductive Smtp where
  | accepted | refused | unheard
  deriving DecidableEq

structure Choice where
  smtp : Smtp
  elapsed : ℕ

structure Attempt where
  mail : Mail
  sentAt : ℤ
  smtp : Smtp
  deriving DecidableEq

-- The mail server's record of what it was given.
structure World where
  clock : ℤ
  attempts : List Attempt

-- The mails that were taken.
def World.outbox (world : World) : List Mail :=
  (world.attempts.filter (·.smtp ≠ .refused)).map Attempt.mail

def serve : Server Choice World Call Answer String := fun choice world call =>
  match call with
  | .sendMail mail =>
      let attempts := world.attempts ++ [⟨mail, world.clock, choice.smtp⟩]
      let after : World := { clock := world.clock + choice.elapsed, attempts }
      if choice.smtp = .accepted then (.ok (), after) else (.error "Connection closed", after)
  | .sleep ms => (.ok (), { world with clock := world.clock + ms + choice.elapsed })

-- The consumer group at a place of the log, with the outcomes that were reported, each
-- with the place of its message.
structure Consumer where
  world : World
  offset : ℕ
  outcomes : List (ℕ × Outcome)

-- A group that has committed the offset at which the log begins.
def Consumer.start (clock : ℤ) : Consumer where
  world := { clock, attempts := [] }
  offset := 0
  outcomes := []

-- The process stops after some calls of a handler. Offsets are committed from time to
-- time, after a batch of messages, and the next process begins at the committed one.
structure Crash where
  calls : ℕ
  committed : ℕ

structure Delivery where
  choices : ℕ → Choice
  crash : Option Crash

def Consumer.run (host : Host) (settings : Settings) (messages : List (Option (List UInt8)))
    (consumer : Consumer) (delivery : Delivery) : Consumer :=
  match messages[consumer.offset]?, delivery.crash with
  | none, none => consumer
  | none, some crash => { consumer with offset := min crash.committed consumer.offset }
  | some value, some crash => { consumer with
      world := (processMessage host settings value).runFor serve crash.calls delivery.choices
        consumer.world
      offset := min crash.committed consumer.offset }
  | some value, none =>
      match (processMessage host settings value).run serve delivery.choices consumer.world with
      | (.ok outcome, world) => {
          world
          offset := consumer.offset + 1
          outcomes := consumer.outcomes ++ [(consumer.offset, outcome)] }
      | (.error _, world) => { consumer with world }

-- The group after these deliveries.
def consumed (host : Host) (settings : Settings) (messages : List (Option (List UInt8)))
    (clock : ℤ) (deliveries : List Delivery) : Consumer :=
  Machine.play (Consumer.run host settings messages) (.start clock) deliveries

end SmartParking.Notifications
