import SmartParking.Announcement
import SmartParking.JsDate.Json
import SmartParking.Notifications.Mailing

namespace SmartParking

open Async

namespace KafkaNotificationPublisherAdapter

def toJson (event : ReservationConfirmationEvent) : Json := .object [
  ("eventId", .string event.eventId),
  ("eventType", .string event.eventType),
  ("occurredAt", JsDate.toJSON event.occurredAt),
  ("reservationId", .string event.reservationId),
  ("userId", .string event.userId),
  ("userEmail", .string event.userEmail),
  ("userFullName", .string event.userFullName),
  ("branchId", .string event.branchId),
  ("branchName", .string event.branchName),
  ("branchAddress", .string event.branchAddress),
  ("slotId", .string event.slotId),
  ("startAt", JsDate.toJSON event.startAt),
  ("expiresAt", JsDate.toJSON event.expiresAt)]

-- The value of the message.
def publishReservationConfirmation (event : ReservationConfirmationEvent) : List UInt8 :=
  Utf8.encode (Json.stringify (toJson event))

end KafkaNotificationPublisherAdapter

-- A reservation that was confirmed to its user.
structure Confirmation where
  reservation : Reservation
  user : UserLookupResult
  branch : Branch

namespace Confirmation

open Notifications

variable {Tid : Type} (host : Host) (settings : Settings) (confirmation : Confirmation)

-- A date out of range is read as the beginning of 1970.
def dateText (ms : ℤ) : String := host.toLocaleString ((JsDate.ofMs ms).getD ⟨0, by decide, by decide⟩)

def details : Details where
  userFullName := confirmation.user.fullName
  branchName := confirmation.branch.name
  branchAddress := confirmation.branch.address
  slotId := confirmation.reservation.slotId
  startAt := dateText host confirmation.reservation.startAt
  expiresAt := dateText host confirmation.reservation.expiresAt
  reservationId := confirmation.reservation.id

-- The mail that its user should get.
def mail : Mail where
  sender := settings.fromEmail
  recipient := confirmation.user.email
  subject := (confirmation.details host).subject
  text := (confirmation.details host).text
  html := (confirmation.details host).html

-- The reservation and the branch are in the database, and auth-service has said who the
-- user of the reservation is.
structure Stands (pool : Workers Tid) : Prop where
  reservation : confirmation.reservation ∈ pool.world.db.reservations
  branch : confirmation.branch ∈ pool.world.db.branches
  place : confirmation.branch.id = confirmation.reservation.branchId
  user : ∃ thread, ⟨thread, .usersFindById confirmation.reservation.userId,
    .ok (some confirmation.user)⟩ ∈ pool.history

end Confirmation

def confirmationCall? : Call → Option ReservationConfirmationEvent
  | .publishReservationConfirmation event => some event
  | _ => none

-- The confirmations of a run, in the order of their publication.
def confirmations {Tid : Type} (history : History Tid) : List ReservationConfirmationEvent :=
  history.reverse.filterMap fun event => confirmationCall? event.call

-- All messages that they can become on the topic.
def confirmationTopic {Tid : Type} (history : History Tid) : List (Option (List UInt8)) :=
  (confirmations history).map fun event =>
    some (KafkaNotificationPublisherAdapter.publishReservationConfirmation event)

section

open Notifications

-- What the mail server gets for a topic, whatever is lost of it, repeated or reordered,
-- are the mails of these confirmations. Each is taken once at most where no message is
-- repeated, no handler is cut short and no answer of the mail server is lost, and just
-- once where nothing is lost at all.
structure Delivered (host : Host) (settings : Settings) (clock : ℤ)
    (topic : List (Option (List UInt8))) (told : List Confirmation) : Prop where
  understood : ∀ messages ⊆ topic, ∀ deliveries,
    .invalid ∉ (consumed host settings messages clock deliveries).outcomes.map Prod.snd
  truthful : ∀ messages ⊆ topic, ∀ deliveries,
    ∀ attempt ∈ (consumed host settings messages clock deliveries).world.attempts,
      ∃ confirmation ∈ told, attempt.mail = confirmation.mail host settings
  once : ∀ messages, messages.Subperm topic → ∀ deliveries, crashesIn deliveries = 0 →
    Heard deliveries → (consumed host settings messages clock deliveries).world.outbox.Subperm
      (told.map (Confirmation.mail host settings))
  all : ∀ messages, messages.Perm topic → ∀ deliveries, crashesIn deliveries = 0 →
    Reachable deliveries → topic.length ≤ deliveries.length → settings.enabled = true →
      (consumed host settings messages clock deliveries).world.outbox.Perm
        (told.map (Confirmation.mail host settings))

end

end SmartParking
