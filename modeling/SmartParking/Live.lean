import SmartParking.Announcement
import SmartParking.Chronology
import SmartParking.JsDate.Json
import SmartParking.Json.Values
import SmartParking.Occupancy
import SmartParking.Realtime.Audience

namespace SmartParking

open Async

-- An envelope as backend and payments-service build it.
namespace Envelope

inductive Target where
  | branch (branchId : Id)
  | user (userId : Id)
  | admin
  deriving DecidableEq

def Target.toJson : Target → Json
  | branch branchId => .object [("type", .string "branch"), ("branchId", .string branchId)]
  | user userId => .object [("type", .string "user"), ("userId", .string userId)]
  | admin => .object [("type", .string "admin")]

def Target.rooms : Target → Realtime.RealtimeTarget
  | branch branchId => .branch branchId
  | user userId => .user userId
  | admin => .admin

end Envelope

structure Envelope where
  event : String
  target : Envelope.Target
  payload : Json

-- The content of the message.
def Envelope.content (envelope : Envelope) : List UInt8 :=
  Utf8.encode (Json.stringify (.object [
    ("event", .string envelope.event),
    ("target", envelope.target.toJson),
    ("payload", envelope.payload)]))

namespace RabbitRealtimePublisherAdapter

def slotStatusText : SlotStatus → String
  | .DISPONIBLE => "DISPONIBLE"
  | .RESERVADA => "RESERVADA"
  | .OCUPADA => "OCUPADA"
  | .NO_DISPONIBLE => "NO_DISPONIBLE"

def levelText : OccupancyLevel → String
  | .GREEN => "GREEN"
  | .YELLOW => "YELLOW"
  | .RED => "RED"

def toBranch (branchId : Id) (event : String) (payload : List (String × Json)) : Envelope where
  event
  target := .branch branchId
  payload := .object payload

-- The occupancy is not known when the use case asks for its update.
def notify : Notification → Option Envelope
  | .ReservationCreated reservationId branchId slotId userId expiresAt =>
      toBranch branchId "reservation.created" [("reservationId", .string reservationId),
        ("branchId", .string branchId), ("slotId", .string slotId), ("userId", .string userId),
        ("expiresAt", JsDate.toJSON expiresAt)]
  | .ReservationExpired reservationId branchId slotId =>
      toBranch branchId "reservation.expired" [("reservationId", .string reservationId),
        ("branchId", .string branchId), ("slotId", .string slotId)]
  | .ReservationCancelled reservationId branchId slotId =>
      toBranch branchId "reservation.cancelled" [("reservationId", .string reservationId),
        ("branchId", .string branchId), ("slotId", .string slotId)]
  | .SlotStatusChanged branchId slotId status =>
      toBranch branchId "slot.status.changed" [("branchId", .string branchId),
        ("slotId", .string slotId), ("status", .string (slotStatusText status))]
  | .OccupancyUpdated _ => none
  | .EntryRegistered sessionId branchId slotId userId =>
      toBranch branchId "session.entry.registered" [("sessionId", .string sessionId),
        ("branchId", .string branchId), ("slotId", .string slotId), ("userId", .string userId)]
  | .ExitRegistered sessionId branchId slotId =>
      toBranch branchId "session.exit.registered" [("sessionId", .string sessionId),
        ("branchId", .string branchId), ("slotId", .string slotId)]

def occupancyUpdated (event : Occupancy.OccupancyEvent) : Envelope :=
  toBranch event.branchId "branch.occupancy.updated" [("branchId", .string event.branchId),
    ("occupied", .number event.occupied 0), ("total", .number event.total 0),
    ("level", .string (levelText event.level))]

-- The members that an outcome has, and those that are the same for all. The number
-- formatter of the language gives the numeral of a distance.
def resolutionMembers (numeral : ℚ → ℤ × ℤ) : Resolution → List (String × Json)
  | .CREATED id branchId slotId startAt expiresAt => [("status", .string "CREATED"),
      ("reservation", .object [("id", .string id), ("branchId", .string branchId),
        ("slotId", .string slotId), ("startAt", JsDate.toJSON startAt),
        ("expiresAt", JsDate.toJSON expiresAt)])]
  | .SUGGEST_OTHER_BRANCH id name address distanceKm =>
      [("status", .string "SUGGEST_OTHER_BRANCH"),
        ("suggestedBranch", .object [("id", .string id), ("name", .string name),
          ("address", .string address)]),
        ("distanceKm", .number (numeral distanceKm).1 (numeral distanceKm).2)]
  | .REJECTED code message => [("status", .string "REJECTED"), ("code", .string code),
      ("message", .string message)]

def notifyReservationRequestResolved (numeral : ℚ → ℤ × ℤ)
    (payload : ReservationRequestResolvedPayload) : Envelope where
  event := "reservation.request.resolved"
  target := .user payload.userId
  payload := .object (("requestId", .string payload.requestId) ::
    ("userId", .string payload.userId) :: resolutionMembers numeral payload.resolution)

-- What a call publishes on its own.
def envelope? (numeral : ℚ → ℤ × ℤ) : Call → Option Envelope
  | .notify message => notify message
  | .notifyReservationRequestResolved payload =>
      notifyReservationRequestResolved numeral payload
  | _ => none

end RabbitRealtimePublisherAdapter

namespace RabbitPaymentEventsAdapter

open Payments

def paymentRegistered (payload : PaymentRegistered) : Envelope where
  event := "payment.registered"
  target := .admin
  payload := .object [("paymentId", .string payload.paymentId),
    ("sessionId", .string payload.sessionId), ("branchId", .string payload.branchId),
    ("amount", KafkaAuditEventPublisherAdapter.amountJson payload.amount),
    ("status", .string (KafkaAuditEventPublisherAdapter.statusText payload.status))]

end RabbitPaymentEventsAdapter

namespace Realtime

-- A value where a text is expected. The language makes a text of the others.
def textOf (other : Option Json → String) : Option Json → String
  | some (.string text) => text
  | value => other value

def targetOf (other : Option Json → String) (target : Json) : RealtimeTarget :=
  match target.get? "type" with
  | some (.string "branch") => .branch (textOf other (target.get? "branchId"))
  | some (.string "user") => .user (textOf other (target.get? "userId"))
  | some (.string "admin") => .admin
  | type => .other (textOf other type)

-- The envelope in the content of a message, where a member that is not truthy is none.
def envelopeOf (other : Option Json → String) (content : List UInt8) :
    Option (RealtimeEventEnvelope (Option Json)) :=
  (Json.parse (Utf8.decode content)).map fun parsed =>
    { event := ((parsed.get? "event").filter Json.truthy).map fun event => textOf other (some event)
      target := ((parsed.get? "target").filter Json.truthy).map (targetOf other)
      payload := parsed.get? "payload" }

-- What is relayed in a run, in its order.
def relayed {Payload : Type} (events : List (RealtimeEvent Payload)) :
    List (Option (RealtimeEventEnvelope Payload)) :=
  events.filterMap fun event =>
    match event with
    | .relay message => some message
    | _ => none

end Realtime

variable {Tid : Type}

-- What the executions of a run have published, in its order.
def liveEvents (numeral : ℚ → ℤ × ℤ) (history : History Tid) : List Envelope :=
  history.reverse.filterMap fun event => RabbitRealtimePublisherAdapter.envelope? numeral event.call

variable [DecidableEq Tid]

-- What reaches the exchange later: the occupancy, after a count of all slots and then one
-- of those that are taken, and the payments.
inductive LaterEvent (first pool : Workers Tid) : Envelope → Prop
  | occupancy {asked counted : Workers Tid} {branchId : Id}
      (hasked : Pool.Reaches (unreliable serve) Pool.unguarded first asked)
      (hcall : ∃ event ∈ asked.history, event.call = .notify (.OccupancyUpdated branchId))
      (hcounted : Pool.Reaches (unreliable serve) Pool.unguarded asked counted)
      (h : Pool.Reaches (unreliable serve) Pool.unguarded counted pool) :
      LaterEvent first pool (RabbitRealtimePublisherAdapter.occupancyUpdated
        (Occupancy.RabbitRealtimePublisherAdapter.summarize branchId
          (PrismaParkingSlotRepository.summaries
            (PrismaParkingSlotRepository.groupBy asked.world.db [branchId] fun _ => true)
            (PrismaParkingSlotRepository.groupBy counted.world.db [branchId]
              PrismaParkingSlotRepository.occupiedOrReserved))))
  | payment (payload : Payments.PaymentRegistered) :
      LaterEvent first pool (RabbitPaymentEventsAdapter.paymentRegistered payload)

-- An envelope of which the database says the same. The slots of a branch that are taken
-- are those of a moment.
inductive Envelope.Accurate (numeral : ℚ → ℤ × ℤ) (first pool : Workers Tid) : Envelope → Prop
  | notified {message : Notification} {envelope : Envelope}
      (hsent : RabbitRealtimePublisherAdapter.notify message = some envelope)
      (h : AccurateNotification pool.world.db message) : Accurate numeral first pool envelope
  | occupancy {counted : Workers Tid} {branchId : Id}
      (hcounted : Pool.Reaches (unreliable serve) Pool.unguarded first counted)
      (h : Pool.Reaches (unreliable serve) Pool.unguarded counted pool) :
      Accurate numeral first pool (RabbitRealtimePublisherAdapter.occupancyUpdated
        (Occupancy.occupancyEvent branchId (Occupancy.occupiedSlots counted.world.db branchId)
          (Occupancy.totalSlots pool.world.db branchId)))
  | created {requestId : Id} {reservation : Reservation}
      (h : reservation ∈ pool.world.db.reservations) :
      Accurate numeral first pool
        (RabbitRealtimePublisherAdapter.notifyReservationRequestResolved numeral {
          requestId
          userId := reservation.userId
          resolution := .CREATED reservation.id reservation.branchId reservation.slotId
            reservation.startAt reservation.expiresAt })
  | notCreated {payload : ReservationRequestResolvedPayload}
      (h : ∀ id branchId slotId startAt expiresAt,
        payload.resolution ≠ .CREATED id branchId slotId startAt expiresAt) :
      Accurate numeral first pool
        (RabbitRealtimePublisherAdapter.notifyReservationRequestResolved numeral payload)
  | payment (payload : Payments.PaymentRegistered) :
      Accurate numeral first pool (RabbitPaymentEventsAdapter.paymentRegistered payload)

-- The reservation whose creation a browser is told of, in an event of its branch or in
-- the reply to its request.
def toldId (channel : Channel) (event : String) (payload : Option Json) : Option Id :=
  match channel, event with
  | .realtime, "reservation.created" =>
      match payload.bind (Json.get? "reservationId") with
      | some (.string id) => some id
      | _ => none
  | .reply, "reservation.request.resolved" =>
      match (payload.bind (Json.get? "reservation")).bind (Json.get? "id") with
      | some (.string id) => some id
      | _ => none
  | _, _ => none

-- All that a browser gets is so, and is for a user who may see it. No browser is told of
-- a creation twice, unless messages are repeated.
structure Live (jwtVerify : String → Except String Realtime.JwtPayload)
    (other : Option Json → String) (numeral : ℚ → ℤ × ℤ) (first pool : Workers Tid)
    (exchange : List Envelope) (events : List (Realtime.RealtimeEvent (Option Json))) : Prop where
  seen : ∀ delivery ∈ Realtime.Nsp.deliveries jwtVerify events, ∃ envelope ∈ exchange,
    envelope.Accurate numeral first pool ∧ envelope.event = delivery.event ∧
      some envelope.payload = delivery.payload ∧ ∃ past client, past <+: events ∧
        Machine.play (Realtime.Client.step jwtVerify delivery.id) none past = some client ∧
          client.sees envelope.target.rooms = true
  once : (Realtime.relayed events).Subperm
      (exchange.map fun envelope => Realtime.envelopeOf other envelope.content) →
    ∀ id channel reservationId, (Realtime.Nsp.deliveries jwtVerify events).countP (fun delivery =>
      delivery.id = id ∧ toldId channel delivery.event delivery.payload = some reservationId) ≤ 1

namespace Demo

def sid : Realtime.Sid where
  text := "aaaaaaaaaaaaaaaaaaaa"
  length_eq := by decide
  generated := by simp

-- A token is the id of its user.
def jwtVerify (token : String) : Except String Realtime.JwtPayload :=
  .ok { sub := token, email := "ana@example.com", role := .USER, purpose := none }

def numeral (km : ℚ) : ℤ × ℤ := (km.num, 0)

-- A user watches a branch, and gets all that is published of it and for her.
def watched (exchange : List Envelope) : List (Realtime.RealtimeEvent (Option Json)) :=
  .connect sid (some "u1") :: .joinBranch sid (some "b1") :: exchange.map fun envelope =>
    .relay (Realtime.envelopeOf (fun _ => "") envelope.content)

end Demo

end SmartParking
