import SmartParking.Async.Program
import SmartParking.JsDate
import SmartParking.Json.Values

namespace SmartParking.Notifications

open Async

-- What the host makes of values that are no text: the text of a number, the time that a
-- number or a text that is no ISO date is, and the date it writes for a time.
structure Host where
  numberText : ℤ → ℤ → String
  dateOfNumber : ℤ → ℤ → Option JsDate.Time
  dateOfText : String → Option JsDate.Time
  toLocaleString : JsDate.Time → String

namespace Host

variable (host : Host)

mutual

-- The text of a value in a template. There is none for an object that hides its method.
def text : Json → Option String
  | .null => some "null"
  | .bool true => some "true"
  | .bool false => some "false"
  | .number mantissa exponent => some (host.numberText mantissa exponent)
  | .string value => some value
  | .array items => (itemTexts items).map fun texts => ",".intercalate texts
  | .object members =>
      if members.all (·.1 ≠ "toString") then some "[object Object]" else none

def itemTexts : List Json → Option (List String)
  | [] => some []
  | .null :: items => (itemTexts items).map ("" :: ·)
  | item :: items => do
      let first ← text item
      let rest ← itemTexts items
      return first :: rest

end

-- A member that is not there is undefined.
def memberText : Option Json → Option String
  | none => some "undefined"
  | some value => host.text value

-- new Date(value): the time it has, none for an invalid date. There is no date for an
-- object without a text.
def newDate : Option Json → Option (Option JsDate.Time)
  | none => some none
  | some .null => some (JsDate.ofMs 0)
  | some (.bool value) => some (JsDate.ofMs (if value then 1 else 0))
  | some (.number mantissa exponent) => some (host.dateOfNumber mantissa exponent)
  | some value => (host.text value).map (JsDate.parse host.dateOfText)

end Host

structure ReservationConfirmationEvent where
  reservationId : String
  userEmail : String
  userFullName : Option Json
  branchName : Option Json
  branchAddress : Option Json
  slotId : Option Json
  startAt : Option Json
  expiresAt : Option Json

-- The event that a value is.
def confirmation? (value : Json) : Option ReservationConfirmationEvent :=
  match value.get? "eventType", value.get? "reservationId", value.get? "userEmail" with
  | some (.string eventType), some (.string reservationId), some (.string userEmail) =>
      if eventType = "reservation.confirmation.email" then
        some {
          reservationId
          userEmail
          userFullName := value.get? "userFullName"
          branchName := value.get? "branchName"
          branchAddress := value.get? "branchAddress"
          slotId := value.get? "slotId"
          startAt := value.get? "startAt"
          expiresAt := value.get? "expiresAt" }
      else none
  | _, _, _ => none

def isReservationConfirmationEvent (value : Json) : Bool := (confirmation? value).isSome

structure Mail where
  sender : String
  recipient : String
  subject : String
  text : String
  html : String
  deriving DecidableEq

structure Settings where
  enabled : Bool
  fromEmail : String

-- What cannot be made a date is left as it is.
def formatDate (host : Host) (iso : Option Json) : Option Json :=
  match host.newDate iso with
  | some (some time) => some (.string (host.toLocaleString time))
  | some none => some (.string "Invalid Date")
  | none => iso

-- The texts that a mail is made of.
structure Details where
  userFullName : String
  branchName : String
  branchAddress : String
  slotId : String
  startAt : String
  expiresAt : String
  reservationId : String

namespace Details

def subject (details : Details) : String := "Reserva confirmada en " ++ details.branchName

def text (details : Details) : String :=
  "\n".intercalate [
    "Hola " ++ details.userFullName ++ ",",
    "",
    "Tu reserva de cochera quedo confirmada.",
    "",
    "Sucursal: " ++ details.branchName ++ " (" ++ details.branchAddress ++ ")",
    "Espacio: " ++ details.slotId,
    "Hora de inicio: " ++ details.startAt,
    "Valida hasta: " ++ details.expiresAt,
    "Codigo de reserva: " ++ details.reservationId,
    "",
    "Si no reconoces esta reserva, contacta a soporte."]

def row (name value : String) : String :=
  "        <tr><td style=\"padding: 4px 8px; color:#555;\">" ++ name ++
    "</td><td style=\"padding: 4px 8px;\">" ++ value ++ "</td></tr>"

def html (details : Details) : String :=
  "\n".intercalate [
    "",
    "    <div style=\"font-family: Arial, sans-serif; color: #1a1a1a; max-width: 480px;\">",
    "      <h2 style=\"margin-bottom: 0;\">Reserva confirmada</h2>",
    "      <p>Hola <strong>" ++ details.userFullName ++ "</strong>,</p>",
    "      <p>Tu reserva de cochera quedo confirmada. Estos son los detalles:</p>",
    "      <table style=\"border-collapse: collapse; width: 100%;\">",
    row "Sucursal" ("<strong>" ++ details.branchName ++ "</strong>"),
    row "Direccion" details.branchAddress,
    row "Espacio" details.slotId,
    row "Hora de inicio" details.startAt,
    row "Valida hasta" details.expiresAt,
    row "Codigo de reserva" ("<code>" ++ details.reservationId ++ "</code>"),
    "      </table>",
    "      <p style=\"color:#777; font-size: 12px; margin-top: 24px;\">" ++
      "Si no reconoces esta reserva, contacta a soporte.</p>",
    "    </div>",
    "  "]

end Details

-- The texts of an event. A member without one is a TypeError.
def details (host : Host) (event : ReservationConfirmationEvent) : Option Details := do
  let branchName ← host.memberText event.branchName
  let userFullName ← host.memberText event.userFullName
  let branchAddress ← host.memberText event.branchAddress
  let slotId ← host.memberText event.slotId
  let startAt ← host.memberText (formatDate host event.startAt)
  let expiresAt ← host.memberText (formatDate host event.expiresAt)
  return {
    userFullName, branchName, branchAddress, slotId, startAt, expiresAt
    reservationId := event.reservationId }

def buildEmail (host : Host) (settings : Settings) (event : ReservationConfirmationEvent) :
    Option Mail :=
  (details host event).map fun details => {
    sender := settings.fromEmail
    recipient := event.userEmail
    subject := details.subject
    text := details.text
    html := details.html }

inductive Call where
  | sendMail (mail : Mail)
  | sleep (ms : ℕ)

abbrev Answer : Call → Type := fun _ => Unit

abbrev Process := Program Call Answer String

-- Without the switch nothing is sent, but the mail is made.
def sendConfirmationEmail (host : Host) (settings : Settings)
    (event : ReservationConfirmationEvent) : Process Unit :=
  match buildEmail host settings event with
  | none => throw "Cannot convert object to primitive value"
  | some mail =>
      if settings.enabled then Program.perform (Call.sendMail mail) else pure ()

end SmartParking.Notifications
