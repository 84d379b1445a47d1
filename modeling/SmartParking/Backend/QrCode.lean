import SmartParking.Base64
import SmartParking.Backend.UseCases
import SmartParking.JsString
import SmartParking.Json.RoundTrip
import SmartParking.Utf8

namespace SmartParking

open Async

-- HMAC-SHA256 of node:crypto: thirty-two bytes.
structure HmacSha256 where
  digest : List UInt8 → List UInt8 → List UInt8
  length_digest : ∀ key message, (digest key message).length = 32

-- What the adapter is given: the MAC and the configured secret. A signed text that
-- is no QrPayload is passed on without a check, and can do anything.
structure QrEnvironment where
  createHmac : HmacSha256
  JWT_SECRET : Option String
  unchecked : ℤ → Json → Except Fault QrPayload

namespace QrType

def text : QrType → String
  | .ENTRY => "ENTRY"
  | .EXIT => "EXIT"

def ofText (text : String) : Option QrType :=
  if text = "ENTRY" then some .ENTRY else if text = "EXIT" then some .EXIT else none

theorem ofText_text (type : QrType) : ofText type.text = some type := by
  cases type <;> rfl

end QrType

namespace QrPayload

-- A field that is undefined is left out.
def toJson (payload : QrPayload) : Json := .object
  (("type", .string payload.type.text) ::
    (payload.reservationId.toList.map fun id => ("reservationId", .string id)) ++
    (payload.sessionId.toList.map fun id => ("sessionId", .string id)) ++
    [("expiresAt", .number payload.expiresAt 0)])

def optionalText : Option Json → Option (Option String)
  | none => some none
  | some (.string text) => some (some text)
  | some _ => none

def ofJson (json : Json) : Option QrPayload :=
  match json.get? "type", json.get? "expiresAt" with
  | some (.string type), some (.number expiresAt 0) => do
      let type ← QrType.ofText type
      let reservationId ← optionalText (json.get? "reservationId")
      let sessionId ← optionalText (json.get? "sessionId")
      some { type, reservationId, sessionId, expiresAt }
  | _, _ => none

theorem ofJson_toJson (payload : QrPayload) : ofJson payload.toJson = some payload := by
  obtain ⟨type, reservationId, sessionId, expiresAt⟩ := payload
  have htype := QrType.ofText_text type
  cases reservationId <;> cases sessionId <;>
    simp [ofJson, toJson, Json.get?, optionalText, htype]

end QrPayload

namespace HmacQrCodeAdapter

def QR_TTL_MS : ℤ := 15 * 60 * 1000

variable (env : QrEnvironment)

def secret : String := env.JWT_SECRET.getD "dev-secret"

def sign (encodedPayload : String) : String :=
  Base64.encode (env.createHmac.digest (Utf8.encode (secret env)) (Utf8.encode encodedPayload))

def encodePayload (payload : QrPayload) : String :=
  Base64.encode (Utf8.encode (Json.stringify payload.toJson))

def encode (payload : QrPayload) : String :=
  encodePayload payload ++ "." ++ sign env (encodePayload payload)

def entryPayload (now : ℤ) (reservationId : Id) : QrPayload where
  type := .ENTRY
  reservationId := some reservationId
  sessionId := none
  expiresAt := now + QR_TTL_MS

def exitPayload (now : ℤ) (sessionId : Id) : QrPayload where
  type := .EXIT
  reservationId := none
  sessionId := some sessionId
  expiresAt := now + QR_TTL_MS

def signEntryToken (now : ℤ) (reservationId : Id) : String :=
  encode env (entryPayload now reservationId)

def signExitToken (now : ℤ) (sessionId : Id) : String := encode env (exitPayload now sessionId)

-- The first two segments of a token. One that is missing is as one that is empty.
def segments (token : String) : String × String :=
  ((JsString.split '.' token).getD 0 "", (JsString.split '.' token).getD 1 "")

def authentic (token : String) : Bool :=
  (segments token).1 ≠ "" && (segments token).2 ≠ "" &&
    (segments token).2 = sign env (segments token).1

-- What a signed text says.
def readPayload (now : ℤ) (encodedPayload : String) : Except Fault QrPayload :=
  match Json.parse (Utf8.decode (Base64.decode encodedPayload)) with
  | none => .error (.infrastructure "Unexpected token in JSON")
  | some json =>
      match QrPayload.ofJson json with
      | none => env.unchecked now json
      | some payload =>
          if payload.expiresAt < now then
            .error (.domain (.InvalidQrCode "El QR ha expirado."))
          else .ok payload

def verify (now : ℤ) (token : String) : Except Fault QrPayload :=
  if authentic env token then readPayload env now (segments token).1
  else .error (.domain .invalidQrCode)

variable {env} {now : ℤ} {token : String} {payload : QrPayload}

theorem sign_ne_empty (encodedPayload : String) : sign env encodedPayload ≠ "" := by
  refine Base64.encode_ne_empty fun hnil => ?_
  have hlength := env.createHmac.length_digest (Utf8.encode (secret env))
    (Utf8.encode encodedPayload)
  rw [hnil] at hlength
  cases hlength

theorem encodePayload_ne_empty (payload : QrPayload) : encodePayload payload ≠ "" :=
  Base64.encode_ne_empty (Utf8.encode_ne_nil (Json.stringify_ne_empty _))

theorem segments_encode (payload : QrPayload) :
    segments (encode env payload) = (encodePayload payload, sign env (encodePayload payload)) := by
  have hsplit : JsString.split '.' (encode env payload) =
      [encodePayload payload, sign env (encodePayload payload)] :=
    JsString.split_append (Base64.not_mem_encode _) (Base64.not_mem_encode _)
  rw [segments, hsplit]
  rfl

theorem parse_encodePayload (payload : QrPayload) :
    Json.parse (Utf8.decode (Base64.decode (encodePayload payload))) = some payload.toJson := by
  rw [encodePayload, Base64.decode_encode, Utf8.decode_encode, Json.parse_stringify]

-- A token with the segments of one that was signed says what that one says.
theorem verify_of_segments (h : segments token = segments (encode env payload)) :
    verify env now token =
      if payload.expiresAt < now then .error (.domain (.InvalidQrCode "El QR ha expirado."))
      else .ok payload := by
  have hauthentic : authentic env token = true := by
    rw [authentic, h, segments_encode]
    simp [encodePayload_ne_empty, sign_ne_empty]
  rw [verify, if_pos hauthentic, h, segments_encode, readPayload, parse_encodePayload]
  dsimp only
  rw [QrPayload.ofJson_toJson]

theorem segments_of_authentic (h : authentic env token = true)
    (hsame : (segments token).1 = encodePayload payload) :
    segments token = segments (encode env payload) := by
  have hsecond : (segments token).2 = sign env (segments token).1 := by
    simp only [authentic, Bool.and_eq_true, decide_eq_true_eq] at h
    exact h.2
  rw [segments_encode]
  exact Prod.ext hsame (hsecond.trans (congrArg (sign env) hsame))

theorem encodePayload_injective : Function.Injective encodePayload := by
  intro payload other h
  have hparse := parse_encodePayload payload
  rw [h, parse_encodePayload] at hparse
  have hof := congrArg QrPayload.ofJson (Option.some.inj hparse)
  rw [QrPayload.ofJson_toJson, QrPayload.ofJson_toJson] at hof
  exact (Option.some.inj hof).symm

end HmacQrCodeAdapter

end SmartParking
