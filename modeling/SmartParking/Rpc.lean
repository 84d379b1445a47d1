import SmartParking.Auth.Domain
import SmartParking.Json.Values
import SmartParking.Resilience.CircuitBreaker
import SmartParking.Settlement

namespace SmartParking

-- What the client of a gRPC call can catch: the details of the status that came
-- back, the timeout of the client, or the circuit of its breaker.
inductive RpcError where
  | status (details : String)
  | timeout
  | circuitOpen (error : CircuitOpenError)
  deriving DecidableEq

namespace RpcError

def details : RpcError → Option String
  | status details => some details
  | timeout => none
  | circuitOpen _ => none

-- The text of an RpcException travels in the details of the status.
def ofDomainError (code message : String) : RpcError :=
  .status (Json.stringify (.object [("code", .string code), ("message", .string message)]))

-- What the framework answers for any other exception.
def unknown : RpcError := .status "Internal server error"

structure DomainErrorBody where
  code : Json
  message : Option Json

def nonNull : Json → Option Json
  | .null => none
  | value => some value

-- The details as a domain error, with whatever counts as true for its code.
def decodeDomainError (error : RpcError) : Option DomainErrorBody := do
  let details ← error.details.filter (· ≠ "")
  let parsed ← Json.parse details
  let code ← (parsed.get? "code").filter Json.truthy
  some { code, message := (parsed.get? "message").bind nonNull }

def isDomainError (error : RpcError) : Bool := (decodeDomainError error).isSome

end RpcError

-- An HTTP answer that is an error.
structure HttpException where
  statusCode : ℕ
  code : Json
  message : Json

-- The name by which a value is looked up, if a table of codes can have it: an array of
-- one item goes by the name of the item.
def keyOf : Json → Option String
  | .string name => some name
  | .array [item] => keyOf item
  | _ => none

def httpStatusOf (STATUS_BY_CODE : List (String × ℕ)) (code : Json) : ℕ :=
  ((keyOf code).bind fun name => STATUS_BY_CODE.lookup name).getD 400

namespace DomainExceptionFilter

def STATUS_BY_CODE : List (String × ℕ) :=
  [("SLOT_NOT_AVAILABLE", 409), ("RESERVATION_ALREADY_ACTIVE", 409), ("SESSION_NOT_ACTIVE", 409),
    ("SESSION_ALREADY_ACTIVE", 409), ("PAYMENT_NOT_APPROVED", 403), ("RESERVATION_EXPIRED", 410),
    ("RESERVATION_NOT_STARTED", 409), ("NOT_FOUND", 404), ("INVALID_CREDENTIALS", 401),
    ("INVALID_MFA_CODE", 401), ("MFA_ALREADY_ENABLED", 409), ("MFA_NOT_CONFIGURED", 409),
    ("EMAIL_ALREADY_REGISTERED", 409), ("NO_AVAILABILITY", 409), ("INVALID_QR_CODE", 400),
    ("RESERVATION_QUEUE_UNAVAILABLE", 503), ("PAYMENT_SERVICE_UNAVAILABLE", 503)]

-- The filter of backend, with what it reads of the error.
def «catch» (code message : String) : HttpException where
  statusCode := httpStatusOf STATUS_BY_CODE (.string code)
  code := .string code
  message := .string message

end DomainExceptionFilter

-- auth-service answers gateway.

def Auth.callUseCase : Auth.Fault → RpcError
  | .domain error => .ofDomainError error.code error.message
  | .infrastructure _ => .unknown

namespace Gateway

def STATUS_BY_CODE : List (String × ℕ) :=
  [("NOT_FOUND", 404), ("INVALID_CREDENTIALS", 401), ("INVALID_MFA_CODE", 401),
    ("MFA_ALREADY_ENABLED", 409), ("MFA_NOT_CONFIGURED", 409), ("EMAIL_ALREADY_REGISTERED", 409)]

def unavailable (message : String) : HttpException where
  statusCode := 503
  code := .string "AUTH_SERVICE_UNAVAILABLE"
  message := .string message

def toHttpException (error : RpcError) : HttpException :=
  match error.decodeDomainError with
  | some domain => {
      statusCode := httpStatusOf STATUS_BY_CODE domain.code
      code := domain.code
      message := domain.message.getD (.string "Error inesperado al comunicarse con auth-service.") }
  | none =>
      match error with
      | .circuitOpen _ => unavailable
          "El servicio de autenticacion no esta disponible. Intenta nuevamente en unos segundos."
      | _ => unavailable
          "No se pudo comunicar con el servicio de autenticacion. Intenta nuevamente."

def authServiceBreaker (failureThreshold resetTimeoutMs : ℤ) : CircuitBreaker RpcError where
  name := "auth-service"
  failureThreshold
  resetTimeoutMs
  isFailure error := error.decodeDomainError.isNone

end Gateway

-- backend answers payments-service.

def callUseCase : Fault → RpcError
  | .domain error => .ofDomainError error.code error.message
  | .infrastructure _ => .unknown

namespace Payments

namespace ParkingGrpcAdapter

def breaker (failureThreshold resetTimeoutMs : ℤ) : CircuitBreaker RpcError where
  name := "backend"
  failureThreshold
  resetTimeoutMs
  isFailure error := !error.isDomainError

def translate (error : RpcError) : DomainError :=
  match error.decodeDomainError with
  | some parsed => .RemoteDomain parsed.code (parsed.message.getD parsed.code)
  | none => .ParkingServiceUnavailable

end ParkingGrpcAdapter

namespace DomainExceptionFilter

def STATUS_BY_CODE : List (String × ℕ) :=
  [("NOT_FOUND", 404), ("SESSION_NOT_ACTIVE", 409), ("PAYMENT_NOT_APPROVED", 403),
    ("PARKING_SERVICE_UNAVAILABLE", 503)]

def «catch» (error : DomainError) : HttpException where
  statusCode := httpStatusOf STATUS_BY_CODE error.code
  code := error.code
  message := error.message

end DomainExceptionFilter

end Payments

-- payments-service answers backend, whose adapter keeps no domain error.
def PaymentsServiceGrpcAdapter.breaker (failureThreshold resetTimeoutMs : ℤ) :
    CircuitBreaker RpcError where
  name := "payments-service"
  failureThreshold
  resetTimeoutMs
  isFailure error := !error.isDomainError

-- The breakers of the three clients.
def clientBreakers (failureThreshold resetTimeoutMs : ℤ) : List (CircuitBreaker RpcError) :=
  [Gateway.authServiceBreaker failureThreshold resetTimeoutMs,
    Payments.ParkingGrpcAdapter.breaker failureThreshold resetTimeoutMs,
    PaymentsServiceGrpcAdapter.breaker failureThreshold resetTimeoutMs]

-- What the browser is to see of a fault of the other service: the answer of backend
-- to the same error, or a service that is unavailable.
def Gateway.answerTo : Auth.Fault → HttpException
  | .domain error => DomainExceptionFilter.catch error.code error.message
  | .infrastructure _ =>
      unavailable "No se pudo comunicar con el servicio de autenticacion. Intenta nuevamente."

def Payments.answerTo : SmartParking.Fault → HttpException
  | .domain error => SmartParking.DomainExceptionFilter.catch error.code error.message
  | .infrastructure _ => Payments.DomainExceptionFilter.catch .ParkingServiceUnavailable

-- A call that was answered with a domain error, as if it had been answered with a value.
def TrafficEvent.forgiven {α : Type} (value : α) : TrafficEvent RpcError α → TrafficEvent RpcError α
  | .settle call elapsed (.error error) =>
      if error.isDomainError then .settle call elapsed (.ok value)
      else .settle call elapsed (.error error)
  | event => event

-- The service has answered, if this is the end of a call.
def TrafficEvent.Answered {α : Type} : TrafficEvent RpcError α → Prop
  | .settle _ _ (.error error) => error.isDomainError = true
  | _ => True

end SmartParking
