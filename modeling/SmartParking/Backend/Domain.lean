import SmartParking.Decimal

namespace SmartParking

-- Identifiers are opaque uuid texts. Dates are their numbers of milliseconds.
abbrev Id := String

-- Amounts of money have two decimals: DECIMAL(10, 2) columns, and numbers that
-- went through `toFixed(2)`.
abbrev Soles := Decimal 2

inductive SlotType where
  | REGULAR | MOTO | ELECTRICO | DISCAPACITADOS
  deriving DecidableEq

inductive SlotStatus where
  | DISPONIBLE | RESERVADA | OCUPADA | NO_DISPONIBLE
  deriving DecidableEq

inductive ReservationStatus where
  | PENDING | CONFIRMED | EXPIRED | CANCELLED | COMPLETED
  deriving DecidableEq

-- The statuses that `findActiveByUser` looks for.
def ReservationStatus.Live (status : ReservationStatus) : Prop :=
  status = .PENDING ∨ status = .CONFIRMED

instance (status : ReservationStatus) : Decidable status.Live :=
  inferInstanceAs (Decidable (_ ∨ _))

inductive SessionStatus where
  | ACTIVE | COMPLETED
  deriving DecidableEq

inductive PaymentStatus where
  | PENDING | APPROVED | REJECTED
  deriving DecidableEq

structure Branch where
  id : Id
  name : String
  address : String
  lat : ℚ
  lng : ℚ
  pricePerHour : Soles
  deriving DecidableEq

structure ParkingSlot where
  id : Id
  branchId : Id
  code : String
  type : SlotType
  status : SlotStatus
  updatedAt : ℤ
  deriving DecidableEq

structure Reservation where
  id : Id
  userId : Id
  branchId : Id
  slotId : Id
  requestedType : SlotType
  status : ReservationStatus
  createdAt : ℤ
  startAt : ℤ
  expiresAt : ℤ
  confirmedAt : Option ℤ
  deriving DecidableEq

structure ParkingSession where
  id : Id
  reservationId : Id
  userId : Id
  slotId : Id
  status : SessionStatus
  entryAt : ℤ
  exitAt : Option ℤ
  deriving DecidableEq

-- The payment as backend sees it: payments-service keeps its own entity.
structure Payment where
  id : Id
  sessionId : Id
  userId : Id
  amount : Soles
  status : PaymentStatus
  externalReference : Option String
  paidAt : Option ℤ
  createdAt : ℤ
  deriving DecidableEq

def Reservation.isPending (reservation : Reservation) : Bool := reservation.status = .PENDING

def ParkingSession.isActive (session : ParkingSession) : Bool := session.status = .ACTIVE

def Payment.isApproved (payment : Payment) : Bool := payment.status = .APPROVED

-- The text of `toFixed(2)`.
def Soles.text (amount : Soles) : String :=
  let cents := amount.units.natAbs
  (if amount.units < 0 then "-" else "") ++ toString (cents / 100) ++ "." ++
    (if cents % 100 < 10 then "0" else "") ++ toString (cents % 100)

-- core/domain/errors, each with its own arguments.
inductive DomainError where
  | InvalidQrCode (message : String)
  | NoAvailability
  | NotFound (entity id : String)
  | OverstayPaymentInsufficient (missingAmount : Soles)
  | PaymentNotApproved
  | PaymentServiceUnavailable
  | ReservationAlreadyActive
  | ReservationExpired (message : String)
  | ReservationNotStarted
  | SessionAlreadyActive
  | SessionNotActive
  deriving DecidableEq

namespace DomainError

def code : DomainError → String
  | InvalidQrCode _ => "INVALID_QR_CODE"
  | NoAvailability => "NO_AVAILABILITY"
  | NotFound _ _ => "NOT_FOUND"
  | OverstayPaymentInsufficient _ => "OVERSTAY_PAYMENT_INSUFFICIENT"
  | PaymentNotApproved => "PAYMENT_NOT_APPROVED"
  | PaymentServiceUnavailable => "PAYMENT_SERVICE_UNAVAILABLE"
  | ReservationAlreadyActive => "RESERVATION_ALREADY_ACTIVE"
  | ReservationExpired _ => "RESERVATION_EXPIRED"
  | ReservationNotStarted => "RESERVATION_NOT_STARTED"
  | SessionAlreadyActive => "SESSION_ALREADY_ACTIVE"
  | SessionNotActive => "SESSION_NOT_ACTIVE"

def message : DomainError → String
  | InvalidQrCode message => message
  | NoAvailability =>
      "No hay disponibilidad en la sucursal solicitada ni en sucursales cercanas."
  | NotFound entity id => entity ++ " con id \"" ++ id ++ "\" no fue encontrado."
  | OverstayPaymentInsufficient missingAmount =>
      "El pago registrado no cubre la estadia real. Falta pagar S/ " ++
        Soles.text missingAmount ++ "."
  | PaymentNotApproved => "La salida requiere un pago aprobado."
  | PaymentServiceUnavailable =>
      "No se pudo consultar el estado del pago. Intenta nuevamente en unos segundos."
  | ReservationAlreadyActive => "El usuario ya tiene una reserva o sesion activa."
  | ReservationExpired message => message
  | ReservationNotStarted => "La reserva todavía no ha comenzado."
  | SessionAlreadyActive => "La reserva ya tiene una sesion de estacionamiento activa."
  | SessionNotActive => "No existe una sesion de estacionamiento activa."

-- The default messages of the constructors that take one.
def invalidQrCode : DomainError := InvalidQrCode "El codigo QR es invalido o ha expirado."

def reservationExpired : DomainError :=
  ReservationExpired "La reserva ha expirado por la ventana de tolerancia."

end DomainError

-- What a function can throw: an answer of the domain, or a failure of the
-- infrastructure with its message.
inductive Fault where
  | domain (error : DomainError)
  | infrastructure (message : String)
  deriving DecidableEq

end SmartParking
