import SmartParking.Backend.Operations
import SmartParking.Backend.QrCode

namespace SmartParking.Barrier

open Async

-- The calls of the backend, and the two by which a token is issued.
inductive Call where
  | backend (call : SmartParking.Call)
  | signEntryToken (reservationId : Id)
  | signExitToken (sessionId : Id)
  deriving DecidableEq

@[reducible] def Answer : Call → Type
  | .backend call => SmartParking.Answer call
  | .signEntryToken _ => String
  | .signExitToken _ => String

abbrev Port (α : Type) := Program Call Answer Fault α

abbrev lift {α : Type} (p : SmartParking.Port α) : Port α := p.lift Call.backend fun _ => id

abbrev qrCode.signEntryToken (reservationId : Id) : Port String :=
  Program.perform (Call.signEntryToken reservationId)
abbrev qrCode.signExitToken (sessionId : Id) : Port String :=
  Program.perform (Call.signExitToken sessionId)

-- The ports, with the adapter that signs and verifies.
def verified (env : QrEnvironment) (choice : Choice) (now : ℤ) : SmartParking.Call → Choice
  | .qrCodeVerify token => { choice with qr := HmacQrCodeAdapter.verify env now token }
  | _ => choice

def serve (env : QrEnvironment) : Server Choice World Call Answer Fault := fun choice world call =>
  let now := world.clock + choice.elapsed
  match call with
  | .backend call => SmartParking.serve (verified env choice now call) world call
  | .signEntryToken reservationId =>
      (.ok (HmacQrCodeAdapter.signEntryToken env now reservationId), { world with clock := now })
  | .signExitToken sessionId =>
      (.ok (HmacQrCodeAdapter.signExitToken env now sessionId), { world with clock := now })

structure GenerateEntryQrInput where
  reservationId : Id
  userId : Id
  deriving DecidableEq

def GenerateEntryQrUseCase.execute (input : GenerateEntryQrInput) : Port String := do
  let reservation ← lift (reservations.findById input.reservationId)
  match reservation.filter fun reservation => reservation.userId = input.userId with
  | none => throw (.domain (.NotFound "Reservation" input.reservationId))
  | some reservation => qrCode.signEntryToken reservation.id

structure GenerateExitQrInput where
  sessionId : Id
  userId : Id
  deriving DecidableEq

def GenerateExitQrUseCase.execute (input : GenerateExitQrInput) : Port String := do
  let session ← lift (sessions.findById input.sessionId)
  match session.filter fun session => session.userId = input.userId with
  | none => throw (.domain (.NotFound "ParkingSession" input.sessionId))
  | some session => qrCode.signExitToken session.id

-- One request to the backend.
inductive Request where
  | GenerateEntryQr (input : GenerateEntryQrInput)
  | GenerateExitQr (input : GenerateExitQrInput)
  | Backend (operation : Operation)
  deriving DecidableEq

inductive Reply where
  | QrPayload (qrPayload : String)
  | Outcome (outcome : SmartParking.Outcome)
  deriving DecidableEq

def Request.execute (config : Config) : Request → Port Reply
  | .GenerateEntryQr input => Reply.QrPayload <$> GenerateEntryQrUseCase.execute input
  | .GenerateExitQr input => Reply.QrPayload <$> GenerateExitQrUseCase.execute input
  | .Backend operation => Reply.Outcome <$> lift (operation.execute config)

variable {Tid : Type}

-- Requests executed at the same time.
abbrev Requests (Tid : Type) := Pool Tid World Call Answer Fault Reply

def Requests.start (config : Config) (world : World) (requests : Tid → Request) : Requests Tid :=
  Pool.start world fun thread => (requests thread).execute config

abbrev History (Tid : Type) := List (Event Tid Call Answer Fault)

-- What the two types of tokens are about: the reservation of an entry and the
-- session of an exit, with its owner.

def owner (db : Database) : QrType → Id → Option Id
  | .ENTRY, id => (PrismaReservationRepository.findById db id).map Reservation.userId
  | .EXIT, id => (PrismaParkingSessionRepository.findById db id).map ParkingSession.userId

def generate : QrType → Id → Id → Request
  | .ENTRY, reservationId, userId => .GenerateEntryQr { reservationId, userId }
  | .EXIT, sessionId, userId => .GenerateExitQr { sessionId, userId }

def payload : QrType → ℤ → Id → QrPayload
  | .ENTRY => HmacQrCodeAdapter.entryPayload
  | .EXIT => HmacQrCodeAdapter.exitPayload

-- A token that was issued to an execution.
def Issued (history : History Tid) (thread : Tid) (token : String) : QrType → Id → Prop
  | .ENTRY, reservationId => ⟨thread, .signEntryToken reservationId, .ok token⟩ ∈ history
  | .EXIT, sessionId => ⟨thread, .signExitToken sessionId, .ok token⟩ ∈ history

-- The MAC is ideal: what verifies is the encoded payload of a token that was issued.
def Ideal (env : QrEnvironment) :
    Pool.Guard Tid Choice World Call Answer Fault := fun _ history _ call _ =>
  ∀ token, call = .backend (.qrCodeVerify token) → HmacQrCodeAdapter.authentic env token = true →
    ∃ issuer issued type id, Issued history issuer issued type id ∧
      (HmacQrCodeAdapter.segments token).1 = (HmacQrCodeAdapter.segments issued).1

-- The owner has asked for a token of the type at most fifteen minutes before, and
-- this token has the segments of the one that was issued.
def Obtained (env : QrEnvironment) (requests : Tid → Request) (history : History Tid)
    (db : Database) (now : ℤ) (token : String) (type : QrType) (id : Id) : Prop :=
  ∃ issuer userId issuedAt, requests issuer = generate type id userId ∧
    owner db type id = some userId ∧
      Issued history issuer (HmacQrCodeAdapter.encode env (payload type issuedAt id)) type id ∧
        issuedAt ≤ now ∧ now ≤ issuedAt + HmacQrCodeAdapter.QR_TTL_MS ∧
          HmacQrCodeAdapter.segments token =
            HmacQrCodeAdapter.segments (HmacQrCodeAdapter.encode env (payload type issuedAt id))

-- The request that a token of the type is submitted to.
def submit : QrType → String → Request
  | .ENTRY, token => .Backend (.RegisterEntry token)
  | .EXIT, token => .Backend (.RegisterExit token)

-- The execution goes on to parkingPolicy.registerEntry for a reservation, or to the
-- lookup of a session.
def Opens (type : QrType) (id : Id) (p : Port Reply) : Prop :=
  match type with
  | .ENTRY => ∃ f : ParkingSession → Port Reply, p = lift clock.now >>= fun now =>
      lift (DefaultParkingPolicy.registerEntry id now) >>= f
  | .EXIT => ∃ f : ℤ → Option ParkingSession → Port Reply, p = lift clock.now >>= fun now =>
      lift (sessions.findById id) >>= f now

-- The token is refused with an InvalidQrCodeError, and nothing is written.
structure Refused (thread : Tid) (before after : Requests Tid) : Prop where
  error : ∃ message, after.threads thread = .done (.error (.domain (.InvalidQrCode message)))
  unchanged : after.world.db = before.world.db

-- What the submission of a token does.
structure Guarded (env : QrEnvironment) (requests : Tid → Request) (thread : Tid) (now : ℤ)
    (token : String) (type : QrType) (before after : Requests Tid) : Prop where
  opens : ∀ id, Opens type id (after.threads thread) →
    Obtained env requests before.history before.world.db now token type id
  answers : (∃ id, Opens type id (after.threads thread)) ∨ Refused thread before after
  crossed : ∀ issuer issued other id, Issued before.history issuer issued other id →
    HmacQrCodeAdapter.segments token = HmacQrCodeAdapter.segments issued → other ≠ type →
      Refused thread before after
  refuses : (∀ id, ¬Obtained env requests before.history before.world.db now token type id) →
    Refused thread before after

-- An issued token says what was signed, for fifteen minutes.
def Fresh (env : QrEnvironment) (pool : Requests Tid) : Prop :=
  ∀ issuer issued type id, Issued pool.history issuer issued type id → ∃ issuedAt ≤ pool.world.clock,
    ∀ now ≤ issuedAt + HmacQrCodeAdapter.QR_TTL_MS,
      HmacQrCodeAdapter.verify env now issued = .ok (payload type issuedAt id)

-- What an execution has done of its request: a token is signed when its owner was
-- found, and the operations of the backend sign none.

def sign : QrType → Id → Port String
  | .ENTRY, id => qrCode.signEntryToken id
  | .EXIT, id => qrCode.signExitToken id

inductive Stage (config : Config) (db : Database) : Request → Port Reply → Prop
  | asked {type : QrType} {id userId : Id} :
      Stage config db (generate type id userId) ((generate type id userId).execute config)
  | found {type : QrType} {id userId : Id} (howner : owner db type id = some userId) :
      Stage config db (generate type id userId) (Reply.QrPayload <$> sign type id)
  | past {request : Request} {p : Port Reply}
      (honly : p.Uses fun call => ∃ inner, call = .backend inner) : Stage config db request p

-- A signature is for the owner who has asked for it.
def Signs (db : Database) (request : Request) (call : Call) : Prop :=
  ∀ type id, (sign type id).awaited = some call →
    ∃ userId, request = generate type id userId ∧ owner db type id = some userId

-- The invariant of the requests.
structure Kept (env : QrEnvironment) (config : Config) (requests : Tid → Request)
    (pool : Requests Tid) : Prop where
  stage : ∀ thread, Stage config pool.world.db (requests thread) (pool.threads thread)
  issued : ∀ issuer issued type id, Issued pool.history issuer issued type id →
    ∃ userId issuedAt, requests issuer = generate type id userId ∧
      owner pool.world.db type id = some userId ∧ issuedAt ≤ pool.world.clock ∧
        issued = HmacQrCodeAdapter.encode env (payload type issuedAt id)

-- The owner of a reservation asks for a token and shows it.
namespace Demo

open SmartParking.Demo

def env : QrEnvironment where
  createHmac := ⟨fun _ _ => List.replicate 32 0, fun _ _ => List.length_replicate⟩
  JWT_SECRET := none
  unchecked _ _ := .error (.infrastructure "Unexpected payload")

def world : World := { clock := 0, db := reserved }

def token : String := HmacQrCodeAdapter.signEntryToken env 2 "r1"

def requests : Bool → Request
  | false => generate .ENTRY "r1" "u1"
  | true => submit .ENTRY token

def shown : Requests Bool :=
  (Requests.start config world requests).play (serve env) (List.replicate 2 (false, choice "r1"))

end Demo

end SmartParking.Barrier
