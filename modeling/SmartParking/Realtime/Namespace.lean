import SmartParking.Machine
import Mathlib.Data.List.Dedup

namespace SmartParking.Realtime

inductive Role where
  | USER | ADMIN
  deriving DecidableEq

structure JwtPayload where
  sub : String
  email : String
  role : Role
  purpose : Option String
  deriving DecidableEq

structure AuthenticatedUser where
  sub : String
  email : String
  role : Role
  deriving DecidableEq

def PURPOSE_ACCESS : String := "access"

-- `jwtVerify` checks the signature with the service's public key, and the expiry.
def verify (jwtVerify : String → Except String JwtPayload) (token : String) :
    Except String AuthenticatedUser := do
  let payload ← jwtVerify token
  if payload.purpose ≠ none ∧ payload.purpose ≠ some PURPOSE_ACCESS then
    throw "El token no es un access token."
  return { sub := payload.sub, email := payload.email, role := payload.role }

-- The ids that socket.io generates.
structure Sid where
  text : String
  length_eq : text.toList.length = 20
  generated : ∀ c ∈ text.toList, c.isAlphanum = true ∨ c = '-' ∨ c = '_'
  deriving DecidableEq

structure Socket where
  id : Sid
  token : String
  user : AuthenticatedUser
  rooms : List String
  deriving DecidableEq

inductive RealtimeTarget where
  | branch (branchId : String)
  | user (userId : String)
  | admin
  | other (type : String)
  deriving DecidableEq

-- An envelope as it was parsed, with what may be missing in it.
structure RealtimeEventEnvelope (Payload : Type) where
  event : Option String
  target : Option RealtimeTarget
  payload : Payload
  deriving DecidableEq

structure Delivery (Payload : Type) where
  id : Sid
  event : String
  payload : Payload
  deriving DecidableEq

def userRoom (userId : String) : String := "user:" ++ userId

def branchRoom (branchId : String) : String := "branch:" ++ branchId

def ADMIN_ROOM : String := "admin"

namespace Socket

def join (room : String) (socket : Socket) : Socket :=
  { socket with rooms := socket.rooms.insert room }

def leave (room : String) (socket : Socket) : Socket :=
  { socket with rooms := socket.rooms.filter (· ≠ room) }

-- A socket starts in the room of its own id.
def onConnection (id : Sid) (token : String) (user : AuthenticatedUser) : Socket :=
  let socket := join (userRoom user.sub) { id, token, user, rooms := [id.text] }
  if user.role = .ADMIN then socket.join ADMIN_ROOM else socket

-- `data?.branchId`, where the empty text counts as missing.
def onJoinBranch (branchId : Option String) (socket : Socket) : Socket :=
  match branchId with
  | none => socket
  | some branchId => if branchId = "" then socket else socket.join (branchRoom branchId)

def onLeaveBranch (branchId : Option String) (socket : Socket) : Socket :=
  match branchId with
  | none => socket
  | some branchId => if branchId = "" then socket else socket.leave (branchRoom branchId)

end Socket

-- What the clients and the exchange send. A message that is no JSON is none.
inductive RealtimeEvent (Payload : Type) where
  | connect (id : Sid) (token : Option String)
  | disconnect (id : Sid)
  | joinBranch (id : Sid) (branchId : Option String)
  | leaveBranch (id : Sid) (branchId : Option String)
  | relay (message : Option (RealtimeEventEnvelope Payload))
  deriving DecidableEq

-- The namespace is the list of its connected sockets.
abbrev Nsp := List Socket

namespace Nsp

variable {Payload : Type}

def handshake (jwtVerify : String → Except String JwtPayload) (token : Option String) :
    Except String (String × AuthenticatedUser) :=
  match token with
  | none => .error "Token de autenticacion faltante."
  | some token =>
      if token = "" then
        .error "Token de autenticacion faltante."
      else
        match verify jwtVerify token with
        | .error _ => .error "Token de autenticacion invalido."
        | .ok user => .ok (token, user)

def connect (jwtVerify : String → Except String JwtPayload) (id : Sid) (token : Option String)
    (nsp : Nsp) : Nsp :=
  match handshake jwtVerify token with
  | .error _ => nsp
  | .ok (token, user) =>
      if id ∈ nsp.map Socket.id then nsp else Socket.onConnection id token user :: nsp

-- A message of one socket runs its own handler.
def update (id : Sid) (change : Socket → Socket) (nsp : Nsp) : Nsp :=
  nsp.map fun socket => if socket.id = id then change socket else socket

def step (jwtVerify : String → Except String JwtPayload) (nsp : Nsp) :
    RealtimeEvent Payload → Nsp
  | .connect id token => nsp.connect jwtVerify id token
  | .disconnect id => nsp.filter (·.id ≠ id)
  | .joinBranch id branchId => nsp.update id (·.onJoinBranch branchId)
  | .leaveBranch id branchId => nsp.update id (·.onLeaveBranch branchId)
  | .relay _ => nsp

def members (nsp : Nsp) (room : String) : List Sid :=
  (nsp.filter (room ∈ ·.rooms)).map Socket.id

-- The union of the rooms, once for each socket.
def emit (nsp : Nsp) (rooms : List String) (event : String) (payload : Payload) :
    List (Delivery Payload) :=
  (rooms.flatMap nsp.members).dedup.map fun id => { id, event, payload }

def emitEnvelope (nsp : Nsp) (event : String) (target : RealtimeTarget) (payload : Payload) :
    List (Delivery Payload) :=
  match target with
  | .branch branchId => nsp.emit [branchRoom branchId, ADMIN_ROOM] event payload
  | .user userId => nsp.emit [userRoom userId, ADMIN_ROOM] event payload
  | .admin => nsp.emit [ADMIN_ROOM] event payload
  | .other _ => []

def handle (nsp : Nsp) (message : Option (RealtimeEventEnvelope Payload)) :
    List (Delivery Payload) :=
  match message with
  | none => []
  | some { event := some event, target := some target, payload } =>
      if event = "" then [] else nsp.emitEnvelope event target payload
  | some _ => []

end Nsp

end SmartParking.Realtime
