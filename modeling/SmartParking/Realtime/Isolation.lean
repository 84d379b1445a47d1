import SmartParking.Realtime.Namespace

namespace SmartParking.Realtime

variable {Payload : Type}

-- Since its last join of the branch the socket has neither left it nor disconnected.
def JoinedSince (past : List (RealtimeEvent Payload)) (id : Sid) (branchId : String) : Prop :=
  Machine.Since (· = .joinBranch id (some branchId))
    (fun event => event = .leaveBranch id (some branchId) ∨ event = .disconnect id) past

def MaySee (past : List (RealtimeEvent Payload)) (socket : Socket) : RealtimeTarget → Prop
  | .branch branchId => socket.user.role = .ADMIN ∨ JoinedSince past socket.id branchId
  | .user userId => socket.user.sub = userId ∨ socket.user.role = .ADMIN
  | .admin => socket.user.role = .ADMIN
  | .other _ => False

-- How a message that is relayed after the past is delivered.
structure Isolated (jwtVerify : String → Except String JwtPayload)
    (past : List (RealtimeEvent Payload)) (message : Option (RealtimeEventEnvelope Payload))
    (nsp : Nsp) : Prop where
  once : ((nsp.handle message).map Delivery.id).Nodup
  connected : ∀ delivery ∈ nsp.handle message, delivery.id ∈ nsp.map Socket.id
  seen : ∀ delivery ∈ nsp.handle message, ∃ envelope target, message = some envelope ∧
    envelope.target = some target ∧ envelope.event = some delivery.event ∧
      envelope.payload = delivery.payload ∧ ∀ socket ∈ nsp, socket.id = delivery.id →
        verify jwtVerify socket.token = .ok socket.user ∧ MaySee past socket target

-- The rooms a socket can be in.
def Entitled (past : List (RealtimeEvent Payload)) (socket : Socket) (room : String) : Prop :=
  room = socket.id.text ∨ room = userRoom socket.user.sub ∨
    (room = ADMIN_ROOM ∧ socket.user.role = .ADMIN) ∨
      ∃ branchId ≠ "", room = branchRoom branchId ∧ JoinedSince past socket.id branchId

-- The invariant of the sockets.
structure Guarded (jwtVerify : String → Except String JwtPayload)
    (past : List (RealtimeEvent Payload)) (nsp : Nsp) : Prop where
  unique : (nsp.map Socket.id).Nodup
  verified : ∀ socket ∈ nsp, verify jwtVerify socket.token = .ok socket.user
  entitled : ∀ socket ∈ nsp, ∀ room ∈ socket.rooms, Entitled past socket room

end SmartParking.Realtime
