import SmartParking.Realtime.Isolation

namespace SmartParking.Realtime

variable {Payload : Type}

-- The socket that an event comes from.
def RealtimeEvent.sender : RealtimeEvent Payload → Option Sid
  | .connect id _ | .disconnect id | .joinBranch id _ | .leaveBranch id _ => some id
  | .relay _ => none

-- Everything that can matter to a socket: its own events and what is relayed.
def RealtimeEvent.concerns (id : Sid) (event : RealtimeEvent Payload) : Bool :=
  event.sender.all (· = id)

-- All that its socket is worth: a user, and the branches that are watched.
structure Client where
  user : AuthenticatedUser
  watches : String → Bool

namespace Client

def watch (branchId : Option String) (watching : Bool) (client : Client) : Client :=
  { client with
    watches := fun other =>
      if other ≠ "" ∧ some other = branchId then watching else client.watches other }

-- A client is in no room, and knows of no other client.
def own (jwtVerify : String → Except String JwtPayload) (client : Option Client) :
    RealtimeEvent Payload → Option Client
  | .connect _ token =>
      client <|> (Nsp.handshake jwtVerify token).toOption.map fun accepted =>
        { user := accepted.2, watches := fun _ => false }
  | .disconnect _ => none
  | .joinBranch _ branchId => client.map (watch branchId true)
  | .leaveBranch _ branchId => client.map (watch branchId false)
  | .relay _ => client

def step (jwtVerify : String → Except String JwtPayload) (id : Sid) (client : Option Client)
    (event : RealtimeEvent Payload) : Option Client :=
  if event.sender = some id then own jwtVerify client event else client

def sees (client : Client) : RealtimeTarget → Bool
  | .branch branchId => client.user.role = .ADMIN || client.watches branchId
  | .user userId => client.user.sub = userId || client.user.role = .ADMIN
  | .admin => client.user.role = .ADMIN
  | .other _ => false

-- What the client should get.
def out (id : Sid) (client : Option Client) : RealtimeEvent Payload → List (Delivery Payload)
  | .relay (some { event := some event, target := some target, payload }) =>
      if event ≠ "" ∧ client.any (·.sees target) then [{ id, event, payload }] else []
  | _ => []

def deliveries (jwtVerify : String → Except String JwtPayload) (id : Sid)
    (events : List (RealtimeEvent Payload)) : List (Delivery Payload) :=
  Machine.outputs (step jwtVerify id) (out id) none events

end Client

-- The client that a socket stands for.
def Socket.client (socket : Socket) : Client where
  user := socket.user
  watches branchId := branchRoom branchId ∈ socket.rooms

namespace Nsp

def client (nsp : Nsp) (id : Sid) : Option Client := (nsp.find? (·.id = id)).map Socket.client

def out (nsp : Nsp) : RealtimeEvent Payload → List (Delivery Payload)
  | .relay message => nsp.handle message
  | _ => []

-- All that the sockets are sent in a run, from the start of the service.
def deliveries (jwtVerify : String → Except String JwtPayload)
    (events : List (RealtimeEvent Payload)) : List (Delivery Payload) :=
  Machine.outputs (step jwtVerify) out [] events

end Nsp

-- The rooms of its user.
structure Socket.Roomed (socket : Socket) : Prop where
  user : ∀ userId, userRoom userId ∈ socket.rooms ↔ socket.user.sub = userId
  admin : ADMIN_ROOM ∈ socket.rooms ↔ socket.user.role = .ADMIN

-- The namespace holds the client of the socket, and nothing else matters to it.
structure Mirrors (id : Sid) (nsp : Nsp) (client : Option Client) : Prop where
  unique : (nsp.map Socket.id).Nodup
  roomed : ∀ socket ∈ nsp, socket.Roomed
  same : nsp.client id = client

-- Each socket is sent just what its client should get, in this order, and just what it
-- would be sent if it were the only one.
structure Served (jwtVerify : String → Except String JwtPayload)
    (events : List (RealtimeEvent Payload)) (id : Sid) : Prop where
  own : (Nsp.deliveries jwtVerify events).filter (·.id = id) = Client.deliveries jwtVerify id events
  alone : (Nsp.deliveries jwtVerify events).filter (·.id = id) =
    Nsp.deliveries jwtVerify (events.filter (·.concerns id))

end SmartParking.Realtime
