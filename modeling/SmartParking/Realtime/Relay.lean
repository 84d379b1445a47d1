import SmartParking.Machine

namespace SmartParking.Realtime

-- The call that an attempt of connecting awaits, with the connection it is made on.
inductive Awaited where
  | connect
  | createChannel (connection : ℕ)
  | assertExchange (connection : ℕ)
  | assertQueue (connection : ℕ)
  | bindQueue (connection : ℕ)
  | consume (connection : ℕ)
  deriving DecidableEq

-- A connection with its exclusive queue, which holds what the consumer has not got yet.
structure Connection (Message : Type) where
  isOpen : Bool
  bound : Bool
  consuming : Bool
  queue : List Message
  deriving DecidableEq

def Awaited.connection? : Awaited → Option ℕ
  | .connect => none
  | .createChannel connection | .assertExchange connection | .assertQueue connection
  | .bindQueue connection | .consume connection => some connection

namespace Connection

variable {Message : Type}

def fresh : Connection Message where
  isOpen := true
  bound := false
  consuming := false
  queue := []

-- The queue goes with the connection.
def close (_ : Connection Message) : Connection Message where
  isOpen := false
  bound := false
  consuming := false
  queue := []

def bindQueue (connection : Connection Message) : Connection Message :=
  { connection with bound := true }

def consume (connection : Connection Message) : Connection Message :=
  { connection with consuming := true }

-- The fanout exchange puts a copy into every bound queue.
def receive (message : Message) (connection : Connection Message) : Connection Message :=
  if connection.bound then { connection with queue := connection.queue ++ [message] }
  else connection

end Connection

-- One instance of the relay, with all connections it has opened, what was published
-- on the exchange, and what was given to its handler.
structure Relay (Message : Type) where
  model : Option ℕ
  stopped : Bool
  timer : Bool
  attempts : List Awaited
  connections : List (Connection Message)
  published : List Message
  handled : List Message
  deriving DecidableEq

inductive RelayEvent (Message : Type) where
  | settles (attempt : ℕ) (ok : Bool)
  | connectionCloses (connection : ℕ)
  | timerFires
  | stop
  | publish (message : Message)
  | deliver (connection : ℕ)
  deriving DecidableEq

namespace Relay

variable {Message : Type}

def connect (relay : Relay Message) : Relay Message :=
  { relay with attempts := relay.attempts ++ [.connect] }

def startRelay : Relay Message :=
  connect
    { model := none
      stopped := false
      timer := false
      attempts := []
      connections := []
      published := []
      handled := [] }

def scheduleReconnect (relay : Relay Message) : Relay Message :=
  if relay.stopped ∨ relay.timer then relay else { relay with timer := true }

def isOpen (relay : Relay Message) (connection : ℕ) : Bool :=
  relay.connections[connection]?.any Connection.isOpen

-- The attempt goes on with its next call.
def await (attempt : ℕ) (awaited : Awaited) (relay : Relay Message) : Relay Message :=
  { relay with attempts := relay.attempts.set attempt awaited }

def change (connection : ℕ) (edit : Connection Message → Connection Message)
    (relay : Relay Message) : Relay Message :=
  { relay with connections := relay.connections.modify connection edit }

def failed (attempt : ℕ) (relay : Relay Message) : Relay Message :=
  scheduleReconnect { relay with attempts := relay.attempts.eraseIdx attempt }

-- The call has succeeded.
def resumed (attempt : ℕ) (relay : Relay Message) : Awaited → Relay Message
  | .connect =>
      ({ relay with connections := relay.connections ++ [.fresh] } : Relay Message).await attempt
        (.createChannel relay.connections.length)
  | .createChannel connection => relay.await attempt (.assertExchange connection)
  | .assertExchange connection => relay.await attempt (.assertQueue connection)
  | .assertQueue connection => relay.await attempt (.bindQueue connection)
  | .bindQueue connection =>
      (relay.change connection .bindQueue).await attempt (.consume connection)
  | .consume connection =>
      { relay.change connection .consume with
        model := some connection
        attempts := relay.attempts.eraseIdx attempt }

-- A call on a connection that has closed does not succeed.
def viable (relay : Relay Message) (awaited : Awaited) : Bool :=
  awaited.connection?.all relay.isOpen

-- The close listener of a connection.
def closed (connection : ℕ) (relay : Relay Message) : Relay Message :=
  let relay := { relay.change connection .close with model := none }
  if relay.stopped then relay else relay.scheduleReconnect

def publish (message : Message) (relay : Relay Message) : Relay Message :=
  { relay with
    published := relay.published ++ [message]
    connections := relay.connections.map (.receive message) }

-- The consumer acknowledges nothing: what it is given is gone from the queue.
def deliver (connection : ℕ) (relay : Relay Message) : Relay Message :=
  match relay.connections[connection]? with
  | some { isOpen := true, consuming := true, queue := message :: queue, .. } =>
      { relay.change connection ({ · with queue }) with handled := relay.handled ++ [message] }
  | _ => relay

-- The function that startRelay returns. Closing the connection is an event of its own.
def stop (relay : Relay Message) : Relay Message :=
  { relay with stopped := true, timer := false }

-- An event that cannot happen in the state changes nothing.
def step (relay : Relay Message) : RelayEvent Message → Relay Message
  | .settles attempt ok =>
      match relay.attempts[attempt]? with
      | some awaited =>
          if ok = false then relay.failed attempt
          else if relay.viable awaited then relay.resumed attempt awaited
          else relay
      | none => relay
  | .connectionCloses connection =>
      if relay.isOpen connection then relay.closed connection else relay
  | .timerFires => if relay.timer then { relay with timer := false }.connect else relay
  | .stop => relay.stop
  | .publish message => relay.publish message
  | .deliver connection => relay.deliver connection

end Relay

end SmartParking.Realtime
