import SmartParking.Machine

namespace SmartParking

-- A connection with its confirm channel, and the handlers subscribed on it. They
-- have close listeners once the attempt that opened them has succeeded.
structure Link (Handler : Type) where
  modelOpen : Bool
  channelOpen : Bool
  consumers : List Handler
  deriving DecidableEq

namespace Link

variable {Handler : Type}

def fresh : Link Handler where
  modelOpen := true
  channelOpen := true
  consumers := []

-- A connection that closes takes its channel with it, and a channel its consumers.
def closeModel (_ : Link Handler) : Link Handler where
  modelOpen := false
  channelOpen := false
  consumers := []

def closeChannel (link : Link Handler) : Link Handler :=
  { link with channelOpen := false, consumers := [] }

-- A handler that has run: it only subscribes on an open channel.
def subscribe (handler : Handler) (link : Link Handler) : Link Handler :=
  if link.channelOpen then { link with consumers := handler :: link.consumers } else link

end Link

-- How far the attempt of connecting is: it awaits openChannel, or one of the
-- ready handlers on the link it has opened.
inductive Attempt (Handler : Type) where
  | opening (link : Link Handler)
  | running (link next : ℕ)
  deriving DecidableEq

-- Links are known by their place in the list of all that were opened. A timer's
-- callback that waits for the attempt is retrying; the handlers that onReady runs
-- by itself are running.
structure RabbitMqConnection (Handler : Type) where
  model : Option ℕ
  channel : Option ℕ
  connecting : Option (Attempt Handler)
  retrying : Bool
  reconnectTimer : Bool
  shuttingDown : Bool
  readyHandlers : List Handler
  running : List (ℕ × Handler)
  links : List (Link Handler)
  deriving DecidableEq

-- What the environment does, and the calls of the rest of the process.
inductive ConnectionEvent (Handler : Type) where
  | openChannelFails
  | openChannelSucceeds
  -- what is being opened closes before it has listeners
  | openingModelCloses
  | openingChannelCloses
  | handlerSettles (ok : Bool)
  | readyHandlerSettles (index : ℕ) (ok : Bool)
  | modelCloses (link : ℕ)
  | channelCloses (link : ℕ)
  | timerFires
  | getChannel
  | onReady (handler : Handler)
  deriving DecidableEq

namespace RabbitMqConnection

variable {Handler : Type}

def new (readyHandlers : List Handler) : RabbitMqConnection Handler where
  model := none
  channel := none
  connecting := none
  retrying := false
  reconnectTimer := false
  shuttingDown := false
  readyHandlers
  running := []
  links := []

def connect (connection : RabbitMqConnection Handler) : RabbitMqConnection Handler :=
  match connection.connecting with
  | some _ => connection
  | none => { connection with connecting := some (.opening .fresh), retrying := false }

-- A failure of this attempt is logged.
def onModuleInit (connection : RabbitMqConnection Handler) : RabbitMqConnection Handler :=
  connection.connect

def getChannel (connection : RabbitMqConnection Handler) : RabbitMqConnection Handler :=
  match connection.channel with
  | some _ => connection
  | none => connection.connect

def onReady (handler : Handler) (connection : RabbitMqConnection Handler) :
    RabbitMqConnection Handler :=
  { connection with
    readyHandlers := connection.readyHandlers ++ [handler]
    running :=
      match connection.channel with
      | some link => connection.running ++ [(link, handler)]
      | none => connection.running }

def scheduleReconnect (connection : RabbitMqConnection Handler) : RabbitMqConnection Handler :=
  if connection.reconnectTimer then connection else { connection with reconnectTimer := true }

-- The callback of the timer. It schedules again if the attempt fails.
def reconnect (connection : RabbitMqConnection Handler) : RabbitMqConnection Handler :=
  { ({ connection with reconnectTimer := false } : RabbitMqConnection Handler).connect with
    retrying := true }

-- The attempt is over.
def finish (connection : RabbitMqConnection Handler) : RabbitMqConnection Handler :=
  { connection with connecting := none, retrying := false }

def fail (connection : RabbitMqConnection Handler) : RabbitMqConnection Handler :=
  if connection.retrying then connection.finish.scheduleReconnect else connection.finish

-- The next ready handler of the attempt, in the list as it is now.
def runFrom (link next : ℕ) (connection : RabbitMqConnection Handler) :
    RabbitMqConnection Handler :=
  if next < connection.readyHandlers.length then
    { connection with connecting := some (.running link next) }
  else connection.finish

def opened (link : Link Handler) (connection : RabbitMqConnection Handler) :
    RabbitMqConnection Handler :=
  runFrom connection.links.length 0 { connection with
    model := some connection.links.length
    channel := some connection.links.length
    links := connection.links ++ [link] }

-- Errors of a handler are logged.
def ran (link : ℕ) (handler : Option Handler) (ok : Bool)
    (connection : RabbitMqConnection Handler) : RabbitMqConnection Handler :=
  match handler, ok with
  | some handler, true =>
      { connection with links := connection.links.modify link (Link.subscribe handler) }
  | _, _ => connection

-- The close listener of a connection, after those of its channel.
def modelClosed (link : ℕ) (connection : RabbitMqConnection Handler) :
    RabbitMqConnection Handler :=
  let connection := { connection with
    model := none
    channel := none
    links := connection.links.modify link Link.closeModel }
  if connection.shuttingDown then connection else connection.scheduleReconnect

-- The close listener of a channel.
def channelClosed (link : ℕ) (connection : RabbitMqConnection Handler) :
    RabbitMqConnection Handler :=
  { connection with
    channel := none
    links := connection.links.modify link Link.closeChannel }

-- An event that cannot happen in the state changes nothing.
def step (connection : RabbitMqConnection Handler) :
    ConnectionEvent Handler → RabbitMqConnection Handler
  | .openChannelFails =>
      match connection.connecting with
      | some (.opening _) => connection.fail
      | _ => connection
  | .openChannelSucceeds =>
      match connection.connecting with
      | some (.opening link) => connection.opened link
      | _ => connection
  | .openingModelCloses =>
      match connection.connecting with
      | some (.opening link) => { connection with connecting := some (.opening link.closeModel) }
      | _ => connection
  | .openingChannelCloses =>
      match connection.connecting with
      | some (.opening link) => { connection with connecting := some (.opening link.closeChannel) }
      | _ => connection
  | .handlerSettles ok =>
      match connection.connecting with
      | some (.running link next) =>
          runFrom link (next + 1) (connection.ran link connection.readyHandlers[next]? ok)
      | _ => connection
  | .readyHandlerSettles index ok =>
      match connection.running[index]? with
      | some (link, handler) =>
          { connection.ran link (some handler) ok with
            running := connection.running.eraseIdx index }
      | none => connection
  | .modelCloses link =>
      if (connection.links[link]?.any Link.modelOpen) then connection.modelClosed link
      else connection
  | .channelCloses link =>
      if (connection.links[link]?.any Link.channelOpen) then connection.channelClosed link
      else connection
  | .timerFires => if connection.reconnectTimer then connection.reconnect else connection
  | .getChannel => connection.getChannel
  | .onReady handler => connection.onReady handler

end RabbitMqConnection

end SmartParking
