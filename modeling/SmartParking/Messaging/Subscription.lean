import SmartParking.Messaging.Attentive

namespace SmartParking

namespace RabbitMqConnection

variable {Handler : Type}

-- The broker delivers to the handler on this channel.
def Subscribed (handler : Handler) (connection : RabbitMqConnection Handler) (link : ℕ) : Prop :=
  ∃ opened, connection.links[link]? = some opened ∧ opened.channelOpen = true ∧
    handler ∈ opened.consumers

def OneSubscription (handler : Handler) (connection : RabbitMqConnection Handler) : Prop :=
  ∀ first second, connection.Subscribed handler first → connection.Subscribed handler second →
    first = second

-- The consumers of the handler, over all open channels.
def consumersOf [DecidableEq Handler] (handler : Handler)
    (connection : RabbitMqConnection Handler) : ℕ :=
  ((connection.links.filter Link.channelOpen).flatMap Link.consumers).count handler

-- An attempt that opens a channel finds all channels of before closed.
def Replaces (connection : RabbitMqConnection Handler) : ConnectionEvent Handler → Prop
  | .openChannelSucceeds => ∀ link, connection.connecting = some (.opening link) →
      link.channelOpen = true → ¬connection.HasOpenChannel
  | _ => True

-- The handler is registered once, and not on the current channel while the attempt that
-- opened it still goes through the list.
def Registers (handler : Handler) (connection : RabbitMqConnection Handler) :
    ConnectionEvent Handler → Prop
  | .onReady added => added = handler → handler ∉ connection.readyHandlers ∧
      ∀ link next, connection.connecting = some (.running link next) → connection.channel = none
  | _ => True

end RabbitMqConnection

-- The worker process: its connection, and the links that the requests it is handling came by.
structure QueueWorker (Handler : Type) where
  connection : RabbitMqConnection Handler
  handling : List ℕ
  deriving DecidableEq

inductive WorkerEvent (Handler : Type) where
  | connection (event : ConnectionEvent Handler)
  | delivered (link : ℕ)
  | handled (index : ℕ)
  deriving DecidableEq

namespace QueueWorker

variable {Handler : Type} [DecidableEq Handler]

def start (readyHandlers : List Handler) : QueueWorker Handler where
  connection := .onModuleInit (.new readyHandlers)
  handling := []

-- The broker has a request for a consumer with less than prefetch that are not
-- acknowledged. What is handled on a channel that is open is not. No prefetch is no limit.
def Deliverable (prefetch : ℕ) (handler : Handler) (worker : QueueWorker Handler) (link : ℕ) :
    Prop :=
  ∃ opened ∈ worker.connection.links[link]?, opened.channelOpen = true ∧
    handler ∈ opened.consumers ∧
      (prefetch = 0 ∨ worker.handling.count link < prefetch * opened.consumers.count handler)

instance (prefetch : ℕ) (handler : Handler) (worker : QueueWorker Handler) (link : ℕ) :
    Decidable (worker.Deliverable prefetch handler link) :=
  inferInstanceAs (Decidable (∃ opened ∈ worker.connection.links[link]?, _))

-- A request is handled to its end also when its channel has closed in the meantime.
def step (prefetch : ℕ) (handler : Handler) (worker : QueueWorker Handler) :
    WorkerEvent Handler → QueueWorker Handler
  | .connection event => { worker with connection := worker.connection.step event }
  | .delivered link =>
      if worker.Deliverable prefetch handler link then
        { worker with handling := link :: worker.handling }
      else worker
  | .handled index => { worker with handling := worker.handling.eraseIdx index }

-- One channel has the consumer, once, and there is one request at a time.
structure Exclusive (handler : Handler) (worker : QueueWorker Handler) : Prop where
  channel : worker.connection.OneSubscription handler
  consumer : worker.connection.consumersOf handler ≤ 1
  request : worker.handling.length ≤ 1

-- Besides, no request comes while one that came by a channel closed since is handled.
def Orderly (handler : Handler) (worker : QueueWorker Handler) : WorkerEvent Handler → Prop
  | .connection event => worker.connection.Replaces event ∧
      worker.connection.Registers handler event
  | .delivered link => worker.Deliverable 1 handler link →
      ∀ other ∈ worker.handling, worker.connection.channelOpen other
  | .handled _ => True

end QueueWorker

end SmartParking
