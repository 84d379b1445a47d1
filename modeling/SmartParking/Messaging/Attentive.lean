import SmartParking.Messaging.RabbitMqConnection

namespace SmartParking

namespace RabbitMqConnection

variable {Handler : Type}

def channelOpen (connection : RabbitMqConnection Handler) (link : ℕ) : Prop :=
  connection.links[link]?.any Link.channelOpen = true

def HasOpenChannel (connection : RabbitMqConnection Handler) : Prop :=
  ∃ link, connection.channelOpen link

-- The ready handlers are subscribed, or will be.
def Attentive (connection : RabbitMqConnection Handler) : Prop :=
  ¬connection.HasOpenChannel →
    connection.connecting.isSome = true ∨ connection.reconnectTimer = true

-- The timer will connect again, or another channel is there.
def Covered (connection : RabbitMqConnection Handler) : Prop :=
  connection.HasOpenChannel ∨ connection.reconnectTimer = true

-- An attempt that fails is one of the timer, or is covered. One that ends is
-- covered if it has lost its channel in the meantime. A channel that closes alone
-- is covered, or an attempt is in progress.
def Retried (connection : RabbitMqConnection Handler) : ConnectionEvent Handler → Prop
  | .openChannelFails => ∀ link, connection.connecting = some (.opening link) →
      connection.retrying = true ∨ connection.Covered
  | .openChannelSucceeds => ∀ link, connection.connecting = some (.opening link) →
      connection.readyHandlers = [] → link.channelOpen = true ∨ connection.Covered
  | .handlerSettles _ => ∀ link next, connection.connecting = some (.running link next) →
      connection.readyHandlers.length ≤ next + 1 → connection.Covered
  | .channelCloses link => connection.channelOpen link →
      connection.connecting.isSome = true ∨ connection.reconnectTimer = true ∨
        ∃ other ≠ link, connection.channelOpen other
  | _ => True

end RabbitMqConnection

end SmartParking
