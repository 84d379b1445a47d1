import SmartParking.Realtime.Relay
import Mathlib.Data.List.Perm.Basic

namespace SmartParking.Realtime

namespace Relay

variable {Message : Type}

-- An open connection has an active consumer on its queue.
def Consuming (relay : Relay Message) (connection : ℕ) : Prop :=
  ∃ opened, relay.connections[connection]? = some opened ∧ opened.isOpen = true ∧
    opened.consuming = true

-- A message counts as often as it was published.
structure RelayedOnce [DecidableEq Message] (relay : Relay Message) : Prop where
  consumer : ∀ first second, relay.Consuming first → relay.Consuming second → first = second
  handled : ∀ message, relay.handled.count message ≤ relay.published.count message

-- When the timer fires nothing consumes, and no attempt can still succeed.
def Needed (relay : Relay Message) : RelayEvent Message → Prop
  | .timerFires => relay.timer = true →
      (∀ awaited ∈ relay.attempts, relay.viable awaited = false) ∧
        ∀ connection, ¬relay.Consuming connection
  | _ => True

end Relay

end SmartParking.Realtime
