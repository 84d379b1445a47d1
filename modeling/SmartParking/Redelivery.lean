import SmartParking.Backend.Modular
import SmartParking.Backend.Operations

namespace SmartParking

open Async

variable {Tid : Type}

-- An execution of the backend: one delivery of a queued request to a worker,
-- or another operation. A worker that crashes makes no further step.
inductive Task where
  | deliver (message : ReservationRequestMessage)
  | operate (operation : Operation)
  deriving DecidableEq

def Task.execute (config : Config) : Task → Port Unit
  | .deliver message => ReservationRequestConsumer.handle config message
  | .operate operation => do
      let _ ← operation.execute config
      pure ()

def Task.requestId : Task → Option Id
  | .deliver message => some message.requestId
  | .operate _ => none

abbrev Workers (Tid : Type) := Pool Tid World Call Answer Fault Unit

def Workers.start (config : Config) (world : World) (tasks : Tid → Task) : Workers Tid :=
  Pool.start world fun thread => (tasks thread).execute config

def creates (event : Event Tid Call Answer Fault) : Bool :=
  match event with
  | ⟨_, .reservationsCreate _, .ok _⟩ => true
  | _ => false

-- A delivery of the request created a reservation.
def CreatedFor (tasks : Tid → Task) (requestId : Id) (event : Event Tid Call Answer Fault) : Prop :=
  creates event = true ∧ (tasks event.thread).requestId = some requestId

-- The request that a call answers with REJECTED.
def rejectedRequest : Call → Option Id
  | .notifyReservationRequestResolved payload =>
      match payload.resolution with
      | .REJECTED _ _ => some payload.requestId
      | _ => none
  | _ => none

def RejectedFor (requestId : Id) (event : Event Tid Call Answer Fault) : Prop :=
  rejectedRequest event.call = some requestId

def AnsweredFor (tasks : Tid → Task) (requestId : Id) (event : Event Tid Call Answer Fault) :
    Prop :=
  CreatedFor tasks requestId event ∨ RejectedFor requestId event

instance (tasks : Tid → Task) (requestId : Id) : DecidablePred (CreatedFor tasks requestId) :=
  fun _ => inferInstanceAs (Decidable (_ ∧ _))

instance (requestId : Id) :
    DecidablePred (RejectedFor requestId : Event Tid Call Answer Fault → Prop) :=
  fun _ => inferInstanceAs (Decidable (_ = _))

instance (tasks : Tid → Task) (requestId : Id) : DecidablePred (AnsweredFor tasks requestId) :=
  fun _ => inferInstanceAs (Decidable (_ ∨ _))

-- A request gets at most one reservation, and no rejection next to it.
structure Truthful (tasks : Tid → Task) (requestId : Id) (history : History Tid) : Prop where
  once : history.countP (fun event => CreatedFor tasks requestId event) ≤ 1
  honest : ∀ created ∈ history, CreatedFor tasks requestId created →
    ∀ event ∈ history, ¬RejectedFor requestId event

-- No delivery of a request goes on after another delivery of it has created a
-- reservation or answered REJECTED.
def NotAnswered (tasks : Tid → Task) : CallGuard Tid := fun _ history thread _ _ =>
  ∀ requestId ∈ (tasks thread).requestId, ∀ event ∈ history, event.thread ≠ thread →
    ¬AnsweredFor tasks requestId event

instance [DecidableEq Tid] (tasks : Tid → Task) (world : World) (history : History Tid)
    (thread : Tid) (call : Call) (choice : Choice) :
    Decidable (NotAnswered tasks world history thread call choice) :=
  inferInstanceAs (Decidable (∀ requestId ∈ _, ∀ event ∈ history, _ → ¬_))

-- Whether a delivery has created a reservation or answered REJECTED.
inductive Reply where
  | pending
  | given

structure Replied (tasks : Tid → Task) (history : History Tid) (replies : Tid → Reply) : Prop where
  truthful : ∀ requestId, Truthful tasks requestId history
  given : ∀ requestId, ∀ event ∈ history, AnsweredFor tasks requestId event →
    (tasks event.thread).requestId = some requestId ∧ replies event.thread = .given

end SmartParking
