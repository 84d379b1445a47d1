import SmartParking.Machine
import Mathlib.Data.Int.Order.Basic
import Mathlib.Logic.Function.Basic

namespace SmartParking

inductive CircuitState where
  | CLOSED | OPEN | HALF_OPEN
  deriving DecidableEq

structure CircuitOpenError where
  target : String
  deriving DecidableEq

def CircuitOpenError.message (error : CircuitOpenError) : String :=
  "Circuito abierto hacia " ++ error.target ++ ": se rechaza sin llamar."

-- The settings of a breaker.
structure CircuitBreaker (Error : Type) where
  name : String
  failureThreshold : ℤ
  resetTimeoutMs : ℤ
  isFailure : Error → Bool

-- Its fields that change.
structure Circuit where
  state : CircuitState
  consecutiveFailures : ℕ
  openedAt : ℤ
  probeInFlight : Bool
  deriving DecidableEq

namespace Circuit

def initial : Circuit where
  state := .CLOSED
  consecutiveFailures := 0
  openedAt := 0
  probeInFlight := false

def transition (next : CircuitState) (circuit : Circuit) : Circuit :=
  if circuit.state = next then circuit else { circuit with state := next }

def onSuccess (circuit : Circuit) : Circuit :=
  let circuit := { circuit with consecutiveFailures := 0 }
  if circuit.state ≠ .CLOSED then circuit.transition .CLOSED else circuit

end Circuit

namespace CircuitBreaker

variable {Error α : Type}

def onFailure (breaker : CircuitBreaker Error) (now : ℤ) (circuit : Circuit) : Circuit :=
  let circuit := { circuit with consecutiveFailures := circuit.consecutiveFailures + 1 }
  if circuit.state = .HALF_OPEN ∨ breaker.failureThreshold ≤ circuit.consecutiveFailures then
    { circuit with openedAt := now }.transition .OPEN
  else circuit

def reject (breaker : CircuitBreaker Error) : Except CircuitOpenError Unit :=
  .error { target := breaker.name }

-- What execute does until it invokes the action, or throws.
def allow (breaker : CircuitBreaker Error) (now : ℤ) (circuit : Circuit) :
    Except CircuitOpenError Unit × Circuit :=
  if circuit.state = .OPEN ∧ now - circuit.openedAt < breaker.resetTimeoutMs then
    (breaker.reject, circuit)
  else
    let circuit := if circuit.state = .OPEN then circuit.transition .HALF_OPEN else circuit
    if circuit.state = .HALF_OPEN then
      if circuit.probeInFlight then (breaker.reject, circuit)
      else (.ok (), { circuit with probeInFlight := true })
    else (.ok (), circuit)

-- The action has failed, not the other service answered with an error.
def counts (breaker : CircuitBreaker Error) : Except Error α → Bool
  | .ok _ => false
  | .error error => breaker.isFailure error

-- What execute does once the action has settled.
def settle (breaker : CircuitBreaker Error) (now : ℤ) (result : Except Error α)
    (circuit : Circuit) : Circuit :=
  let circuit := if breaker.counts result then breaker.onFailure now circuit else circuit.onSuccess
  { circuit with probeInFlight := false }

end CircuitBreaker

-- A call whose action was invoked: when, in which state, and how many times the
-- circuit had opened before.
structure Flight where
  startedAt : ℤ
  admittedIn : CircuitState
  opening : ℕ
  deriving DecidableEq

-- Overlapping calls of execute on one breaker, numbered in their order, and the
-- times at which the circuit opened, the latest first.
structure Traffic where
  circuit : Circuit
  clock : ℤ
  started : ℕ
  inFlight : ℕ → Option Flight
  openings : List ℤ

-- What happens next, and how long after the event before it.
inductive TrafficEvent (Error α : Type) where
  | start (elapsed : ℕ)
  | settle (call elapsed : ℕ) (result : Except Error α)

namespace Traffic

variable {Error α : Type}

def idle (clock : ℤ) : Traffic where
  circuit := .initial
  clock
  started := 0
  inFlight _ := none
  openings := []

def start (breaker : CircuitBreaker Error) (traffic : Traffic) (elapsed : ℕ) : Traffic :=
  let now := traffic.clock + elapsed
  let (admission, circuit) := breaker.allow now traffic.circuit
  { circuit
    clock := now
    started := traffic.started + 1
    inFlight :=
      match admission with
      | .ok () => Function.update traffic.inFlight traffic.started (some {
          startedAt := now
          admittedIn := circuit.state
          opening := traffic.openings.length })
      | .error _ => traffic.inFlight
    openings := traffic.openings }

-- A call that is not in flight does not settle.
def settle (breaker : CircuitBreaker Error) (traffic : Traffic) (call elapsed : ℕ)
    (result : Except Error α) : Traffic :=
  match traffic.inFlight call with
  | none => traffic
  | some _ =>
      let now := traffic.clock + elapsed
      let circuit := breaker.settle now result traffic.circuit
      { circuit
        clock := now
        started := traffic.started
        inFlight := Function.update traffic.inFlight call none
        openings :=
          if traffic.circuit.state ≠ .OPEN ∧ circuit.state = .OPEN then now :: traffic.openings
          else traffic.openings }

def step (breaker : CircuitBreaker Error) (traffic : Traffic) : TrafficEvent Error α → Traffic
  | .start elapsed => traffic.start breaker elapsed
  | .settle call elapsed result => traffic.settle breaker call elapsed result

end Traffic

end SmartParking
