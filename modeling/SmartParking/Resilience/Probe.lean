import SmartParking.Resilience.CircuitBreaker

namespace SmartParking

-- Overlapping calls of execute on one breaker, numbered in their order, and the
-- one that has set probeInFlight last.
structure Calls where
  circuit : Circuit
  started : ℕ
  inFlight : ℕ → Bool
  probe : Option ℕ

-- What happens next, and what the clock of the host shows. It can be set back.
inductive CallEvent (Error α : Type) where
  | start (now : ℤ)
  | settle (call : ℕ) (now : ℤ) (result : Except Error α)

namespace Calls

variable {Error α : Type}

def idle : Calls where
  circuit := .initial
  started := 0
  inFlight _ := false
  probe := none

def start (breaker : CircuitBreaker Error) (calls : Calls) (now : ℤ) : Calls :=
  let (admission, circuit) := breaker.allow now calls.circuit
  { circuit
    started := calls.started + 1
    inFlight :=
      match admission with
      | .ok () => Function.update calls.inFlight calls.started true
      | .error _ => calls.inFlight
    probe :=
      if !calls.circuit.probeInFlight && circuit.probeInFlight then some calls.started
      else calls.probe }

-- A call that is not in flight does not settle.
def settle (breaker : CircuitBreaker Error) (calls : Calls) (call : ℕ) (now : ℤ)
    (result : Except Error α) : Calls :=
  if calls.inFlight call then
    { calls with
      circuit := breaker.settle now result calls.circuit
      inFlight := Function.update calls.inFlight call false }
  else calls

def step (breaker : CircuitBreaker Error) (calls : Calls) : CallEvent Error α → Calls
  | .start now => calls.start breaker now
  | .settle call now result => calls.settle breaker call now result

-- The flag is set while there is a probe, and only then. Without calls in flight
-- the circuit is at rest, and after the window of an opening it lets a call through.
structure NeverStuck (breaker : CircuitBreaker Error) (calls : Calls) : Prop where
  flag : calls.circuit.probeInFlight = true ↔ calls.circuit.state = .HALF_OPEN
  probing : calls.circuit.state = .HALF_OPEN →
    ∃ call, calls.probe = some call ∧ calls.inFlight call = true
  rests : (∀ call, calls.inFlight call = false) →
    calls.circuit.state = .CLOSED ∨ calls.circuit.state = .OPEN
  reopens : calls.circuit.state = .OPEN → ∀ now,
    calls.circuit.openedAt + breaker.resetTimeoutMs ≤ now →
      (breaker.allow now calls.circuit).1 = .ok ()

end Calls

namespace Traffic

variable {Error α : Type}

-- Every action settles before the time that a circuit stays open.
def Prompt (breaker : CircuitBreaker Error) (traffic : Traffic) (event : TrafficEvent Error α) :
    Prop :=
  ∀ call, ∀ flight ∈ traffic.inFlight call,
    (traffic.step breaker event).clock < flight.startedAt + breaker.resetTimeoutMs

def OneProbe (traffic : Traffic) : Prop :=
  ∀ call, ∀ flight ∈ traffic.inFlight call, flight.admittedIn = .HALF_OPEN →
    ∀ other, ∀ flight' ∈ traffic.inFlight other, flight'.admittedIn = .HALF_OPEN → call = other

end Traffic

end SmartParking
