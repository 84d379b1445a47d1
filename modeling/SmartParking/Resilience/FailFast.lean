import SmartParking.Resilience.CircuitBreaker

namespace SmartParking

namespace Traffic

variable {Error α : Type}

-- The call that is let through to try the service, since the last opening.
def IsProbe (traffic : Traffic) (flight : Flight) : Prop :=
  traffic.circuit.state = .HALF_OPEN ∧ flight.admittedIn = .HALF_OPEN ∧
    flight.opening = traffic.openings.length

-- What a step does while the circuit is not closed: no action is invoked within
-- the window of an opening, OPEN is not left for CLOSED, and only the probe
-- closes the circuit.
structure FailsFast (breaker : CircuitBreaker Error) (traffic : Traffic)
    (event : TrafficEvent Error α) : Prop where
  waits : ∀ elapsed, event = .start elapsed →
    (breaker.allow (traffic.clock + elapsed) traffic.circuit).1 = .ok () →
      ∀ openedAt ∈ traffic.openings,
        openedAt + breaker.resetTimeoutMs ≤ traffic.clock + elapsed
  leaves : traffic.circuit.state = .OPEN → (traffic.step breaker event).circuit.state ≠ .CLOSED
  closes : traffic.circuit.state ≠ .CLOSED →
    (traffic.step breaker event).circuit.state = .CLOSED →
      ∃ call elapsed result flight, event = .settle call elapsed result ∧
        traffic.inFlight call = some flight ∧ traffic.IsProbe flight

-- No call from before the last opening settles without a failure while the
-- circuit is not closed.
def NoStaleSuccess (breaker : CircuitBreaker Error) (traffic : Traffic) :
    TrafficEvent Error α → Prop
  | .start _ => True
  | .settle call _ result => ∀ flight ∈ traffic.inFlight call,
      flight.opening < traffic.openings.length → breaker.counts result = false →
        traffic.circuit.state = .CLOSED

-- The invariant of such runs.
structure Windowed (breaker : CircuitBreaker Error) (traffic : Traffic) : Prop where
  opening_le : ∀ call, ∀ flight ∈ traffic.inFlight call,
    flight.opening ≤ traffic.openings.length
  probe : traffic.circuit.state ≠ .CLOSED → ∀ call, ∀ flight ∈ traffic.inFlight call,
    flight.opening = traffic.openings.length → traffic.IsProbe flight
  past : ∀ openedAt ∈ traffic.openings, openedAt ≤ traffic.clock
  shut : traffic.circuit.state = .OPEN → ∀ openedAt ∈ traffic.openings,
    openedAt ≤ traffic.circuit.openedAt
  waited : traffic.circuit.state ≠ .OPEN → ∀ openedAt ∈ traffic.openings,
    openedAt + breaker.resetTimeoutMs ≤ traffic.clock

end Traffic

end SmartParking
