import SmartParking.Resilience.CircuitBreaker

namespace SmartParking

variable {Error α : Type}

-- What execute throws: an error of its own, or the one of the action.
inductive Thrown (Error : Type) where
  | CircuitOpen (error : CircuitOpenError)
  | action (error : Error)
  deriving DecidableEq

structure Execution (Error α : Type) where
  invoked : Bool
  result : Except (Thrown Error) α

-- A call of execute, with the time at which its action settles if it is invoked.
def CircuitBreaker.execute (breaker : CircuitBreaker Error) (now settledAt : ℤ)
    (action : Except Error α) (circuit : Circuit) : Execution Error α × Circuit :=
  match breaker.allow now circuit with
  | (.error error, circuit) => (⟨false, .error (.CircuitOpen error)⟩, circuit)
  | (.ok (), circuit) =>
      (⟨true, match action with
        | .ok result => .ok result
        | .error error => .error (.action error)⟩, breaker.settle settledAt action circuit)

-- One call: how long it comes after the one before, how long its action takes,
-- and what the action does.
structure SequentialCall (Error α : Type) where
  elapsed : ℕ
  duration : ℕ
  action : Except Error α

-- The settled actions, the latest first: when, and whether it counted as a failure.
structure Sequence where
  circuit : Circuit
  clock : ℤ
  admitted : List (ℤ × Bool)

namespace Sequence

def idle (clock : ℤ) : Sequence where
  circuit := .initial
  clock
  admitted := []

-- A call that starts after the one before it has settled.
def execute (breaker : CircuitBreaker Error) (sequence : Sequence) (call : SequentialCall Error α) :
    Execution Error α × Sequence :=
  let now := sequence.clock + call.elapsed
  let settledAt := now + call.duration
  let (execution, circuit) := breaker.execute now settledAt call.action sequence.circuit
  (execution, {
    circuit
    clock := if execution.invoked then settledAt else now
    admitted :=
      if execution.invoked then (settledAt, breaker.counts call.action) :: sequence.admitted
      else sequence.admitted })

def step (breaker : CircuitBreaker Error) (sequence : Sequence) (call : SequentialCall Error α) :
    Sequence :=
  (sequence.execute breaker call).2

-- The failures since the last action that was none.
def failures (sequence : Sequence) : ℕ := (sequence.admitted.takeWhile Prod.snd).length

def lastFailure (sequence : Sequence) : Option ℤ := (sequence.admitted.find? Prod.snd).map Prod.fst

-- The circuit, from the settled actions alone.
def stateOf (breaker : CircuitBreaker Error) (sequence : Sequence) : CircuitState :=
  if breaker.failureThreshold ≤ sequence.failures then .OPEN else .CLOSED

-- The window after the last failure.
def Waiting (breaker : CircuitBreaker Error) (sequence : Sequence) (now : ℤ) : Prop :=
  ∃ failedAt, sequence.lastFailure = some failedAt ∧ now - failedAt < breaker.resetTimeoutMs

structure Specified (α : Type) (breaker : CircuitBreaker Error) (sequence : Sequence) : Prop where
  state : sequence.circuit.state = sequence.stateOf breaker
  rejects : ∀ call : SequentialCall Error α, (sequence.execute breaker call).1.invoked = false ↔
    sequence.circuit.state = .OPEN ∧ sequence.Waiting breaker (sequence.clock + call.elapsed)
  rejected : ∀ call : SequentialCall Error α, (sequence.execute breaker call).1.invoked = false →
    (sequence.execute breaker call).1.result = .error (.CircuitOpen { target := breaker.name })
  admitted : ∀ call : SequentialCall Error α, (sequence.execute breaker call).1.invoked = true →
    (sequence.execute breaker call).1.result = call.action.mapError .action

end Sequence

-- The calls as events of overlapping ones, the first with the given number.
def Traffic.sequential : ℕ → List (SequentialCall Error α) → List (TrafficEvent Error α)
  | _, [] => []
  | number, call :: rest =>
      .start call.elapsed :: .settle number call.duration call.action ::
        sequential (number + 1) rest

end SmartParking
