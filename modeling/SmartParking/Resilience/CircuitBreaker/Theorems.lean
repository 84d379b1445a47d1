import SmartParking.Resilience.CircuitBreaker

namespace SmartParking

variable {Error α : Type} {breaker : CircuitBreaker Error} {now : ℤ} {circuit : Circuit}

@[simp] theorem Circuit.transition_eq (next : CircuitState) :
    circuit.transition next = { circuit with state := next } := by
  unfold transition
  split
  · rename_i h
    rw [← h]
  · rfl

theorem Circuit.onSuccess_eq :
    circuit.onSuccess = { circuit with state := .CLOSED, consecutiveFailures := 0 } := by
  unfold onSuccess
  dsimp only
  split
  · rw [transition_eq]
  · rename_i h
    rw [← not_not.mp h]

namespace CircuitBreaker

-- An infrastructure failure opens the circuit, if it is not opened already, or
-- leaves its state.
theorem onFailure_cases (breaker : CircuitBreaker Error) (now : ℤ) (circuit : Circuit) :
    breaker.onFailure now circuit = { circuit with
        state := .OPEN
        consecutiveFailures := circuit.consecutiveFailures + 1
        openedAt := now } ∨
      circuit.state ≠ .HALF_OPEN ∧ breaker.onFailure now circuit =
        { circuit with consecutiveFailures := circuit.consecutiveFailures + 1 } := by
  unfold onFailure
  dsimp only
  split
  · exact .inl (Circuit.transition_eq _)
  · rename_i h
    exact .inr ⟨fun hs => h (.inl hs), rfl⟩

-- The window after an opening is over.
def Lapsed (breaker : CircuitBreaker Error) (now : ℤ) (circuit : Circuit) : Prop :=
  circuit.state ≠ .CLOSED ∧
    (circuit.state = .OPEN → breaker.resetTimeoutMs ≤ now - circuit.openedAt)

-- What a call finds: a closed circuit, the window of an opening, a probe that is
-- in flight, or its turn to be the probe.
theorem allow_cases (breaker : CircuitBreaker Error) (now : ℤ) (circuit : Circuit) :
    (circuit.state = .CLOSED ∧ breaker.allow now circuit = (.ok (), circuit)) ∨
    (circuit.state = .OPEN ∧ now - circuit.openedAt < breaker.resetTimeoutMs ∧
      breaker.allow now circuit = (breaker.reject, circuit)) ∨
    (breaker.Lapsed now circuit ∧ circuit.probeInFlight = true ∧
      breaker.allow now circuit = (breaker.reject, { circuit with state := .HALF_OPEN })) ∨
    breaker.Lapsed now circuit ∧ circuit.probeInFlight = false ∧
      breaker.allow now circuit =
        (.ok (), { circuit with state := .HALF_OPEN, probeInFlight := true }) := by
  obtain ⟨state, consecutiveFailures, openedAt, probeInFlight⟩ := circuit
  cases state with
  | CLOSED => exact .inl ⟨rfl, rfl⟩
  | OPEN =>
      by_cases hw : now - openedAt < breaker.resetTimeoutMs
      · exact .inr (.inl ⟨rfl, hw, if_pos ⟨rfl, hw⟩⟩)
      · have hlapsed : breaker.Lapsed now ⟨.OPEN, consecutiveFailures, openedAt, probeInFlight⟩ :=
          ⟨CircuitState.noConfusion, fun _ => Int.not_lt.mp hw⟩
        have hlate : ¬(CircuitState.OPEN = .OPEN ∧ now - openedAt < breaker.resetTimeoutMs) :=
          fun h => hw h.2
        cases probeInFlight with
        | true => exact .inr (.inr (.inl ⟨hlapsed, rfl, if_neg hlate⟩))
        | false => exact .inr (.inr (.inr ⟨hlapsed, rfl, if_neg hlate⟩))
  | HALF_OPEN =>
      have hlapsed : breaker.Lapsed now
          ⟨.HALF_OPEN, consecutiveFailures, openedAt, probeInFlight⟩ :=
        ⟨CircuitState.noConfusion, fun h => by cases h⟩
      cases probeInFlight with
      | true => exact .inr (.inr (.inl ⟨hlapsed, rfl, rfl⟩))
      | false => exact .inr (.inr (.inr ⟨hlapsed, rfl, rfl⟩))

-- What a settled call does: a failure opens the circuit or leaves its state,
-- anything else closes it.
theorem settle_cases (breaker : CircuitBreaker Error) (now : ℤ) (result : Except Error α)
    (circuit : Circuit) :
    (breaker.counts result = false ∧ (breaker.settle now result circuit).state = .CLOSED) ∨
    breaker.counts result = true ∧
      ((breaker.settle now result circuit).state = .OPEN ∧
          (breaker.settle now result circuit).openedAt = now ∨
        circuit.state ≠ .HALF_OPEN ∧
          (breaker.settle now result circuit).state = circuit.state ∧
          (breaker.settle now result circuit).openedAt = circuit.openedAt) := by
  unfold settle
  cases breaker.counts result with
  | false => exact .inl ⟨rfl, by rw [if_neg Bool.false_ne_true, Circuit.onSuccess_eq]⟩
  | true =>
      rw [if_pos rfl]
      rcases breaker.onFailure_cases now circuit with he | ⟨hs, he⟩
      · exact .inr ⟨rfl, .inl (by rw [he]; exact ⟨rfl, rfl⟩)⟩
      · exact .inr ⟨rfl, .inr (by rw [he]; exact ⟨hs, rfl, rfl⟩)⟩

end CircuitBreaker

namespace Traffic

variable {traffic : Traffic} {elapsed call : ℕ}

theorem start_of_ok
    (h : breaker.allow (traffic.clock + elapsed) traffic.circuit = (.ok (), circuit)) :
    traffic.start breaker elapsed = {
      circuit
      clock := traffic.clock + elapsed
      started := traffic.started + 1
      inFlight := Function.update traffic.inFlight traffic.started (some {
        startedAt := traffic.clock + elapsed
        admittedIn := circuit.state
        opening := traffic.openings.length })
      openings := traffic.openings } := by
  unfold start
  dsimp only
  rw [h]

theorem start_of_reject
    (h : breaker.allow (traffic.clock + elapsed) traffic.circuit = (breaker.reject, circuit)) :
    traffic.start breaker elapsed = { traffic with
      circuit
      clock := traffic.clock + elapsed
      started := traffic.started + 1 } := by
  unfold start
  dsimp only
  rw [h]
  rfl

theorem settle_of_some {flight : Flight} (h : traffic.inFlight call = some flight)
    (result : Except Error α) :
    traffic.settle breaker call elapsed result = { traffic with
      circuit := breaker.settle (traffic.clock + elapsed) result traffic.circuit
      clock := traffic.clock + elapsed
      inFlight := Function.update traffic.inFlight call none
      openings :=
        if traffic.circuit.state ≠ .OPEN ∧
            (breaker.settle (traffic.clock + elapsed) result traffic.circuit).state = .OPEN then
          (traffic.clock + elapsed) :: traffic.openings
        else traffic.openings } := by
  unfold settle
  rw [h]

theorem settle_of_none (h : traffic.inFlight call = none) (result : Except Error α) :
    traffic.settle breaker call elapsed result = traffic := by
  unfold settle
  rw [h]

-- A call that is let through, and the others.
theorem mem_update_some {flight admitted : Flight} {inFlight : ℕ → Option Flight} {other : ℕ}
    (hm : flight ∈ Function.update inFlight call (some admitted) other) :
    flight = admitted ∨ flight ∈ inFlight other := by
  by_cases hc : other = call
  · rw [hc, Function.update_self] at hm
    exact .inl (Option.mem_some_iff.mp hm).symm
  · rw [Function.update_of_ne hc] at hm
    exact .inr hm

theorem mem_update_none {flight : Flight} {inFlight : ℕ → Option Flight} {other : ℕ}
    (hm : flight ∈ Function.update inFlight call none other) : flight ∈ inFlight other := by
  by_cases hc : other = call
  · rw [hc, Function.update_self] at hm
    cases hm
  · rwa [Function.update_of_ne hc] at hm

end Traffic

end SmartParking
