import SmartParking.Resilience.Probe.Theorems
import SmartParking.Resilience.Sequential

namespace SmartParking

open Machine

variable {Error α : Type} {breaker : CircuitBreaker Error} {circuit : Circuit}
  {sequence : Sequence} {call : SequentialCall Error α} {now settledAt : ℤ}

namespace CircuitBreaker

theorem settle_of_success {result : Except Error α} (h : breaker.counts result = false) :
    breaker.settle now result circuit = { circuit with
      state := .CLOSED
      consecutiveFailures := 0
      probeInFlight := false } := by
  unfold settle
  dsimp only
  rw [if_neg (by rw [h]; exact Bool.false_ne_true), Circuit.onSuccess_eq]

theorem settle_of_failure {result : Except Error α} (h : breaker.counts result = true) :
    breaker.settle now result circuit =
      if circuit.state = .HALF_OPEN ∨
          breaker.failureThreshold ≤ (circuit.consecutiveFailures + 1 : ℕ) then
        { circuit with
          state := .OPEN
          consecutiveFailures := circuit.consecutiveFailures + 1
          openedAt := now
          probeInFlight := false }
      else { circuit with
        consecutiveFailures := circuit.consecutiveFailures + 1
        probeInFlight := false } := by
  unfold settle onFailure
  dsimp only
  rw [if_pos h]
  split
  · rw [Circuit.transition_eq]
  · rfl

theorem execute_of_ok {next : Circuit} (h : breaker.allow now circuit = (.ok (), next))
    (action : Except Error α) : breaker.execute now settledAt action circuit =
      (⟨true, action.mapError .action⟩, breaker.settle settledAt action next) := by
  unfold execute
  rw [h]
  cases action <;> rfl

theorem execute_of_reject {next : Circuit} (h : breaker.allow now circuit = (breaker.reject, next))
    (action : Except Error α) : breaker.execute now settledAt action circuit =
      (⟨false, .error (.CircuitOpen { target := breaker.name })⟩, next) := by
  unfold execute
  rw [h]
  rfl

end CircuitBreaker

namespace Sequence

-- Between two calls: the circuit counts the failures since the last success, and
-- knows when the last one was.
structure Tracks (breaker : CircuitBreaker Error) (sequence : Sequence) : Prop where
  idle : sequence.circuit.probeInFlight = false
  count : sequence.circuit.consecutiveFailures = sequence.failures
  state : sequence.circuit.state = sequence.stateOf breaker
  last : sequence.circuit.state = .OPEN → sequence.lastFailure = some sequence.circuit.openedAt

theorem tracks_idle (hthreshold : 1 ≤ breaker.failureThreshold) (clock : ℤ) :
    Tracks breaker (idle clock) where
  idle := rfl
  count := rfl
  state := (if_neg (not_le.mpr (Int.lt_of_lt_of_le Int.one_pos hthreshold))).symm
  last h := by cases h

namespace Tracks

theorem coherent (h : Tracks breaker sequence) : sequence.circuit.Coherent := by
  refine iff_of_false (fun hprobe => Bool.false_ne_true (h.idle.symm.trans hprobe)) fun hhalf => ?_
  have hs := h.state
  unfold stateOf at hs
  split at hs <;> exact absurd (hs.symm.trans hhalf) CircuitState.noConfusion

-- The call is rejected within the window, or let through with the same count.
theorem allow_cases (h : Tracks breaker sequence) (now : ℤ) :
    (sequence.circuit.state = .OPEN ∧ sequence.Waiting breaker now ∧
      breaker.allow now sequence.circuit = (breaker.reject, sequence.circuit)) ∨
    ¬(sequence.circuit.state = .OPEN ∧ sequence.Waiting breaker now) ∧
      ∃ next, breaker.allow now sequence.circuit = (.ok (), next) ∧
        next.consecutiveFailures = sequence.failures ∧
        (next.state = .CLOSED ∧ sequence.circuit.state = .CLOSED ∨
          next.state = .HALF_OPEN ∧ sequence.circuit.state = .OPEN) := by
  rcases breaker.allow_cases now sequence.circuit with
    ⟨hs, he⟩ | ⟨hs, hwindow, he⟩ | ⟨-, hprobe, -⟩ | ⟨hl, hprobe, he⟩
  · refine .inr ⟨fun hopen => ?_, _, he, h.count, .inl ⟨hs, hs⟩⟩
    exact absurd (hs.symm.trans hopen.1) CircuitState.noConfusion
  · exact .inl ⟨hs, ⟨_, h.last hs, hwindow⟩, he⟩
  · exact absurd (h.idle.symm.trans hprobe) Bool.false_ne_true
  · obtain ⟨hopen, hnow⟩ := hl.isOpen h.coherent hprobe
    refine .inr ⟨fun hwaiting => ?_, _, he, h.count, .inr ⟨rfl, hopen⟩⟩
    obtain ⟨-, failedAt, hfailed, hwindow⟩ := hwaiting
    cases (h.last hopen).symm.trans hfailed
    omega

theorem execute_cases (h : Tracks breaker sequence) (call : SequentialCall Error α) :
    (sequence.circuit.state = .OPEN ∧ sequence.Waiting breaker (sequence.clock + call.elapsed) ∧
      sequence.execute breaker call = (⟨false, .error (.CircuitOpen { target := breaker.name })⟩,
        { sequence with clock := sequence.clock + call.elapsed })) ∨
    ¬(sequence.circuit.state = .OPEN ∧ sequence.Waiting breaker (sequence.clock + call.elapsed)) ∧
      ∃ next : Circuit, next.consecutiveFailures = sequence.failures ∧
        (next.state = .CLOSED ∧ sequence.circuit.state = .CLOSED ∨
          next.state = .HALF_OPEN ∧ sequence.circuit.state = .OPEN) ∧
        sequence.execute breaker call = (⟨true, call.action.mapError .action⟩, {
          circuit := breaker.settle (sequence.clock + call.elapsed + call.duration) call.action next
          clock := sequence.clock + call.elapsed + call.duration
          admitted := (sequence.clock + call.elapsed + call.duration, breaker.counts call.action) ::
            sequence.admitted }) := by
  unfold execute
  dsimp only
  rcases h.allow_cases (sequence.clock + call.elapsed) with
    ⟨hopen, hwaiting, he⟩ | ⟨hnot, next, he, hcount, hstate⟩
  · rw [breaker.execute_of_reject he]
    exact .inl ⟨hopen, hwaiting, rfl⟩
  · rw [breaker.execute_of_ok he]
    exact .inr ⟨hnot, next, hcount, hstate, rfl⟩

theorem specified (h : Tracks breaker sequence) (α : Type) : Specified α breaker sequence where
  state := h.state
  rejects call := by
    rcases h.execute_cases call with ⟨hopen, hwaiting, he⟩ | ⟨hnot, next, -, -, he⟩
    · exact iff_of_true (congrArg (fun after => after.1.invoked) he) ⟨hopen, hwaiting⟩
    · refine iff_of_false (fun hinvoked => ?_) hnot
      rw [he] at hinvoked
      cases hinvoked
  rejected call hinvoked := by
    rcases h.execute_cases call with ⟨-, -, he⟩ | ⟨-, next, -, -, he⟩
    · rw [he]
    · rw [he] at hinvoked
      cases hinvoked
  admitted call hinvoked := by
    rcases h.execute_cases call with ⟨-, -, he⟩ | ⟨-, next, -, -, he⟩
    · rw [he] at hinvoked
      cases hinvoked
    · rw [he]

theorem step (h : Tracks breaker sequence) (hthreshold : 1 ≤ breaker.failureThreshold)
    (call : SequentialCall Error α) : Tracks breaker (sequence.step breaker call) := by
  unfold Sequence.step
  rcases h.execute_cases call with ⟨-, -, he⟩ | ⟨-, next, hcount, hstate, he⟩
  · rw [he]
    exact ⟨h.idle, h.count, h.state, h.last⟩
  · rw [he]
    cases hcounts : breaker.counts call.action with
    | false =>
        rw [breaker.settle_of_success hcounts]
        refine ⟨rfl, rfl, (if_neg ?_).symm, fun hopen => by cases hopen⟩
        exact not_le.mpr (Int.lt_of_lt_of_le Int.one_pos hthreshold)
    | true =>
        rw [breaker.settle_of_failure hcounts]
        have hfailures : (⟨next, 0, (sequence.clock + call.elapsed + call.duration, true) ::
            sequence.admitted⟩ : Sequence).failures = next.consecutiveFailures + 1 := by
          rw [hcount]
          rfl
        split
        · rename_i hopens
          refine ⟨rfl, hfailures.symm, (if_pos ?_).symm, fun _ => rfl⟩
          refine le_of_le_of_eq ?_ (congrArg Int.ofNat hfailures).symm
          rcases hopens with hhalf | hreached
          · -- the threshold was reached before the probe
            rcases hstate with ⟨hs, -⟩ | ⟨-, hopen⟩
            · exact absurd (hs.symm.trans hhalf) CircuitState.noConfusion
            · rw [h.state, stateOf] at hopen
              split at hopen
              · rename_i hreached
                rw [hcount]
                exact hreached.trans (Int.ofNat_le.mpr (Nat.le_succ _))
              · cases hopen
          · exact hreached
        · rename_i hstays
          obtain ⟨hhalf, hbelow⟩ := not_or.mp hstays
          have hclosed : next.state = .CLOSED := by
            rcases hstate with ⟨hs, -⟩ | ⟨hs, -⟩
            · exact hs
            · exact absurd hs hhalf
          refine ⟨rfl, hfailures.symm, hclosed.trans (if_neg fun hreached => hbelow ?_).symm,
            fun hopen => absurd (hclosed.symm.trans hopen) CircuitState.noConfusion⟩
          exact le_of_le_of_eq hreached (congrArg Int.ofNat hfailures)

end Tracks

end Sequence

-- Without overlapping calls, the breaker does what the failures since the last
-- success say.
theorem sequential_specified (breaker : CircuitBreaker Error)
    (hthreshold : 1 ≤ breaker.failureThreshold) (clock : ℤ)
    (calls : List (SequentialCall Error α)) :
    (play (Sequence.step breaker) (.idle clock) calls).Specified α breaker :=
  have hrun := play_invariant (Sequence.Tracks breaker) (Sequence.tracks_idle hthreshold clock)
    (fun _ call h _ => h.step hthreshold call)
    always_true
  hrun.specified α

-- The overlapping calls, where they do not overlap.
structure Traffic.Follows (traffic : Traffic) (sequence : Sequence) : Prop where
  circuit : traffic.circuit = sequence.circuit
  clock : traffic.clock = sequence.clock
  fresh : ∀ number, traffic.started ≤ number → traffic.inFlight number = none

theorem Traffic.Follows.step {traffic : Traffic} (h : traffic.Follows sequence)
    (breaker : CircuitBreaker Error) (call : SequentialCall Error α) :
    ((traffic.start breaker call.elapsed).settle breaker traffic.started call.duration
      call.action).Follows (sequence.step breaker call) := by
  unfold Sequence.step Sequence.execute CircuitBreaker.execute
  dsimp only
  rw [← h.circuit, ← h.clock]
  rcases hallow : breaker.allow (traffic.clock + call.elapsed) traffic.circuit with
    ⟨_ | _, next⟩
  · have hreject : breaker.allow (traffic.clock + call.elapsed) traffic.circuit =
        (breaker.reject, next) := by
      rcases breaker.allow_cases (traffic.clock + call.elapsed) traffic.circuit with
        ⟨-, he⟩ | ⟨-, -, he⟩ | ⟨-, -, he⟩ | ⟨-, -, he⟩
      all_goals
        rw [he] at hallow ⊢
        cases hallow
        try rfl
    rw [Traffic.start_of_reject hreject, Traffic.settle_of_none]
    · exact ⟨rfl, rfl, fun number hn => h.fresh number (Nat.le_of_succ_le hn)⟩
    · exact h.fresh _ (Nat.le_refl _)
  · rw [Traffic.start_of_ok hallow, Traffic.settle_of_some (Function.update_self ..)]
    refine ⟨rfl, rfl, fun number hn => ?_⟩
    have hne : number ≠ traffic.started := (Nat.lt_of_succ_le hn).ne'
    exact (Function.update_of_ne hne ..).trans
      ((Function.update_of_ne hne ..).trans (h.fresh number (Nat.le_of_succ_le hn)))

theorem circuit_sequential (breaker : CircuitBreaker Error) (calls : List (SequentialCall Error α))
    {traffic : Traffic} (h : traffic.Follows sequence) :
    (play (Traffic.step breaker) traffic (Traffic.sequential traffic.started calls)).circuit =
      (play (Sequence.step breaker) sequence calls).circuit := by
  induction calls generalizing traffic sequence with
  | nil => exact h.circuit
  | cons call rest ih =>
      have hstarted : ((traffic.start breaker call.elapsed).settle breaker traffic.started
          call.duration call.action).started = traffic.started + 1 := by
        unfold Traffic.settle
        split <;> rfl
      have hrest := ih (h.step breaker call)
      rwa [hstarted] at hrest

-- A failure, a rejected call, and a failed probe.
theorem sequential_specified_reopened :
    (play (Sequence.step Demo.breaker) (.idle 0) [⟨0, 1, .error ()⟩, ⟨5, 1, .ok ()⟩,
      ⟨10000, 1, .error ()⟩]).Specified Unit Demo.breaker :=
  sequential_specified Demo.breaker (by decide) 0 _

end SmartParking
