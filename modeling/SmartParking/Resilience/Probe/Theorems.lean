import SmartParking.Resilience.FailFast.Theorems
import SmartParking.Resilience.Probe

namespace SmartParking

open Machine

variable {Error α : Type} {breaker : CircuitBreaker Error} {circuit : Circuit} {now : ℤ}

-- The flag of the probe and the state agree.
section Coherent

def Circuit.Coherent (circuit : Circuit) : Prop :=
  circuit.probeInFlight = true ↔ circuit.state = .HALF_OPEN

theorem Circuit.coherent_initial : Circuit.initial.Coherent :=
  iff_of_false Bool.false_ne_true CircuitState.noConfusion

namespace CircuitBreaker

-- What a call of a coherent circuit finds. The flag is set for a probe, and its
-- turn only comes after the window of the opening.
theorem Lapsed.isOpen (hl : breaker.Lapsed now circuit) (hc : circuit.Coherent)
    (hprobe : circuit.probeInFlight = false) :
    circuit.state = .OPEN ∧ circuit.openedAt + breaker.resetTimeoutMs ≤ now := by
  have hhalf : circuit.state ≠ .HALF_OPEN := fun hs =>
    Bool.false_ne_true (hprobe.symm.trans (hc.mpr hs))
  have hopen : circuit.state = .OPEN := by
    cases hs : circuit.state with
    | CLOSED => exact absurd hs hl.1
    | OPEN => rfl
    | HALF_OPEN => exact absurd hs hhalf
  have hreset := hl.2 hopen
  exact ⟨hopen, by omega⟩

theorem coherent_allow (hc : circuit.Coherent) (now : ℤ) :
    (breaker.allow now circuit).2.Coherent := by
  rcases breaker.allow_cases now circuit with
    ⟨-, he⟩ | ⟨-, -, he⟩ | ⟨-, hprobe, he⟩ | ⟨-, -, he⟩
  · rwa [he]
  · rwa [he]
  · rw [he]
    exact iff_of_true hprobe rfl
  · rw [he]
    exact iff_of_true rfl rfl

-- Whatever settles, the circuit is at rest afterwards.
theorem settle_state_ne (breaker : CircuitBreaker Error) (now : ℤ) (result : Except Error α)
    (circuit : Circuit) : (breaker.settle now result circuit).state ≠ .HALF_OPEN := by
  rcases breaker.settle_cases now result circuit with
    ⟨-, hs⟩ | ⟨-, ⟨hs, -⟩ | ⟨hne, hs, -⟩⟩
  · rw [hs]
    exact CircuitState.noConfusion
  · rw [hs]
    exact CircuitState.noConfusion
  · rwa [hs]

theorem coherent_settle (breaker : CircuitBreaker Error) (now : ℤ) (result : Except Error α)
    (circuit : Circuit) : (breaker.settle now result circuit).Coherent :=
  iff_of_false Bool.false_ne_true (breaker.settle_state_ne now result circuit)

-- After the window a coherent circuit takes the next call as its probe.
theorem allow_of_lapsed (hc : circuit.Coherent) (hopen : circuit.state = .OPEN)
    (hnow : circuit.openedAt + breaker.resetTimeoutMs ≤ now) :
    (breaker.allow now circuit).1 = .ok () := by
  rcases breaker.allow_cases now circuit with
    ⟨-, he⟩ | ⟨-, hwindow, -⟩ | ⟨-, hprobe, -⟩ | ⟨-, -, he⟩
  · rw [he]
  · omega
  · exact absurd (hopen.symm.trans (hc.mp hprobe)) CircuitState.noConfusion
  · rw [he]

end CircuitBreaker

end Coherent

namespace Calls

variable {calls : Calls}

-- The invariant of all calls.
structure Probed (calls : Calls) : Prop where
  coherent : calls.circuit.Coherent
  probing : calls.circuit.state = .HALF_OPEN →
    ∃ call, calls.probe = some call ∧ calls.inFlight call = true

theorem probed_idle : Probed idle := ⟨Circuit.coherent_initial, CircuitState.noConfusion⟩

theorem Probed.start (h : calls.Probed) (now : ℤ) : (calls.start breaker now).Probed where
  coherent := breaker.coherent_allow h.coherent now
  probing hhalf := by
    unfold Calls.start at hhalf ⊢
    rcases breaker.allow_cases now calls.circuit with
      ⟨hs, he⟩ | ⟨hs, -, he⟩ | ⟨-, hprobe, he⟩ | ⟨-, hprobe, he⟩
    · rw [he] at hhalf
      exact absurd (hs.symm.trans hhalf) CircuitState.noConfusion
    · rw [he] at hhalf
      exact absurd (hs.symm.trans hhalf) CircuitState.noConfusion
    · rw [he]
      simpa [CircuitBreaker.reject, hprobe] using h.probing (h.coherent.mp hprobe)
    · rw [he]
      simp [hprobe]

theorem Probed.settle (h : calls.Probed) (call : ℕ) (now : ℤ) (result : Except Error α) :
    (calls.settle breaker call now result).Probed := by
  unfold Calls.settle
  split
  · exact ⟨breaker.coherent_settle now result calls.circuit,
      fun hhalf => absurd hhalf (breaker.settle_state_ne now result calls.circuit)⟩
  · exact h

theorem Probed.step (h : calls.Probed) (event : CallEvent Error α) :
    (calls.step breaker event).Probed := by
  cases event with
  | start now => exact h.start now
  | settle call now result => exact h.settle call now result

theorem Probed.neverStuck (h : calls.Probed) (breaker : CircuitBreaker Error) :
    calls.NeverStuck breaker where
  flag := h.coherent
  probing := h.probing
  rests hnone := by
    cases hs : calls.circuit.state with
    | CLOSED => exact .inl rfl
    | OPEN => exact .inr rfl
    | HALF_OPEN =>
        obtain ⟨call, -, hflight⟩ := h.probing hs
        rw [hnone call] at hflight
        cases hflight
  reopens hopen _ hnow := breaker.allow_of_lapsed h.coherent hopen hnow

end Calls

-- However the calls overlap, a breaker never gets stuck.
theorem never_stuck (breaker : CircuitBreaker Error) (events : List (CallEvent Error α)) :
    (play (Calls.step breaker) .idle events).NeverStuck breaker :=
  have hrun := play_invariant Calls.Probed Calls.probed_idle (fun _ event h _ => h.step event)
    always_true
  hrun.neverStuck breaker

namespace Traffic

variable {traffic : Traffic}

-- Probes are older than the opening that follows them.
structure Ordered (traffic : Traffic) : Prop where
  coherent : traffic.circuit.Coherent
  past : ∀ call, ∀ flight ∈ traffic.inFlight call, flight.startedAt ≤ traffic.clock
  opened : traffic.circuit.state = .OPEN → ∀ call, ∀ flight ∈ traffic.inFlight call,
    flight.admittedIn = .HALF_OPEN → flight.startedAt ≤ traffic.circuit.openedAt
  one : traffic.OneProbe

theorem ordered_idle (clock : ℤ) : Ordered (idle clock) where
  coherent := Circuit.coherent_initial
  past _ _ hf := by cases hf
  opened hs := by cases hs
  one _ _ hf := by cases hf

theorem Ordered.start (h : traffic.Ordered) {elapsed : ℕ}
    (hprompt : Prompt breaker traffic (.start elapsed : TrafficEvent Error α)) :
    (traffic.start breaker elapsed).Ordered := by
  have hpast : ∀ call, ∀ flight ∈ traffic.inFlight call,
      flight.startedAt ≤ traffic.clock + elapsed := fun call flight hf =>
    (h.past call flight hf).trans (by omega)
  have hcoherent := breaker.coherent_allow h.coherent (traffic.clock + elapsed)
  rcases breaker.allow_cases (traffic.clock + elapsed) traffic.circuit with
    ⟨hs, he⟩ | ⟨hs, -, he⟩ | ⟨-, -, he⟩ | ⟨hl, hprobe, he⟩
  · rw [start_of_ok he]
    rw [he] at hcoherent
    have hclosed : traffic.circuit.state ≠ .HALF_OPEN := fun hh =>
      absurd (hs.symm.trans hh) CircuitState.noConfusion
    refine ⟨hcoherent, fun call flight hf => ?_,
      fun ho => absurd (hs.symm.trans ho) CircuitState.noConfusion,
      fun call flight hf hhalf other flight' hf' hhalf' => ?_⟩
    · rcases mem_update_some hf with rfl | hf
      · exact le_rfl
      · exact hpast call flight hf
    · rcases mem_update_some hf with rfl | hf
      · exact absurd hhalf hclosed
      rcases mem_update_some hf' with rfl | hf'
      · exact absurd hhalf' hclosed
      · exact h.one call flight hf hhalf other flight' hf' hhalf'
  · rw [start_of_reject he]
    exact ⟨h.coherent, hpast, h.opened, h.one⟩
  · rw [start_of_reject he]
    rw [he] at hcoherent
    exact ⟨hcoherent, hpast, CircuitState.noConfusion, h.one⟩
  · -- the probes from before the opening are over
    obtain ⟨hopen, hnow⟩ := hl.isOpen h.coherent hprobe
    have hnone : ∀ call, ∀ flight ∈ traffic.inFlight call, flight.admittedIn ≠ .HALF_OPEN := by
      intro call flight hf hhalf
      have hold := h.opened hopen call flight hf hhalf
      have hyoung := hprompt call flight hf
      have hclock : (traffic.step breaker (.start elapsed : TrafficEvent Error α)).clock =
        traffic.clock + elapsed := rfl
      omega
    have hnew {call : ℕ} {flight : Flight} (hf : flight ∈ Function.update traffic.inFlight
        traffic.started (some ⟨traffic.clock + elapsed, .HALF_OPEN, traffic.openings.length⟩) call)
        (hhalf : flight.admittedIn = .HALF_OPEN) : call = traffic.started := by
      by_contra hne
      rw [Function.update_of_ne hne] at hf
      exact hnone call flight hf hhalf
    rw [start_of_ok he]
    rw [he] at hcoherent
    refine ⟨hcoherent, fun call flight hf => ?_, CircuitState.noConfusion,
      fun call flight hf hhalf other flight' hf' hhalf' => (hnew hf hhalf).trans (hnew hf' hhalf').symm⟩
    rcases mem_update_some hf with rfl | hf
    · exact le_rfl
    · exact hpast call flight hf

theorem Ordered.settle (h : traffic.Ordered) (call elapsed : ℕ) (result : Except Error α) :
    (traffic.settle breaker call elapsed result).Ordered := by
  cases hf : traffic.inFlight call with
  | none => rwa [settle_of_none hf]
  | some flight =>
      rw [settle_of_some hf]
      have hpast : ∀ other, ∀ flight ∈ Function.update traffic.inFlight call none other,
          flight.startedAt ≤ traffic.clock + elapsed := fun other flight hm =>
        (h.past other flight (mem_update_none hm)).trans (by omega)
      refine ⟨breaker.coherent_settle _ result _, hpast, fun hopen other flight hm hhalf => ?_,
        fun other flight hm hhalf third flight' hm' hhalf' =>
          h.one other flight (mem_update_none hm) hhalf third flight' (mem_update_none hm') hhalf'⟩
      rcases breaker.settle_cases (traffic.clock + elapsed) result traffic.circuit with
        ⟨-, hs⟩ | ⟨-, ⟨-, ho⟩ | ⟨-, hs, ho⟩⟩
      · exact absurd (hs.symm.trans hopen) CircuitState.noConfusion
      · exact (hpast other flight hm).trans ho.ge
      · exact (h.opened (hs.symm.trans hopen) other flight (mem_update_none hm) hhalf).trans ho.ge

theorem Ordered.step (h : traffic.Ordered) {event : TrafficEvent Error α}
    (hprompt : Prompt breaker traffic event) : (traffic.step breaker event).Ordered := by
  cases event with
  | start elapsed => exact h.start hprompt
  | settle call elapsed result => exact h.settle call elapsed result

end Traffic

-- Two probes are never in flight at once, as long as every action settles before
-- the time that a circuit stays open.
theorem one_probe (breaker : CircuitBreaker Error) (clock : ℤ)
    (events : List (TrafficEvent Error α))
    (hprompt : Always (Traffic.step breaker) (Traffic.Prompt breaker) (.idle clock) events) :
    (play (Traffic.step breaker) (.idle clock) events).OneProbe :=
  (play_invariant Traffic.Ordered (Traffic.ordered_idle clock) (fun _ _ h hc => h.step hc)
    hprompt).one

-- Two calls overlap, and the second is still in flight when the failure of the first
-- opens the circuit. Then come the probe, by when every prompt call from before the
-- opening has settled, and a call that finds the probe in flight.
def Demo.reopened : List (TrafficEvent Unit Unit) :=
  [.start 0, .start 1, .settle 0 1 (.error ()), .settle 1 5 (.error ()), .start 10000, .start 1]

theorem one_probe_reopened :
    (play (Traffic.step Demo.breaker) (.idle 0) (Demo.reopened.take 3)).inFlight 1 ≠ none ∧
      (play (Traffic.step Demo.breaker) (.idle 0) Demo.reopened).circuit.state = .HALF_OPEN ∧
      (play (Traffic.step Demo.breaker) (.idle 0) Demo.reopened).OneProbe := by
  refine ⟨by decide, by decide,
    one_probe Demo.breaker 0 Demo.reopened ⟨?_, ?_, ?_, ?_, ?_, ?_, trivial⟩⟩
  all_goals
    rintro (_ | _ | _ | call) flight ⟨⟩
    all_goals decide

end SmartParking
