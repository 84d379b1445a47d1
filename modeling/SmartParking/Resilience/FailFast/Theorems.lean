import SmartParking.Resilience.CircuitBreaker.Theorems
import SmartParking.Resilience.FailFast

namespace SmartParking

namespace Traffic

variable {Error α : Type} {breaker : CircuitBreaker Error} {traffic : Traffic}

theorem windowed_idle (breaker : CircuitBreaker Error) (clock : ℤ) :
    Windowed breaker (idle clock) where
  opening_le _ _ hf := by cases hf
  probe h := absurd rfl h
  past _ hm := by cases hm
  shut h := by cases h
  waited _ _ hm := by cases hm

namespace Windowed

-- Every window that was opened is over once the last one is.
theorem lapsed (h : Windowed breaker traffic) {now : ℤ} (hnow : traffic.clock ≤ now)
    (hl : breaker.Lapsed now traffic.circuit) :
    ∀ openedAt ∈ traffic.openings, openedAt + breaker.resetTimeoutMs ≤ now := by
  intro openedAt hm
  by_cases hs : traffic.circuit.state = .OPEN
  · have hlast := h.shut hs openedAt hm
    have hreset := hl.2 hs
    omega
  · exact (h.waited hs openedAt hm).trans hnow

theorem start (h : Windowed breaker traffic) (elapsed : ℕ) :
    Windowed breaker (traffic.start breaker elapsed) := by
  have hnow : traffic.clock ≤ traffic.clock + elapsed := by omega
  have hpast : ∀ openedAt ∈ traffic.openings, openedAt ≤ traffic.clock + elapsed :=
    fun openedAt hm => (h.past openedAt hm).trans hnow
  have hlapsed := h.lapsed hnow
  rcases breaker.allow_cases (traffic.clock + elapsed) traffic.circuit with
    ⟨hs, he⟩ | ⟨hs, -, he⟩ | ⟨hl, -, he⟩ | ⟨hl, -, he⟩
  · rw [start_of_ok he]
    have hwaited : ∀ openedAt ∈ traffic.openings,
        openedAt + breaker.resetTimeoutMs ≤ traffic.clock + elapsed := fun openedAt hm =>
      (h.waited (fun ho => absurd (hs.symm.trans ho) (by decide)) openedAt hm).trans hnow
    refine ⟨fun call flight hf => ?_, fun hne => absurd hs hne, hpast,
      fun ho => absurd (hs.symm.trans ho) (by decide), fun _ => hwaited⟩
    rcases mem_update_some hf with rfl | hf
    · exact le_refl _
    · exact h.opening_le call flight hf
  · rw [start_of_reject he]
    exact ⟨h.opening_le, h.probe, hpast, h.shut, fun hne => absurd hs hne⟩
  · rw [start_of_reject he]
    refine ⟨h.opening_le, fun _ call flight hf hopening => ?_, hpast, fun ho => (nomatch ho),
      fun _ => hlapsed hl⟩
    exact ⟨rfl, (h.probe hl.1 call flight hf hopening).2⟩
  · rw [start_of_ok he]
    refine ⟨fun call flight hf => ?_, fun _ call flight hf hopening => ?_, hpast,
      fun ho => (nomatch ho), fun _ => hlapsed hl⟩
    · rcases mem_update_some hf with rfl | hf
      · exact le_refl _
      · exact h.opening_le call flight hf
    · rcases mem_update_some hf with rfl | hf
      · exact ⟨rfl, rfl, rfl⟩
      · exact ⟨rfl, (h.probe hl.1 call flight hf hopening).2⟩

theorem settle (h : Windowed breaker traffic) {call elapsed : ℕ} {result : Except Error α}
    (hc : NoStaleSuccess breaker traffic (.settle call elapsed result)) :
    Windowed breaker (traffic.settle breaker call elapsed result) := by
  cases hf : traffic.inFlight call with
  | none => rwa [settle_of_none hf]
  | some flight =>
      rw [settle_of_some hf]
      have hnow : traffic.clock ≤ traffic.clock + elapsed := by omega
      have hpast : ∀ openedAt ∈ traffic.openings, openedAt ≤ traffic.clock + elapsed :=
        fun openedAt hm => (h.past openedAt hm).trans hnow
      have hwaited : traffic.circuit.state ≠ .OPEN → ∀ openedAt ∈ traffic.openings,
          openedAt + breaker.resetTimeoutMs ≤ traffic.clock + elapsed := fun hne openedAt hm =>
        (h.waited hne openedAt hm).trans hnow
      rcases breaker.settle_cases (traffic.clock + elapsed) result traffic.circuit with
        ⟨hcounts, hs⟩ | ⟨-, ⟨hs, ho⟩ | ⟨hne, hs, ho⟩⟩
      · have hnone : traffic.circuit.state ≠ .OPEN := fun ho => by
          by_cases hstale : flight.opening < traffic.openings.length
          · exact absurd (ho.symm.trans (hc flight hf hstale hcounts)) (by decide)
          · have hlast := le_antisymm (h.opening_le call flight hf) (not_lt.mp hstale)
            have hprobe := h.probe (fun hs => absurd (ho.symm.trans hs) (by decide)) call flight hf hlast
            exact absurd (ho.symm.trans hprobe.1) (by decide)
        rw [if_neg fun hopen => absurd (hs.symm.trans hopen.2) (by decide)]
        exact ⟨fun other _ hm => h.opening_le other _ (mem_update_none hm),
          fun hne => absurd hs hne, hpast, fun ho => absurd (hs.symm.trans ho) (by decide),
          fun _ => hwaited hnone⟩
      · by_cases hopen : traffic.circuit.state = .OPEN
        · rw [if_neg fun hboth => hboth.1 hopen]
          refine ⟨fun other _ hm => h.opening_le other _ (mem_update_none hm),
            fun _ other _ hm hlast => ?_, hpast, fun _ openedAt hm => (hpast openedAt hm).trans ho.ge,
            fun hne => absurd hs hne⟩
          have hprobe := h.probe (fun hs => absurd (hopen.symm.trans hs) (by decide)) other _
            (mem_update_none hm) hlast
          exact absurd (hopen.symm.trans hprobe.1) (by decide)
        · rw [if_pos ⟨hopen, hs⟩]
          refine ⟨fun other _ hm => (h.opening_le other _ (mem_update_none hm)).trans ?_,
            fun _ other _ hm hlast => ?_, ?_, fun _ => ?_, fun hne => absurd hs hne⟩
          · exact Nat.le_succ _
          · exact absurd hlast (Nat.lt_succ_of_le (h.opening_le other _ (mem_update_none hm))).ne
          · exact List.forall_mem_cons.mpr ⟨le_refl _, hpast⟩
          · exact List.forall_mem_cons.mpr ⟨ho.ge, fun openedAt hm => (hpast openedAt hm).trans ho.ge⟩
      · rw [if_neg fun hboth => hboth.1 (hs.symm.trans hboth.2)]
        refine ⟨fun other _ hm => h.opening_le other _ (mem_update_none hm),
          fun hclosed other _ hm hlast => ?_, hpast,
          fun hopen openedAt hm => ho ▸ h.shut (hs.symm.trans hopen) openedAt hm,
          fun hclosed => hwaited fun hopen => hclosed (hs.trans hopen)⟩
        have hprobe := h.probe (fun hc => hclosed (hs.trans hc)) other _ (mem_update_none hm) hlast
        exact absurd hprobe.1 hne

theorem step (h : Windowed breaker traffic) {event : TrafficEvent Error α}
    (hc : NoStaleSuccess breaker traffic event) :
    Windowed breaker (traffic.step breaker event) := by
  cases event with
  | start elapsed => exact h.start elapsed
  | settle call elapsed result => exact h.settle hc

end Windowed

-- Starting a call never closes the circuit.
theorem start_ne_closed (hne : traffic.circuit.state ≠ .CLOSED) (elapsed : ℕ) :
    (traffic.start breaker elapsed).circuit.state ≠ .CLOSED := by
  rcases breaker.allow_cases (traffic.clock + elapsed) traffic.circuit with
    ⟨hs, he⟩ | ⟨-, -, he⟩ | ⟨-, -, he⟩ | ⟨-, -, he⟩
  · exact absurd hs hne
  · rw [start_of_reject he]
    exact hne
  · rw [start_of_reject he]
    exact CircuitState.noConfusion
  · rw [start_of_ok he]
    exact CircuitState.noConfusion

-- A settled call that closes the circuit did not count as a failure.
theorem counts_of_settle_closed {flight : Flight} {call elapsed : ℕ} {result : Except Error α}
    (hf : traffic.inFlight call = some flight) (hne : traffic.circuit.state ≠ .CLOSED)
    (hs : (traffic.settle breaker call elapsed result).circuit.state = .CLOSED) :
    breaker.counts result = false := by
  rw [settle_of_some hf] at hs
  rcases breaker.settle_cases (traffic.clock + elapsed) result traffic.circuit with
    ⟨hcounts, -⟩ | ⟨-, ⟨ho, -⟩ | ⟨-, hsame, -⟩⟩
  · exact hcounts
  · exact absurd (ho.symm.trans hs) (by decide)
  · exact absurd (hsame.symm.trans hs) hne

-- Unless it is of a call from before the last opening, the success that closes
-- the circuit is the one of the probe.
theorem probe_of_settle_closed (h : Windowed breaker traffic) {call elapsed : ℕ}
    {result : Except Error α} (hc : NoStaleSuccess breaker traffic (.settle call elapsed result))
    (hne : traffic.circuit.state ≠ .CLOSED)
    (hs : (traffic.settle breaker call elapsed result).circuit.state = .CLOSED) :
    ∃ flight, traffic.inFlight call = some flight ∧ traffic.IsProbe flight := by
  cases hf : traffic.inFlight call with
  | none =>
      rw [settle_of_none hf] at hs
      exact absurd hs hne
  | some flight =>
      have hcounts := counts_of_settle_closed hf hne hs
      have hnew : ¬flight.opening < traffic.openings.length := fun hstale =>
        hne (hc flight hf hstale hcounts)
      have hlast := le_antisymm (h.opening_le call flight hf) (not_lt.mp hnew)
      exact ⟨flight, rfl, h.probe hne call flight hf hlast⟩

theorem failsFast_start (h : Windowed breaker traffic) (elapsed : ℕ) :
    FailsFast breaker traffic (.start elapsed : TrafficEvent Error α) where
  waits other he hok := by
    cases he
    have hnow : traffic.clock ≤ traffic.clock + elapsed := by omega
    rcases breaker.allow_cases (traffic.clock + elapsed) traffic.circuit with
      ⟨hs, -⟩ | ⟨-, -, he⟩ | ⟨-, -, he⟩ | ⟨hl, -, -⟩
    · refine fun openedAt hm => (h.waited (fun ho => ?_) openedAt hm).trans hnow
      exact absurd (hs.symm.trans ho) (by decide)
    · rw [he] at hok
      cases hok
    · rw [he] at hok
      cases hok
    · exact h.lapsed hnow hl
  leaves hopen := start_ne_closed (fun hs => absurd (hopen.symm.trans hs) (by decide)) elapsed
  closes hne hs := absurd hs (start_ne_closed hne elapsed)

theorem failsFast_iff (h : Windowed breaker traffic) (event : TrafficEvent Error α) :
    FailsFast breaker traffic event ↔ NoStaleSuccess breaker traffic event := by
  cases event with
  | start elapsed => exact iff_of_true (failsFast_start h elapsed) trivial
  | settle call elapsed result =>
      constructor
      · intro hfast flight hf hstale hcounts
        by_contra hne
        have hs : (traffic.settle breaker call elapsed result).circuit.state = .CLOSED := by
          rw [settle_of_some hf]
          rcases breaker.settle_cases (traffic.clock + elapsed) result traffic.circuit with
            ⟨-, hs⟩ | ⟨hcounts', -⟩
          · exact hs
          · exact absurd (hcounts.symm.trans hcounts') (by decide)
        obtain ⟨_, _, _, _, he, hf', hprobe⟩ := hfast.closes hne hs
        cases he
        cases hf.symm.trans hf'
        exact hstale.ne hprobe.2.2
      · refine fun hc => ⟨fun _ he => (nomatch he), fun hopen hs => ?_, fun hne hs => ?_⟩
        · obtain ⟨_, -, hprobe⟩ := probe_of_settle_closed h hc
            (fun hs => absurd (hopen.symm.trans hs) (by decide)) hs
          exact absurd (hopen.symm.trans hprobe.1) (by decide)
        · obtain ⟨flight, hf, hprobe⟩ := probe_of_settle_closed h hc hne hs
          exact ⟨call, elapsed, result, flight, rfl, hf, hprobe⟩

end Traffic

open Machine Traffic in
-- A run keeps to the window of every opening, and closes the circuit only with
-- the outcome of the probe, exactly as long as no call from before the opening
-- succeeds in the meantime.
theorem failsFast_run_iff {Error α : Type} (breaker : CircuitBreaker Error) (clock : ℤ)
    (events : List (TrafficEvent Error α)) :
    Always (step breaker) (FailsFast breaker) (idle clock) events ↔
      Always (step breaker) (NoStaleSuccess breaker) (idle clock) events :=
  always_congr (Windowed breaker) (windowed_idle breaker clock) (fun _ _ h hc => h.step hc)
    fun _ event h => failsFast_iff h event

def Demo.breaker : CircuitBreaker Unit where
  name := "auth-service"
  failureThreshold := 1
  resetTimeoutMs := 10000
  isFailure _ := true

-- Two calls are let through. The first fails and opens the circuit, and the
-- success of the second closes it at once.
theorem failsFast_run_fails : ¬∀ (breaker : CircuitBreaker Unit) (clock : ℤ)
    (events : List (TrafficEvent Unit Unit)),
    Machine.Always (Traffic.step breaker) (Traffic.FailsFast breaker) (.idle clock) events := by
  intro h
  have hrun := h Demo.breaker 0
    [.start 0, .start 1, .settle 0 1 (.error ()), .settle 1 1 (.ok ())]
  obtain ⟨-, -, -, hlast, -⟩ := hrun
  exact hlast.leaves (by decide) (by decide)

end SmartParking
