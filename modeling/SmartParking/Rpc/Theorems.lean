import SmartParking.Json.RoundTrip
import SmartParking.Resilience.CircuitBreaker.Theorems
import SmartParking.Rpc

namespace SmartParking

open Async Program

namespace RpcError

@[simp] theorem details_ofDomainError (code message : String) :
    (ofDomainError code message).details = some (Json.stringify
      (.object [("code", .string code), ("message", .string message)])) := rfl

theorem decode_ofDomainError {code : String} (hcode : code ≠ "") (message : String) :
    (ofDomainError code message).decodeDomainError =
      some { code := .string code, message := some (.string message) } := by
  have hdetails := Json.stringify_ne_empty
    (.object [("code", .string code), ("message", .string message)])
  simp only [decodeDomainError, details_ofDomainError, Option.filter_some, decide_eq_true hdetails,
    if_true, Option.bind_eq_bind, Option.bind_some, Json.parse_stringify]
  simp [Json.get?, nonNull, Option.filter_some, hcode]

theorem decode_unknown : unknown.decodeDomainError = none := by decide

end RpcError

theorem Auth.DomainError.code_ne_empty (error : Auth.DomainError) : error.code ≠ "" := by
  cases error <;> exact of_decide_eq_true rfl

theorem DomainError.code_ne_empty (error : DomainError) : error.code ≠ "" := by
  cases error <;> exact of_decide_eq_true rfl

-- What gateway answers for a fault of auth-service: the filter of backend gives the
-- same for a domain error.
theorem Auth.DomainError.status_eq (error : Auth.DomainError) :
    httpStatusOf Gateway.STATUS_BY_CODE (.string error.code) =
      httpStatusOf DomainExceptionFilter.STATUS_BY_CODE (.string error.code) := by
  cases error <;> rfl

theorem Gateway.toHttpException_callUseCase (fault : Auth.Fault) :
    toHttpException (Auth.callUseCase fault) = answerTo fault := by
  cases fault with
  | domain error =>
      have hdecode := RpcError.decode_ofDomainError error.code_ne_empty error.message
      simp only [toHttpException, Auth.callUseCase, hdecode]
      rw [error.status_eq]
      rfl
  | infrastructure message =>
      simp only [toHttpException, Auth.callUseCase, RpcError.decode_unknown]
      rfl

-- The details carry what the adapter of payments-service was taken to give.
theorem translate_callUseCase (fault : Fault) :
    Payments.Fault.domain (Payments.ParkingGrpcAdapter.translate (callUseCase fault)) =
      ParkingGrpcAdapter.translate fault := by
  cases fault with
  | domain error =>
      have hdecode := RpcError.decode_ofDomainError error.code_ne_empty error.message
      simp only [Payments.ParkingGrpcAdapter.translate, callUseCase, hdecode]
      rfl
  | infrastructure message =>
      simp only [Payments.ParkingGrpcAdapter.translate, callUseCase, RpcError.decode_unknown]
      rfl

-- A quote is refused for nothing else than a row that is not there.
def Missing {α : Type} (result : Except Fault α) : Prop :=
  ∀ error, result = .error (.domain error) → ∃ entity id, error = .NotFound entity id

theorem missing_ok {α : Type} (value : α) : Missing (.ok value : Except Fault α) := nofun

theorem missing_notFound {α : Type} (entity id : String) :
    Missing (.error (.domain (.NotFound entity id)) : Except Fault α) := by
  rintro error ⟨⟩
  exact ⟨entity, id, rfl⟩

theorem missing_error {α β : Type} {fault : Fault} (h : Missing (.error fault : Except Fault α)) :
    Missing (.error fault : Except Fault β) :=
  fun error he => h error (by rw [Except.error.inj he])

-- The ports fail for reasons of the infrastructure only.
def Infrastructural (call : Call) (answer : Except Fault (Answer call)) : Prop :=
  ∀ error, answer ≠ .error (.domain error)

theorem yields_ask {call : Call} : (ask call).Yields Infrastructural Missing :=
  fun _ ha error he => absurd he (ha error)

theorem yields_calculate (input : PricingInput) :
    (HourlyPricingPolicy.calculate input).Yields Infrastructural Missing := by
  refine yields_bind yields_ask (fun _ => missing_error) fun branch _ => ?_
  cases branch with
  | none => exact missing_notFound _ _
  | some branch => exact missing_ok _

theorem yields_priceOf (session : ParkingSession) (reservation : Reservation) :
    (priceOf session reservation).Yields Infrastructural Missing := by
  have hexit : (exitAtOrNow session).Yields Infrastructural Missing := by
    unfold exitAtOrNow
    split
    · exact missing_ok _
    · exact yields_ask
  exact yields_bind hexit (fun _ => missing_error) fun _ _ => yields_calculate _

theorem yields_getSessionQuote (sessionId : Id) :
    (GetSessionQuoteUseCase.execute sessionId).Yields Infrastructural Missing := by
  refine yields_bind yields_ask (fun _ => missing_error) fun session _ => ?_
  cases session with
  | none => exact missing_notFound _ _
  | some session =>
      refine yields_bind yields_ask (fun _ => missing_error) fun reservation _ => ?_
      cases reservation with
      | none => exact missing_notFound _ _
      | some reservation =>
          refine yields_bind (yields_priceOf _ _) (fun _ => missing_error) fun _ _ => ?_
          exact missing_ok _

-- What payments-service answers for a quote that was refused.
theorem catch_translate {fault : Fault} {α : Type} (h : Missing (.error fault : Except Fault α)) :
    Payments.DomainExceptionFilter.catch
        (Payments.ParkingGrpcAdapter.translate (callUseCase fault)) = Payments.answerTo fault := by
  have htranslate := translate_callUseCase fault
  cases fault with
  | domain error =>
      obtain ⟨entity, id, rfl⟩ := h error rfl
      rw [Payments.Fault.domain.inj htranslate]
      rfl
  | infrastructure message =>
      rw [Payments.Fault.domain.inj htranslate]
      rfl

-- A domain error of auth-service or of backend reaches the browser as the filter of
-- backend answers it itself, and any other failure as a service that is unavailable.
theorem domain_errors_cross_services {Choice World : Type}
    (server : Server Choice World Call Answer Fault)
    (hserver : ∀ choice world call, Infrastructural call (server choice world call).1) :
    (∀ fault, Gateway.toHttpException (Auth.callUseCase fault) = Gateway.answerTo fault) ∧
    ∀ choices world sessionId fault,
      ((GetSessionQuoteUseCase.execute sessionId).run server choices world).1 = .error fault →
        Payments.DomainExceptionFilter.catch
          (Payments.ParkingGrpcAdapter.translate (callUseCase fault)) = Payments.answerTo fault := by
  refine ⟨Gateway.toHttpException_callUseCase, fun choices world sessionId fault h => ?_⟩
  have hmissing := run_of_wp (wp_of_yields hserver (yields_getSessionQuote sessionId) world) choices
  rw [h] at hmissing
  exact catch_translate hmissing

-- A database without sessions, behind ports that fail for everything else.
def Demo.withoutSessions : Server Unit Unit Call Answer Fault := fun _ world call =>
  match call with
  | .sessionsFindById _ => (.ok none, world)
  | _ => (.error (.infrastructure "connection refused"), world)

theorem domain_errors_cross_services_missing :
    Payments.DomainExceptionFilter.catch (Payments.ParkingGrpcAdapter.translate
        (callUseCase (.domain (.NotFound "ParkingSession" "s1")))) = {
      statusCode := 404
      code := .string "NOT_FOUND"
      message := .string "ParkingSession con id \"s1\" no fue encontrado." } := by
  have hserver (choice : Unit) (world : Unit) (call : Call) :
      Infrastructural call (Demo.withoutSessions choice world call).1 := by
    cases call <;> exact nofun
  exact (domain_errors_cross_services Demo.withoutSessions hserver).2 (fun _ => ()) () "s1" _ rfl

-- The breakers of the clients count what is no domain error, each in its own words.
theorem isFailure_of_mem {failureThreshold resetTimeoutMs : ℤ} {breaker : CircuitBreaker RpcError}
    (h : breaker ∈ clientBreakers failureThreshold resetTimeoutMs) (error : RpcError) :
    breaker.isFailure error = !error.isDomainError := by
  simp only [clientBreakers, List.mem_cons, List.not_mem_nil, or_false] at h
  rcases h with rfl | rfl | rfl
  · exact (Option.not_isSome error.decodeDomainError).symm
  · rfl
  · rfl

section Traffic

variable {α : Type} {breaker : CircuitBreaker RpcError} {traffic : Traffic}

theorem settle_forgiven (hbreaker : ∀ error, breaker.isFailure error = !error.isDomainError)
    {error : RpcError} (herror : error.isDomainError = true) (value : α) (call elapsed : ℕ) :
    traffic.settle breaker call elapsed (.ok value : Except RpcError α) =
      traffic.settle breaker call elapsed (.error error : Except RpcError α) := by
  have hsettle (now : ℤ) (circuit : Circuit) :
      breaker.settle now (.ok value) circuit =
        breaker.settle now (.error error : Except RpcError α) circuit := by
    simp [CircuitBreaker.settle, CircuitBreaker.counts, hbreaker, herror]
  cases hflight : traffic.inFlight call with
  | none => simp only [Traffic.settle, hflight]
  | some flight => simp only [Traffic.settle_of_some hflight, hsettle]

theorem step_forgiven (hbreaker : ∀ error, breaker.isFailure error = !error.isDomainError)
    (value : α) (event : TrafficEvent RpcError α) :
    traffic.step breaker (event.forgiven value) = traffic.step breaker event := by
  cases event with
  | start elapsed => rfl
  | settle call elapsed result =>
      cases result with
      | ok value => rfl
      | error error =>
          dsimp only [TrafficEvent.forgiven]
          split
          next herror => exact settle_forgiven hbreaker herror value call elapsed
          next => rfl

theorem play_forgiven (hbreaker : ∀ error, breaker.isFailure error = !error.isDomainError)
    (value : α) (events : List (TrafficEvent RpcError α)) :
    Machine.play (Traffic.step breaker) traffic (events.map (·.forgiven value)) =
      Machine.play (Traffic.step breaker) traffic events := by
  induction events generalizing traffic with
  | nil => rfl
  | cons event rest ih =>
      change Machine.play _ (traffic.step breaker (event.forgiven value)) _ = _
      rw [step_forgiven hbreaker]
      exact ih

-- The circuit that has never seen a failure.
def Traffic.Unbroken (traffic : Traffic) : Prop :=
  traffic.circuit.state = .CLOSED ∧ traffic.circuit.consecutiveFailures = 0 ∧ traffic.openings = []

theorem allow_of_closed {circuit : Circuit} (h : circuit.state = .CLOSED) (now : ℤ) :
    breaker.allow now circuit = (.ok (), circuit) := by
  rcases breaker.allow_cases now circuit with ⟨-, he⟩ | ⟨hs, -⟩ | ⟨hl, -⟩ | ⟨hl, -⟩
  · exact he
  · exact absurd (h.symm.trans hs) (by decide)
  · exact absurd h hl.1
  · exact absurd h hl.1

theorem unbroken_step (hbreaker : ∀ error, breaker.isFailure error = !error.isDomainError)
    {event : TrafficEvent RpcError α} (h : traffic.Unbroken) (hevent : event.Answered) :
    (traffic.step breaker event).Unbroken := by
  obtain ⟨hstate, hfailures, hopenings⟩ := h
  cases event with
  | start elapsed =>
      simp only [Traffic.step, Traffic.start_of_ok (allow_of_closed hstate _)]
      exact ⟨hstate, hfailures, hopenings⟩
  | settle call elapsed result =>
      cases hflight : traffic.inFlight call with
      | none =>
          simp only [Traffic.step, Traffic.settle, hflight]
          exact ⟨hstate, hfailures, hopenings⟩
      | some flight =>
          have hcounts : breaker.counts result = false := by
            cases result with
            | ok value => rfl
            | error error => exact (hbreaker error).trans (congrArg not hevent)
          have hsettle : breaker.settle (traffic.clock + elapsed) result traffic.circuit =
              { traffic.circuit with
                state := .CLOSED, consecutiveFailures := 0, probeInFlight := false } := by
            simp [CircuitBreaker.settle, hcounts, Circuit.onSuccess_eq]
          simp only [Traffic.step, Traffic.settle_of_some hflight, hsettle]
          exact ⟨rfl, rfl, by simp [hopenings]⟩

end Traffic

-- For the breakers of the three clients a domain error is as good as a value: the run
-- is the same, and a service that answers every call is never shut out.
theorem domain_errors_open_no_circuit {α : Type} (failureThreshold resetTimeoutMs clock : ℤ)
    (breaker : CircuitBreaker RpcError)
    (hbreaker : breaker ∈ clientBreakers failureThreshold resetTimeoutMs)
    (events : List (TrafficEvent RpcError α)) (value : α) :
    Machine.play (Traffic.step breaker) (Traffic.idle clock) (events.map (·.forgiven value)) =
        Machine.play (Traffic.step breaker) (Traffic.idle clock) events ∧
      ((∀ event ∈ events, event.Answered) → ∀ past, past <+: events →
        let traffic := Machine.play (Traffic.step breaker) (Traffic.idle clock) past
        traffic.circuit.state = .CLOSED ∧ traffic.openings = [] ∧
          ∀ now, (breaker.allow now traffic.circuit).1 = .ok ()) ∧
      (∀ error : Auth.DomainError, (Auth.callUseCase (.domain error)).isDomainError = true) ∧
      ∀ error : DomainError, (callUseCase (.domain error)).isDomainError = true := by
  have hfailure := isFailure_of_mem hbreaker
  refine ⟨play_forgiven hfailure value events, fun hanswered past hpast => ?_, fun error => ?_,
    fun error => ?_⟩
  · have hrun : (Machine.play (Traffic.step breaker) (Traffic.idle clock) past).Unbroken := by
      refine Machine.play_invariant Traffic.Unbroken ⟨rfl, rfl, rfl⟩
        (fun _ _ => unbroken_step hfailure) ?_
      exact Machine.always_of_forall fun event hevent => hanswered event (hpast.subset hevent)
    refine ⟨hrun.1, hrun.2.2, fun now => ?_⟩
    rw [allow_of_closed hrun.1]
  · rw [RpcError.isDomainError, Auth.callUseCase, RpcError.decode_ofDomainError error.code_ne_empty]
    rfl
  · rw [RpcError.isDomainError, callUseCase, RpcError.decode_ofDomainError error.code_ne_empty]
    rfl

-- A wrong code, against a breaker that opens at the first failure.
theorem domain_errors_open_no_circuit_wrongCode :
    (Machine.play (Traffic.step (Gateway.authServiceBreaker 1 10000)) (Traffic.idle 0)
      [.start 0, .settle 0 5 (.error (Auth.callUseCase (.domain .InvalidMfaCode)) :
        Except RpcError Unit)]).openings = [] := by
  have h := domain_errors_open_no_circuit 1 10000 0 (Gateway.authServiceBreaker 1 10000)
    List.mem_cons_self [.start 0, .settle 0 5 (.error (Auth.callUseCase (.domain .InvalidMfaCode)) :
        Except RpcError Unit)] ()
  refine (h.2.1 ?_ _ (List.prefix_refl _)).2.1
  intro event hevent
  rcases List.mem_pair.mp hevent with rfl | rfl
  · trivial
  · exact h.2.2.1 .InvalidMfaCode

end SmartParking
