import SmartParking.Payments.Charging
import SmartParking.Payments.Ledger.Theorems

namespace SmartParking.Payments

open Async

variable {Tid : Type} {sessionId : Id} {db : Database} {history : History Tid}
  {progress : Tid → Progress} {thread : Tid} {event : Event Tid Call Answer Fault}

section History

theorem approvedAmount_of_not_charges (h : ¬Charges event) :
    approvedAmount sessionId event.call event.answer = 0 := by
  obtain ⟨thread, call, answer⟩ := event
  cases call <;> first | rfl | exact absurd trivial h

theorem not_stores_of_charges (h : Charges event) : ¬Stores event := by
  obtain ⟨thread, call, answer⟩ := event
  cases call <;> first | exact id | exact fun _ => h

theorem charged_cons (h : ¬Charges event) :
    charged sessionId (event :: history) = charged sessionId history := by
  rw [charged, approvedAmount_of_not_charges h, add_zero]

-- A charge of the longer history is one of the shorter.
theorem mem_of_charges {old : Event Tid Call Answer Fault} (h : ¬Charges event)
    (hm : old ∈ event :: history) (ho : Charges old) : old ∈ history :=
  (List.mem_cons.mp hm).resolve_left fun he => h (he ▸ ho)

theorem Quoted.cons {amount : Soles} (h : Quoted amount history) :
    Quoted amount (event :: history) := by
  obtain ⟨quote, hm, hq⟩ := h
  exact ⟨quote, List.mem_cons_of_mem _ hm, hq⟩

theorem StoredBy.cons (h : StoredBy thread history) : StoredBy thread (event :: history) := by
  obtain ⟨store, hm, hs⟩ := h
  exact ⟨store, List.mem_cons_of_mem _ hm, hs⟩

theorem not_storedBy_cons (h : ¬StoredBy thread history)
    (hs : event.thread = thread → ¬Stores event) : ¬StoredBy thread (event :: history) := by
  rintro ⟨store, hm, ht, hstore⟩
  rcases List.mem_cons.mp hm with rfl | hm
  · exact hs ht hstore
  · exact h ⟨store, hm, ht, hstore⟩

theorem Backs.cons {next : Progress} (h : Backs sessionId db history thread next)
    (hc : next.Pending → ¬Charges event) (hs : ¬Stores event) :
    Backs sessionId db (event :: history) thread next := by
  cases next with
  | idle => exact not_storedBy_cons h fun _ => hs
  | quoted required => exact ⟨not_storedBy_cons h.1 fun _ => hs, h.2.cons⟩
  | looked required seen =>
      obtain ⟨hn, hq, ⟨look, hm, hl⟩, hseen⟩ := h
      refine ⟨not_storedBy_cons hn fun _ => hs, hq.cons, ⟨look, List.mem_cons_of_mem _ hm, hl⟩, ?_⟩
      exact fun hsince => hseen fun hi => hsince ((since_cons_iff hs).mpr hi)
  | charging seen amount =>
      obtain ⟨hn, ⟨begun, hm, ht⟩, hrow, htotal⟩ := h
      refine ⟨not_storedBy_cons hn fun _ => hs, ⟨begun, List.mem_cons_of_mem _ hm, ht⟩, hrow, ?_⟩
      rw [charged_cons (hc trivial), htotal]
  | done => trivial

-- Another execution stores, so a lookup from before it is out of date.
theorem Backs.store {next : Progress} {db' : Database} (h : Backs sessionId db history thread next)
    (hthread : event.thread ≠ thread) (hs : Stores event) (hnext : ¬next.Pending) :
    Backs sessionId db' (event :: history) thread next := by
  cases next with
  | idle => exact not_storedBy_cons h fun he => absurd he hthread
  | quoted required => exact ⟨not_storedBy_cons h.1 fun he => absurd he hthread, h.2.cons⟩
  | looked required seen =>
      obtain ⟨hn, hq, ⟨look, hm, hl⟩, -⟩ := h
      refine ⟨not_storedBy_cons hn fun he => absurd he hthread, hq.cons,
        ⟨look, List.mem_cons_of_mem _ hm, hl⟩, fun hsince => absurd ?_ hsince⟩
      exact .inl ⟨hs, look, hm, hl⟩
  | charging seen amount => exact absurd trivial hnext
  | done => trivial

end History

-- When every charge is stored, no execution has one left to store.
theorem Charging.not_pending (h : Charging sessionId db history progress)
    (hall : ∀ old ∈ history, Charges old → StoredBy old.thread history) (other : Tid) :
    ¬(progress other).Pending := by
  intro hpending
  have hother := h.backs other
  cases ho : progress other with
  | charging seen amount =>
      rw [ho] at hother
      obtain ⟨hn, ⟨old, hm, rfl, hold⟩, -⟩ := hother
      exact hn (hall old hm hold)
  | _ =>
      rw [ho] at hpending
      exact hpending

-- An event that neither charges nor stores.
theorem Charging.cons (h : Charging sessionId db history progress) (hc : ¬Charges event)
    (hs : ¬Stores event) : Charging sessionId db (event :: history) progress where
  backs thread := (h.backs thread).cons (fun _ => hc) hs
  chargers old hm ho := by
    have hm' := mem_of_charges hc hm ho
    exact (h.chargers old hm' ho).imp_left StoredBy.cons
  single := h.single
  settled hn := by rw [charged_cons hc, h.settled hn]
  bounded hex := by
    obtain ⟨old, hm, ho⟩ := hex
    have hm' := mem_of_charges hc hm ho
    rw [charged_cons hc]
    exact (h.bounded ⟨old, hm', ho⟩).cons

variable [DecidableEq Tid]

-- What an execution knows changes, but not what it has charged.
theorem Charging.know (h : Charging sessionId db history progress) {next : Progress}
    (hbefore : ¬(progress thread).Pending) (hafter : ¬next.Pending)
    (hbacks : Backs sessionId db history thread next) :
    Charging sessionId db history (Function.update progress thread next) := by
  have hpending : ∀ other, (Function.update progress thread next other).Pending ↔
      (progress other).Pending := by
    intro other
    by_cases ho : other = thread
    · subst other
      rw [Function.update_self]
      exact iff_of_false hafter hbefore
    · rw [Function.update_of_ne ho]
  constructor
  · exact (Function.forall_update_iff progress fun other next =>
      Backs sessionId db history other next).mpr ⟨hbacks, fun other _ => h.backs other⟩
  · exact fun old hm ho => (h.chargers old hm ho).imp_right (hpending _).mpr
  · exact fun a b ha hb => h.single a b ((hpending a).mp ha) ((hpending b).mp hb)
  · exact fun hn => h.settled fun other hp => hn other ((hpending other).mpr hp)
  · exact h.bounded

-- A charge on top of an up to date payment brings the total to the quote.
theorem Charging.charge (h : Charging sessionId db history progress) {required amount : Soles}
    {seen : Option Payment} (ht : event.thread = thread)
    (hp : progress thread = .looked required seen) (hc : Charges event)
    (hall : ∀ old ∈ history, Charges old → StoredBy old.thread history)
    (hsince : ¬Since (LooksUp thread) Stores history)
    (hamount : approvedAmount sessionId event.call event.answer = amount)
    (htotal : amountOf seen + amount = required) :
    Charging sessionId db (event :: history)
      (Function.update progress thread (.charging seen amount)) := by
  have hbacks := h.backs thread
  rw [hp] at hbacks
  obtain ⟨hstored, hquoted, hlooked, hseen⟩ := hbacks
  have hnone := h.not_pending hall
  have hcharged : charged sessionId (event :: history) = required := by
    rw [charged, hamount, ← h.settled hnone, stored, hseen hsince, htotal]
  have hs : ¬Stores event := not_stores_of_charges hc
  have hself : (Function.update progress thread (.charging seen amount) thread).Pending := by
    rw [Function.update_self]
    trivial
  have honly : ∀ other, (Function.update progress thread (.charging seen amount) other).Pending →
      other = thread := by
    intro other hpending
    by_contra hne
    rw [Function.update_of_ne hne] at hpending
    exact hnone other hpending
  constructor
  · refine (Function.forall_update_iff progress fun other next =>
      Backs sessionId db (event :: history) other next).mpr ⟨?_, fun other _ => ?_⟩
    · exact ⟨not_storedBy_cons hstored fun _ => hs, ⟨event, List.mem_cons_self, ht, hc⟩,
        hseen hsince, hcharged.trans htotal.symm⟩
    · exact (h.backs other).cons (fun hpending => absurd hpending (hnone other)) hs
  · intro old hm ho
    rcases List.mem_cons.mp hm with rfl | hm
    · exact .inr (by rwa [ht])
    · exact .inl (hall old hm ho).cons
  · exact fun a b ha hb => (honly a ha).trans (honly b hb).symm
  · exact fun hn => absurd hself (hn thread)
  · rw [hcharged]
    exact fun _ => hquoted.cons

-- The store puts the last charge on record.
theorem Charging.store (h : Charging sessionId db history progress) {seen : Option Payment}
    {amount : Soles} (ht : event.thread = thread) (hp : progress thread = .charging seen amount)
    (hs : Stores event) {db' : Database} (row : Payment)
    (hrow : PrismaPaymentRepository.findBySessionId db' sessionId = some row)
    (hamount : row.amount = amountOf seen + amount) :
    Charging sessionId db' (event :: history) (Function.update progress thread .done) := by
  have hbacks := h.backs thread
  rw [hp] at hbacks
  obtain ⟨-, -, -, htotal⟩ := hbacks
  have hpending : (progress thread).Pending := by
    rw [hp]
    trivial
  have hc : ¬Charges event := fun hc => not_stores_of_charges hc hs
  have hnone : ∀ other, ¬(Function.update progress thread .done other).Pending := by
    intro other ho
    by_cases hne : other = thread
    · subst other
      rw [Function.update_self] at ho
      exact ho
    · rw [Function.update_of_ne hne] at ho
      exact hne (h.single other thread ho hpending)
  constructor
  · refine (Function.forall_update_iff progress fun other next =>
      Backs sessionId db' (event :: history) other next).mpr ⟨trivial, fun other hne => ?_⟩
    have hother : ¬(progress other).Pending := fun ho => hne (h.single other thread ho hpending)
    exact (h.backs other).store (fun he => hne (he.symm.trans ht)) hs hother
  · intro old hm ho
    have hm' := mem_of_charges hc hm ho
    by_cases hold : old.thread = thread
    · exact .inl ⟨event, List.mem_cons_self, ht.trans hold.symm, hs⟩
    · rw [Function.update_of_ne hold]
      exact (h.chargers old hm' ho).imp_left StoredBy.cons
  · exact fun a _ ha => absurd ha (hnone a)
  · intro _
    rw [stored, hrow, charged_cons hc, htotal]
    exact hamount
  · rintro ⟨old, hm, ho⟩
    have hm' := mem_of_charges hc hm ho
    rw [charged_cons hc]
    exact (h.bounded ⟨old, hm', ho⟩).cons

-- Each request is safe on its own, and ends with nothing left to store.
section Requests

abbrev charging (sessionId : Id) : World → History Tid → (Tid → Progress) → Prop :=
  fun world => Charging sessionId world.db

abbrev carefully : CallGuard Tid := Pool.both Regular OneByOne

abbrev SafePayment {α : Type} (sessionId : Id) (thread : Tid) (p : Port α) (next : Progress) :
    Prop :=
  Safe serve carefully (charging sessionId) thread p next fun _ next => ¬next.Pending

theorem Charging.stay (h : Charging sessionId db history progress) {next : Progress}
    (hp : progress thread = next) (hc : ¬Charges event) (hs : ¬Stores event) :
    Charging sessionId db (event :: history) (Function.update progress thread next) := by
  rw [← hp, Function.update_eq_self]
  exact h.cons hc hs

theorem safe_publish (payment : Payment) {next : Progress} (hnext : ¬next.Pending) :
    SafePayment sessionId thread (RegisterPaymentUseCase.publish payment >>= fun _ => pure payment)
      next := by
  unfold RegisterPaymentUseCase.publish
  rw [bind_assoc]
  refine safe_perform_bind fun world history progress choice hp h _ => ⟨next, h.stay hp id id, ?_⟩
  exact safe_perform_bind fun world history progress choice hp h _ =>
    ⟨next, h.stay hp id id, hnext⟩

omit [DecidableEq Tid] in
theorem serve_of_query {call : Call} {choice : Choice} {clock : ℤ}
    {answer : Except Fault (Answer call)} {db' : Database}
    (hq : query choice (clock + choice.elapsed) db call = (answer, db')) :
    serve choice ⟨db, clock⟩ call = (answer, ⟨db', clock + choice.elapsed⟩) := by
  simp only [serve, hq]

theorem safe_create (data : CreatePaymentData) (hsession : data.sessionId = sessionId) :
    SafePayment sessionId thread (payments.create data >>= fun payment =>
      RegisterPaymentUseCase.publish payment >>= fun _ => pure payment)
      (.charging none data.amount) := by
  subst hsession
  refine safe_perform_bind ?_
  rintro ⟨db, clock⟩ history progress choice hp h _
  have hbacks := h.backs thread
  rw [hp] at hbacks
  obtain ⟨-, -, hnone, -⟩ := hbacks
  obtain ⟨bigger, hb, hq⟩ := query_create db choice (clock + choice.elapsed) data hnone
  rw [serve_of_query hq]
  refine ⟨.done, ?_, safe_publish _ id⟩
  exact h.store (by rfl) hp (by trivial) _ (find_insert hb) (zero_add _).symm

theorem safe_pay (quote : SessionQuote) (paidAt : ℤ) (method : PaymentMethodType)
    (hsession : quote.sessionId = sessionId) :
    SafePayment sessionId thread (RegisterPaymentUseCase.pay quote paidAt method)
      (.looked quote.amount none) := by
  subst hsession
  refine safe_perform_bind ?_
  rintro ⟨db, clock⟩ history progress choice hp h ⟨happroved, hall, hsince⟩
  refine ⟨.charging none quote.amount, h.charge rfl hp trivial hall hsince ?_ (zero_add _),
    safe_create (RegisterPaymentUseCase.paymentData quote choice.charge paidAt) rfl⟩
  exact (approvedAmount_charge ⟨_, quote.amount, _, _⟩ _).trans (if_pos happroved)

theorem safe_increaseAmount (existing : Payment) (amount : Soles) (externalReference : String)
    (paidAt : ℤ) :
    SafePayment sessionId thread
      (payments.increaseAmount existing.id amount externalReference paidAt >>= fun payment =>
        RegisterPaymentUseCase.publish payment >>= fun _ => pure payment)
      (.charging (some existing) amount) := by
  unfold payments.increaseAmount
  rw [bind_assoc]
  refine safe_perform_bind ?_
  rintro ⟨db, clock⟩ history progress choice hp h _
  have hbacks := h.backs thread
  rw [hp] at hbacks
  obtain ⟨-, -, hfound, -⟩ := hbacks
  rw [serve_of_query (query_findUniqueOrThrow (Table.lookupBy_eq_some.mp hfound).1 _ _)]
  refine ⟨_, h.stay hp id id, ?_⟩
  refine safe_perform_bind ?_
  rintro ⟨db, clock⟩ history progress choice hp h _
  have hbacks := h.backs thread
  rw [hp] at hbacks
  obtain ⟨-, -, hfound, -⟩ := hbacks
  rw [serve_of_query (query_update (Table.lookupBy_eq_some.mp hfound).1 _ _ _)]
  refine ⟨.done, ?_, safe_publish _ id⟩
  exact h.store (by rfl) hp (by trivial) _ (find_update _ hfound) (by rfl)

theorem safe_topUp (existing : Payment) (required : Soles) (currency : String) (paidAt : ℤ)
    (method : PaymentMethodType) :
    SafePayment sessionId thread (RegisterPaymentUseCase.topUpIfInsufficient existing required
      currency sessionId paidAt method) (.looked required (some existing)) := by
  unfold RegisterPaymentUseCase.topUpIfInsufficient
  split
  · exact id
  refine safe_perform_bind ?_
  rintro ⟨db, clock⟩ history progress choice hp h ⟨happroved, hall, hsince⟩
  refine ⟨.charging (some existing) (RegisterPaymentUseCase.missingAmount required existing),
    h.charge rfl hp trivial hall hsince ?_ ?_, ?_⟩
  · exact (approvedAmount_charge ⟨sessionId, _, currency, method⟩ _).trans (if_pos happroved)
  · rw [RegisterPaymentUseCase.missingAmount, Decimal.toFixed_sub]
    exact add_sub_cancel _ _
  · have hstatus : choice.charge.status = .APPROVED := happroved
    change SafePayment sessionId thread (if choice.charge.status ≠ .APPROVED then _ else _) _
    rw [if_neg (not_not.mpr hstatus)]
    exact safe_increaseAmount existing _ _ paidAt

theorem safe_look (quote : SessionQuote) (method : PaymentMethodType)
    (hsession : quote.sessionId = sessionId) :
    SafePayment sessionId thread (clock.now >>= fun now =>
      payments.findBySessionId quote.sessionId >>= fun existingPayment =>
        match existingPayment with
        | some existingPayment => RegisterPaymentUseCase.topUpIfInsufficient existingPayment
            quote.amount quote.currency quote.sessionId now method
        | none => RegisterPaymentUseCase.pay quote now method) (.quoted quote.amount) := by
  subst hsession
  refine safe_perform_bind fun world history progress choice hp h _ =>
    ⟨.quoted quote.amount, h.stay hp id id, ?_⟩
  refine safe_perform_bind ?_
  rintro ⟨db, clock⟩ history progress choice hp h _
  have hbacks := h.backs thread
  rw [hp] at hbacks
  refine ⟨.looked quote.amount (PrismaPaymentRepository.findBySessionId db quote.sessionId), ?_, ?_⟩
  · refine (h.cons id id).know (by rw [hp]; exact id) id ⟨not_storedBy_cons hbacks.1 fun _ => id,
      hbacks.2.cons, ⟨_, List.mem_cons_self, rfl, trivial⟩, fun _ => rfl⟩
  cases hfound : PrismaPaymentRepository.findBySessionId db quote.sessionId with
  | none =>
      rw [serve_of_query (by rw [query, hfound])]
      exact safe_pay quote _ method rfl
  | some existing =>
      rw [serve_of_query (by rw [query, hfound])]
      exact safe_topUp existing quote.amount quote.currency _ method

theorem safe_execute (input : RegisterPaymentInput) (hsession : input.sessionId = sessionId) :
    SafePayment sessionId thread (RegisterPaymentUseCase.execute input) .idle := by
  subst hsession
  refine safe_perform_bind ?_
  rintro ⟨db, clock⟩ history progress choice hp h _
  have hbacks := h.backs thread
  rw [hp] at hbacks
  cases hquote : choice.quote with
  | error err =>
      rw [serve_of_query (by rw [query, hquote])]
      exact ⟨.idle, h.stay hp id id, id⟩
  | ok quote =>
      rw [serve_of_query (by rw [query, hquote])]
      refine ⟨.quoted quote.amount, ?_, ?_⟩
      · refine (h.cons id id).know (by rw [hp]; exact id) id ⟨not_storedBy_cons hbacks fun _ => id, ?_⟩
        exact ⟨_, List.mem_cons_self, rfl⟩
      change SafePayment input.sessionId thread (if quote.userId ≠ input.userId then _ else _) _
      by_cases huser : quote.userId = input.userId
      · rw [if_neg (not_not.mpr huser)]
        exact safe_look _ _ rfl
      · rw [if_pos huser]
        exact id

end Requests

omit [DecidableEq Tid] in
theorem charging_start {world : World}
    (hnone : PrismaPaymentRepository.findBySessionId world.db sessionId = none) :
    Charging sessionId world.db ([] : History Tid) fun _ => .idle where
  backs _ := by
    rintro ⟨event, hm, -⟩
    cases hm
  chargers event hm := by cases hm
  single _ _ h := h.elim
  settled _ := by rw [stored, hnone, amountOf, charged]
  bounded h := by
    obtain ⟨event, hm, -⟩ := h
    cases hm

-- When every charge is approved, quotes do not fall, and the executions charge
-- one by one, the session is charged what is quoted and stored.
theorem fair_of_follows (world : World) (sessionId : Id) (inputs : Tid → RegisterPaymentInput)
    (schedule : List (Tid × Choice))
    (hnone : PrismaPaymentRepository.findBySessionId world.db sessionId = none)
    (hregular : (Payers.start world sessionId inputs).Follows serve Regular schedule)
    (hone : (Payers.start world sessionId inputs).Follows serve OneByOne schedule) :
    Fair sessionId ((Payers.start world sessionId inputs).play serve schedule) := by
  have hreach := Pool.reaches_of_follows .refl (Pool.follows_both hregular hone)
  obtain ⟨progress, hi, hsafe⟩ := hreach.invariant (charging sessionId)
    (fun _ _ next => ¬next.Pending) (charging_start hnone) fun thread => safe_execute _ rfl
  constructor
  · exact fun hex => ⟨_, hi.bounded hex, Int.le_refl _⟩
  intro hended
  refine hi.settled fun thread hpending => ?_
  have hbacks := hi.backs thread
  have hthread := hsafe thread
  cases hp : progress thread with
  | charging seen amount =>
      rw [hp] at hbacks hthread
      obtain ⟨-, ⟨event, hm, rfl, -⟩, -⟩ := hbacks
      obtain ⟨result, hdone⟩ := Pool.done_of_awaited (hended event hm)
      rw [hdone] at hthread
      exact hthread trivial
  | _ =>
      rw [hp] at hpending
      exact hpending

def payers : ℕ → RegisterPaymentInput := fun _ => {
  sessionId := "x1"
  userId := "u1"
  method := .CARD }

-- One pays, and later another tops up.
theorem fair_serial : Fair "x1" ((Payers.start Demo.world "x1" payers).play serve
    (List.replicate 7 (0, Demo.choice ⟨500⟩ .APPROVED) ++
      List.replicate 8 (1, Demo.choice ⟨800⟩ .APPROVED))) :=
  fair_of_follows Demo.world "x1" payers _ rfl (by decide +kernel) (by decide +kernel)

-- Two look for the payment before either has charged, and both charge it all.
theorem fair_fails : ¬∀ (world : World) (sessionId : Id) (inputs : ℕ → RegisterPaymentInput)
    (schedule : List (ℕ × Choice)),
    PrismaPaymentRepository.findBySessionId world.db sessionId = none →
      (Payers.start world sessionId inputs).Follows serve Regular schedule →
      Fair sessionId ((Payers.start world sessionId inputs).play serve schedule) := by
  intro h
  let choice := Demo.choice ⟨500⟩ .APPROVED
  let schedule := (List.replicate 4 [(0, choice), (1, choice)]).flatten
  have hfair := h Demo.world "x1" payers schedule rfl (by decide +kernel)
  have hcharges : ∃ event ∈ ((Payers.start Demo.world "x1" payers).play serve schedule).history,
      Charges event := by decide +kernel
  obtain ⟨amount, ⟨event, hm, hquoted⟩, hle⟩ := hfair.bounded hcharges
  have hexceeds : ∀ event ∈ ((Payers.start Demo.world "x1" payers).play serve schedule).history,
      ∀ amount ∈ quotedAmount event, ¬charged "x1"
        ((Payers.start Demo.world "x1" payers).play serve schedule).history ≤ amount := by
    decide +kernel
  exact hexceeds event hm amount hquoted hle

end SmartParking.Payments
