import SmartParking.Backend.Footprints
import SmartParking.Redelivery

namespace SmartParking

open Async

variable {Tid : Type} {tasks : Tid → Task} {history : History Tid} {replies : Tid → Reply}
  {thread : Tid} {event : Event Tid Call Answer Fault} {requestId : Id}

abbrev replied (tasks : Tid → Task) : Database → History Tid → (Tid → Reply) → Prop :=
  fun _ history replies => Replied tasks history replies

section Answers

-- An event that does not answer the request.
theorem Truthful.cons (h : Truthful tasks requestId history)
    (hn : ¬AnsweredFor tasks requestId event) : Truthful tasks requestId (event :: history) where
  once := by
    have hcreated : ¬CreatedFor tasks requestId event := fun hc => hn (.inl hc)
    rw [List.countP_cons_of_neg (by simpa using hcreated)]
    exact h.once
  honest created hm hc other ho hr := by
    have hm' := (List.mem_cons.mp hm).resolve_left fun he => hn (.inl (he ▸ hc))
    have ho' := (List.mem_cons.mp ho).resolve_left fun he => hn (.inr (he ▸ hr))
    exact h.honest created hm' hc other ho' hr

-- The first event that answers the request.
theorem truthful_of_first (hnone : ∀ old ∈ history, ¬AnsweredFor tasks requestId old)
    (honly : CreatedFor tasks requestId event → ¬RejectedFor requestId event) :
    Truthful tasks requestId (event :: history) where
  once := by
    have hzero : history.countP (fun old => CreatedFor tasks requestId old) = 0 :=
      List.countP_eq_zero.mpr fun old hm hc => hnone old hm (.inl (of_decide_eq_true hc))
    rw [List.countP_cons, hzero]
    split <;> omega
  honest created hm hc other ho hr := by
    have hm' := (List.mem_cons.mp hm).resolve_right fun hm => hnone created hm (.inl hc)
    have ho' := (List.mem_cons.mp ho).resolve_right fun ho => hnone other ho (.inr hr)
    subst hm' ho'
    exact honly hc hr

theorem Replied.cons (h : Replied tasks history replies)
    (hn : ∀ requestId, ¬AnsweredFor tasks requestId event) :
    Replied tasks (event :: history) replies where
  truthful requestId := (h.truthful requestId).cons (hn requestId)
  given requestId old hm ha := by
    have hm' := (List.mem_cons.mp hm).resolve_left fun he => hn requestId (he ▸ ha)
    exact h.given requestId old hm' ha

-- A delivery answers its request, which nothing has answered before.
theorem Replied.answer [DecidableEq Tid] (h : Replied tasks history replies)
    (ht : event.thread = thread) (hpending : replies thread = .pending)
    (hid : (tasks thread).requestId = some requestId)
    (hothers : ∀ old ∈ history, old.thread ≠ thread → ¬AnsweredFor tasks requestId old)
    (hone : ∀ other, AnsweredFor tasks other event → other = requestId)
    (honly : CreatedFor tasks requestId event → ¬RejectedFor requestId event) :
    Replied tasks (event :: history) (Function.update replies thread .given) where
  truthful other := by
    by_cases ho : AnsweredFor tasks other event
    · obtain rfl := hone other ho
      refine truthful_of_first (fun old hm ha => ?_) honly
      by_cases hs : old.thread = thread
      · have hgiven := (h.given other old hm ha).2
        rw [hs, hpending] at hgiven
        cases hgiven
      · exact hothers old hm hs ha
    · exact (h.truthful other).cons ho
  given other old hm ha := by
    rcases List.mem_cons.mp hm with rfl | hm
    · obtain rfl := hone other ha
      rw [ht]
      exact ⟨hid, Function.update_self ..⟩
    · obtain ⟨hrequest, hgiven⟩ := h.given other old hm ha
      refine ⟨hrequest, ?_⟩
      by_cases hs : old.thread = thread
      · rw [hs, Function.update_self]
      · rw [Function.update_of_ne hs, hgiven]

end Answers

-- The calls that answer no request.
def Call.Silent : Call → Prop
  | .notifyReservationRequestResolved _ => False
  | _ => True

theorem silent_of_reads {call : Call} (h : call.Reads) : call.Silent := by
  cases call <;> trivial

-- No other operation answers a request.
section Operations

theorem operation_silent (config : Config) (operation : Operation) :
    (operation.execute config).Uses Call.Silent := by
  have hreads (call : Call) : call.Reads → call.Silent := silent_of_reads
  cases operation with
  | CreateReservation input =>
      exact Program.uses_bind (uses_create hreads config input (fun _ _ => ⟨trivial, trivial⟩)
        fun _ => trivial) fun _ => trivial
  | CancelReservation input =>
      exact Program.uses_bind (uses_cancel hreads input (fun _ => trivial) fun _ => trivial)
        fun _ => trivial
  | ExpireOverdueReservations =>
      exact Program.uses_bind (uses_expire hreads (fun _ => trivial) fun _ => trivial)
        fun _ => trivial
  | RegisterEntry token =>
      exact Program.uses_bind (uses_entry hreads token (fun _ _ => trivial) (fun _ => trivial)
        fun _ => trivial) fun _ => trivial
  | RegisterExit token =>
      exact Program.uses_bind (uses_exit hreads token (fun _ _ => trivial) (fun _ => trivial)
        fun _ => trivial) fun _ => trivial

end Operations

section Deliveries

variable [DecidableEq Tid]

abbrev SafeReply {α : Type} (tasks : Tid → Task) (thread : Tid) (p : Port α) (reply : Reply)
    (post : Except Fault α → Reply → Prop) : Prop :=
  SafeCall (NotAnswered tasks) (replied tasks) thread p reply post

omit [DecidableEq Tid] in
theorem not_answered_of_silent (hsilent : event.call.Silent)
    (hc : creates event = true → (tasks event.thread).requestId = none) (requestId : Id) :
    ¬AnsweredFor tasks requestId event := by
  rintro (⟨hcreated, hid⟩ | hr)
  · rw [hc hcreated] at hid
    cases hid
  · obtain ⟨thread, call, answer⟩ := event
    cases call <;> first | cases hr | exact hsilent.elim

omit [DecidableEq Tid] in
theorem not_answered_of_reads (h : event.call.Reads) (requestId : Id) :
    ¬AnsweredFor tasks requestId event := by
  refine not_answered_of_silent (silent_of_reads h) (fun hc => ?_) requestId
  obtain ⟨thread, call, answer⟩ := event
  cases call <;> first | cases hc | exact h.elim

omit [DecidableEq Tid] in
theorem not_answered_of_claims (h : event.call.Claims) (requestId : Id) :
    ¬AnsweredFor tasks requestId event := by
  obtain ⟨thread, call, answer⟩ := event
  refine not_answered_of_silent ?_ (fun hc => ?_) requestId
  · cases call <;> trivial
  · cases call <;> first | cases hc | exact h.elim

omit [DecidableEq Tid] in
theorem replied_ignores_reads : IgnoresReads (NotAnswered tasks) (replied tasks) :=
  fun _ hcall _ _ _ _ _ _ h _ => h.cons (not_answered_of_reads hcall)

-- What a delivery knows when its reservation request ends.
def Concluded (result : Except Fault CreateReservationResult) (reply : Reply) : Prop :=
  (∀ reservation, result ≠ .ok (.CREATED reservation)) → reply = .pending

theorem safe_delivered_create (config : Config) (input : CreateReservationInput)
    (hid : (tasks thread).requestId = some requestId) :
    SafeReply tasks thread (CreateReservationUseCase.execute config input) .pending Concluded := by
  refine safe_create replied_ignores_reads (fun _ _ => rfl)
    (safe_reserve replied_ignores_reads (fun _ reply => reply = .pending) (fun _ _ _ => rfl) ?_ ?_ ?_)
  · exact fun db history replies event _ h _ hclaims _ => h.cons (not_answered_of_claims hclaims)
  · intro db history replies event now slot ht h _ _ _ hclaims _
    refine ⟨.pending, ?_, rfl⟩
    rw [← ht, Function.update_eq_self]
    exact h.cons (not_answered_of_claims hclaims)
  · rintro slot reply rfl
    refine safe_store replied_ignores_reads ?_
    intro db history replies choice start now clock bigger ht h hg hb
    refine ⟨.given, ?_, fun hne => absurd rfl (hne _)⟩
    refine h.answer rfl ht hid (fun old hm hs => hg requestId hid old hm hs) ?_ ?_
    · rintro other (⟨-, ho⟩ | hr)
      · exact Option.some.inj (ho.symm.trans hid)
      · cases hr
    · intro _ hr
      cases hr

-- Only a delivery that has created nothing answers REJECTED.
def Resolved (result : Except Fault Resolution) (reply : Reply) : Prop :=
  ∀ code message, result = .ok (.REJECTED code message) → reply = .pending

theorem safe_resolve (config : Config) (message : ReservationRequestMessage)
    (hid : (tasks thread).requestId = some requestId) :
    SafeReply tasks thread (ProcessReservationRequestUseCase.resolve config message) .pending
      Resolved := by
  refine safe_tryCatch (fun _ reply => reply = .pending) ?_ ?_
  · refine safe_bind (fun _ _ => True) (safe_mono (safe_delivered_create config _ hid) ?_) ?_
    · intro result reply hconcluded
      cases result with
      | ok value => trivial
      | error err => exact hconcluded fun _ he => by cases he
    · intro value reply _ code message he
      cases value <;> cases he
  · rintro err reply rfl
    cases err with
    | domain error => exact fun _ _ _ => rfl
    | infrastructure text => exact fun _ _ he => by cases he

theorem safe_answer (config : Config) (message : ReservationRequestMessage)
    (hid : (tasks thread).requestId = some message.requestId) :
    SafeReply tasks thread (ProcessReservationRequestUseCase.execute config message) .pending
      fun _ _ => True := by
  refine safe_bind (fun resolution reply => Resolved (.ok resolution) reply)
    (safe_mono (safe_resolve config message hid) fun result reply h => by
      cases result <;> trivial) ?_
  intro resolution reply hresolved
  rintro ⟨db, clock⟩ history replies choice ht h hg
  cases resolution with
  | REJECTED code text =>
      obtain rfl : reply = .pending := hresolved code text rfl
      refine ⟨.given, h.answer rfl ht hid (fun old hm hs => hg _ hid old hm hs) ?_ ?_, trivial⟩
      · rintro other (⟨hc, -⟩ | hr)
        · cases hc
        · exact (Option.some.inj hr).symm
      · rintro ⟨hc, -⟩
        cases hc
  | _ =>
      refine ⟨reply, ?_, trivial⟩
      rw [← ht, Function.update_eq_self]
      refine h.cons fun requestId => ?_
      rintro (⟨hc, -⟩ | hr)
      · cases hc
      · cases hr

theorem safe_handle (config : Config) (message : ReservationRequestMessage)
    (hid : (tasks thread).requestId = some message.requestId) :
    SafeReply tasks thread (ReservationRequestConsumer.handle config message) .pending
      fun _ _ => True := by
  have hnack : ∀ reply, SafeReply tasks thread (channel.nack false) reply fun _ _ => True :=
    fun reply => safe_mono (safe_reads replied_ignores_reads (uses_ask.mpr (by trivial))
      (Program.yields_true _)) fun _ _ _ => trivial
  have hack : ∀ reply, SafeReply tasks thread channel.ack reply fun _ _ => True :=
    fun reply => safe_mono (safe_reads replied_ignores_reads (uses_ask.mpr (by trivial))
      (Program.yields_true _)) fun _ _ _ => trivial
  unfold ReservationRequestConsumer.handle
  split
  · exact hnack _
  · refine safe_tryCatch (fun _ _ => True) ?_ fun _ reply _ => hnack reply
    refine safe_bind (fun _ _ => True) (safe_mono (safe_answer config message hid) ?_) ?_
    · rintro (_ | _) _ _ <;> trivial
    · exact fun _ reply _ => safe_mono (hack reply) fun result _ _ => by cases result <;> trivial

theorem safe_task (config : Config) :
    SafeReply tasks thread ((tasks thread).execute config) .pending fun _ _ => True := by
  cases ht : tasks thread with
  | deliver message => exact safe_handle config message (by rw [ht]; rfl)
  | operate operation =>
      have hquiet : ∀ call, call.Silent →
          Quiet serve (NotAnswered tasks) (onWorld (replied tasks)) thread call :=
        fun call hsilent world history replies choice h _ =>
          h.cons (not_answered_of_silent hsilent fun _ => by rw [ht]; rfl)
      have huses : ((Task.operate operation).execute config).Uses Call.Silent :=
        Program.uses_bind (operation_silent config operation) fun _ => trivial
      exact safe_mono (safe_of_uses settled_serve hquiet huses (Program.yields_true _) .pending)
        fun _ _ _ => trivial

end Deliveries

-- A request gets at most one reservation and a true answer in every state of a
-- run in which no delivery of it goes on after another one has answered it.
theorem truthful_of_follows [DecidableEq Tid] (config : Config) (world : World)
    (tasks : Tid → Task) (schedule : List (Tid × Choice))
    (hf : (Workers.start config world tasks).Follows serve (NotAnswered tasks) schedule)
    (requestId : Id) :
    Truthful tasks requestId ((Workers.start config world tasks).play serve schedule).history := by
  have hreach := Pool.reaches_of_follows .refl hf
  have hstart : Replied tasks ([] : History Tid) fun _ => .pending := by
    refine ⟨fun requestId => ⟨Nat.zero_le _, ?_⟩, ?_⟩
    · exact fun _ hm => absurd hm List.not_mem_nil
    · exact fun _ _ hm => absurd hm List.not_mem_nil
  obtain ⟨replies, h, -⟩ := hreach.invariant (onWorld (replied tasks)) (fun _ _ _ => True) hstart
    fun thread => safe_task config
  exact h.truthful requestId

-- One message, delivered as often as the broker likes.
def redelivered : ℕ → Task := fun _ => .deliver {
  requestId := "q1"
  userId := "u1"
  branchId := "b1"
  slotType := none
  startAt := none
  requestedAt := 0 }

-- The first worker crashes after its claim, and the second one takes another slot.
theorem truthful_redelivered : Truthful redelivered "q1" ((Workers.start Demo.config
    ⟨.opening Demo.branches Demo.twoSlots, 0⟩ redelivered).play serve
      (List.replicate 3 (0, Demo.choice "r1") ++ List.replicate 16 (1, Demo.choice "r2"))).history :=
  truthful_of_follows Demo.config ⟨.opening Demo.branches Demo.twoSlots, 0⟩ redelivered _
    (by decide) "q1"

-- The first worker crashes after its insert, and the second one answers that
-- the user already has a reservation.
theorem truthful_fails : ¬∀ (config : Config) (world : World) (tasks : ℕ → Task)
    (schedule : List (ℕ × Choice)) (requestId : Id), Truthful tasks requestId
      ((Workers.start config world tasks).play serve schedule).history := by
  intro h
  let schedule : List (ℕ × Choice) :=
    List.replicate 5 (0, Demo.choice "r1") ++ List.replicate 2 (1, Demo.choice "r2")
  have htruthful := h Demo.config ⟨.opening Demo.branches Demo.twoSlots, 0⟩ redelivered schedule "q1"
  have hhonest := htruthful.honest
  revert hhonest
  decide +kernel

end SmartParking
