import SmartParking.Frontend.Delivery.Theorems
import SmartParking.Live.Theorems
import SmartParking.Reply
import SmartParking.Trail.Theorems

namespace SmartParking

open Async

-- A page shows that a reservation was made only after the event that says so.
namespace Frontend

open ReservationModal

variable {modal : ReservationModal} {text : String} {known : Id → Prop}
  {dateOfText : String → Option JsDate.Time} {page : List ModalEvent}

theorem success_notifyError {message : String}
    (h : .success text ∈ (modal.notifyError message).shown) : .success text ∈ modal.shown :=
  (List.mem_cons.mp h).resolve_left nofun

theorem success_handleConfirm {targetBranchId : Id} {isSuggestion : Bool}
    (h : .success text ∈ (modal.handleConfirm dateOfText targetBranchId isSuggestion).shown) :
    .success text ∈ modal.shown := by
  unfold handleConfirm at h
  dsimp only at h
  split_ifs at h
  · exact success_notifyError h
  · split at h
    · exact h
    · exact success_notifyError h
  · exact h

theorem success_confirm (h : .success text ∈ (modal.confirm dateOfText).shown) :
    .success text ∈ modal.shown := by
  unfold confirm at h
  split at h
  · exact h
  · split_ifs at h
    · exact h
    · split at h <;> exact success_handleConfirm h

theorem success_handleResolved {payload : ReservationRequestResolved}
    (h : .success text ∈ (modal.handleResolved payload).shown) : .success text ∈ modal.shown ∨
      payload.status = .CREATED ∧ modal.rendered.pendingRequestId = some payload.requestId := by
  unfold handleResolved at h
  split_ifs at h with hother
  · exact .inl h
  · have hpending := not_not.mp (not_or.mp hother).1
    split at h
    next hstatus => exact .inr ⟨hstatus, hpending⟩
    next => exact .inl ((List.mem_cons.mp h).resolve_left nofun)
    next => exact .inl (success_notifyError h)

theorem success_step {event : ModalEvent} (h : .success text ∈ (modal.step dateOfText event).shown) :
    .success text ∈ modal.shown ∨ ∃ payload, event = .resolved payload ∧
      payload.status = .CREATED ∧ modal.rendered.pendingRequestId = some payload.requestId := by
  cases event with
  | resolved payload =>
      exact (success_handleResolved h).imp_right fun h => ⟨payload, rfl, h⟩
  | «open» branchId =>
      refine .inl ?_
      dsimp only [step, openBranch] at h
      split_ifs at h <;> exact h
  | confirm => exact .inl (success_confirm h)
  | accepted call requestId =>
      refine .inl ?_
      dsimp only [step, arrive] at h
      split_ifs at h <;> exact h
  | failed call message =>
      refine .inl ?_
      dsimp only [step, arrive] at h
      split_ifs at h
      · exact success_notifyError h
      · exact h
  | timeout handle =>
      refine .inl ?_
      dsimp only [step, fire] at h
      split at h
      · exact success_notifyError h
      · exact h
  | edit form => exact .inl h
  | close => exact .inl h
  | render => exact .inl h
  | elapse ms => exact .inl h

-- The page waits only for requests whose number it was given.
structure Expects (known : Id → Prop) (modal : ReservationModal) : Prop where
  pending : ∀ requestId, modal.pendingRequestId = some requestId → known requestId
  rendered : ∀ requestId, modal.rendered.pendingRequestId = some requestId → known requestId

theorem keeps_expects (known : Id → Prop) : Keeps (Expects known) known where
  congr h hsame := by
    constructor
    · rw [hsame.pending]
      exact h.pending
    · rw [hsame.rendered]
      exact h.rendered
  render h := ⟨h.pending, h.pending⟩
  stopWaiting h := ⟨nofun, h.rendered⟩
  accepted hknown h := by
    refine ⟨fun requestId hpending => ?_, h.rendered⟩
    cases hpending
    exact hknown
  expire _ h := ⟨nofun, h.rendered⟩

theorem expects_new (known : Id → Prop) : Expects known new where
  pending _ h := nomatch h
  rendered _ h := nomatch h

theorem exists_of_success (h : .success text ∈ (run dateOfText page).shown) :
    ∃ payload, .resolved payload ∈ page ∧ payload.status = .CREATED ∧
      ∃ call, .accepted call payload.requestId ∈ page := by
  let known (requestId : Id) : Prop := ∃ call, .accepted call requestId ∈ page
  have hinv : Expects known (run dateOfText page) ∧
      (.success text ∈ (run dateOfText page).shown → ∃ payload, .resolved payload ∈ page ∧
        payload.status = .CREATED ∧ known payload.requestId) := by
    refine Machine.play_invariant (fun modal => Expects known modal ∧
        (.success text ∈ modal.shown → ∃ payload, .resolved payload ∈ page ∧
          payload.status = .CREATED ∧ known payload.requestId))
      ⟨expects_new known, fun hshown => absurd hshown List.not_mem_nil⟩ ?_
      (Machine.always_of_forall fun event hevent => hevent)
    rintro modal event ⟨hexpects, hold⟩ hevent
    refine ⟨(keeps_expects known).step hexpects dateOfText ?_, fun hshown => ?_⟩
    · rintro call requestId rfl
      exact ⟨call, hevent⟩
    · rcases success_step hshown with hshown | ⟨payload, rfl, hstatus, hpending⟩
      · exact hold hshown
      · exact ⟨payload, hevent, hstatus, hexpects.rendered _ hpending⟩
  exact hinv.2 h

end Frontend

-- What an execution replies is for the request that it was given.
section Requests

def Task.Answers : Task → Call → Prop
  | .deliver message => fun
      | .notifyReservationRequestResolved payload =>
          payload.requestId = message.requestId ∧ payload.userId = message.userId
      | _ => True
  | .operate _ => fun
      | .notifyReservationRequestResolved _ => False
      | _ => True

theorem answers_of_reads (task : Task) (call : Call) (h : call.Reads) : task.Answers call := by
  cases task <;> cases call <;> first | exact h.elim | exact trivial

theorem uses_answers (config : Config) (task : Task) : (task.execute config).Uses task.Answers := by
  have hreads := answers_of_reads task
  cases task with
  | deliver message =>
      exact uses_handle config message hreads (fun _ hrequest huser => ⟨hrequest, huser⟩)
        fun input _ _ => uses_create hreads config input (fun _ _ => ⟨trivial, trivial⟩)
          fun _ => trivial
  | operate operation =>
      refine Program.uses_bind ?_ fun _ => trivial
      cases operation with
      | CreateReservation input =>
          refine Program.uses_bind ?_ fun _ => trivial
          exact uses_create hreads config input (fun _ _ => ⟨trivial, trivial⟩) fun _ => trivial
      | CancelReservation input =>
          exact Program.uses_bind (uses_cancel hreads input (fun _ => trivial) fun _ => trivial)
            fun _ => trivial
      | ExpireOverdueReservations =>
          exact Program.uses_bind (uses_expire hreads (fun _ => trivial) fun _ => trivial)
            fun _ => trivial
      | RegisterEntry token =>
          exact Program.uses_bind (uses_entry hreads token (fun _ _ => trivial) (fun _ => trivial)
            fun _ => trivial) fun _ => trivial
      | RegisterExit token =>
          exact Program.uses_bind (uses_exit hreads token (fun _ _ => trivial) (fun _ => trivial)
            fun _ => trivial) fun _ => trivial

end Requests

section Replies

variable {Tid : Type} [DecidableEq Tid] {config : Config} {world : World} {tasks : Tid → Task}
  {pool : Workers Tid}

theorem answers_of_mem
    (h : Pool.Reaches (unreliable serve) Pool.unguarded (Workers.start config world tasks) pool)
    {event : Event Tid Call Answer Fault} (hm : event ∈ pool.history) :
    (tasks event.thread).Answers event.call :=
  (h.uses rfl fun thread => uses_answers config (tasks thread)).1 event hm

-- A reply that a reservation was created is of the execution that has stored it.
theorem reserved_of_replied
    (h : Pool.Reaches (unreliable serve) Pool.unguarded (Workers.start config world tasks) pool)
    {event : Event Tid Call Answer Fault} (hm : event ∈ pool.history) {requestId userId : Id}
    {id branchId slotId : Id} {startAt expiresAt : ℤ}
    (hcall : event.call = .notifyReservationRequestResolved
      ⟨requestId, userId, .CREATED id branchId slotId startAt expiresAt⟩) :
    ∃ message, tasks event.thread = .deliver message ∧ requestId = message.requestId ∧
      userId = message.userId ∧ ∃ reservation ∈ pool.world.db.reservations,
        reservation.userId = message.userId ∧ reservation.branchId = message.branchId := by
  have hanswers := answers_of_mem h hm
  rw [hcall] at hanswers
  cases htask : tasks event.thread with
  | operate operation =>
      rw [htask] at hanswers
      exact hanswers.elim
  | deliver message =>
      rw [htask] at hanswers
      refine ⟨message, rfl, hanswers.1, hanswers.2, ?_⟩
      obtain ⟨later, earlier, hsplit, hpermits⟩ := (backed_of_reaches h).mem hm
      rw [hcall] at hpermits
      obtain ⟨reservation, hcreated, -⟩ := hpermits
      obtain ⟨row, hrow, hsame⟩ := trueIn_of_taught h hsplit _ hcreated
      obtain ⟨created, hearlier, hthread, hteaches⟩ := hcreated
      have hwanted := wanted_of_created h (hsplit ▸ List.mem_append_right _
        (List.mem_cons_of_mem _ hearlier)) hteaches
      rw [hthread, htask] at hwanted
      obtain ⟨huser, hbranch⟩ := Prod.mk.inj (Option.some.inj hwanted)
      exact ⟨row, hrow, hsame.userId.trans huser.symm, hsame.branchId.trans hbranch.symm⟩

end Replies

-- The replies that a socket is sent are read as they were meant.
section Wire

variable {numeral : ℚ → ℤ × ℤ} {number : ℤ → ℤ → ℚ}

theorem created_of_resolvedOf {payload : ReservationRequestResolvedPayload}
    {read : Frontend.ReservationRequestResolved}
    (h : Frontend.resolvedOf number
      (RabbitRealtimePublisherAdapter.notifyReservationRequestResolved numeral payload).payload =
        some read) (hstatus : read.status = .CREATED) :
    ∃ userId id branchId slotId startAt expiresAt, payload =
      ⟨read.requestId, userId, .CREATED id branchId slotId startAt expiresAt⟩ := by
  obtain ⟨requestId, userId, resolution⟩ := payload
  cases resolution with
  | CREATED id branchId slotId startAt expiresAt =>
      cases h
      exact ⟨userId, id, branchId, slotId, startAt, expiresAt, rfl⟩
  | SUGGEST_OTHER_BRANCH id name address distanceKm =>
      cases h
      cases hstatus
  | REJECTED code message =>
      cases h
      cases hstatus

variable {Tid : Type} [DecidableEq Tid] {first pool : Workers Tid} {others : List Envelope}
  {envelope : Envelope}

theorem exists_of_resolved (hothers : ∀ envelope ∈ others, LaterEvent first pool envelope)
    (h : envelope ∈ liveEvents numeral pool.history ++ others)
    (hevent : envelope.event = "reservation.request.resolved") :
    ∃ event ∈ pool.history, ∃ payload, event.call = .notifyReservationRequestResolved payload ∧
      envelope =
        RabbitRealtimePublisherAdapter.notifyReservationRequestResolved numeral payload := by
  rcases List.mem_append.mp h with h | h
  · obtain ⟨⟨thread, call, answer⟩, hm, hsent⟩ := mem_liveEvents.mp h
    cases call with
    | notify message =>
        exfalso
        cases message <;> cases hsent <;>
          simp [RabbitRealtimePublisherAdapter.toBranch] at hevent
    | notifyReservationRequestResolved payload =>
        cases hsent
        exact ⟨_, hm, payload, rfl, rfl⟩
    | _ => cases hsent
  · exfalso
    cases hothers envelope h with
    | occupancy =>
        simp [RabbitRealtimePublisherAdapter.occupancyUpdated,
          RabbitRealtimePublisherAdapter.toBranch] at hevent
    | payment => simp [RabbitPaymentEventsAdapter.paymentRegistered] at hevent

end Wire

-- A socket that was opened with a token is of its user.
section Sockets

open Realtime

variable {Payload : Type} {jwtVerify : String → Except String JwtPayload} {token : String}
  {user : AuthenticatedUser} {id : Sid}

theorem user_of_handshake (hverify : verify jwtVerify token = .ok user)
    {accepted : String × AuthenticatedUser}
    (h : (Nsp.handshake jwtVerify (some token)).toOption = some accepted) : accepted.2 = user := by
  unfold Nsp.handshake at h
  dsimp only at h
  split_ifs at h
  · cases h
  · rw [hverify] at h
    cases h
    rfl

theorem user_of_play (hverify : verify jwtVerify token = .ok user)
    {past : List (RealtimeEvent Payload)}
    (hpast : ∀ offered, .connect id offered ∈ past → offered = some token) {client : Client}
    (h : Machine.play (Client.step jwtVerify id) none past = some client) : client.user = user := by
  refine Machine.play_invariant (fun state => ∀ client, state = some client → client.user = user)
    (by simp) ?_ (Machine.always_of_forall fun event (he : event ∈ past) => he) client h
  intro state event hstate he client hclient
  by_cases hsender : event.sender = some id
  · rw [step_own hsender] at hclient
    cases event with
    | connect sender offered =>
        cases hsender
        obtain rfl := hpast offered he
        cases state with
        | some before => exact hstate client hclient
        | none =>
            obtain ⟨accepted, haccepted, rfl⟩ := Option.map_eq_some_iff.mp hclient
            exact user_of_handshake hverify haccepted
    | disconnect sender => cases hclient
    | joinBranch sender branchId | leaveBranch sender branchId =>
        obtain ⟨before, hbefore, rfl⟩ := Option.map_eq_some_iff.mp hclient
        exact hstate before hbefore
    | relay message => exact hstate client hclient
  · rw [step_other event hsender] at hclient
    exact hstate client hclient

end Sockets

section

open Realtime

variable {Tid : Type} [DecidableEq Tid]

-- Whoever is shown that a reservation was made has one, in the branch that was asked for.
theorem success_fulfilled (config : Config) (world : World) (tasks : Tid → Task)
    {pool : Workers Tid}
    (h : Pool.Reaches (unreliable serve) Pool.unguarded (Workers.start config world tasks) pool)
    (numeral : ℚ → ℤ × ℤ) {others : List Envelope}
    (hothers : ∀ envelope ∈ others, LaterEvent (Workers.start config world tasks) pool envelope)
    (jwtVerify : String → Except String JwtPayload) (other : Option Json → String)
    {events : List (RealtimeEvent (Option Json))}
    (hrelayed : relayed events ⊆ (liveEvents numeral pool.history ++ others).map fun envelope =>
      envelopeOf other envelope.content)
    {token : String} {user : AuthenticatedUser} (hverify : verify jwtVerify token = .ok user)
    (number : ℤ → ℤ → ℚ) {page : List Frontend.ModalEvent}
    (hpage : Overhears jwtVerify number events token page)
    (dateOfText : String → Option JsDate.Time) {text : String}
    (hshown : .success text ∈ (Frontend.ReservationModal.run dateOfText page).shown) :
    ∃ message, Fulfilled tasks pool.world.db user page message := by
  obtain ⟨read, hresolved, hstatus, haccepted⟩ := Frontend.exists_of_success hshown
  obtain ⟨delivery, hdelivery, hevent, hread, hsockets⟩ := hpage read hresolved
  obtain ⟨past, target, client, hpast, hclient, hsees⟩ := exists_of_mem_deliveries hdelivery
  obtain ⟨envelope, hm, hname, htarget, hpayload⟩ := exists_envelope hrelayed
    (hpast.mem (List.mem_append_right _ (List.mem_singleton_self _)))
  have hname : envelope.event = delivery.event :=
    Option.some.inj (Option.filter_eq_some_iff.mp hname.symm).1
  obtain ⟨event, hreplied, payload, hcall, rfl⟩ :=
    exists_of_resolved hothers hm (hname.trans hevent)
  dsimp only at hpayload
  rw [hpayload, Option.bind_some] at hread
  obtain ⟨userId, id, branchId, slotId, startAt, expiresAt, rfl⟩ :=
    created_of_resolvedOf hread hstatus
  obtain ⟨message, htask, hrequest, huserId, hreserved⟩ := reserved_of_replied h hreplied hcall
  obtain rfl := Option.some.inj htarget
  have huser : client.user = user := user_of_play hverify (fun offered ho =>
    hsockets offered (hpast.mem (List.mem_append_left _ ho))) hclient
  refine ⟨message, ?_⟩
  constructor
  case delivered => exact ⟨event.thread, htask⟩
  case own =>
    have hown : client.user.sub = userId ∨ client.user.role = .ADMIN := by
      simpa [RabbitRealtimePublisherAdapter.notifyReservationRequestResolved, Envelope.Target.rooms,
        Client.sees] using hsees
    rw [← huserId, ← huser]
    exact hown.imp_left Eq.symm
  case accepted => exact hrequest ▸ haccepted
  case reserved => exact hreserved

end

-- A page that is given the number of its request, and then the reply.
def Demo.reply : Frontend.ReservationRequestResolved :=
  { Frontend.Demo.created with requestId := "q1" }

def Demo.page : List Frontend.ModalEvent :=
  Frontend.Demo.sent ++ [.accepted 0 "q1", .render, .resolved reply]

def Demo.number (mantissa exponent : ℤ) : ℚ := mantissa * 10 ^ exponent

def Demo.user : Realtime.AuthenticatedUser where
  sub := "u1"
  email := "ana@example.com"
  role := .USER

theorem overhears_demo :
    Overhears Demo.jwtVerify Demo.number (Demo.watched Demo.exchange) "u1" Demo.page := by
  intro payload hpayload
  obtain rfl : payload = Demo.reply := by
    simpa [Demo.page, Frontend.Demo.sent] using hpayload
  have hsent : 0 < (Realtime.Nsp.deliveries Demo.jwtVerify (Demo.watched Demo.exchange)).countP
      fun delivery => delivery.event = "reservation.request.resolved" ∧
        delivery.payload.bind (Frontend.resolvedOf Demo.number) = some Demo.reply ∧
          delivery.id = Demo.sid := by
    unfold Demo.watched
    simp only [envelopeOf_content]
    decide +kernel
  obtain ⟨delivery, hm, hdelivery⟩ := List.countP_pos_iff.mp hsent
  obtain ⟨hevent, hread, hid⟩ := of_decide_eq_true hdelivery
  refine ⟨delivery, hm, hevent, hread, fun offered hoffered => ?_⟩
  simpa [Demo.watched, hid] using hoffered

-- The user of the demo has cancelled before she is told, and her reservation is there.
theorem success_fulfilled_demo : ∃ message,
    Fulfilled Demo.tasks Demo.announced.world.db Demo.user Demo.page message := by
  have hrelayed : Realtime.relayed (Demo.watched Demo.exchange) ⊆ Demo.exchange.map fun envelope =>
      Realtime.envelopeOf (fun _ => "") envelope.content := by
    rw [relayed_watched]
    exact List.Subset.refl _
  have hshown : Frontend.Shown.success "Reserva creada. Tienes 20 minutos para hacer check-in." ∈
      (Frontend.ReservationModal.run (fun _ => none) Demo.page).shown := by decide
  exact success_fulfilled Demo.config ⟨.opening Demo.branches Demo.twoSlots, 0⟩ Demo.tasks
    (Pool.reaches_of_follows .refl (Pool.follows_unguarded _)) Demo.numeral
    (List.forall_mem_singleton.mpr later_occupancy) Demo.jwtVerify (fun _ => "") hrelayed
    (rfl : _ = Except.ok Demo.user) Demo.number overhears_demo (fun _ => none) hshown

end SmartParking
