import SmartParking.Announcement

namespace SmartParking

open Async

-- The calls that neither write nor say anything.
def Call.Looks : Call → Prop
  | .notify _ | .publishAuditEvent _ | .publishReservationConfirmation _ => False
  | .channelAck | .channelNack _ => False
  | call => call.Reads

section Looks

theorem canCreateReservation_looks (userId : Id) :
    (DefaultReservationPolicy.canCreateReservation userId).Uses Call.Looks := by
  refine Program.uses_bind (uses_ask.mpr trivial) fun activeReservation => ?_
  cases activeReservation with
  | some _ => trivial
  | none =>
      refine Program.uses_bind (uses_ask.mpr trivial) fun activeSession => ?_
      cases activeSession <;> trivial

theorem firstAvailable_looks (slotType : Option SlotType) (ranked : List Candidate) :
    (DefaultSlotAssignmentPolicy.firstAvailable slotType ranked).Uses Call.Looks := by
  induction ranked with
  | nil => trivial
  | cons candidate rest ih =>
      refine Program.uses_bind (uses_ask.mpr trivial) fun hasAvailability => ?_
      cases hasAvailability with
      | true => trivial
      | false => exact ih

theorem suggest_looks (config : Config) (input : SlotAssignmentInput) (currentBranch : Branch) :
    (BalancedSlotAssignmentPolicy.suggest config input currentBranch).Uses Call.Looks := by
  refine Program.uses_bind (uses_ask.mpr trivial) fun otherBranches => ?_
  refine Program.uses_bind (Program.uses_all ?_) fun availabilityFlags => ?_
  · intro p hp
    obtain ⟨branch, -, rfl⟩ := List.mem_map.mp hp
    exact uses_ask.mpr trivial
  · dsimp only
    split
    · trivial
    · refine Program.uses_bind (uses_ask.mpr trivial) fun summaries => ?_
      split <;> trivial

theorem lookElsewhere_looks (config : Config) (input : SlotAssignmentInput) :
    (lookElsewhere config input).Uses Call.Looks := by
  refine Program.uses_bind (uses_ask.mpr trivial) fun currentBranch => ?_
  cases currentBranch with
  | none => trivial
  | some currentBranch =>
      dsimp only
      split
      · exact Program.uses_bind (uses_ask.mpr trivial) fun _ => firstAvailable_looks _ _
      · exact suggest_looks config input currentBranch

theorem calculate_looks (input : PricingInput) :
    (HourlyPricingPolicy.calculate input).Uses Call.Looks := by
  refine Program.uses_bind (uses_ask.mpr trivial) fun branch => ?_
  cases branch <;> trivial

end Looks

-- An execution obeys and ends with an outcome of which something is known.
abbrev Reports {α : Type} (p : Port α) (known : Set Fact)
    (post : Except Fault α → Set Fact → Prop) : Prop :=
  p.Obeys reporting post known

-- Nothing is asked of an error.
def Okay {α : Type} (post : α → Set Fact → Prop) : Except Fault α → Set Fact → Prop
  | .ok value, known => post value known
  | .error _, _ => True

variable {α β : Type} {known : Set Fact} {post : β → Set Fact → Prop}

theorem reports_ask_bind {call : Call} {f : Answer call → Port β}
    (hcall : reporting.permits known call)
    (hf : ∀ answer, reporting.possible call (.ok answer) →
      Reports (f answer) (reporting.teaches call (.ok answer) ∪ known) (Okay post)) :
    Reports (ask call >>= f) known (Okay post) := by
  refine Program.obeys_perform_bind hcall fun answer ha => ?_
  cases answer with
  | ok answer => exact hf answer ha
  | error err => trivial

theorem reports_ask {call : Call} (hcall : reporting.permits known call) :
    Reports (ask call) known (Okay fun _ _ => True) :=
  ⟨hcall, fun answer _ => by cases answer <;> trivial⟩

theorem permits_of_looks {call : Call} (h : call.Looks) : reporting.permits known call := by
  cases call <;> first | exact trivial | exact h.elim

theorem reports_bind {p : Port α} {f : α → Port β} (mid : α → Set Fact → Prop)
    (hp : Reports p known (Okay mid))
    (hf : ∀ value known', known ⊆ known' → mid value known' → Reports (f value) known' (Okay post)) :
    Reports (p >>= f) known (Okay post) := by
  refine Program.obeys_bind (Program.obeys_imp (Program.obeys_grows hp) ?_)
  rintro (err | value) known' ⟨hmid, hgrows⟩
  · trivial
  · exact hf value known' hgrows hmid

theorem reports_looks {p : Port α} (hp : p.Uses Call.Looks) :
    Reports p known (Okay fun _ _ => True) :=
  Program.obeys_imp (Program.obeys_of_uses (hp.mono fun _ => permits_of_looks))
    fun result _ _ => by cases result <;> trivial

theorem reports_notifyAll {messages : List Notification} (h : ∀ message ∈ messages, Told known message) :
    Reports (notifier.notifyAll messages) known (Okay fun _ _ => True) := by
  induction messages generalizing known with
  | nil => trivial
  | cons message rest ih =>
      obtain ⟨hmessage, hrest⟩ := List.forall_mem_cons.mp h
      refine reports_ask_bind hmessage fun _ _ => ih fun other hm => ?_
      exact (hrest other hm).mono Set.subset_union_right

theorem reports_tryCatch {p : Port α} {value : α} {outcome : α → Set Fact → Prop}
    (hp : Reports p known (Okay outcome)) (hvalue : ∀ known', outcome value known') :
    Reports (p.tryCatch fun _ => pure value) known (Okay outcome) := by
  refine Program.obeys_tryCatch (Program.obeys_imp hp fun result known' h => ?_)
  cases result with
  | ok value => exact h
  | error err => exact hvalue known'

namespace CreateReservationUseCase

theorem reports_publishAudit {reservation : Reservation} (h : .created reservation ∈ known) :
    Reports (publishAudit reservation) known (Okay fun _ _ => True) := by
  refine reports_ask_bind trivial fun eventId _ => reports_ask_bind trivial fun occurredAt _ => ?_
  exact reports_ask (.created (.inr (.inr h)))

-- The mail goes to the user that the lookup was answered with.
theorem reports_publishConfirmationEmail {reservation : Reservation}
    (h : .created reservation ∈ known) :
    Reports (publishConfirmationEmail reservation) known (Okay fun _ _ => True) := by
  refine reports_tryCatch ?_ fun _ => trivial
  refine Program.obeys_bind (Program.obeys_both ⟨trivial, fun user _ => ⟨trivial,
    fun branch hbranch => ?_⟩⟩)
  rcases user with err | (_ | user) <;> rcases branch with err | (_ | branch)
  all_goals try trivial
  refine reports_ask_bind trivial fun eventId _ => reports_ask_bind trivial fun occurredAt _ => ?_
  exact reports_ask (.created (.inr (.inr (.inr (.inr h)))) (.inr (.inr (.inr (.inl rfl))))
    (.inr (.inr (.inl rfl))) hbranch)

theorem reports_announce {reservation : Reservation} {slot : ParkingSlot}
    (h : .created reservation ∈ known) (hslot : .claimed slot ∈ known)
    (hid : slot.id = reservation.slotId) :
    Reports (announce reservation) known (Okay fun _ _ => True) := by
  refine reports_bind _ (reports_publishAudit h) fun _ known' hknown _ => ?_
  refine reports_bind _ (reports_notifyAll ?_) fun _ known'' hmore _ => ?_
  · simp only [List.forall_mem_cons, List.not_mem_nil, false_imp_iff, implies_true, and_true]
    exact ⟨.created (hknown h), .reserved (hknown h) (hknown hslot) hid, .filled (hknown h)⟩
  exact reports_publishConfirmationEmail (hmore (hknown h))

-- The reservation of a request that has created one.
def Made (input : CreateReservationInput) : CreateReservationResult → Set Fact → Prop
  | .CREATED reservation, known => .created reservation ∈ known ∧ reservation.userId = input.userId
  | .SUGGEST_OTHER_BRANCH _ _, _ => True

theorem reports_store {config : Config} {input : CreateReservationInput} {slot : ParkingSlot}
    (hslot : .claimed slot ∈ known) (hbranch : slot.branchId = input.branchId) :
    Reports (store config input slot) known (Okay (Made input)) := by
  refine reports_ask_bind trivial fun now _ => ?_
  refine reports_ask_bind ⟨slot, .inr hslot, rfl, hbranch⟩ fun reservation hdata => ?_
  obtain ⟨huser, -, hslotId, -⟩ := hdata
  refine reports_bind _ (reports_announce (.inl rfl) (.inr (.inr hslot)) hslotId.symm)
    fun _ known' hknown _ => ?_
  exact ⟨hknown (.inl rfl), huser⟩

theorem reports_claimSlot_bind {config : Config} {input : SlotAssignmentInput}
    {f : Option ParkingSlot → Port β}
    (hnone : ∀ known', Reports (f none) known' (Okay post))
    (hsome : ∀ slot known', .claimed slot ∈ known' → slot.branchId = input.branchId →
      Reports (f (some slot)) known' (Okay post)) :
    Reports (claimSlot config input >>= f) known (Okay post) := by
  unfold claimSlot
  cases config.strategy with
  | default =>
      refine reports_ask_bind trivial fun slot hslot => ?_
      cases slot with
      | none => exact hnone _
      | some slot => exact hsome slot _ (.inl rfl) hslot
  | balanced =>
      refine reports_ask_bind trivial fun slot hslot => ?_
      cases slot with
      | none => exact hnone _
      | some slot => exact hsome slot _ (.inl rfl) hslot

-- What is found elsewhere is no slot of the branch.
def Elsewhere (result : SlotAssignmentResult) : Prop := ∀ slot, result ≠ .ASSIGNED slot

theorem reports_firstAvailable (slotType : Option SlotType) (ranked : List Candidate) :
    Reports (DefaultSlotAssignmentPolicy.firstAvailable slotType ranked) known
      (Okay fun result _ => Elsewhere result) := by
  induction ranked generalizing known with
  | nil => exact nofun
  | cons candidate rest ih =>
      refine reports_ask_bind trivial fun hasAvailability _ => ?_
      cases hasAvailability with
      | true => exact nofun
      | false => exact ih

theorem reports_suggest (config : Config) (input : SlotAssignmentInput) (currentBranch : Branch) :
    Reports (BalancedSlotAssignmentPolicy.suggest config input currentBranch) known
      (Okay fun result _ => Elsewhere result) := by
  refine reports_ask_bind trivial fun otherBranches _ => ?_
  refine reports_bind (fun _ _ => True) (reports_looks (Program.uses_all ?_)) fun flags known _ _ => ?_
  · intro p hp
    obtain ⟨branch, -, rfl⟩ := List.mem_map.mp hp
    exact uses_ask.mpr trivial
  · dsimp only
    split
    · exact nofun
    · refine reports_ask_bind trivial fun summaries _ => ?_
      split <;> exact nofun

theorem reports_lookElsewhere (config : Config) (input : SlotAssignmentInput) :
    Reports (lookElsewhere config input) known (Okay fun result _ => Elsewhere result) := by
  refine reports_ask_bind trivial fun currentBranch _ => ?_
  cases currentBranch with
  | none => exact nofun
  | some currentBranch =>
      dsimp only
      split
      · exact reports_ask_bind trivial fun _ _ => reports_firstAvailable _ _
      · exact reports_suggest config input currentBranch

theorem reports_execute (config : Config) (input : CreateReservationInput) :
    Reports (execute config input) known (Okay (Made input)) := by
  refine reports_bind _ (reports_looks (canCreateReservation_looks _)) fun eligibility known _ _ => ?_
  split
  · trivial
  rw [reserve_eq]
  refine reports_claimSlot_bind (fun known => ?_) fun slot known hslot hbranch =>
    reports_store hslot hbranch
  refine reports_bind _ (reports_lookElsewhere config _) fun result known _ helsewhere => ?_
  cases result with
  | ASSIGNED slot => exact absurd rfl (helsewhere slot)
  | SUGGEST_OTHER_BRANCH branch distanceKm => trivial
  | NO_AVAILABILITY => trivial

end CreateReservationUseCase

namespace CancelReservationUseCase

theorem reports_cancel {reservation : Reservation} (h : .found reservation ∈ known) :
    Reports (cancel reservation reservation.userId) known (Okay fun _ _ => True) := by
  refine reports_ask_bind trivial fun _ _ => reports_ask_bind trivial fun _ _ => ?_
  refine reports_bind (fun _ _ => True) ?_ fun _ known' hknown _ => reports_notifyAll ?_
  · refine reports_ask_bind trivial fun eventId _ => reports_ask_bind trivial fun occurredAt _ => ?_
    exact reports_ask (.cancelled (.inr (.inr (.inr (.inr h)))) (.inr (.inr (.inr (.inl rfl)))))
  · have hfound := hknown (.inr (.inr h))
    have hmarked := hknown (.inr (.inl rfl))
    have hslot := hknown (.inl rfl)
    simp only [List.forall_mem_cons, List.not_mem_nil, false_imp_iff, implies_true, and_true]
    exact ⟨.cancelled hfound hmarked, .released hfound hslot, .emptied hfound hslot⟩

theorem reports_execute (input : CancelReservationInput) :
    Reports (execute input) known (Okay fun _ _ => True) := by
  refine reports_ask_bind trivial fun found _ => ?_
  rcases found with _ | reservation
  · trivial
  · rw [Option.filter_some]
    by_cases huser : reservation.userId = input.userId
    · rw [if_pos (decide_eq_true huser)]
      dsimp only
      split
      · trivial
      · rw [← huser]
        exact reports_cancel (.inl rfl)
    · rw [if_neg (by simpa using huser)]
      trivial

end CancelReservationUseCase

namespace ExpireOverdueReservationsUseCase

theorem reports_expire {reservation : Reservation} (h : .found reservation ∈ known) :
    Reports (expire reservation) known (Okay fun _ _ => True) := by
  refine reports_ask_bind trivial fun _ _ => reports_ask_bind trivial fun _ _ => ?_
  refine reports_notifyAll ?_
  simp only [List.forall_mem_cons, List.not_mem_nil, false_imp_iff, implies_true, and_true]
  exact ⟨.expired (.inr (.inr h)) (.inr (.inl rfl)), .released (.inr (.inr h)) (.inl rfl),
    .emptied (.inr (.inr h)) (.inl rfl)⟩

theorem reports_sweep (now : ℤ) (candidates : List Reservation) (expiredCount : ℕ)
    (h : ∀ reservation ∈ candidates, .found reservation ∈ known) :
    Reports (sweep now candidates expiredCount) known (Okay fun _ _ => True) := by
  induction candidates generalizing known expiredCount with
  | nil => trivial
  | cons reservation rest ih =>
      obtain ⟨hreservation, hrest⟩ := List.forall_mem_cons.mp h
      unfold sweep
      split
      · exact ih expiredCount hrest
      · refine reports_bind _ (reports_expire hreservation) fun _ known' hknown _ => ?_
        exact ih _ fun other hm => hknown (hrest other hm)

theorem reports_execute : Reports execute known (Okay fun _ _ => True) := by
  refine reports_ask_bind trivial fun now _ => reports_ask_bind trivial fun candidates _ => ?_
  exact reports_sweep now candidates 0 fun reservation hm => .inl ⟨reservation, hm, rfl⟩

end ExpireOverdueReservationsUseCase

namespace RegisterEntryUseCase

-- The session that an entry has opened, and marked the slot for.
def Inside (reservationId : Id) (session : ParkingSession) (known : Set Fact) : Prop :=
  .entered session ∈ known ∧ .slotMarked session.slotId .OCUPADA ∈ known ∧
    session.reservationId = reservationId

theorem reports_enter {reservation : Reservation} (h : .found reservation ∈ known) (now : ℤ) :
    Reports (DefaultParkingPolicy.enter reservation now) known (Okay (Inside reservation.id)) := by
  refine reports_bind (fun _ _ => True) ?_ fun _ known' hknown _ => ?_
  · unfold DefaultParkingPolicy.confirmIfPending
    split
    · exact reports_ask trivial
    · trivial
  refine reports_ask_bind ⟨reservation, hknown h, rfl, rfl, rfl⟩ fun session hsession => ?_
  obtain ⟨hid, -, hslot⟩ := hsession
  refine reports_ask_bind trivial fun _ _ => ⟨.inr (.inl rfl), .inl ?_, hid⟩
  exact congrArg (Fact.slotMarked · .OCUPADA) hslot

theorem reports_registerEntry (reservationId : Id) (now : ℤ) :
    Reports (DefaultParkingPolicy.registerEntry reservationId now) known
      (Okay (Inside reservationId)) := by
  refine reports_ask_bind trivial fun found hfound => ?_
  cases found with
  | none => trivial
  | some reservation =>
      obtain rfl : reservation.id = reservationId := hfound
      dsimp only
      split_ifs
      · trivial
      · trivial
      refine reports_ask_bind trivial fun existing _ => ?_
      split
      · trivial
      · exact reports_enter (.inr (.inl rfl)) now

theorem reports_announce {session : ParkingSession} {reservationId : Id}
    (h : Inside reservationId session known) :
    Reports (announce session reservationId) known (Okay fun _ _ => True) := by
  obtain ⟨hentered, hslot, rfl⟩ := h
  refine reports_ask_bind trivial fun found hfound => ?_
  cases found with
  | none => trivial
  | some reservation =>
      refine reports_notifyAll ?_
      simp only [List.forall_mem_cons, List.not_mem_nil, false_imp_iff, implies_true, and_true]
      exact ⟨.entered (.inr hentered) (.inl rfl) hfound,
        .occupied (.inr hentered) (.inl rfl) hfound (.inr hslot),
        .taken (.inr hentered) (.inl rfl) hfound⟩

theorem reports_execute (token : String) :
    Reports (execute token) known (Okay fun _ _ => True) := by
  refine reports_ask_bind trivial fun payload _ => ?_
  split
  · trivial
  split
  · trivial
  refine reports_ask_bind trivial fun now _ => ?_
  refine reports_bind _ (reports_registerEntry _ _) fun session known _ h => ?_
  exact reports_bind _ (reports_announce h) fun _ _ _ _ => trivial

end RegisterEntryUseCase

namespace RegisterExitUseCase

-- The session that an exit has completed, and freed the slot of.
def Outside (sessionId : Id) : ExitResult → Set Fact → Prop
  | .RELEASED (some session), known => .seen session ∈ known ∧ session.id = sessionId ∧
      .completed sessionId ∈ known ∧ ∃ left, .seen left ∈ known ∧ left.id = sessionId ∧
        .slotMarked left.slotId .DISPONIBLE ∈ known
  | _, _ => True

theorem reports_leave {session : ParkingSession} (h : .seen session ∈ known) (now : ℤ) :
    Reports (DefaultParkingPolicy.leave session now) known (Okay (Outside session.id)) := by
  refine reports_ask_bind trivial fun _ _ => reports_ask_bind trivial fun _ _ => ?_
  refine reports_ask_bind trivial fun _ _ => reports_ask_bind trivial fun updated hupdated => ?_
  cases updated with
  | none => trivial
  | some updated =>
      exact ⟨.inl rfl, hupdated, .inr (.inr (.inr (.inl rfl))), session,
        .inr (.inr (.inr (.inr h))), rfl, .inr (.inr (.inl rfl))⟩

theorem reports_registerExit (sessionId : Id) (now : ℤ) :
    Reports (DefaultParkingPolicy.registerExit sessionId now) known (Okay (Outside sessionId)) := by
  refine reports_ask_bind trivial fun found hfound => ?_
  rcases found with _ | session
  · trivial
  obtain rfl : session.id = sessionId := hfound
  rw [Option.filter_some]
  split
  · trivial
  · rename_i heq
    split at heq
    · obtain rfl := Option.some.inj heq
      refine reports_ask_bind trivial fun payment _ => ?_
      split
      · exact reports_leave (.inr (.inl rfl)) now
      · trivial
    · cases heq

theorem reports_announce {session before : ParkingSession} {reservation : Reservation}
    (h : Outside before.id (.RELEASED (some session)) known) (hbefore : .seen before ∈ known)
    (hfound : .found reservation ∈ known) (hid : reservation.id = before.reservationId) :
    Reports (announce session reservation) known (Okay fun _ _ => True) := by
  obtain ⟨hsession, hsame, hcompleted, left, hleft, hleftId, hslot⟩ := h
  rw [← hsame] at hcompleted
  refine reports_notifyAll ?_
  simp only [List.forall_mem_cons, List.not_mem_nil, false_imp_iff, implies_true, and_true]
  exact ⟨.exited hsession hbefore hsame hfound hid hcompleted,
    .vacated hsession hbefore hsame hfound hid hcompleted hleft (hleftId.trans hsame.symm) hslot,
    .freed hsession hbefore hsame hfound hid hcompleted⟩

theorem reports_finish {before : ParkingSession} {reservation : Reservation}
    (hbefore : .seen before ∈ known) (hfound : .found reservation ∈ known)
    (hid : reservation.id = before.reservationId) (now : ℤ) :
    Reports (finish before.id now reservation) known (Okay fun _ _ => True) := by
  refine reports_bind _ (reports_registerExit _ _) fun result known' hknown h => ?_
  rcases result with (_ | session) | reason
  · trivial
  · refine reports_bind _ (reports_announce h (hknown hbefore) (hknown hfound) hid) ?_
    exact fun _ _ _ _ => trivial
  · cases reason <;> trivial

theorem reports_checkPayment {before : ParkingSession} {reservation : Reservation}
    (hbefore : .seen before ∈ known) (hfound : .found reservation ∈ known)
    (hid : reservation.id = before.reservationId) (session : ParkingSession) (now : ℤ) :
    Reports (checkPayment before.id session now reservation) known (Okay fun _ _ => True) := by
  refine reports_ask_bind trivial fun payment _ => ?_
  split
  · trivial
  · refine reports_bind _ (reports_looks (calculate_looks _)) fun pricing known' hknown _ => ?_
    split
    · trivial
    · exact reports_finish (hknown (.inr hbefore)) (hknown (.inr hfound)) hid now

theorem reports_execute (token : String) :
    Reports (execute token) known (Okay fun _ _ => True) := by
  refine reports_ask_bind trivial fun payload _ => ?_
  split
  · trivial
  split
  · trivial
  refine reports_ask_bind trivial fun now _ => reports_ask_bind trivial fun found hfound => ?_
  rcases found with _ | before
  · trivial
  obtain rfl := (show before.id = _ from hfound)
  rw [Option.filter_some]
  split
  · trivial
  · rename_i heq
    split at heq
    · obtain rfl := Option.some.inj heq
      refine reports_ask_bind trivial fun found hreservation => ?_
      cases found with
      | none => trivial
      | some reservation =>
          exact reports_checkPayment (.inr (.inl rfl)) (.inl rfl) hreservation _ _
    · cases heq

end RegisterExitUseCase

theorem reports_operation (config : Config) (operation : Operation) :
    Reports (operation.execute config) known (Okay fun _ _ => True) := by
  cases operation with
  | CreateReservation input =>
      exact reports_bind _ (CreateReservationUseCase.reports_execute config input)
        fun _ _ _ _ => trivial
  | CancelReservation input =>
      exact reports_bind _ (CancelReservationUseCase.reports_execute input) fun _ _ _ _ => trivial
  | ExpireOverdueReservations =>
      exact reports_bind _ ExpireOverdueReservationsUseCase.reports_execute fun _ _ _ _ => trivial
  | RegisterEntry token =>
      exact reports_bind _ (RegisterEntryUseCase.reports_execute token) fun _ _ _ _ => trivial
  | RegisterExit token =>
      exact reports_bind _ (RegisterExitUseCase.reports_execute token) fun _ _ _ _ => trivial

namespace ReservationRequestConsumer

-- An answer of the domain promises nothing.
theorem reports_resolve (config : Config) (message : ReservationRequestMessage) :
    Reports (ProcessReservationRequestUseCase.resolve config message) known
      (Okay fun resolution known =>
        Promised known ⟨message.requestId, message.userId, resolution⟩) := by
  have hcreate := @CreateReservationUseCase.reports_execute known config {
    userId := message.userId
    branchId := message.branchId
    slotType := message.slotType
    startAt := message.startAt }
  refine Program.obeys_tryCatch (Program.obeys_bind (Program.obeys_imp hcreate ?_))
  rintro (err | result) known' hmade
  · cases err <;> trivial
  · cases result with
    | CREATED reservation => exact ⟨reservation, hmade.1, rfl, rfl, rfl, rfl, rfl, hmade.2⟩
    | SUGGEST_OTHER_BRANCH branch distanceKm => trivial

theorem reports_handle (config : Config) (message : ReservationRequestMessage) :
    Reports (handle config message) known (Okay fun _ _ => True) := by
  have hexecute : Reports (do
      ProcessReservationRequestUseCase.execute config message
      channel.ack) known (Okay fun _ _ => True) := by
    refine reports_bind (fun _ _ => True) ?_ fun _ _ _ _ => reports_ask trivial
    exact reports_bind _ (reports_resolve config message) fun _ _ _ h => reports_ask h
  unfold handle
  split
  · exact reports_ask trivial
  · refine Program.obeys_tryCatch (Program.obeys_imp hexecute fun result known' _ => ?_)
    cases result with
    | ok _ => trivial
    | error err => exact reports_ask trivial

end ReservationRequestConsumer

theorem reports_task (config : Config) (task : Task) :
    (task.execute config).Obeys reporting (fun _ _ => True) ∅ := by
  suffices h : Reports (task.execute config) ∅ (Okay fun _ _ => True) from
    Program.obeys_imp h fun _ _ _ => trivial
  cases task with
  | deliver message => exact ReservationRequestConsumer.reports_handle config message
  | operate operation =>
      exact reports_bind _ (reports_operation config operation) fun _ _ _ _ => trivial

end SmartParking
