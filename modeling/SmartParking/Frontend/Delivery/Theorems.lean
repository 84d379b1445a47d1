import SmartParking.Frontend.Delivery
import Mathlib.Data.List.Nodup

namespace SmartParking.Frontend

open ReservationModal

variable {requestId : Id} {modal next : ReservationModal} {log : List Entry} {entry : Entry}

-- What an empty log says.

theorem not_waiting_nil : ¬Waiting requestId [] := by
  rintro ⟨between, older, heq, -⟩
  cases between <;> cases heq

theorem not_renderedSince_nil : ¬RenderedSince requestId [] := by
  rintro ⟨recent, between, older, heq, -⟩
  cases recent <;> cases heq

theorem not_overwritten_nil : ¬Overwritten requestId [] := by
  rintro ⟨recent, other, between, older, heq, -⟩
  cases recent <;> cases heq

-- What one more entry says.

theorem waiting_answered {other : Id} :
    Waiting requestId (.answered other :: log) ↔ other = requestId := by
  constructor
  · rintro ⟨between, older, heq, hbetween⟩
    cases between with
    | nil =>
        cases heq
        rfl
    | cons entry between =>
        cases heq
        exact absurd trivial (hbetween _ List.mem_cons_self)
  · rintro rfl
    exact ⟨[], log, rfl, nofun⟩

theorem not_waiting_ended : ¬Waiting requestId (.ended :: log) := by
  rintro ⟨between, older, heq, hbetween⟩
  cases between with
  | nil => cases heq
  | cons entry between =>
      cases heq
      exact hbetween _ List.mem_cons_self trivial

theorem waiting_cons (h : ¬entry.Ends) : Waiting requestId (entry :: log) ↔ Waiting requestId log := by
  constructor
  · rintro ⟨between, older, heq, hbetween⟩
    cases between with
    | nil =>
        cases heq
        exact absurd trivial h
    | cons other between =>
        cases heq
        exact ⟨between, older, rfl, fun entry hm => hbetween entry (List.mem_cons_of_mem _ hm)⟩
  · rintro ⟨between, older, rfl, hbetween⟩
    exact ⟨entry :: between, older, rfl, List.forall_mem_cons.mpr ⟨h, hbetween⟩⟩

theorem renderedSince_rendered :
    RenderedSince requestId (.rendered :: log) ↔ Waiting requestId log := by
  constructor
  · rintro ⟨recent, between, older, heq, hrecent, hbetween⟩
    cases recent with
    | nil =>
        cases heq
        exact ⟨between, older, rfl, hbetween⟩
    | cons other recent =>
        cases heq
        exact absurd rfl (hrecent _ List.mem_cons_self)
  · rintro ⟨between, older, rfl, hbetween⟩
    exact ⟨[], between, older, rfl, nofun, hbetween⟩

theorem renderedSince_cons (h : entry ≠ .rendered) :
    RenderedSince requestId (entry :: log) ↔ RenderedSince requestId log := by
  constructor
  · rintro ⟨recent, between, older, heq, hrecent, hbetween⟩
    cases recent with
    | nil =>
        cases heq
        exact absurd rfl h
    | cons other recent =>
        cases heq
        exact ⟨recent, between, older, rfl, fun entry hm => hrecent entry (List.mem_cons_of_mem _ hm),
          hbetween⟩
  · rintro ⟨recent, between, older, rfl, hrecent, hbetween⟩
    exact ⟨entry :: recent, between, older, rfl, List.forall_mem_cons.mpr ⟨h, hrecent⟩, hbetween⟩

theorem overwritten_answered {other : Id} : Overwritten requestId (.answered other :: log) ↔
    Waiting requestId log ∨ Overwritten requestId log := by
  constructor
  · rintro ⟨recent, later, between, older, heq, hbetween⟩
    cases recent with
    | nil =>
        cases heq
        exact .inl ⟨between, older, rfl, hbetween⟩
    | cons entry recent =>
        cases heq
        exact .inr ⟨recent, later, between, older, rfl, hbetween⟩
  · rintro (⟨between, older, rfl, hbetween⟩ | ⟨recent, later, between, older, rfl, hbetween⟩)
    · exact ⟨[], other, between, older, rfl, hbetween⟩
    · exact ⟨.answered other :: recent, later, between, older, rfl, hbetween⟩

theorem overwritten_cons (h : ∀ other, entry ≠ .answered other) :
    Overwritten requestId (entry :: log) ↔ Overwritten requestId log := by
  constructor
  · rintro ⟨recent, later, between, older, heq, hbetween⟩
    cases recent with
    | nil =>
        cases heq
        exact absurd rfl (h later)
    | cons other recent =>
        cases heq
        exact ⟨recent, later, between, older, rfl, hbetween⟩
  · rintro ⟨recent, later, between, older, rfl, hbetween⟩
    exact ⟨entry :: recent, later, between, older, rfl, hbetween⟩

instance decideWaiting (requestId : Id) : (log : List Entry) → Decidable (Waiting requestId log)
  | [] => isFalse not_waiting_nil
  | .answered other :: _ => decidable_of_iff (other = requestId) waiting_answered.symm
  | .ended :: _ => isFalse not_waiting_ended
  | .rendered :: log =>
      have := decideWaiting requestId log
      decidable_of_iff (Waiting requestId log) (waiting_cons id).symm
  | .expired _ :: log =>
      have := decideWaiting requestId log
      decidable_of_iff (Waiting requestId log) (waiting_cons id).symm

instance decideOverwritten (requestId : Id) :
    (log : List Entry) → Decidable (Overwritten requestId log)
  | [] => isFalse not_overwritten_nil
  | .answered _ :: log =>
      have := decideOverwritten requestId log
      decidable_of_iff (Waiting requestId log ∨ Overwritten requestId log)
        overwritten_answered.symm
  | .ended :: log | .rendered :: log | .expired _ :: log =>
      have := decideOverwritten requestId log
      decidable_of_iff (Overwritten requestId log) (Iff.symm (overwritten_cons nofun))

-- The operations keep the invariant.

theorem Follows.congr (h : Follows requestId modal) (hsame : SameWait modal next) :
    Follows requestId next := by
  obtain ⟨hpending, hrendered, href, htimers, hnext, hlog⟩ := hsame
  constructor
  · constructor
    · rw [hpending, hlog]
      exact h.tracks.pending
    · rw [hrendered, hlog]
      exact h.tracks.rendered
    · rw [htimers]
      exact h.tracks.handles
    · rw [htimers, hnext]
      exact h.tracks.fresh
    · rw [href, hnext]
      exact h.tracks.ref
  · rw [hlog]
    intro hexpired
    have harmed := h.armed hexpired
    constructor
    · rw [hlog, htimers, href]
      exact harmed.current
    · rw [hlog, htimers, href]
      exact harmed.lost
    · rw [hlog, htimers, href]
      exact harmed.only

theorem not_ends_rendered : ¬Entry.rendered.Ends := id

theorem Follows.render (h : Follows requestId modal) : Follows requestId modal.render := by
  have hnever : ∀ other, Entry.rendered ≠ .answered other := nofun
  constructor
  · refine ⟨fun id => ?_, fun id => ?_, h.tracks.handles, h.tracks.fresh, h.tracks.ref⟩
    · exact (h.tracks.pending id).trans (waiting_cons not_ends_rendered).symm
    · exact (h.tracks.pending id).trans renderedSince_rendered.symm
  · intro hexpired
    have harmed := h.armed (List.not_mem_of_not_mem_cons hexpired)
    refine ⟨fun hw => ?_, fun ho => ?_, fun timer hm hid => ?_⟩
    · exact harmed.current ((waiting_cons not_ends_rendered).mp hw)
    · exact harmed.lost ((overwritten_cons hnever).mp ho)
    · refine (harmed.only timer hm hid).imp (fun hcurrent => ?_) (overwritten_cons hnever).mpr
      exact hcurrent.imp_left (waiting_cons not_ends_rendered).mpr

theorem Follows.stopWaiting (h : Follows requestId modal) : Follows requestId modal.stopWaiting := by
  have hnever : ∀ other, Entry.ended ≠ .answered other := nofun
  have hended : Entry.ended ≠ .rendered := nofun
  constructor
  · refine ⟨fun id => ?_, fun id => ?_, ?_, ?_, nofun⟩
    · exact iff_of_false nofun not_waiting_ended
    · exact (h.tracks.rendered id).trans (renderedSince_cons hended).symm
    · exact h.tracks.handles.sublist (List.filter_sublist.map _)
    · exact fun timer hm => h.tracks.fresh timer (List.mem_of_mem_filter hm)
  · intro hexpired
    have harmed := h.armed (List.not_mem_of_not_mem_cons hexpired)
    refine ⟨fun hw => absurd hw not_waiting_ended, fun ho => ?_, fun timer hm hid => ?_⟩
    · obtain ⟨timer, hm, hid, href⟩ := harmed.lost ((overwritten_cons hnever).mp ho)
      exact ⟨timer, List.mem_filter.mpr ⟨hm, decide_eq_true href⟩, hid, nofun⟩
    · obtain ⟨hm, href⟩ := List.mem_filter.mp hm
      refine .inr ((overwritten_cons hnever).mpr ?_)
      exact (harmed.only timer hm hid).resolve_left fun hcurrent => of_decide_eq_true href hcurrent.2

theorem Follows.accepted (h : Follows requestId modal) (other : Id) :
    Follows requestId (modal.accepted other) := by
  have hanswered : Entry.answered other ≠ .rendered := nofun
  have hold : ∀ timer ∈ modal.timers, some modal.nextHandle ≠ some timer.handle := fun timer hm heq =>
    absurd (h.tracks.fresh timer hm) (by rw [← Option.some.inj heq]; exact Nat.lt_irrefl _)
  constructor
  · refine ⟨fun id => ?_, fun id => ?_, ?_, ?_, ?_⟩
    · exact Option.some_inj.trans waiting_answered.symm
    · exact (h.tracks.rendered id).trans (renderedSince_cons hanswered).symm
    · refine List.nodup_cons.mpr ⟨fun hm => ?_, h.tracks.handles⟩
      obtain ⟨timer, hm, heq⟩ := List.mem_map.mp hm
      exact hold timer hm (congrArg some heq.symm)
    · refine List.forall_mem_cons.mpr ⟨Nat.lt_succ_self _, fun timer hm => ?_⟩
      exact (h.tracks.fresh timer hm).trans (Nat.lt_succ_self _)
    · rintro handle ⟨⟩
      exact Nat.lt_succ_self _
  · intro hexpired
    have harmed := h.armed (List.not_mem_of_not_mem_cons hexpired)
    refine ⟨fun hw => ?_, fun ho => ?_, fun timer hm hid => ?_⟩
    · exact ⟨_, List.mem_cons_self, waiting_answered.mp hw, rfl⟩
    · have hlost : ∃ timer ∈ modal.timers, timer.requestId = requestId := by
        rcases overwritten_answered.mp ho with hw | ho
        · obtain ⟨timer, hm, hid, -⟩ := harmed.current hw
          exact ⟨timer, hm, hid⟩
        · obtain ⟨timer, hm, hid, -⟩ := harmed.lost ho
          exact ⟨timer, hm, hid⟩
      obtain ⟨timer, hm, hid⟩ := hlost
      exact ⟨timer, List.mem_cons_of_mem _ hm, hid, hold timer hm⟩
    · rcases List.mem_cons.mp hm with rfl | hm
      · exact .inl ⟨waiting_answered.mpr hid, rfl⟩
      · exact .inr (overwritten_answered.mpr ((harmed.only timer hm hid).imp_left And.left))

-- A timer that fires is one of the timers; another request's timers stay.
theorem Follows.expire (h : Follows requestId modal) {timer : Timer} (hm : timer ∈ modal.timers) :
    Follows requestId (modal.expire timer) := by
  have hnever : ∀ other, Entry.expired timer.requestId ≠ .answered other := nofun
  have hexpired : Entry.expired timer.requestId ≠ .rendered := nofun
  have hends : ¬(Entry.expired timer.requestId).Ends := id
  suffices hfired : Follows requestId { modal with
      timers := modal.timers.filter fun other => other.handle ≠ timer.handle
      log := .expired timer.requestId :: modal.log } from
    hfired.stopWaiting.congr ⟨rfl, rfl, rfl, rfl, rfl, rfl⟩
  constructor
  · refine ⟨fun id => ?_, fun id => ?_, ?_, ?_, h.tracks.ref⟩
    · exact (h.tracks.pending id).trans (waiting_cons hends).symm
    · exact (h.tracks.rendered id).trans (renderedSince_cons hexpired).symm
    · exact h.tracks.handles.sublist (List.filter_sublist.map _)
    · exact fun other hm => h.tracks.fresh other (List.mem_of_mem_filter hm)
  · intro hnot
    rw [List.mem_cons, not_or] at hnot
    have harmed := h.armed hnot.2
    have hother : ∀ other ∈ modal.timers, other.requestId = requestId →
        other ∈ modal.timers.filter fun other => other.handle ≠ timer.handle := by
      intro other ho hid
      refine List.mem_filter.mpr ⟨ho, decide_eq_true fun heq => hnot.1 ?_⟩
      rw [← hid, List.inj_on_of_nodup_map h.tracks.handles ho hm heq]
    refine ⟨fun hw => ?_, fun ho => ?_, fun other ho hid => ?_⟩
    · obtain ⟨other, ho, hid, href⟩ := harmed.current ((waiting_cons hends).mp hw)
      exact ⟨other, hother other ho hid, hid, href⟩
    · obtain ⟨other, ho, hid, href⟩ := harmed.lost ((overwritten_cons hnever).mp ho)
      exact ⟨other, hother other ho hid, hid, href⟩
    · refine (harmed.only other (List.mem_of_mem_filter ho) hid).imp (fun hcurrent => ?_)
        (overwritten_cons hnever).mpr
      exact hcurrent.imp_left (waiting_cons hends).mpr

theorem keeps_follows (requestId : Id) : Keeps (Follows requestId) fun _ => True where
  congr := Follows.congr
  render := Follows.render
  stopWaiting := Follows.stopWaiting
  accepted _ h := h.accepted _
  expire hm h := h.expire hm

theorem Disarmed.expire (h : Disarmed requestId modal) {timer : Timer}
    (hm : timer ∈ modal.timers) : Disarmed requestId (modal.expire timer) := by
  refine ⟨fun other ho => ?_, fun hlog => ?_⟩
  · exact h.timers other (List.mem_of_mem_filter (List.mem_of_mem_filter ho))
  · rcases List.mem_cons.mp hlog with heq | hlog
    · cases heq
    · rcases List.mem_cons.mp hlog with heq | hlog
      · exact h.timers timer hm (Entry.expired.inj heq).symm
      · exact h.log hlog

theorem keeps_disarmed (requestId : Id) : Keeps (Disarmed requestId) (· ≠ requestId) where
  congr h hsame := ⟨hsame.timers ▸ h.timers, hsame.log ▸ h.log⟩
  render h := ⟨h.timers, fun hm => h.log ((List.mem_cons.mp hm).resolve_left nofun)⟩
  stopWaiting h := ⟨fun timer hm => h.timers timer (List.mem_of_mem_filter hm),
    fun hm => h.log ((List.mem_cons.mp hm).resolve_left nofun)⟩
  accepted hne h := ⟨List.forall_mem_cons.mpr ⟨hne, h.timers⟩,
    fun hm => h.log ((List.mem_cons.mp hm).resolve_left nofun)⟩
  expire hm h := h.expire hm

-- The steps of the page are made of the operations.

theorem sameWait_refl (modal : ReservationModal) : SameWait modal modal :=
  ⟨rfl, rfl, rfl, rfl, rfl, rfl⟩

theorem sameWait_handleConfirm (dateOfText : String → Option JsDate.Time) (targetBranchId : Id)
    (isSuggestion : Bool) (modal : ReservationModal) :
    SameWait modal (modal.handleConfirm dateOfText targetBranchId isSuggestion) := by
  unfold handleConfirm
  dsimp only
  split_ifs
  · exact ⟨rfl, rfl, rfl, rfl, rfl, rfl⟩
  · split <;> exact ⟨rfl, rfl, rfl, rfl, rfl, rfl⟩
  · exact ⟨rfl, rfl, rfl, rfl, rfl, rfl⟩

theorem sameWait_confirm (dateOfText : String → Option JsDate.Time) (modal : ReservationModal) :
    SameWait modal (modal.confirm dateOfText) := by
  unfold confirm
  split
  · exact sameWait_refl modal
  · split_ifs
    · exact sameWait_refl modal
    · split <;> exact sameWait_handleConfirm dateOfText _ _ modal

-- An event that its handler lets through ends the wait.
theorem sameWait_handleResolved {payload : ReservationRequestResolved}
    (hid : payload.requestId ≠ "")
    (h : modal.rendered.pendingRequestId = some payload.requestId) :
    SameWait modal.stopWaiting (modal.handleResolved payload) := by
  unfold handleResolved
  rw [if_neg (not_or.mpr ⟨not_not.mpr h, hid⟩)]
  split <;> exact ⟨rfl, rfl, rfl, rfl, rfl, rfl⟩

theorem handleResolved_other {payload : ReservationRequestResolved}
    (h : modal.rendered.pendingRequestId ≠ some payload.requestId) :
    modal.handleResolved payload = modal :=
  if_pos (.inl h)

section Keeps

variable {inv : ReservationModal → Prop} {allowed : Id → Prop}

theorem Keeps.arrive (hkeeps : Keeps inv allowed) (h : inv modal) {call : ℕ}
    {continuation : ReservationModal → ReservationModal}
    (hcontinuation : ∀ {modal}, inv modal → inv (continuation modal)) :
    inv (modal.arrive call continuation) := by
  unfold ReservationModal.arrive
  split_ifs
  · exact hcontinuation (hkeeps.congr h ⟨rfl, rfl, rfl, rfl, rfl, rfl⟩)
  · exact h

theorem Keeps.fire (hkeeps : Keeps inv allowed) (h : inv modal) (handle : ℕ) :
    inv (modal.fire handle) := by
  unfold ReservationModal.fire
  split
  · rename_i timer hfound
    exact hkeeps.expire (List.mem_of_find?_eq_some hfound) h
  · exact h

theorem Keeps.openBranch (hkeeps : Keeps inv allowed) (h : inv modal) (branchId : Id) :
    inv (modal.openBranch branchId) := by
  unfold ReservationModal.openBranch
  split_ifs
  · exact h
  · have hopened : inv { modal with branch := some branchId } :=
      hkeeps.congr h ⟨rfl, rfl, rfl, rfl, rfl, rfl⟩
    exact hkeeps.stopWaiting (hkeeps.congr (hkeeps.render hopened) ⟨rfl, rfl, rfl, rfl, rfl, rfl⟩)

theorem Keeps.handleResolved (hkeeps : Keeps inv allowed) (h : inv modal)
    (payload : ReservationRequestResolved) : inv (modal.handleResolved payload) := by
  by_cases hfilter : modal.rendered.pendingRequestId ≠ some payload.requestId ∨
      payload.requestId = ""
  · rw [ReservationModal.handleResolved, if_pos hfilter]
    exact h
  · obtain ⟨hpending, hid⟩ := not_or.mp hfilter
    exact hkeeps.congr (hkeeps.stopWaiting h) (sameWait_handleResolved hid (not_not.mp hpending))

theorem Keeps.step (hkeeps : Keeps inv allowed) (h : inv modal)
    (dateOfText : String → Option JsDate.Time) {event : ModalEvent}
    (hallowed : ∀ call requestId, event = .accepted call requestId → allowed requestId) :
    inv (modal.step dateOfText event) := by
  cases event with
  | edit form =>
      have hedited : inv { modal with form } := hkeeps.congr h ⟨rfl, rfl, rfl, rfl, rfl, rfl⟩
      exact hkeeps.render hedited
  | «open» branchId => exact hkeeps.openBranch h branchId
  | close =>
      have hclosed : inv { modal with branch := none } :=
        hkeeps.congr h ⟨rfl, rfl, rfl, rfl, rfl, rfl⟩
      exact hkeeps.render hclosed
  | confirm => exact hkeeps.render (hkeeps.congr h (sameWait_confirm dateOfText modal))
  | accepted call other =>
      exact hkeeps.arrive h fun h => hkeeps.accepted (hallowed call other rfl) h
  | failed call message =>
      exact hkeeps.arrive h fun h => hkeeps.congr h ⟨rfl, rfl, rfl, rfl, rfl, rfl⟩
  | resolved payload => exact hkeeps.handleResolved h payload
  | timeout handle => exact hkeeps.fire h handle
  | render => exact hkeeps.render h
  | elapse ms => exact hkeeps.congr h ⟨rfl, rfl, rfl, rfl, rfl, rfl⟩

theorem Keeps.play (hkeeps : Keeps inv allowed) (dateOfText : String → Option JsDate.Time)
    {events : List ModalEvent} (h : inv modal)
    (hallowed : ∀ event ∈ events, ∀ call requestId, event = .accepted call requestId →
      allowed requestId) :
    inv (Machine.play (ReservationModal.step dateOfText) modal events) :=
  Machine.play_invariant inv h (fun _ _ h hevent => hkeeps.step h dateOfText hevent)
    (Machine.always_of_forall hallowed)

end Keeps

theorem follows_new (requestId : Id) : Follows requestId new where
  tracks := ⟨fun _ => iff_of_false nofun not_waiting_nil,
    fun _ => iff_of_false nofun not_renderedSince_nil, List.nodup_nil, nofun, nofun⟩
  armed _ := ⟨fun h => absurd h not_waiting_nil, fun h => absurd h not_overwritten_nil, nofun⟩

theorem follows_run (requestId : Id) (dateOfText : String → Option JsDate.Time)
    (events : List ModalEvent) : Follows requestId (run dateOfText events) :=
  (keeps_follows requestId).play dateOfText (follows_new requestId) fun _ _ _ _ _ => trivial

-- The handler of the last render decides.
theorem processed_iff {payload : ReservationRequestResolved} (hid : payload.requestId ≠ "") :
    Processed payload modal (modal.handleResolved payload) ↔
      modal.rendered.pendingRequestId = some payload.requestId := by
  constructor
  · intro h
    by_contra hpending
    have hlength := congrArg List.length h.shown
    rw [handleResolved_other hpending, List.length_append] at hlength
    have houtcome : payload.outcome ≠ [] := by
      unfold ReservationRequestResolved.outcome
      split <;> simp
    have hpos := List.length_pos_iff.mpr houtcome
    omega
  · intro hpending
    obtain ⟨id, status, suggestedBranch, distanceKm, message⟩ := payload
    rw [handleResolved, if_neg (not_or.mpr ⟨not_not.mpr hpending, hid⟩)]
    cases status <;> cases suggestedBranch <;> exact ⟨⟨rfl, rfl, rfl⟩, rfl⟩

-- A timer that is due fires.
theorem expired_fire (h : (modal.timers.map Timer.handle).Nodup) {timer : Timer}
    (hm : timer ∈ modal.timers) (hdue : timer.due ≤ modal.clock) :
    .expired timer.requestId ∈ (modal.fire timer.handle).log := by
  unfold fire
  split
  · rename_i found hfound
    have hmatch := List.find?_some hfound
    rw [decide_eq_true_iff] at hmatch
    obtain rfl : found = timer :=
      List.inj_on_of_nodup_map h (List.mem_of_find?_eq_some hfound) hm hmatch.1
    exact List.mem_cons_of_mem _ List.mem_cons_self
  · rename_i hnone
    exact absurd (decide_eq_true ⟨rfl, hdue⟩) (List.find?_eq_none.mp hnone timer hm)

-- A timer that no ref knows of fires in the end.
theorem exists_expired (h : Follows requestId modal) (hlog : .expired requestId ∉ modal.log)
    (hlost : Overwritten requestId modal.log) (dateOfText : String → Option JsDate.Time) :
    ∃ later : List ModalEvent, (∀ event ∈ later, event.answers requestId = false) ∧
      .expired requestId ∈ (Machine.play (ReservationModal.step dateOfText) modal later).log := by
  obtain ⟨timer, hm, rfl, -⟩ := (h.armed hlog).lost hlost
  refine ⟨[.elapse timer.due, .timeout timer.handle], by simp [ModalEvent.answers], ?_⟩
  let elapsed : ReservationModal := { modal with clock := modal.clock + timer.due }
  have hhandles : (elapsed.timers.map Timer.handle).Nodup := h.tracks.handles
  have hdue : timer.due ≤ elapsed.clock := Nat.le_add_left _ _
  exact expired_fire hhandles hm hdue

-- Once the wait has ended, its timer is gone, unless it was lost.
theorem Follows.disarmed (h : Follows requestId modal) (hlog : .expired requestId ∉ modal.log)
    (hlost : ¬Overwritten requestId modal.log) : Disarmed requestId modal.stopWaiting := by
  have hnever : ∀ other, Entry.ended ≠ .answered other := nofun
  have hlog' : .expired requestId ∉ modal.stopWaiting.log := fun hm =>
    hlog ((List.mem_cons.mp hm).resolve_left nofun)
  refine ⟨fun timer hm hid => ?_, hlog'⟩
  rcases (h.stopWaiting.armed hlog').only timer hm hid with ⟨hw, -⟩ | ho
  · exact not_waiting_ended hw
  · exact hlost ((overwritten_cons hnever).mp ho)

theorem answers_eq_false_iff {event : ModalEvent} : event.answers requestId = false ↔
    ∀ call other, event = .accepted call other → other ≠ requestId := by
  cases event with
  | accepted call other => simp [ModalEvent.answers]
  | _ => exact iff_of_true rfl nofun

-- The outcome of a request is delivered if the page was rendered since its response, with
-- no end of the wait before that, and no other response took the place of its wait; and
-- only then.
theorem delivered_iff (dateOfText : String → Option JsDate.Time) (past : List ModalEvent)
    (payload : ReservationRequestResolved) (hid : payload.requestId ≠ "")
    (hbefore : .expired payload.requestId ∉ (run dateOfText past).log) :
    Delivered dateOfText payload (run dateOfText past) ↔
      RenderedSince payload.requestId (run dateOfText past).log ∧
        ¬Overwritten payload.requestId (run dateOfText past).log := by
  have hfollows := follows_run payload.requestId dateOfText past
  have hprocessed : Processed payload (run dateOfText past)
      ((run dateOfText past).handleResolved payload) ↔ _ :=
    (processed_iff hid).trans (hfollows.tracks.rendered payload.requestId)
  constructor
  · rintro ⟨hdone, hsilent⟩
    refine ⟨hprocessed.mp hdone, fun hlost => ?_⟩
    have hsame := sameWait_handleResolved hid ((processed_iff hid).mp hdone)
    have hnext := (keeps_follows payload.requestId).handleResolved hfollows payload
    have hnever : ∀ other, Entry.ended ≠ .answered other := nofun
    have hlost' : Overwritten payload.requestId
        ((run dateOfText past).handleResolved payload).log := by
      rw [hsame.log]
      exact (overwritten_cons hnever).mpr hlost
    obtain ⟨later, hlater, hexpired⟩ := exists_expired hnext (hsilent [] nofun) hlost' dateOfText
    exact hsilent later hlater hexpired
  · rintro ⟨hrendered, hlost⟩
    have hpending := (hfollows.tracks.rendered payload.requestId).mpr hrendered
    refine ⟨hprocessed.mpr hrendered, fun later hlater => ?_⟩
    have hdisarmed := (keeps_disarmed payload.requestId).congr (hfollows.disarmed hbefore hlost)
      (sameWait_handleResolved hid hpending)
    refine ((keeps_disarmed payload.requestId).play dateOfText hdisarmed fun event hm => ?_).log
    exact answers_eq_false_iff.mp (hlater event hm)

-- The event comes after the response.
theorem delivered_inOrder : Delivered (fun _ => none) Demo.created
    (run (fun _ => none) (Demo.sent ++ [.accepted 0 "r1", .render])) := by
  refine (delivered_iff (fun _ => none) _ Demo.created (by decide) (by decide)).mpr ⟨?_, ?_⟩
  · exact ⟨[], [], _, rfl, nofun, nofun⟩
  · decide

-- The event comes before the response.
theorem delivered_fails :
    ¬∀ (dateOfText : String → Option JsDate.Time) (early late : List ModalEvent)
      (payload : ReservationRequestResolved), payload.requestId ≠ "" →
        .resolved payload ∈ early → early.countP (·.resolves payload.requestId) = 1 →
          early.countP (·.answers payload.requestId) = 1 → ModalEvent.close ∉ early ++ late →
            .expired payload.requestId ∉ (run dateOfText early).log →
              .expired payload.requestId ∉ (run dateOfText (early ++ late)).log := by
  intro h
  exact h (fun _ => none) (Demo.sent ++ [.resolved Demo.created, .accepted 0 "r1", .render])
    [.elapse RESOLUTION_TIMEOUT_MS, .timeout 0] Demo.created (by decide) (by decide) (by decide)
    (by decide) (by decide) (by decide) (by decide)

end SmartParking.Frontend
