import SmartParking.Frontend.ReservationModal

namespace SmartParking.Frontend

def ModalEvent.answers (requestId : Id) : ModalEvent → Bool
  | .accepted _ id => id = requestId
  | _ => false

def ModalEvent.resolves (requestId : Id) : ModalEvent → Bool
  | .resolved payload => payload.requestId = requestId
  | _ => false

-- What an outcome has to show, the latest first.
def ReservationRequestResolved.outcome (payload : ReservationRequestResolved) : List Shown :=
  match payload.status, payload.suggestedBranch with
  | .CREATED, _ => [.navigated "/mi-reserva",
      .success "Reserva creada. Tienes 20 minutos para hacer check-in."]
  | .SUGGEST_OTHER_BRANCH, some suggestedBranch =>
      [.suggestion { suggestedBranch, distanceKm := payload.distanceKm.getD 0 }]
  | _, _ => [.error (payload.message.getD "No se pudo crear la reserva.")]

-- The page has left the waiting state, and shows the outcome.
structure Processed (payload : ReservationRequestResolved) (modal next : ReservationModal) :
    Prop where
  idle : next.submitting = false ∧ next.pendingRequestId = none ∧ next.timeoutRef = none
  shown : next.shown = payload.outcome ++ modal.shown

-- The outcome is processed when its event arrives, and the timer of its wait never fires
-- afterwards. Its response arrives once, so not again.
structure Delivered (dateOfText : String → Option JsDate.Time)
    (payload : ReservationRequestResolved) (modal : ReservationModal) : Prop where
  processed : Processed payload modal (modal.step dateOfText (.resolved payload))
  silent : ∀ later : List ModalEvent, (∀ event ∈ later, event.answers payload.requestId = false) →
    .expired payload.requestId ∉ (Machine.play (ReservationModal.step dateOfText)
      (modal.step dateOfText (.resolved payload)) later).log

-- A wait is over, or another one takes its place.
def Entry.Ends : Entry → Prop
  | .ended | .answered _ => True
  | _ => False

-- The last render came after the response, with nothing in between that ends the wait.
def RenderedSince (requestId : Id) (log : List Entry) : Prop :=
  ∃ recent between older, log = recent ++ .rendered :: (between ++ .answered requestId :: older) ∧
    (∀ entry ∈ recent, entry ≠ .rendered) ∧ ∀ entry ∈ between, ¬entry.Ends

-- The response to another request came while this one was waited for.
def Overwritten (requestId : Id) (log : List Entry) : Prop :=
  ∃ recent other between older,
    log = recent ++ .answered other :: (between ++ .answered requestId :: older) ∧
      ∀ entry ∈ between, ¬entry.Ends

-- The response to the request is the last thing that began or ended a wait.
def Waiting (requestId : Id) (log : List Entry) : Prop :=
  ∃ between older, log = between ++ .answered requestId :: older ∧ ∀ entry ∈ between, ¬entry.Ends

-- What the state says about the log, in all runs.
structure Tracks (modal : ReservationModal) : Prop where
  pending : ∀ requestId, modal.pendingRequestId = some requestId ↔ Waiting requestId modal.log
  rendered : ∀ requestId, modal.rendered.pendingRequestId = some requestId ↔
    RenderedSince requestId modal.log
  handles : (modal.timers.map Timer.handle).Nodup
  fresh : ∀ timer ∈ modal.timers, timer.handle < modal.nextHandle
  ref : ∀ handle ∈ modal.timeoutRef, handle < modal.nextHandle

-- Where the timer of a wait is: in the ref, or lost.
structure Armed (requestId : Id) (modal : ReservationModal) : Prop where
  current : Waiting requestId modal.log →
    ∃ timer ∈ modal.timers, timer.requestId = requestId ∧ modal.timeoutRef = some timer.handle
  lost : Overwritten requestId modal.log →
    ∃ timer ∈ modal.timers, timer.requestId = requestId ∧ modal.timeoutRef ≠ some timer.handle
  only : ∀ timer ∈ modal.timers, timer.requestId = requestId →
    (Waiting requestId modal.log ∧ modal.timeoutRef = some timer.handle) ∨
      Overwritten requestId modal.log

-- The invariant of all runs. A timer that has fired is gone.
structure Follows (requestId : Id) (modal : ReservationModal) : Prop where
  tracks : Tracks modal
  armed : .expired requestId ∉ modal.log → Armed requestId modal

-- Nothing has happened to the waits.
structure SameWait (modal next : ReservationModal) : Prop where
  pending : next.pendingRequestId = modal.pendingRequestId
  rendered : next.rendered = modal.rendered
  timeoutRef : next.timeoutRef = modal.timeoutRef
  timers : next.timers = modal.timers
  nextHandle : next.nextHandle = modal.nextHandle
  log : next.log = modal.log

-- What every operation on the waits keeps, with responses to allowed requests only.
structure Keeps (inv : ReservationModal → Prop) (allowed : Id → Prop) : Prop where
  congr : ∀ {modal next}, inv modal → SameWait modal next → inv next
  render : ∀ {modal : ReservationModal}, inv modal → inv modal.render
  stopWaiting : ∀ {modal : ReservationModal}, inv modal → inv modal.stopWaiting
  accepted : ∀ {modal : ReservationModal} {requestId}, allowed requestId → inv modal →
    inv (modal.accepted requestId)
  expire : ∀ {modal : ReservationModal} {timer}, timer ∈ modal.timers → inv modal →
    inv (modal.expire timer)

-- The timer of a wait is gone, and has not fired.
structure Disarmed (requestId : Id) (modal : ReservationModal) : Prop where
  timers : ∀ timer ∈ modal.timers, timer.requestId ≠ requestId
  log : .expired requestId ∉ modal.log

namespace Demo

def created : ReservationRequestResolved where
  requestId := "r1"
  status := .CREATED
  suggestedBranch := none
  distanceKm := none
  message := none

-- A request that is sent as soon as the modal is open.
def sent : List ModalEvent := [.open "b1", .render, .confirm]

end Demo

end SmartParking.Frontend
