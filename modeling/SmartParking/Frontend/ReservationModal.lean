import SmartParking.Backend.Domain
import SmartParking.JsDate
import SmartParking.Machine

namespace SmartParking.Frontend

inductive ReservationMode where
  | IMMEDIATE | SCHEDULED
  deriving DecidableEq

-- The user's inputs. No slot type stands for any.
structure Form where
  slotType : Option SlotType
  reservationMode : ReservationMode
  startDate : String
  startTime : String
  deriving DecidableEq

structure SuggestedBranch where
  id : Id
  name : String
  address : String
  deriving DecidableEq

structure Suggestion where
  suggestedBranch : SuggestedBranch
  distanceKm : ℚ
  deriving DecidableEq

inductive ResolvedStatus where
  | CREATED | SUGGEST_OTHER_BRANCH | REJECTED
  deriving DecidableEq

structure ReservationRequestResolved where
  requestId : Id
  status : ResolvedStatus
  suggestedBranch : Option SuggestedBranch
  distanceKm : Option ℚ
  message : Option String
  deriving DecidableEq

-- What the user gets to see.
inductive Shown where
  | success (message : String)
  | error (message : String)
  | navigated (path : String)
  | suggestion (suggestion : Suggestion)
  deriving DecidableEq

-- A call of the API.
structure Posted where
  targetBranchId : Id
  isSuggestion : Bool
  slotType : Option SlotType
  startAt : Option String
  deriving DecidableEq

-- The timer of a wait, and the request that is waited for.
structure Timer where
  handle : ℕ
  due : ℕ
  requestId : Id
  deriving DecidableEq

-- What the functions of the last render have closed over.
structure Closure where
  branch : Option Id
  form : Form
  submitting : Bool
  suggestion : Option Suggestion
  pendingRequestId : Option Id
  deriving DecidableEq

-- What has happened to the waits, for the proofs: the page was rendered, a wait was
-- ended, the response to a request has arrived, or the timer of its wait has fired.
inductive Entry where
  | rendered
  | ended
  | answered (requestId : Id)
  | expired (requestId : Id)
  deriving DecidableEq

-- The calls are known by their numbers, as the timers are. What is shown and the log
-- have the latest first.
structure ReservationModal where
  branch : Option Id
  form : Form
  submitting : Bool
  suggestion : Option Suggestion
  pendingRequestId : Option Id
  timeoutRef : Option ℕ
  rendered : Closure
  clock : ℕ
  timers : List Timer
  nextHandle : ℕ
  calls : List Posted
  inFlight : List ℕ
  shown : List Shown
  log : List Entry
  deriving DecidableEq

-- What the user does, what reaches the page, and what the browser does.
inductive ModalEvent where
  | edit (form : Form)
  | open (branchId : Id)
  | close
  | confirm
  | accepted (call : ℕ) (requestId : Id)
  | failed (call : ℕ) (message : String)
  | resolved (payload : ReservationRequestResolved)
  | timeout (handle : ℕ)
  | render
  | elapse (ms : ℕ)
  deriving DecidableEq

def RESOLUTION_TIMEOUT_MS : ℕ := 20000

namespace ReservationModal

def new : ReservationModal where
  branch := none
  form := ⟨none, .IMMEDIATE, "", ""⟩
  submitting := false
  suggestion := none
  pendingRequestId := none
  timeoutRef := none
  rendered := ⟨none, ⟨none, .IMMEDIATE, "", ""⟩, false, none, none⟩
  clock := 0
  timers := []
  nextHandle := 0
  calls := []
  inFlight := []
  shown := []
  log := []

def render (modal : ReservationModal) : ReservationModal :=
  { modal with
    rendered := {
      branch := modal.branch
      form := modal.form
      submitting := modal.submitting
      suggestion := modal.suggestion
      pendingRequestId := modal.pendingRequestId }
    log := .rendered :: modal.log }

def notifyError (message : String) (modal : ReservationModal) : ReservationModal :=
  { modal with shown := .error message :: modal.shown }

def stopWaiting (modal : ReservationModal) : ReservationModal :=
  { modal with
    timers := modal.timers.filter fun timer => modal.timeoutRef ≠ some timer.handle
    timeoutRef := none
    pendingRequestId := none
    submitting := false
    log := .ended :: modal.log }

-- A click renders at once, and the effect of another branch runs after that. The mode
-- stays as it was.
def openBranch (branchId : Id) (modal : ReservationModal) : ReservationModal :=
  if modal.branch = some branchId then modal
  else
    stopWaiting {
      render { modal with branch := some branchId } with
      form := { modal.form with slotType := none, startDate := "", startTime := "" }
      suggestion := none }

-- The handler of the event, which is that of the last render.
def handleResolved (payload : ReservationRequestResolved) (modal : ReservationModal) :
    ReservationModal :=
  if modal.rendered.pendingRequestId ≠ some payload.requestId ∨ payload.requestId = "" then modal
  else
    match payload.status, payload.suggestedBranch with
    | .CREATED, _ =>
        { modal.stopWaiting with
          branch := none
          shown := .navigated "/mi-reserva" ::
            .success "Reserva creada. Tienes 20 minutos para hacer check-in." :: modal.shown }
    | .SUGGEST_OTHER_BRANCH, some suggestedBranch =>
        let suggestion := { suggestedBranch, distanceKm := payload.distanceKm.getD 0 }
        { modal.stopWaiting with
          suggestion := some suggestion
          shown := .suggestion suggestion :: modal.shown }
    | _, _ => modal.stopWaiting.notifyError (payload.message.getD "No se pudo crear la reserva.")

-- The text of a local date and time, when it is one.
def toISOString (dateOfText : String → Option JsDate.Time) (form : Form) : Option String :=
  (JsDate.parse dateOfText (form.startDate ++ "T" ++ form.startTime)).map JsDate.toISOString

def post (posted : Posted) (modal : ReservationModal) : ReservationModal :=
  { modal with
    submitting := true
    calls := modal.calls ++ [posted]
    inFlight := modal.calls.length :: modal.inFlight }

def handleConfirm (dateOfText : String → Option JsDate.Time) (targetBranchId : Id)
    (isSuggestion : Bool) (modal : ReservationModal) : ReservationModal :=
  let form := modal.rendered.form
  if form.reservationMode = .SCHEDULED then
    if form.startDate = "" ∨ form.startTime = "" then
      modal.notifyError "Selecciona tanto la fecha como la hora de inicio."
    else
      match toISOString dateOfText form with
      | some startAt => modal.post ⟨targetBranchId, isSuggestion, form.slotType, some startAt⟩
      | none => ({ modal with submitting := false } : ReservationModal).notifyError "Invalid time value"
  else modal.post ⟨targetBranchId, isSuggestion, form.slotType, none⟩

-- The button that the last render shows, unless it is disabled.
def confirm (dateOfText : String → Option JsDate.Time) (modal : ReservationModal) :
    ReservationModal :=
  match modal.rendered.branch with
  | none => modal
  | some branchId =>
      if modal.rendered.submitting then modal
      else
        match modal.rendered.suggestion with
        | some suggestion => modal.handleConfirm dateOfText suggestion.suggestedBranch.id true
        | none => modal.handleConfirm dateOfText branchId false

-- The continuation of handleConfirm, when the response arrives.
def accepted (requestId : Id) (modal : ReservationModal) : ReservationModal :=
  { modal with
    pendingRequestId := some requestId
    timeoutRef := some modal.nextHandle
    timers := ⟨modal.nextHandle, modal.clock + RESOLUTION_TIMEOUT_MS, requestId⟩ :: modal.timers
    nextHandle := modal.nextHandle + 1
    log := .answered requestId :: modal.log }

def failed (message : String) (modal : ReservationModal) : ReservationModal :=
  ({ modal with submitting := false } : ReservationModal).notifyError message

-- The callback of a timer.
def expire (timer : Timer) (modal : ReservationModal) : ReservationModal :=
  (stopWaiting { modal with
    timers := modal.timers.filter fun other => other.handle ≠ timer.handle
    log := .expired timer.requestId :: modal.log }).notifyError
      "Tu solicitud sigue en cola. Revisa \"Mi reserva\" en unos segundos."

-- A timer fires when it is due, or later.
def fire (handle : ℕ) (modal : ReservationModal) : ReservationModal :=
  match modal.timers.find? fun timer => timer.handle = handle ∧ timer.due ≤ modal.clock with
  | some timer => modal.expire timer
  | none => modal

-- Each call is answered once.
def arrive (call : ℕ) (continuation : ReservationModal → ReservationModal)
    (modal : ReservationModal) : ReservationModal :=
  if call ∈ modal.inFlight then
    continuation { modal with inFlight := modal.inFlight.erase call }
  else modal

def step (dateOfText : String → Option JsDate.Time) (modal : ReservationModal) :
    ModalEvent → ReservationModal
  | .edit form => render { modal with form }
  | .open branchId => modal.openBranch branchId
  | .close => render { modal with branch := none }
  | .confirm => (modal.confirm dateOfText).render
  | .accepted call requestId => modal.arrive call (accepted requestId)
  | .failed call message => modal.arrive call (failed message)
  | .resolved payload => modal.handleResolved payload
  | .timeout handle => modal.fire handle
  | .render => modal.render
  | .elapse ms => { modal with clock := modal.clock + ms }

def run (dateOfText : String → Option JsDate.Time) (events : List ModalEvent) : ReservationModal :=
  Machine.play (step dateOfText) new events

end ReservationModal

end SmartParking.Frontend
