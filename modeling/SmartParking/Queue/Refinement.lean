import SmartParking.Async.Expand
import SmartParking.Queue.Codec.Theorems

namespace SmartParking.Queue

open Async Program SmartParking.Queue.RabbitMqReservationQueueAdapter

-- The values that the worker's ports take a payload for.

def asText : Json → String
  | .string text => text
  | _ => ""

def asSlotType : Json → Option SlotType
  | .string "REGULAR" => some .REGULAR
  | .string "MOTO" => some .MOTO
  | .string "ELECTRICO" => some .ELECTRICO
  | .string "DISCAPACITADOS" => some .DISCAPACITADOS
  | _ => none

-- The calls of the consumer on the ports of the backend.
def realise (config : Config) : (call : Call) → SmartParking.Port (Answer call)
  | .createReservation input => CreateReservationUseCase.execute config {
      userId := asText input.userId
      branchId := asText input.branchId
      slotType := input.slotType.bind asSlotType
      startAt := input.startAt.join.map JsDate.Time.ms }
  | .notifyReservationRequestResolved payload =>
      SmartParking.notifier.notifyReservationRequestResolved {
        requestId := asText payload.requestId
        userId := asText payload.userId
        resolution := payload.resolution }
  | .ack => SmartParking.channel.ack
  | .nack requeue => SmartParking.channel.nack requeue

-- The message of the backend. A date that is none is no date.
def ReservationRequestMessage.typed (message : ReservationRequestMessage) :
    SmartParking.ReservationRequestMessage where
  requestId := message.requestId
  userId := message.userId
  branchId := message.branchId
  slotType := message.slotType.join
  startAt := message.startAt.join.map JsDate.Time.ms
  requestedAt := (message.requestedAt.map JsDate.Time.ms).getD 0

variable {env : Environment} {message : ReservationRequestMessage}

theorem asSlotType_slotTypeJson (type : Option (Option SlotType)) :
    (type.map slotTypeJson).bind asSlotType = type.join := by
  rcases type with _ | (_ | type)
  · rfl
  · rfl
  · cases type <;> rfl

theorem join_filter_isSome (date : Option Date) : (date.filter Option.isSome).join = date.join := by
  rcases date with _ | (_ | time) <;> rfl

theorem realise_creation (config : Config) :
    realise config (.createReservation {
      userId := message.received.userId
      branchId := message.received.branchId
      slotType := message.received.slotType
      startAt := message.received.startAt }) = CreateReservationUseCase.execute config {
        userId := message.typed.userId
        branchId := message.typed.branchId
        slotType := message.typed.slotType
        startAt := message.typed.startAt } := by
  simp only [realise, asText, ReservationRequestMessage.received,
    ReservationRequestMessage.payload, ReservationRequestMessage.typed, asSlotType_slotTypeJson,
    join_filter_isSome]

theorem expand_resolve (config : Config) :
    (ProcessReservationRequestUseCase.resolve message.received).expand (realise config) =
      SmartParking.ProcessReservationRequestUseCase.resolve config message.typed := by
  refine (expand_tryCatch _ _).trans (congrArg₂ Program.tryCatch ?_ (funext fun err => ?_))
  · rw [expand_bind, createReservation.execute, expand_perform, realise_creation]
    rfl
  · cases err <;> rfl

theorem expand_execute (config : Config) :
    (ProcessReservationRequestUseCase.execute message.received).expand (realise config) =
      SmartParking.ProcessReservationRequestUseCase.execute config message.typed := by
  rw [ProcessReservationRequestUseCase.execute, expand_bind, expand_resolve]
  refine congrArg _ (funext fun resolution => ?_)
  exact expand_perform _

-- The consumer does with the bytes of a message what the backend's consumer does with
-- the message.
theorem expand_handle (config : Config) (hrequest : message.requestId ≠ "")
    (hbranch : message.branchId ≠ "") (hrequested : message.requestedAt.isSome) :
    (ReservationRequestConsumer.handle env (some (content message))).expand (realise config) =
      SmartParking.ReservationRequestConsumer.handle config message.typed := by
  rw [ReservationRequestConsumer.handle, parse_content hrequest hbranch hrequested]
  by_cases huser : message.userId = ""
  · have hunreadable : SmartParking.ReservationRequestConsumer.readable message.typed = false := by
      simp [SmartParking.ReservationRequestConsumer.readable, ReservationRequestMessage.typed, huser]
    rw [if_pos huser, SmartParking.ReservationRequestConsumer.handle, hunreadable]
    exact expand_perform _
  · have hreadable : SmartParking.ReservationRequestConsumer.readable message.typed = true := by
      simp [SmartParking.ReservationRequestConsumer.readable, ReservationRequestMessage.typed, huser,
        hrequest, hbranch]
    rw [if_neg huser, SmartParking.ReservationRequestConsumer.handle, hreadable]
    refine (expand_tryCatch _ _).trans (congrArg₂ Program.tryCatch ?_ (funext fun err => ?_))
    · rw [expand_bind, expand_execute]
      refine congrArg _ (funext fun _ => ?_)
      -- a text has a name for the log
      have hlog : ReservationRequestConsumer.log message.received.requestId = pure () := rfl
      rw [hlog, expand_bind, expand_pure]
      exact (bind_pure _).trans (expand_perform _)
    · exact expand_perform _

end SmartParking.Queue
