import SmartParking.Backend.Specs

namespace SmartParking

open Async

-- What the use cases write. Their other calls only read.

theorem calculate_reads (input : PricingInput) :
    (HourlyPricingPolicy.calculate input).Uses Call.Reads := by
  refine Program.uses_bind (uses_ask.mpr trivial) fun branch => ?_
  cases branch <;> trivial

theorem announceEntry_reads (session : ParkingSession) (reservationId : Id) :
    (RegisterEntryUseCase.announce session reservationId).Uses Call.Reads := by
  refine Program.uses_bind (uses_ask.mpr trivial) fun reservation => ?_
  cases reservation with
  | none => trivial
  | some reservation => exact notifyAll_reads _

section Uses

variable {allowed : Call → Prop} (hreads : ∀ call, call.Reads → allowed call)

include hreads

theorem uses_read_bind {α : Type} {call : Call} (hcall : call.Reads) {f : Answer call → Port α}
    (hf : ∀ value, (f value).Uses allowed) : (ask call >>= f).Uses allowed :=
  Program.uses_bind (uses_ask.mpr (hreads call hcall)) hf

theorem uses_reads {α : Type} {p : Port α} (hp : p.Uses Call.Reads) : p.Uses allowed :=
  hp.mono hreads

theorem uses_create_for (config : Config) (input : CreateReservationInput)
    (hclaim : ∀ branchId type, allowed (.slotsClaimAvailableSlot branchId type) ∧
      allowed (.slotsClaimLeastRecentlyUsedSlot branchId type))
    (hinsert : ∀ data : CreateReservationData, data.userId = input.userId →
      data.branchId = input.branchId → allowed (.reservationsCreate data)) :
    (CreateReservationUseCase.execute config input).Uses allowed := by
  have hstore (slot : ParkingSlot) :
      (CreateReservationUseCase.store config input slot).Uses allowed := by
    rw [store_eq]
    refine uses_read_bind hreads (by trivial) fun now => ?_
    refine Program.uses_bind (uses_ask.mpr (hinsert _ rfl rfl)) fun row => ?_
    exact uses_reads hreads (announced_reads row)
  refine Program.uses_bind (uses_reads hreads (canCreateReservation_reads _)) fun eligibility => ?_
  split
  · trivial
  rw [reserve_eq]
  refine Program.uses_bind ?_ fun claimed => ?_
  · unfold claimSlot
    cases config.strategy with
    | default => exact uses_ask.mpr (hclaim _ _).1
    | balanced => exact uses_ask.mpr (hclaim _ _).2
  cases claimed with
  | some slot => exact hstore slot
  | none =>
      refine Program.uses_bind (uses_reads hreads (lookElsewhere_reads config _)) fun assignment => ?_
      cases assignment with
      | ASSIGNED slot => exact hstore slot
      | SUGGEST_OTHER_BRANCH branch distanceKm => trivial
      | NO_AVAILABILITY => trivial

theorem uses_create (config : Config) (input : CreateReservationInput)
    (hclaim : ∀ branchId type, allowed (.slotsClaimAvailableSlot branchId type) ∧
      allowed (.slotsClaimLeastRecentlyUsedSlot branchId type))
    (hinsert : ∀ data, allowed (.reservationsCreate data)) :
    (CreateReservationUseCase.execute config input).Uses allowed :=
  uses_create_for hreads config input hclaim fun data _ _ => hinsert data

theorem uses_cancel (input : CancelReservationInput)
    (hstatus : ∀ id, allowed (.reservationsUpdateStatus id .CANCELLED none))
    (hslot : ∀ slotId, allowed (.slotsUpdateStatus slotId .DISPONIBLE)) :
    (CancelReservationUseCase.execute input).Uses allowed := by
  refine uses_read_bind hreads (by trivial) fun found => ?_
  cases found.filter fun reservation => reservation.userId = input.userId with
  | none => trivial
  | some reservation =>
      dsimp only
      split
      · trivial
      refine Program.uses_bind (uses_ask.mpr (hstatus _)) fun _ => ?_
      refine Program.uses_bind (uses_ask.mpr (hslot _)) fun _ => ?_
      refine Program.uses_bind ?_ fun _ => uses_reads hreads (notifyAll_reads _)
      refine uses_read_bind hreads (by trivial) fun eventId => ?_
      exact uses_read_bind hreads (by trivial) fun occurredAt => uses_ask.mpr (hreads _ trivial)

theorem uses_sweep (time : ℤ) (candidates : List Reservation) (count : ℕ)
    (hstatus : ∀ id, allowed (.reservationsUpdateStatus id .EXPIRED none))
    (hslot : ∀ slotId, allowed (.slotsUpdateStatus slotId .DISPONIBLE)) :
    (ExpireOverdueReservationsUseCase.sweep time candidates count).Uses allowed := by
  induction candidates generalizing count with
  | nil => trivial
  | cons reservation rest ih =>
      unfold ExpireOverdueReservationsUseCase.sweep
      split
      · exact ih count
      refine Program.uses_bind ?_ fun _ => ih (count + 1)
      refine Program.uses_bind (uses_ask.mpr (hstatus _)) fun _ => ?_
      exact Program.uses_bind (uses_ask.mpr (hslot _)) fun _ =>
        uses_reads hreads (notifyAll_reads _)

theorem uses_expire (hstatus : ∀ id, allowed (.reservationsUpdateStatus id .EXPIRED none))
    (hslot : ∀ slotId, allowed (.slotsUpdateStatus slotId .DISPONIBLE)) :
    ExpireOverdueReservationsUseCase.execute.Uses allowed :=
  uses_read_bind hreads (by trivial) fun time => uses_read_bind hreads (by trivial) fun candidates =>
    uses_sweep hreads time candidates 0 hstatus hslot

theorem uses_entry (token : String)
    (hstatus : ∀ id time, allowed (.reservationsUpdateStatus id .CONFIRMED (some time)))
    (hinsert : ∀ data, allowed (.sessionsCreate data))
    (hslot : ∀ slotId, allowed (.slotsUpdateStatus slotId .OCUPADA)) :
    (RegisterEntryUseCase.execute token).Uses allowed := by
  have henter (reservation : Reservation) (time : ℤ) :
      (DefaultParkingPolicy.enter reservation time).Uses allowed := by
    refine Program.uses_bind ?_ fun _ => Program.uses_bind (uses_ask.mpr (hinsert _)) fun _ =>
      Program.uses_bind (uses_ask.mpr (hslot _)) fun _ => trivial
    unfold DefaultParkingPolicy.confirmIfPending
    split
    · exact uses_ask.mpr (hstatus _ _)
    · trivial
  refine uses_read_bind hreads (by trivial) fun payload => ?_
  split
  · trivial
  split
  · trivial
  refine uses_read_bind hreads (by trivial) fun time => ?_
  refine Program.uses_bind (uses_read_bind hreads (by trivial) fun found => ?_) fun session =>
    Program.uses_bind (uses_reads hreads (announceEntry_reads session _)) fun _ => trivial
  split
  · trivial
  split_ifs
  · trivial
  · trivial
  refine uses_read_bind hreads (by trivial) fun existing => ?_
  split
  · trivial
  · exact henter _ time

theorem uses_finish (sessionId : Id) (time : ℤ) (reservation : Reservation)
    (hsession : ∀ id exitAt, allowed (.sessionsMarkCompleted id exitAt))
    (hslot : ∀ slotId, allowed (.slotsUpdateStatus slotId .DISPONIBLE))
    (hstatus : ∀ id, allowed (.reservationsUpdateStatus id .COMPLETED none)) :
    (RegisterExitUseCase.finish sessionId time reservation).Uses allowed := by
  refine Program.uses_bind (uses_read_bind hreads (by trivial) fun found => ?_) fun result => ?_
  · cases found.filter ParkingSession.isActive with
    | none => trivial
    | some session =>
        refine uses_read_bind hreads (by trivial) fun payment => ?_
        split
        · refine Program.uses_bind (uses_ask.mpr (hsession _ _)) fun _ => ?_
          refine Program.uses_bind (uses_ask.mpr (hslot _)) fun _ => ?_
          refine Program.uses_bind (uses_ask.mpr (hstatus _)) fun _ => ?_
          exact uses_read_bind hreads (by trivial) fun _ => trivial
        · trivial
  · cases result with
    | REJECTED reason => cases reason <;> trivial
    | RELEASED session =>
        cases session with
        | none => trivial
        | some session =>
            exact Program.uses_bind (uses_reads hreads (notifyAll_reads _)) fun _ => trivial

theorem uses_exit (token : String)
    (hsession : ∀ id exitAt, allowed (.sessionsMarkCompleted id exitAt))
    (hslot : ∀ slotId, allowed (.slotsUpdateStatus slotId .DISPONIBLE))
    (hstatus : ∀ id, allowed (.reservationsUpdateStatus id .COMPLETED none)) :
    (RegisterExitUseCase.execute token).Uses allowed := by
  refine uses_read_bind hreads (by trivial) fun payload => ?_
  split
  · trivial
  split
  · trivial
  refine uses_read_bind hreads (by trivial) fun time => uses_read_bind hreads (by trivial) fun found => ?_
  split
  · trivial
  refine uses_read_bind hreads (by trivial) fun found => ?_
  split
  · trivial
  refine uses_read_bind hreads (by trivial) fun payment => ?_
  split
  · trivial
  refine Program.uses_bind (uses_reads hreads (calculate_reads _)) fun pricing => ?_
  split
  · trivial
  · exact uses_finish hreads _ time _ hsession hslot hstatus

end Uses

-- Before they write, an entry and an exit only read.
section Rules

variable {db : Database} {now : ℤ} {post : Except Fault ParkingSession → World → Prop}

theorem wp_entry (token : String)
    (herr : ∀ err later, now ≤ later → post (.error err) ⟨db, later⟩)
    (hregister : ∀ reservationId time, now ≤ time →
      (DefaultParkingPolicy.registerEntry reservationId time >>= fun session =>
        RegisterEntryUseCase.announce session reservationId >>= fun _ => pure session).wp serve
          ⟨db, time⟩ post) :
    (RegisterEntryUseCase.execute token).wp serve ⟨db, now⟩ post := by
  refine wp_reads_bind (uses_ask.mpr (by trivial)) herr fun payload later hl => ?_
  cases payload.reservationId with
  | none => exact herr _ later hl
  | some reservationId =>
      dsimp only
      split
      · exact herr _ later hl
      · exact wp_clockNow_bind fun time ht => hregister reservationId time (hl.trans ht)

theorem wp_exit (token : String)
    (herr : ∀ err later, now ≤ later → post (.error err) ⟨db, later⟩)
    (hfinish : ∀ sessionId time reservation later, now ≤ later →
      (RegisterExitUseCase.finish sessionId time reservation).wp serve ⟨db, later⟩ post) :
    (RegisterExitUseCase.execute token).wp serve ⟨db, now⟩ post := by
  have hread {α : Type} {p : Port α} {f : α → Port ParkingSession} {before : ℤ}
      (hl : now ≤ before) (hp : p.Uses Call.Reads)
      (hf : ∀ value later, now ≤ later → (f value).wp serve ⟨db, later⟩ post) :
      (p >>= f).wp serve ⟨db, before⟩ post :=
    wp_reads_bind hp (fun err later h => herr err later (hl.trans h)) fun value later h =>
      hf value later (hl.trans h)
  refine hread le_rfl (uses_ask.mpr (by trivial)) fun payload later hl => ?_
  cases payload.sessionId with
  | none => exact herr _ later hl
  | some sessionId =>
      dsimp only
      split
      · exact herr _ later hl
      refine hread hl (uses_ask.mpr (by trivial)) fun time later hl => ?_
      refine hread hl (uses_ask.mpr (by trivial)) fun found later hl => ?_
      cases found.filter ParkingSession.isActive with
      | none => exact herr _ later hl
      | some session =>
          refine hread hl (uses_ask.mpr (by trivial)) fun found later hl => ?_
          cases found with
          | none => exact herr _ later hl
          | some reservation =>
              refine hread hl (uses_ask.mpr (by trivial)) fun payment later hl => ?_
              cases payment.filter Payment.isApproved with
              | none => exact herr _ later hl
              | some payment =>
                  refine hread hl (calculate_reads _) fun pricing later hl => ?_
                  split
                  · exact herr _ later hl
                  · exact hfinish sessionId time reservation later hl

end Rules

end SmartParking
