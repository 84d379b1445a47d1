import SmartParking.Announcement.Once
import SmartParking.Json.RoundTrip
import SmartParking.Live
import SmartParking.Occupancy.Tracking
import SmartParking.Realtime.Audience.Theorems

namespace SmartParking

open Async Realtime

-- What realtime-service makes of an envelope.
section Wire

variable (other : Option Json → String) (envelope : Envelope)

theorem targetOf_toJson (target : Envelope.Target) : targetOf other target.toJson = target.rooms := by
  cases target <;> rfl

theorem envelopeOf_content : envelopeOf other envelope.content = some {
    event := (some envelope.event).filter (· ≠ "")
    target := some envelope.target.rooms
    payload := some envelope.payload } := by
  have htarget : ∀ target : Envelope.Target, target.toJson.truthy = true := fun target => by
    cases target <;> rfl
  simp only [envelopeOf, Envelope.content, Utf8.decode_encode, Json.parse_stringify, Option.map_some]
  by_cases hevent : envelope.event = "" <;>
    simp [Json.get?, hevent, htarget, targetOf_toJson, textOf, Option.filter]

end Wire

-- Which messages tell of a creation.
section Told

variable {numeral : ℚ → ℤ × ℤ} {channel : Channel} {id : Id}

theorem toldId_notify {message : Notification} {envelope : Envelope}
    (h : RabbitRealtimePublisherAdapter.notify message = some envelope)
    (htold : toldId channel envelope.event (some envelope.payload) = some id) :
    madeKnown channel (.notify message) = some id := by
  cases message <;> cases h <;> cases channel <;> exact htold

theorem toldId_resolved {payload : ReservationRequestResolvedPayload}
    (htold : toldId channel "reservation.request.resolved" (some
      (RabbitRealtimePublisherAdapter.notifyReservationRequestResolved numeral payload).payload) =
        some id) : madeKnown channel (.notifyReservationRequestResolved payload) = some id := by
  obtain ⟨requestId, userId, resolution⟩ := payload
  cases resolution <;> cases channel <;> exact htold

theorem toldId_envelope? {call : Call} {envelope : Envelope}
    (h : RabbitRealtimePublisherAdapter.envelope? numeral call = some envelope)
    (htold : toldId channel envelope.event (some envelope.payload) = some id) :
    madeKnown channel call = some id := by
  cases call with
  | notify message => exact toldId_notify h htold
  | notifyReservationRequestResolved payload =>
      cases h
      exact toldId_resolved htold
  | _ => cases h

end Told

-- No slot is added to a branch, or taken from it.
section Slots

variable {db : Database} {now : ℤ}

theorem totalSlots_claim (order : ParkingSlot → ParkingSlot → Prop) [DecidableRel order]
    (locked : Id → Bool) (branchId other : Id) (type : Option SlotType) :
    Occupancy.totalSlots
      (PrismaParkingSlotRepository.claim order db now locked branchId type).2 other =
        Occupancy.totalSlots db other := by
  rcases PrismaParkingSlotRepository.claim_cases order db now locked branchId type with
    ⟨slot, -, -, he⟩ | he <;> rw [he]
  exact Occupancy.totalSlots_setStatus slot.id .RESERVADA now other

theorem totalSlots_query (choice : Choice) (call : Call) (branchId : Id) :
    Occupancy.totalSlots (query choice now db call).2 branchId =
      Occupancy.totalSlots db branchId := by
  cases call with
  | slotsClaimAvailableSlot branchId type => exact totalSlots_claim _ _ _ _ _
  | slotsClaimLeastRecentlyUsedSlot branchId type => exact totalSlots_claim _ _ _ _ _
  | slotsUpdateStatus slotId status =>
      rw [query_slotsUpdateStatus]
      exact Occupancy.totalSlots_setStatus slotId status now branchId
  | reservationsCreate data =>
      obtain ⟨bigger, -, hq⟩ := query_reservationsCreate db choice now data
      rw [hq]
      rfl
  | sessionsCreate data =>
      rcases query_sessionsCreate db choice now data with ⟨bigger, -, hq⟩ | ⟨-, text, hq⟩ <;> rw [hq]
      rfl
  | reservationsUpdateStatus id status confirmedAt => rw [query_reservationsUpdateStatus]; rfl
  | sessionsMarkCompleted id exitAt => rw [query_sessionsMarkCompleted]; rfl
  | _ => rfl

theorem totalSlots_unreliable (choice : Unsure) (world : World) (call : Call) (branchId : Id) :
    Occupancy.totalSlots (unreliable serve choice world call).2.db branchId =
      Occupancy.totalSlots world.db branchId :=
  unreliable_cases
    (fun _ (after : World) => Occupancy.totalSlots after.db branchId = Occupancy.totalSlots world.db branchId)
    (fun choice => totalSlots_query choice call branchId)
    (fun choice _ => totalSlots_query choice call branchId) (fun _ => rfl) choice

end Slots

section Published

variable {Tid : Type} [DecidableEq Tid] {numeral : ℚ → ℤ × ℤ} {first pool : Workers Tid}
  {exchange : List Envelope} {envelope : Envelope} {channel : Channel} {id : Id}

theorem totalSlots_of_reaches (h : Pool.Reaches (unreliable serve) Pool.unguarded first pool)
    (branchId : Id) : Occupancy.totalSlots pool.world.db branchId =
      Occupancy.totalSlots first.world.db branchId :=
  h.constant (fun world => Occupancy.totalSlots world.db branchId) fun choice world call =>
    totalSlots_unreliable choice world call branchId

-- The slots of a branch are the same when they are all counted as when those that are
-- taken are.
theorem accurate_later (h : LaterEvent first pool envelope) : envelope.Accurate numeral first pool := by
  cases h with
  | payment payload => exact .payment payload
  | @occupancy asked counted branchId hasked _ hcounted h =>
      have htotal : Occupancy.totalSlots asked.world.db branchId =
          Occupancy.totalSlots counted.world.db branchId :=
        (totalSlots_of_reaches hcounted branchId).symm
      rw [Occupancy.groupBy_total, Occupancy.groupBy_occupied, htotal,
        Occupancy.summarize_groupOf (Occupancy.occupiedSlots_le _ _),
        ← totalSlots_of_reaches h branchId]
      exact .occupancy (hasked.trans hcounted) h

omit [DecidableEq Tid] in
theorem mem_liveEvents {history : History Tid} : envelope ∈ liveEvents numeral history ↔
    ∃ event ∈ history, RabbitRealtimePublisherAdapter.envelope? numeral event.call = some envelope := by
  simp [liveEvents]

theorem accurate_resolved {payload : ReservationRequestResolvedPayload}
    (h : Accurate pool.world.db (.notifyReservationRequestResolved payload)) :
    (RabbitRealtimePublisherAdapter.notifyReservationRequestResolved numeral payload).Accurate
      numeral first pool := by
  obtain ⟨requestId, userId, resolution⟩ := payload
  cases resolution with
  | CREATED id branchId slotId startAt expiresAt =>
      obtain ⟨reservation, hm, rfl, rfl, rfl, rfl, rfl, rfl⟩ := h
      exact .created hm
  | SUGGEST_OTHER_BRANCH id name address distanceKm => exact .notCreated fun _ _ _ _ _ => nofun
  | REJECTED code message => exact .notCreated fun _ _ _ _ _ => nofun

theorem accurate_live {config : Config} {world : World} {tasks : Tid → Task}
    (hlinked : Linked world.db)
    (h : Pool.Reaches (unreliable serve) Pool.unguarded (Workers.start config world tasks) pool)
    (henvelope : envelope ∈ liveEvents numeral pool.history) : envelope.Accurate numeral first pool := by
  obtain ⟨event, hevent, hsent⟩ := mem_liveEvents.mp henvelope
  have haccurate := (announced_of_reaches config world tasks hlinked h).accurate event hevent
  obtain ⟨thread, call, answer⟩ := event
  cases call with
  | notify message => exact .notified hsent haccurate
  | notifyReservationRequestResolved payload =>
      cases hsent
      exact accurate_resolved haccurate
  | _ => cases hsent

theorem toldId_later (h : LaterEvent first pool envelope) :
    toldId channel envelope.event (some envelope.payload) = none := by
  cases h <;> cases channel <;> rfl

theorem countP_told {config : Config} {world : World} {tasks : Tid → Task} {others : List Envelope}
    (h : Pool.Reaches (unreliable serve) Pool.unguarded (Workers.start config world tasks) pool)
    (hothers : ∀ envelope ∈ others, LaterEvent first pool envelope) (channel : Channel) (id : Id) :
    (liveEvents numeral pool.history ++ others).countP (fun envelope =>
      toldId channel envelope.event (some envelope.payload) = some id) ≤ 1 := by
  have hlater : others.countP (fun envelope =>
      toldId channel envelope.event (some envelope.payload) = some id) = 0 := by
    rw [List.countP_eq_zero]
    intro envelope hm
    rw [toldId_later (hothers envelope hm)]
    simp
  rw [List.countP_append, hlater, Nat.add_zero, liveEvents, List.countP_filterMap,
    List.countP_reverse]
  refine le_trans (List.countP_mono_left fun event _ htold => ?_) (madeKnown_once h channel id)
  cases hsent : RabbitRealtimePublisherAdapter.envelope? numeral event.call with
  | none =>
      rw [hsent] at htold
      cases htold
  | some envelope =>
      rw [hsent] at htold
      exact decide_eq_true (toldId_envelope? hsent (of_decide_eq_true htold))

end Published

-- What a browser gets is an envelope of the exchange.
section Delivered

variable {jwtVerify : String → Except String JwtPayload} {other : Option Json → String}
  {exchange : List Envelope} {events : List (RealtimeEvent (Option Json))} {id : Sid}

theorem exists_of_mem_out {client : Option Client} {event : RealtimeEvent (Option Json)}
    {delivery : Delivery (Option Json)} (h : delivery ∈ Client.out id client event) :
    ∃ target, event = .relay (some ⟨some delivery.event, some target, delivery.payload⟩) ∧
      delivery.id = id ∧ client.any (·.sees target) = true := by
  unfold Client.out at h
  split at h
  next name target payload =>
    split at h
    next hsees =>
      obtain rfl := List.mem_singleton.mp h
      exact ⟨target, rfl, rfl, hsees.2⟩
    next => cases h
  next => cases h

theorem exists_of_mem_deliveries {delivery : Delivery (Option Json)}
    (h : delivery ∈ Nsp.deliveries jwtVerify events) : ∃ past target client,
      past ++ [.relay (some ⟨some delivery.event, some target, delivery.payload⟩)] <+: events ∧
        Machine.play (Client.step jwtVerify delivery.id) none past = some client ∧
          client.sees target = true := by
  have hown : delivery ∈ (Nsp.deliveries jwtVerify events).filter (·.id = delivery.id) :=
    List.mem_filter.mpr ⟨h, decide_eq_true rfl⟩
  rw [filter_deliveries, Client.deliveries, Machine.mem_outputs] at hown
  obtain ⟨past, event, hpast, hout⟩ := hown
  obtain ⟨target, rfl, -, hsees⟩ := exists_of_mem_out hout
  obtain ⟨client, hclient, hsees⟩ := (Option.any_eq_true ..).mp hsees
  exact ⟨past, target, client, hpast, hclient, hsees⟩

theorem mem_relayed {message : Option (RealtimeEventEnvelope (Option Json))}
    (h : .relay message ∈ events) : message ∈ relayed events :=
  List.mem_filterMap.mpr ⟨_, h, rfl⟩

theorem exists_envelope {message : RealtimeEventEnvelope (Option Json)}
    (hrelayed : relayed events ⊆ exchange.map fun envelope => envelopeOf other envelope.content)
    (h : .relay (some message) ∈ events) : ∃ envelope ∈ exchange,
      message.event = (some envelope.event).filter (· ≠ "") ∧
        message.target = some envelope.target.rooms ∧ message.payload = some envelope.payload := by
  obtain ⟨envelope, hm, hread⟩ := List.mem_map.mp (hrelayed (mem_relayed h))
  rw [envelopeOf_content] at hread
  cases hread
  exact ⟨envelope, hm, rfl, rfl, rfl⟩

-- The envelope of a message has an event of a kind.
def counted (counts : String → Option Json → Bool)
    (message : Option (RealtimeEventEnvelope (Option Json))) : Bool :=
  message.any fun envelope => envelope.event.any fun event => counts event envelope.payload

theorem counts_of_counted {counts : String → Option Json → Bool} {envelope : Envelope}
    (h : counted counts (envelopeOf other envelope.content) = true) :
    counts envelope.event (some envelope.payload) = true := by
  rw [envelopeOf_content, counted, Option.any_some] at h
  obtain ⟨name, hname, h⟩ := (Option.any_eq_true ..).mp h
  dsimp only at hname
  obtain rfl := Option.some.inj (Option.filter_eq_some_iff.mp hname).1
  exact h

theorem countP_out_le (counts : String → Option Json → Bool) (client : Option Client)
    (event : RealtimeEvent (Option Json)) :
    (Client.out id client event).countP (fun delivery => counts delivery.event delivery.payload) ≤
      if (match event with | .relay message => counted counts message | _ => false) then 1 else 0 := by
  unfold Client.out
  split
  next name target payload =>
    split
    · exact le_of_eq (List.countP_singleton ..)
    · exact Nat.zero_le _
  next => exact Nat.zero_le _

-- A socket is sent at most as many of them as are relayed.
theorem countP_deliveries_le (counts : String → Option Json → Bool) :
    (Nsp.deliveries jwtVerify events).countP (fun delivery =>
      delivery.id = id ∧ counts delivery.event delivery.payload) ≤
        (relayed events).countP (counted counts) := by
  have hfilter : (Nsp.deliveries jwtVerify events).countP (fun delivery =>
      delivery.id = id ∧ counts delivery.event delivery.payload) =
        (Client.deliveries jwtVerify id events).countP fun delivery =>
          counts delivery.event delivery.payload := by
    rw [← filter_deliveries, List.countP_filter]
    refine List.countP_congr fun delivery _ => ?_
    simp [and_comm]
  rw [hfilter, relayed, List.countP_filterMap]
  refine (Machine.countP_outputs_le (countP_out_le counts)).trans_eq (List.countP_congr fun event _ => ?_)
  cases event <;> rfl

theorem countP_deliveries_exchange (counts : String → Option Json → Bool)
    (h : (relayed events).Subperm (exchange.map fun envelope => envelopeOf other envelope.content)) :
    (Nsp.deliveries jwtVerify events).countP (fun delivery =>
      delivery.id = id ∧ counts delivery.event delivery.payload) ≤
        exchange.countP fun envelope => counts envelope.event (some envelope.payload) := by
  refine (countP_deliveries_le counts).trans ((h.countP_le _).trans ?_)
  rw [List.countP_map]
  refine List.countP_mono_left fun envelope _ hcounted => ?_
  rw [Function.comp_apply] at hcounted
  exact counts_of_counted hcounted

end Delivered

section

variable {Tid : Type} [DecidableEq Tid]

theorem live_updates (config : Config) (world : World) (tasks : Tid → Task)
    (hlinked : Linked world.db) {pool : Workers Tid}
    (h : Pool.Reaches (unreliable serve) Pool.unguarded (Workers.start config world tasks) pool)
    (numeral : ℚ → ℤ × ℤ) {others : List Envelope}
    (hothers : ∀ envelope ∈ others, LaterEvent (Workers.start config world tasks) pool envelope)
    (jwtVerify : String → Except String JwtPayload) (other : Option Json → String)
    {events : List (RealtimeEvent (Option Json))}
    (hrelayed : relayed events ⊆ (liveEvents numeral pool.history ++ others).map fun envelope =>
      envelopeOf other envelope.content) :
    Live jwtVerify other numeral (Workers.start config world tasks) pool
      (liveEvents numeral pool.history ++ others) events where
  seen delivery hdelivery := by
    obtain ⟨past, target, client, hpast, hclient, hsees⟩ := exists_of_mem_deliveries hdelivery
    obtain ⟨envelope, hm, hevent, htarget, hpayload⟩ := exists_envelope hrelayed
      (hpast.subset (List.mem_append_right _ (List.mem_singleton_self _)))
    refine ⟨envelope, hm, ?_, ?_, hpayload.symm, past, client,
      (List.prefix_append _ _).trans hpast, hclient, ?_⟩
    · rcases List.mem_append.mp hm with hlive | hlater
      · exact accurate_live hlinked h hlive
      · exact accurate_later (hothers envelope hlater)
    · exact Option.some.inj (Option.filter_eq_some_iff.mp hevent.symm).1
    · exact Option.some.inj htarget ▸ hsees
  once hsubperm id channel reservationId := by
    have hcount := @countP_deliveries_exchange jwtVerify other _ events id
      (fun event payload => toldId channel event payload = some reservationId) hsubperm
    simp only [decide_eq_true_eq] at hcount
    exact hcount.trans (countP_told h hothers channel reservationId)

end

-- The occupancy of the branch after the run.
def Demo.occupancy : Envelope :=
  RabbitRealtimePublisherAdapter.occupancyUpdated
    (Occupancy.RabbitRealtimePublisherAdapter.summarize "b1" (PrismaParkingSlotRepository.summaries
      (PrismaParkingSlotRepository.groupBy announced.world.db ["b1"] fun _ => true)
      (PrismaParkingSlotRepository.groupBy announced.world.db ["b1"]
        PrismaParkingSlotRepository.occupiedOrReserved)))

def Demo.exchange : List Envelope := liveEvents numeral announced.history ++ [occupancy]

theorem relayed_watched (exchange : List Envelope) : relayed (Demo.watched exchange) =
    exchange.map fun envelope => envelopeOf (fun _ => "") envelope.content := by
  simp [relayed, Demo.watched, List.filterMap_map]

theorem later_occupancy : LaterEvent
    (Workers.start Demo.config ⟨.opening Demo.branches Demo.twoSlots, 0⟩ Demo.tasks)
    Demo.announced Demo.occupancy :=
  .occupancy (Pool.reaches_of_follows .refl (Pool.follows_unguarded _)) (by decide) .refl .refl

-- She hears of her reservation once, by its event and by the reply.
theorem live_updates_demo :
    Live Demo.jwtVerify (fun _ => "") Demo.numeral
      (Workers.start Demo.config ⟨.opening Demo.branches Demo.twoSlots, 0⟩ Demo.tasks) Demo.announced
      Demo.exchange (Demo.watched Demo.exchange) ∧
    ∀ channel ∈ [Channel.realtime, .reply],
      (Nsp.deliveries Demo.jwtVerify (Demo.watched Demo.exchange)).countP (fun delivery =>
        toldId channel delivery.event delivery.payload = some "r1") = 1 := by
  constructor
  · refine live_updates Demo.config ⟨.opening Demo.branches Demo.twoSlots, 0⟩ Demo.tasks
      (linked_opening _ _) (Pool.reaches_of_follows .refl (Pool.follows_unguarded _)) Demo.numeral
      (List.forall_mem_singleton.mpr later_occupancy) Demo.jwtVerify (fun _ => "") ?_
    rw [relayed_watched]
    exact List.Subset.refl _
  · unfold Demo.watched
    simp only [envelopeOf_content]
    decide +kernel

end SmartParking
