import SmartParking.Messaging.Subscription
import SmartParking.Messaging.Attentive.Theorems
import Mathlib.Data.List.Perm.Basic

namespace SmartParking

open Machine

namespace RabbitMqConnection

variable {Handler : Type} {connection : RabbitMqConnection Handler} {handler : Handler}

def OneChannel (connection : RabbitMqConnection Handler) : Prop :=
  ∀ first second, connection.channelOpen first → connection.channelOpen second → first = second

theorem channelOpen_of_subscribed {link : ℕ} (h : connection.Subscribed handler link) :
    connection.channelOpen link := by
  obtain ⟨opened, hlink, hopen, -⟩ := h
  simpa [channelOpen, hlink] using hopen

theorem oneSubscription_of_oneChannel (h : connection.OneChannel) :
    connection.OneSubscription handler := fun first second hfirst hsecond =>
  h first second (channelOpen_of_subscribed hfirst) (channelOpen_of_subscribed hsecond)

-- Only an attempt that succeeds adds a link.
section Links

@[simp] theorem links_connect : connection.connect.links = connection.links := by
  unfold connect
  split <;> rfl

theorem links_reconnect : connection.reconnect.links = connection.links :=
  links_connect

@[simp] theorem links_scheduleReconnect :
    connection.scheduleReconnect.links = connection.links := by
  unfold scheduleReconnect
  split <;> rfl

@[simp] theorem links_runFrom (link next : ℕ) :
    (connection.runFrom link next).links = connection.links := by
  unfold runFrom
  split <;> rfl

@[simp] theorem readyHandlers_runFrom (link next : ℕ) :
    (connection.runFrom link next).readyHandlers = connection.readyHandlers := by
  unfold runFrom
  split <;> rfl

@[simp] theorem links_fail : connection.fail.links = connection.links := by
  unfold fail
  split
  · exact links_scheduleReconnect
  · rfl

@[simp] theorem links_getChannel : connection.getChannel.links = connection.links := by
  unfold getChannel
  split
  · rfl
  · exact links_connect

@[simp] theorem links_opened (link : Link Handler) :
    (connection.opened link).links = connection.links ++ [link] := by
  unfold opened
  rw [links_runFrom]

@[simp] theorem links_modelClosed (link : ℕ) :
    (connection.modelClosed link).links = connection.links.modify link Link.closeModel := by
  unfold modelClosed
  dsimp only
  split
  · rfl
  · exact links_scheduleReconnect

theorem links_channelClosed (link : ℕ) :
    (connection.channelClosed link).links = connection.links.modify link Link.closeChannel := rfl

@[simp] theorem running_runFrom (link next : ℕ) :
    (connection.runFrom link next).running = connection.running := by
  unfold runFrom
  split <;> rfl

@[simp] theorem channel_runFrom (link next : ℕ) :
    (connection.runFrom link next).channel = connection.channel := by
  unfold runFrom
  split <;> rfl

theorem opening_runFrom (current next : ℕ) (link : Link Handler) :
    (connection.runFrom current next).connecting ≠ some (.opening link) := by
  unfold runFrom
  split <;> exact nofun

@[simp] theorem running_ran {link : ℕ} {ready : Option Handler} {ok : Bool} :
    (connection.ran link ready ok).running = connection.running := by
  unfold ran
  split <;> rfl

@[simp] theorem channel_ran {link : ℕ} {ready : Option Handler} {ok : Bool} :
    (connection.ran link ready ok).channel = connection.channel := by
  unfold ran
  split <;> rfl

theorem length_links_ran {link : ℕ} {ready : Option Handler} {ok : Bool} :
    (connection.ran link ready ok).links.length = connection.links.length := by
  unfold ran
  split
  · exact List.length_modify _ _ _
  · rfl

end Links

theorem channelOpen_congr {connection' : RabbitMqConnection Handler}
    (h : connection'.links = connection.links) {link : ℕ} :
    connection'.channelOpen link ↔ connection.channelOpen link := by
  unfold channelOpen
  rw [h]

-- Closing one link opens no other.
theorem channelOpen_of_modify {connection' : RabbitMqConnection Handler} {link other : ℕ}
    {change : Link Handler → Link Handler} (hclose : ∀ opened, (change opened).channelOpen = false)
    (h : connection'.links = connection.links.modify link change)
    (hopen : connection'.channelOpen other) : connection.channelOpen other := by
  unfold channelOpen at hopen ⊢
  rw [h, any_modify] at hopen
  split at hopen
  · simp only [hclose] at hopen
    cases hl : connection.links[other]? <;> simp [hl] at hopen
  · exact hopen

-- A channel that is open after a step was open before, or the attempt opened it.
theorem channelOpen_step {event : ConnectionEvent Handler} {link : ℕ}
    (h : (connection.step event).channelOpen link) :
    connection.channelOpen link ∨
      ∃ opened, event = .openChannelSucceeds ∧ connection.connecting = some (.opening opened) ∧
        opened.channelOpen = true ∧ link = connection.links.length := by
  cases event with
  | openChannelFails =>
      simp only [step] at h
      split at h
      · exact .inl ((channelOpen_congr links_fail).mp h)
      · exact .inl h
  | openChannelSucceeds =>
      simp only [step] at h
      split at h
      · rename_i opened hc
        unfold channelOpen at h ⊢
        rw [links_opened, List.getElem?_append] at h
        split at h
        · exact .inl h
        · obtain ⟨other, hm, hopen⟩ := (Option.any_eq_true _ _).mp h
          obtain ⟨hlast, heq⟩ := List.getElem?_eq_some_iff.mp hm
          rw [List.length_singleton] at hlast
          rw [List.getElem_singleton] at heq
          refine .inr ⟨opened, rfl, hc, heq ▸ hopen, by omega⟩
      · exact .inl h
  | openingModelCloses =>
      simp only [step] at h
      split at h <;> exact .inl h
  | openingChannelCloses =>
      simp only [step] at h
      split at h <;> exact .inl h
  | handlerSettles ok =>
      simp only [step] at h
      split at h
      · exact .inl (channelOpen_ran.mp ((channelOpen_congr (links_runFrom _ _)).mp h))
      · exact .inl h
  | readyHandlerSettles index ok =>
      simp only [step] at h
      split at h
      · exact .inl (channelOpen_ran.mp h)
      · exact .inl h
  | modelCloses closed =>
      simp only [step] at h
      split at h
      · exact .inl (channelOpen_of_modify (fun _ => rfl) (links_modelClosed closed) h)
      · exact .inl h
  | channelCloses closed =>
      simp only [step] at h
      split at h
      · exact .inl (channelOpen_of_modify (fun _ => rfl) (links_channelClosed closed) h)
      · exact .inl h
  | timerFires =>
      simp only [step] at h
      split at h
      · exact .inl ((channelOpen_congr links_reconnect).mp h)
      · exact .inl h
  | getChannel => exact .inl ((channelOpen_congr links_getChannel).mp h)
  | onReady added => exact .inl h

theorem oneChannel_step (h : connection.OneChannel) (event : ConnectionEvent Handler)
    (hreplaces : connection.Replaces event) : (connection.step event).OneChannel := by
  intro first second hfirst hsecond
  rcases channelOpen_step hfirst with hold | ⟨opened, rfl, hc, hopen, rfl⟩
  · rcases channelOpen_step hsecond with hold' | ⟨opened, rfl, hc, hopen, rfl⟩
    · exact h first second hold hold'
    · exact absurd ⟨first, hold⟩ (hreplaces opened hc hopen)
  · rcases channelOpen_step hsecond with hold' | ⟨-, -, -, -, rfl⟩
    · exact absurd ⟨second, hold'⟩ (hreplaces opened hc hopen)
    · rfl

-- A handler that is registered once is subscribed once on a channel at most: what it has
-- subscribed, what runs and what the attempt still has to run are one at most together.
section Standing

variable [DecidableEq Handler] {connection' : RabbitMqConnection Handler}

def subscribedOn (handler : Handler) (connection : RabbitMqConnection Handler) (link : ℕ) : ℕ :=
  connection.links[link]?.elim 0 fun opened => opened.consumers.count handler

def upcoming (handler : Handler) (connection : RabbitMqConnection Handler) (link : ℕ) : ℕ :=
  match connection.connecting with
  | some (.running current next) =>
      if current = link then (connection.readyHandlers.drop next).count handler else 0
  | _ => 0

def standing (handler : Handler) (connection : RabbitMqConnection Handler) (link : ℕ) : ℕ :=
  connection.subscribedOn handler link + connection.running.count (link, handler) +
    connection.upcoming handler link

-- The invariant of all runs in which the handler is registered once.
structure Registered (handler : Handler) (connection : RabbitMqConnection Handler) : Prop where
  opening : ∀ link, connection.connecting = some (.opening link) → link.consumers = []
  channel : ∀ link, connection.channel = some link → link < connection.links.length
  running : ∀ link added, (link, added) ∈ connection.running → link < connection.links.length
  once : connection.readyHandlers.count handler ≤ 1
  bounded : ∀ link, connection.standing handler link ≤ connection.readyHandlers.count handler

theorem upcoming_eq_zero (h : ∀ current next, connection.connecting ≠ some (.running current next))
    (link : ℕ) : connection.upcoming handler link = 0 := by
  unfold upcoming
  split
  next current next hc => exact absurd hc (h current next)
  next => rfl

theorem upcoming_running {current next : ℕ}
    (h : connection.connecting = some (.running current next)) (link : ℕ) :
    connection.upcoming handler link =
      if current = link then (connection.readyHandlers.drop next).count handler else 0 := by
  unfold upcoming
  rw [h]

theorem upcoming_runFrom (current next link : ℕ) :
    (connection.runFrom current next).upcoming handler link =
      if current = link then (connection.readyHandlers.drop next).count handler else 0 := by
  unfold runFrom
  split
  next => exact upcoming_running rfl link
  next hnext =>
    rw [upcoming_eq_zero (by simp [finish]), List.drop_eq_nil_of_le (not_lt.mp hnext),
      List.count_nil, ite_self]

theorem subscribedOn_congr (h : connection'.links = connection.links) (link : ℕ) :
    connection'.subscribedOn handler link = connection.subscribedOn handler link := by
  unfold subscribedOn
  rw [h]

theorem count_subscribe (added : Handler) (link : Link Handler) :
    (link.subscribe added).consumers.count handler ≤
      link.consumers.count handler + if added = handler then 1 else 0 := by
  unfold Link.subscribe
  split
  · rw [List.count_cons]
    simp
  · exact Nat.le_add_right _ _

-- A handler that has run has subscribed once more at most, where it ran.
theorem subscribedOn_ran (handler : Handler) (connection : RabbitMqConnection Handler)
    (link other : ℕ) (ready : Option Handler) (ok : Bool) :
    (connection.ran link ready ok).subscribedOn handler other ≤
      connection.subscribedOn handler other +
        if link = other ∧ ready = some handler then 1 else 0 := by
  unfold ran subscribedOn
  split
  next added =>
    dsimp only
    rw [List.getElem?_modify]
    cases connection.links[other]? with
    | none => exact Nat.zero_le _
    | some opened =>
        by_cases ho : link = other
        · simpa [ho] using count_subscribe added opened
        · simp [ho]
  next => exact Nat.le_add_right _ _

-- A channel that closes loses its consumers.
theorem subscribedOn_modify {link other : ℕ} {change : Link Handler → Link Handler}
    (hclose : ∀ opened, (change opened).consumers = [])
    (h : connection'.links = connection.links.modify link change) :
    connection'.subscribedOn handler other ≤ connection.subscribedOn handler other := by
  unfold subscribedOn
  rw [h, List.getElem?_modify]
  cases connection.links[other]? with
  | none => exact Nat.zero_le _
  | some opened =>
      split
      · simp [hclose]
      · exact le_refl _

theorem count_drop (handlers : List Handler) (next : ℕ) :
    (handlers.drop next).count handler =
      (handlers.drop (next + 1)).count handler + if handlers[next]? = some handler then 1 else 0 := by
  by_cases hnext : next < handlers.length
  · rw [List.drop_eq_getElem_cons hnext, List.count_cons, List.getElem?_eq_getElem hnext]
    simp
  · have hle := not_lt.mp hnext
    rw [List.drop_eq_nil_of_le hle, List.drop_eq_nil_of_le (hle.trans (Nat.le_succ next)),
      List.getElem?_eq_none hle]
    rfl

theorem count_drop_append (handlers : List Handler) (added : Handler) (next : ℕ) :
    ((handlers ++ [added]).drop next).count handler ≤
      (handlers.drop next).count handler + if added = handler then 1 else 0 := by
  rw [List.drop_append, List.count_append]
  refine Nat.add_le_add_left (((List.drop_sublist _ _).count_le handler).trans_eq ?_) _
  rw [List.count_singleton]
  simp

theorem count_eraseIdx {entries : List (ℕ × Handler)} {index : ℕ} {entry : ℕ × Handler}
    (h : entries[index]? = some entry) (other : ℕ × Handler) :
    entries.count other = (entries.eraseIdx index).count other + if entry = other then 1 else 0 := by
  obtain ⟨hlt, rfl⟩ := List.getElem?_eq_some_iff.mp h
  rw [← (List.getElem_cons_eraseIdx_perm hlt).count_eq, List.count_cons]
  simp only [beq_iff_eq]

-- A step that opens no link and registers nothing.
theorem Registered.of_le (h : connection.Registered handler)
    (hhandlers : connection'.readyHandlers = connection.readyHandlers)
    (hlinks : connection'.links.length = connection.links.length)
    (hopening : ∀ link, connection'.connecting = some (.opening link) → link.consumers = [])
    (hchannel : ∀ link, connection'.channel = some link → connection.channel = some link)
    (hrunning : connection'.running ⊆ connection.running)
    (hstanding : ∀ link, connection'.standing handler link ≤ connection.standing handler link) :
    connection'.Registered handler where
  opening := hopening
  channel link hc := hlinks ▸ h.channel link (hchannel link hc)
  running link added hm := hlinks ▸ h.running link added (hrunning hm)
  once := hhandlers ▸ h.once
  bounded link := hhandlers ▸ (hstanding link).trans (h.bounded link)

-- One that only starts or ends an attempt to connect.
theorem Registered.idle (h : connection.Registered handler)
    (hhandlers : connection'.readyHandlers = connection.readyHandlers)
    (hlinks : connection'.links = connection.links)
    (hopening : ∀ link, connection'.connecting = some (.opening link) → link.consumers = [])
    (hchannel : connection'.channel = connection.channel)
    (hrunning : connection'.running = connection.running)
    (hattempt : ∀ current next, connection'.connecting = some (.running current next) →
      connection.connecting = some (.running current next)) : connection'.Registered handler := by
  refine h.of_le hhandlers (congrArg List.length hlinks) hopening (fun _ => hchannel ▸ id)
    (hrunning ▸ List.Subset.refl _) fun link => ?_
  unfold standing
  rw [subscribedOn_congr hlinks, hrunning]
  refine Nat.add_le_add_left ?_ _
  by_cases hc : ∃ current next, connection'.connecting = some (.running current next)
  · obtain ⟨current, next, hc⟩ := hc
    rw [upcoming_running hc, upcoming_running (hattempt current next hc), hhandlers]
  · rw [upcoming_eq_zero fun current next hrun => hc ⟨current, next, hrun⟩]
    exact Nat.zero_le _

theorem Registered.connect (h : connection.Registered handler) :
    connection.connect.Registered handler := by
  unfold RabbitMqConnection.connect
  split
  next => exact h
  next =>
    refine h.idle rfl rfl (fun link hc => ?_) rfl rfl nofun
    cases hc
    rfl

-- What is being opened closes.
theorem Registered.shut (h : connection.Registered handler) {link : Link Handler}
    (hlink : link.consumers = []) : ({ connection with connecting := some (.opening link) } :
      RabbitMqConnection Handler).Registered handler := by
  refine h.idle rfl rfl (fun other hc => ?_) rfl rfl nofun
  cases hc
  exact hlink

theorem Registered.scheduleReconnect (h : connection.Registered handler) :
    connection.scheduleReconnect.Registered handler := by
  unfold RabbitMqConnection.scheduleReconnect
  split
  · exact h
  · exact h.idle rfl rfl h.opening rfl rfl fun _ _ => id

theorem Registered.fail (h : connection.Registered handler) : connection.fail.Registered handler := by
  have hfinish : connection.finish.Registered handler := h.idle rfl rfl nofun rfl rfl nofun
  unfold RabbitMqConnection.fail
  split
  · exact hfinish.scheduleReconnect
  · exact hfinish

-- The attempt goes through the whole list on the link that it has opened.
theorem Registered.opened (h : connection.Registered handler) {link : Link Handler}
    (hc : connection.connecting = some (.opening link)) :
    (connection.opened link).Registered handler := by
  have hnone : ∀ added, (connection.links.length, added) ∉ connection.running :=
    fun added hm => lt_irrefl _ (h.running _ added hm)
  constructor
  case opening => exact fun other hother => absurd hother (opening_runFrom _ _ other)
  case channel =>
    intro current hcurrent
    rw [RabbitMqConnection.opened, channel_runFrom] at hcurrent
    rw [links_opened, List.length_append, ← Option.some.inj hcurrent]
    exact Nat.lt_succ_self _
  case running =>
    intro current added hm
    rw [RabbitMqConnection.opened, running_runFrom] at hm
    rw [links_opened, List.length_append]
    exact Nat.lt_succ_of_lt (h.running current added hm)
  case once =>
    rw [RabbitMqConnection.opened, readyHandlers_runFrom]
    exact h.once
  case bounded =>
    intro current
    have hold := h.bounded current
    unfold standing at hold ⊢
    rw [upcoming_eq_zero (by simp [hc])] at hold
    rw [RabbitMqConnection.opened, readyHandlers_runFrom, running_runFrom, upcoming_runFrom,
      ← RabbitMqConnection.opened]
    unfold subscribedOn at hold ⊢
    rw [links_opened]
    by_cases hcurrent : connection.links.length = current
    · subst hcurrent
      rw [List.getElem?_concat_length, Option.elim_some, h.opening link hc,
        List.count_eq_zero.mpr (hnone handler), if_pos rfl]
      simp
    · rw [if_neg hcurrent]
      by_cases hlt : current < connection.links.length
      · rwa [List.getElem?_append_left hlt]
      · rw [List.getElem?_eq_none (by rw [List.length_append, List.length_singleton]; omega)]
        rw [List.getElem?_eq_none (not_lt.mp hlt)] at hold
        exact hold

theorem Registered.handlerSettles (h : connection.Registered handler) {link next : ℕ} {ok : Bool}
    (hc : connection.connecting = some (.running link next)) :
    (runFrom link (next + 1) (connection.ran link connection.readyHandlers[next]? ok)).Registered
      handler := by
  refine h.of_le ?_ ?_ (fun other hother => absurd hother (opening_runFrom _ _ other)) ?_ ?_ ?_
  · rw [readyHandlers_runFrom, readyHandlers_ran]
  · rw [links_runFrom, length_links_ran]
  · intro current hcurrent
    rwa [channel_runFrom, channel_ran] at hcurrent
  · rw [running_runFrom, running_ran]
    exact List.Subset.refl _
  · intro other
    unfold standing
    rw [upcoming_runFrom, upcoming_running hc, running_runFrom, running_ran, readyHandlers_ran,
      subscribedOn_congr (links_runFrom _ _)]
    have hran := subscribedOn_ran handler connection link other connection.readyHandlers[next]? ok
    by_cases ho : link = other
    · rw [if_pos ho, if_pos ho, count_drop connection.readyHandlers next]
      simp only [ho, true_and] at hran ⊢
      omega
    · rw [if_neg ho, if_neg ho]
      simp only [ho, false_and, if_false] at hran
      omega

theorem Registered.readyHandlerSettles (h : connection.Registered handler) {index link : ℕ}
    {added : Handler} {ok : Bool} (hrunning : connection.running[index]? = some (link, added)) :
    ({ connection.ran link (some added) ok with
        running := connection.running.eraseIdx index } : RabbitMqConnection Handler).Registered
      handler := by
  refine h.of_le readyHandlers_ran length_links_ran ?_ ?_
    (fun _ => List.mem_of_mem_eraseIdx) fun other => ?_
  · intro current hcurrent
    dsimp only at hcurrent
    rw [connecting_ran] at hcurrent
    exact h.opening current hcurrent
  · intro current hcurrent
    dsimp only at hcurrent
    rwa [channel_ran] at hcurrent
  · unfold standing
    have hran := subscribedOn_ran handler connection link other (some added) ok
    have hcount := count_eraseIdx hrunning (other, handler)
    have hupcoming : upcoming handler { connection.ran link (some added) ok with
        running := connection.running.eraseIdx index } other =
          connection.upcoming handler other := by
      simp only [upcoming, connecting_ran, readyHandlers_ran]
    rw [hupcoming]
    change (connection.ran link (some added) ok).subscribedOn handler other +
      (connection.running.eraseIdx index).count (other, handler) + _ ≤ _
    simp only [Prod.mk.injEq, Option.some.injEq] at hran hcount
    omega

-- A channel that closes takes its consumers with it.
theorem Registered.closed (h : connection.Registered handler) {link : ℕ}
    {change : Link Handler → Link Handler} (hclose : ∀ opened, (change opened).consumers = [])
    (hlinks : connection'.links = connection.links.modify link change)
    (hhandlers : connection'.readyHandlers = connection.readyHandlers)
    (hchannel : connection'.channel = none) (hrunning : connection'.running = connection.running)
    (hconnecting : connection'.connecting = connection.connecting) :
    connection'.Registered handler := by
  refine h.of_le hhandlers (by rw [hlinks, List.length_modify])
    (fun other hother => h.opening other (hconnecting ▸ hother)) (by simp [hchannel])
    (hrunning ▸ List.Subset.refl _) fun other => ?_
  have hupcoming : connection'.upcoming handler other = connection.upcoming handler other := by
    simp only [upcoming, hconnecting, hhandlers]
  unfold standing
  rw [hupcoming, hrunning]
  exact Nat.add_le_add_right (Nat.add_le_add_right (subscribedOn_modify hclose hlinks) _) _

theorem Registered.modelClosed (h : connection.Registered handler) (link : ℕ) :
    (connection.modelClosed link).Registered handler := by
  have hclosed : ({ connection with
      model := none
      channel := none
      links := connection.links.modify link Link.closeModel } :
        RabbitMqConnection Handler).Registered handler :=
    h.closed (fun _ => rfl) rfl rfl rfl rfl rfl
  unfold RabbitMqConnection.modelClosed
  dsimp only
  split
  · exact hclosed
  · exact hclosed.scheduleReconnect

-- A handler that was not registered stands nowhere, and comes to the current channel or
-- to the list of the attempt.
theorem Registered.onReady (h : connection.Registered handler) {added : Handler}
    (hregisters : connection.Registers handler (.onReady added)) :
    (connection.onReady added).Registered handler := by
  have hcount (handlers : List Handler) : (handlers ++ [added]).count handler =
      handlers.count handler + if added = handler then 1 else 0 := by
    rw [List.count_append, List.count_singleton]
    simp
  constructor
  case opening => exact h.opening
  case channel => exact h.channel
  case running =>
    intro link other hm
    dsimp only [RabbitMqConnection.onReady] at hm
    split at hm
    next current hcurrent =>
      rcases List.mem_append.mp hm with hm | hm
      · exact h.running link other hm
      · cases List.mem_singleton.mp hm
        exact h.channel _ hcurrent
    next => exact h.running link other hm
  case once =>
    refine (hcount _).trans_le ?_
    by_cases ha : added = handler
    · rw [List.count_eq_zero.mpr (hregisters ha).1, if_pos ha]
    · rw [if_neg ha]
      exact h.once
  case bounded =>
    intro link
    have hold := h.bounded link
    have hrunning : (connection.onReady added).running.count (link, handler) ≤
        connection.running.count (link, handler) +
          if added = handler ∧ connection.channel ≠ none then 1 else 0 := by
      dsimp only [RabbitMqConnection.onReady]
      split
      next current hcurrent =>
        rw [List.count_append, List.count_singleton, hcurrent]
        refine Nat.add_le_add_left ?_ _
        by_cases ha : added = handler
        · simp only [ha, ne_eq, reduceCtorEq, not_false_eq_true, and_self, if_true]
          split <;> decide
        · simp [ha]
      next => exact Nat.le_add_right _ _
    have hupcoming : (connection.onReady added).upcoming handler link ≤
        connection.upcoming handler link +
          if added = handler ∧ connection.channel = none then 1 else 0 := by
      by_cases hc : ∃ current next, connection.connecting = some (.running current next)
      · obtain ⟨current, next, hc⟩ := hc
        have hnone : added = handler → connection.channel = none :=
          fun ha => (hregisters ha).2 current next hc
        have hc' : (connection.onReady added).connecting = some (.running current next) := hc
        rw [upcoming_running hc, upcoming_running hc']
        by_cases hcurrent : current = link
        · rw [if_pos hcurrent, if_pos hcurrent]
          refine (count_drop_append _ added next).trans (Nat.add_le_add_left ?_ _)
          by_cases ha : added = handler
          · simp [ha, hnone ha]
          · simp [ha]
        · rw [if_neg hcurrent]
          exact Nat.zero_le _
      · have hc' : ∀ current next, (connection.onReady added).connecting ≠
            some (.running current next) := fun current next hrun => hc ⟨current, next, hrun⟩
        rw [upcoming_eq_zero hc']
        exact Nat.zero_le _
    have hhandlers := hcount connection.readyHandlers
    change connection.subscribedOn handler link + _ + _ ≤ _
    unfold standing at hold
    dsimp only [RabbitMqConnection.onReady] at hrunning hupcoming hhandlers ⊢
    by_cases ha : added = handler <;> by_cases hchannel : connection.channel = none <;>
      simp only [ha, hchannel, true_and, false_and, ne_eq, not_true, not_false_eq_true, if_true,
        if_false] at hrunning hupcoming hhandlers ⊢ <;> omega

theorem Registered.step (h : connection.Registered handler) (event : ConnectionEvent Handler)
    (hregisters : connection.Registers handler event) :
    (connection.step event).Registered handler := by
  cases event with
  | openChannelFails =>
      simp only [RabbitMqConnection.step]
      split
      · exact h.fail
      · exact h
  | openChannelSucceeds =>
      simp only [RabbitMqConnection.step]
      split
      next link hc => exact h.opened hc
      next => exact h
  | openingModelCloses =>
      simp only [RabbitMqConnection.step]
      split
      · exact h.shut rfl
      · exact h
  | openingChannelCloses =>
      simp only [RabbitMqConnection.step]
      split
      · exact h.shut rfl
      · exact h
  | handlerSettles ok =>
      simp only [RabbitMqConnection.step]
      split
      next link next hc => exact h.handlerSettles hc
      next => exact h
  | readyHandlerSettles index ok =>
      simp only [RabbitMqConnection.step]
      split
      next link added hrunning => exact h.readyHandlerSettles hrunning
      next => exact h
  | modelCloses link =>
      simp only [RabbitMqConnection.step]
      split
      · exact h.modelClosed link
      · exact h
  | channelCloses link =>
      simp only [RabbitMqConnection.step]
      split
      · exact h.closed (fun _ => rfl) rfl rfl rfl rfl rfl
      · exact h
  | timerFires =>
      simp only [RabbitMqConnection.step]
      split
      · have hfired : ({ connection with reconnectTimer := false } :
            RabbitMqConnection Handler).Registered handler :=
          h.idle rfl rfl h.opening rfl rfl fun _ _ => id
        exact hfired.connect.idle rfl rfl hfired.connect.opening rfl rfl fun _ _ => id
      · exact h
  | getChannel =>
      simp only [RabbitMqConnection.step, RabbitMqConnection.getChannel]
      split
      · exact h
      · exact h.connect
  | onReady added => exact h.onReady hregisters

end Standing

-- The only channel that is open has the handler once at most.
section Consumers

variable [DecidableEq Handler]

theorem length_filter_le_one {α : Type} {p : α → Bool} {entries : List α}
    (h : ∀ i j : ℕ, entries[i]?.any p = true → entries[j]?.any p = true → i = j) :
    (entries.filter p).length ≤ 1 := by
  induction entries with
  | nil => exact Nat.zero_le 1
  | cons entry rest ih =>
      by_cases hentry : p entry = true
      · have hrest : rest.filter p = [] := by
          refine List.filter_eq_nil_iff.mpr fun other hm hother => ?_
          obtain ⟨j, hj⟩ := List.mem_iff_getElem?.mp hm
          exact nomatch h 0 (j + 1) hentry (by simpa [hj] using hother)
        rw [List.filter_cons_of_pos hentry, hrest]
        rfl
      · rw [List.filter_cons_of_neg hentry]
        exact ih fun i j hi hj => Nat.succ.inj (h (i + 1) (j + 1) hi hj)

theorem Registered.consumersOf_le_one (h : connection.Registered handler)
    (hone : connection.OneChannel) : connection.consumersOf handler ≤ 1 := by
  have hlength : (connection.links.filter Link.channelOpen).length ≤ 1 := length_filter_le_one hone
  unfold consumersOf
  cases hlinks : connection.links.filter Link.channelOpen with
  | nil => exact Nat.zero_le 1
  | cons opened rest =>
      rw [hlinks, List.length_cons] at hlength
      obtain rfl : rest = [] := List.length_eq_zero_iff.mp (by omega)
      have hm : opened ∈ connection.links := List.mem_of_mem_filter (hlinks ▸ List.mem_cons_self)
      obtain ⟨link, hlink⟩ := List.mem_iff_getElem?.mp hm
      have hbounded := (h.bounded link).trans h.once
      rw [standing, subscribedOn, hlink, Option.elim_some] at hbounded
      rw [List.flatMap_singleton]
      omega

theorem registered_start {readyHandlers : List Handler} (h : readyHandlers.count handler ≤ 1) :
    (onModuleInit (new readyHandlers)).Registered handler := by
  refine Registered.connect ?_
  constructor
  case opening => exact nofun
  case channel => exact nofun
  case running => exact nofun
  case once => exact h
  case bounded => exact fun _ => Nat.zero_le _

end Consumers

-- Nothing less is enough: a second channel gets the handler as well, and a handler that is
-- registered too early gets one channel twice.
section Twice

theorem step_handlerSettles {link next : ℕ} {ok : Bool}
    (hc : connection.connecting = some (.running link next)) :
    connection.step (.handlerSettles ok) =
      runFrom link (next + 1) (connection.ran link connection.readyHandlers[next]? ok) := by
  simp only [step, hc]

-- Handlers that settle open and close nothing.
theorem channelOpen_handlerSettles {ok : Bool} {other : ℕ} :
    (connection.step (.handlerSettles ok)).channelOpen other ↔ connection.channelOpen other := by
  simp only [step]
  split
  · exact (channelOpen_congr (links_runFrom _ _)).trans channelOpen_ran
  · exact Iff.rfl

theorem channelOpen_play {steps other : ℕ} :
    (play step connection (List.replicate steps (.handlerSettles true))).channelOpen other ↔
      connection.channelOpen other := by
  induction steps generalizing connection with
  | zero => exact Iff.rfl
  | succ steps ih =>
      rw [List.replicate_succ, play, List.foldl_cons]
      exact ih.trans channelOpen_handlerSettles

variable [DecidableEq Handler]

theorem subscribed_iff {link : ℕ} : connection.Subscribed handler link ↔
    connection.channelOpen link ∧ 0 < connection.subscribedOn handler link := by
  unfold Subscribed channelOpen subscribedOn
  cases connection.links[link]? with
  | none => simp
  | some opened => simp [List.count_pos_iff]

theorem le_subscribedOn_ran (handler : Handler) (connection : RabbitMqConnection Handler)
    (link other : ℕ) (ready : Option Handler) (ok : Bool) :
    connection.subscribedOn handler other ≤
      (connection.ran link ready ok).subscribedOn handler other := by
  unfold ran subscribedOn
  split
  next added =>
    dsimp only
    rw [List.getElem?_modify]
    cases connection.links[other]? with
    | none => exact Nat.zero_le _
    | some opened =>
        have hcount : opened.consumers.count handler ≤
            (opened.subscribe added).consumers.count handler := by
          unfold Link.subscribe
          split
          · exact List.count_le_count_cons
          · exact le_refl _
        by_cases ho : link = other
        · simpa [ho] using hcount
        · simp [ho]
  next => exact le_refl _

theorem subscribedOn_ran_self (handler : Handler) {link : ℕ} (h : connection.channelOpen link) :
    (connection.ran link (some handler) true).subscribedOn handler link =
      connection.subscribedOn handler link + 1 := by
  obtain ⟨opened, hlink, hopen⟩ := (Option.any_eq_true _ _).mp h
  simp [ran, subscribedOn, hlink, Link.subscribe, hopen]

-- Nor do they take a subscription away.
theorem le_subscribedOn_handlerSettles (handler : Handler)
    (connection : RabbitMqConnection Handler) (ok : Bool) (other : ℕ) :
    connection.subscribedOn handler other ≤
      (connection.step (.handlerSettles ok)).subscribedOn handler other := by
  simp only [step]
  split
  · rw [subscribedOn_congr (links_runFrom _ _)]
    exact le_subscribedOn_ran handler connection _ other _ ok
  · exact le_refl _

theorem le_subscribedOn_play (steps other : ℕ) : connection.subscribedOn handler other ≤
    (play step connection (List.replicate steps (.handlerSettles true))).subscribedOn handler
      other := by
  induction steps generalizing connection with
  | zero => exact le_refl _
  | succ steps ih =>
      rw [List.replicate_succ, play, List.foldl_cons]
      exact (le_subscribedOn_handlerSettles handler connection true other).trans ih

-- The handlers of an attempt run one after the other, up to this one.
theorem subscribedOn_play {link : ℕ} (steps next : ℕ)
    (hc : connection.connecting = some (.running link next))
    (hready : connection.readyHandlers[next + steps]? = some handler)
    (hopen : connection.channelOpen link) : connection.subscribedOn handler link <
      (play step connection (List.replicate (steps + 1) (.handlerSettles true))).subscribedOn handler
        link := by
  induction steps generalizing connection next with
  | zero =>
      rw [Nat.add_zero] at hready
      rw [List.replicate_succ, play, List.foldl_cons, step_handlerSettles hc, hready,
        List.replicate_zero, List.foldl_nil, subscribedOn_congr (links_runFrom _ _),
        subscribedOn_ran_self handler hopen]
      exact Nat.lt_succ_self _
  | succ steps ih =>
      have hnext : next + 1 < connection.readyHandlers.length := by
        have := (List.getElem?_eq_some_iff.mp hready).1
        omega
      have hgrows := le_subscribedOn_handlerSettles handler connection true link
      rw [List.replicate_succ, play, List.foldl_cons]
      refine hgrows.trans_lt (ih (next + 1) ?_ ?_ (channelOpen_handlerSettles.mpr hopen))
      · rw [step_handlerSettles hc, runFrom, readyHandlers_ran, if_pos hnext]
      · rw [step_handlerSettles hc, readyHandlers_runFrom, readyHandlers_ran, Nat.add_right_comm]
        exact hready

theorem subscribedOn_le_consumersOf {link : ℕ} (h : connection.channelOpen link) :
    connection.subscribedOn handler link ≤ connection.consumersOf handler := by
  obtain ⟨opened, hlink, hopen⟩ := (Option.any_eq_true _ _).mp h
  have hm : opened ∈ connection.links.filter Link.channelOpen :=
    List.mem_filter.mpr ⟨List.mem_of_getElem? hlink, hopen⟩
  rw [subscribedOn, hlink, Option.elim_some, consumersOf, List.flatMap_def]
  exact (List.sublist_flatten_of_mem (List.mem_map_of_mem hm)).count_le handler

-- An attempt that does not replace the channel of a handler can subscribe it twice.
theorem subscribed_twice {link : Link Handler} {other : ℕ}
    (hc : connection.connecting = some (.opening link)) (hopen : link.channelOpen = true)
    (hready : handler ∈ connection.readyHandlers) (hother : connection.Subscribed handler other) :
    ∃ steps, ¬(play step connection (.openChannelSucceeds ::
      List.replicate (steps + 1) (.handlerSettles true))).OneSubscription handler := by
  obtain ⟨index, hindex⟩ := List.mem_iff_getElem?.mp hready
  have hpos : 0 < connection.readyHandlers.length := List.length_pos_of_mem hready
  have hlt : other < connection.links.length := by
    obtain ⟨_, hlink, -⟩ := hother
    exact (List.getElem?_eq_some_iff.mp hlink).1
  have hold : (connection.opened link).Subscribed handler other := by
    obtain ⟨old, hlink, hrest⟩ := hother
    exact ⟨old, by rw [links_opened, List.getElem?_append_left hlt, hlink], hrest⟩
  have hnew : (connection.opened link).channelOpen connection.links.length := by
    simp [channelOpen, hopen]
  have hrun := subscribedOn_play index 0 (by rw [opened, runFrom, if_pos hpos])
    (by rw [opened, readyHandlers_runFrom, Nat.zero_add]; exact hindex) hnew
  obtain ⟨hopened, hcount⟩ := subscribed_iff.mp hold
  have hstep : connection.step .openChannelSucceeds = connection.opened link := by
    simp only [step, hc]
  refine ⟨index, ?_⟩
  rw [play, List.foldl_cons, hstep]
  intro hone
  refine Nat.ne_of_gt hlt (hone connection.links.length other ?_ ?_)
  · exact subscribed_iff.mpr ⟨channelOpen_play.mpr hnew, Nat.zero_lt_of_lt hrun⟩
  · exact subscribed_iff.mpr ⟨channelOpen_play.mpr hopened,
      hcount.trans_le (le_subscribedOn_play (index + 1) other)⟩

-- A handler that is registered while the attempt still runs the list runs twice.
theorem registered_twice {link next : ℕ} (hc : connection.connecting = some (.running link next))
    (hchannel : connection.channel = some link) (hopen : connection.channelOpen link)
    (hnext : next ≤ connection.readyHandlers.length) :
    ∃ steps, 1 < (play step connection (.onReady handler ::
      .readyHandlerSettles connection.running.length true ::
        List.replicate (steps + 1) (.handlerSettles true))).consumersOf handler := by
  let registered := connection.onReady handler
  let settled : RabbitMqConnection Handler := { registered.ran link (some handler) true with
    running := registered.running.eraseIdx connection.running.length }
  have hrunning : registered.running[connection.running.length]? = some (link, handler) := by
    simp [registered, onReady, hchannel]
  have hstep : registered.step (.readyHandlerSettles connection.running.length true) = settled := by
    simp only [step, hrunning, settled]
  -- once by itself
  have hregistered : registered.channelOpen link := hopen
  have hself : settled.subscribedOn handler link = registered.subscribedOn handler link + 1 :=
    subscribedOn_ran_self handler hregistered
  -- and once more at the end of the list
  have hc' : settled.connecting = some (.running link next) := hc
  have hready : settled.readyHandlers[next + (connection.readyHandlers.length - next)]? =
      some handler := by
    rw [Nat.add_sub_cancel' hnext]
    exact List.getElem?_concat_length
  have hsettled : settled.channelOpen link := channelOpen_ran.mpr hregistered
  have hagain := subscribedOn_play _ next hc' hready hsettled
  refine ⟨connection.readyHandlers.length - next, ?_⟩
  change 1 < (play step (registered.step (.readyHandlerSettles connection.running.length true))
    _).consumersOf handler
  rw [hstep]
  exact lt_of_lt_of_le (by omega) (subscribedOn_le_consumersOf (channelOpen_play.mpr hsettled))

end Twice

end RabbitMqConnection

namespace QueueWorker

open RabbitMqConnection

variable {Handler : Type} [DecidableEq Handler] {handler : Handler} {worker : QueueWorker Handler}

structure Calm (handler : Handler) (worker : QueueWorker Handler) : Prop where
  oneChannel : worker.connection.OneChannel
  registered : worker.connection.Registered handler
  request : worker.handling.length ≤ 1

-- Only the channel that is open gets requests, and what is handled came by it.
theorem Calm.delivered (h : worker.Calm handler) {link : ℕ}
    (hdeliverable : worker.Deliverable 1 handler link)
    (hopen : ∀ other ∈ worker.handling, worker.connection.channelOpen other) :
    worker.handling = [] := by
  obtain ⟨opened, hlink, hlinkOpen, -, hlimit⟩ := hdeliverable
  have hlink : worker.connection.links[link]? = some opened := hlink
  have hsame : ∀ other ∈ worker.handling, other = link := fun other hm =>
    h.oneChannel other link (hopen other hm) (by simpa [channelOpen, hlink] using hlinkOpen)
  have hcount : worker.handling.count link = worker.handling.length :=
    List.count_eq_length.mpr fun other hm => (hsame other hm).symm
  have hbounded := (h.registered.bounded link).trans h.registered.once
  rw [standing, subscribedOn, hlink, Option.elim_some] at hbounded
  have hlength : worker.handling.length = 0 := by omega
  exact List.length_eq_zero_iff.mp hlength

theorem Calm.step (h : worker.Calm handler) (event : WorkerEvent Handler)
    (horderly : worker.Orderly handler event) : (worker.step 1 handler event).Calm handler := by
  cases event with
  | connection event =>
      obtain ⟨hreplaces, hregisters⟩ := horderly
      exact ⟨oneChannel_step h.oneChannel event hreplaces, h.registered.step event hregisters,
        h.request⟩
  | delivered link =>
      by_cases hdeliverable : worker.Deliverable 1 handler link
      · rw [QueueWorker.step, if_pos hdeliverable]
        refine ⟨h.oneChannel, h.registered, ?_⟩
        rw [h.delivered hdeliverable (horderly hdeliverable)]
        exact le_refl 1
      · rw [QueueWorker.step, if_neg hdeliverable]
        exact h
  | handled index =>
      exact ⟨h.oneChannel, h.registered, (List.length_eraseIdx_le _ _).trans h.request⟩

theorem Calm.exclusive (h : worker.Calm handler) : worker.Exclusive handler where
  channel := oneSubscription_of_oneChannel h.oneChannel
  consumer := h.registered.consumersOf_le_one h.oneChannel
  request := h.request

-- As long as every new channel comes after the end of the one before, the consumer is
-- registered once, and nothing comes while a request of a closed channel is handled, the
-- consumer is subscribed once and the requests are handled one by one.
theorem exclusive_run (handler : Handler) (readyHandlers : List Handler)
    (honce : readyHandlers.count handler ≤ 1) (events : List (WorkerEvent Handler))
    (h : Always (step 1 handler) (Orderly handler) (start readyHandlers) events) :
    (play (step 1 handler) (start readyHandlers) events).Exclusive handler := by
  have hnone : (start readyHandlers).connection.OneChannel := by
    intro first second hfirst
    cases hfirst
  have hcalm : (start readyHandlers).Calm handler :=
    ⟨hnone, registered_start honce, Nat.zero_le 1⟩
  exact (play_invariant (Calm handler) hcalm (fun _ event hcalm => hcalm.step event) h).exclusive

end QueueWorker

-- The timer of a connection that closed fires after getChannel has connected again.
def connectedTwice : List (WorkerEvent Unit) :=
  [.connection .openChannelSucceeds, .connection (.handlerSettles true),
    .connection (.modelCloses 0), .connection .getChannel, .connection .openChannelSucceeds,
    .connection (.handlerSettles true), .connection .timerFires,
    .connection .openChannelSucceeds, .connection (.handlerSettles true), .delivered 1,
    .delivered 2]

theorem exclusive_fails : ¬∀ (handler : Unit) (readyHandlers : List Unit)
    (events : List (WorkerEvent Unit)), readyHandlers.count handler ≤ 1 →
      (play (QueueWorker.step 1 handler) (.start readyHandlers) events).Exclusive handler := by
  intro h
  have hone := (h () [()] connectedTwice (le_refl 1)).request
  exact absurd hone (by decide)

-- The worker registers its consumer, handles a request, and after its connection was lost
-- it handles another one.
def reconnected : List (WorkerEvent Unit) :=
  [.connection (.onReady ()), .connection .openChannelSucceeds, .connection (.handlerSettles true),
    .delivered 0, .handled 0, .connection (.modelCloses 0), .connection .timerFires,
    .connection .openChannelSucceeds, .connection (.handlerSettles true), .delivered 1]

theorem exclusive_reconnected :
    (play (QueueWorker.step 1 ()) (.start []) reconnected).handling = [1] ∧
      (play (QueueWorker.step 1 ()) (.start []) reconnected).Exclusive () := by
  have hclosed : ∀ link, ¬(play (QueueWorker.step 1 ()) (.start [])
      (reconnected.take 7)).connection.channelOpen link := by
    rintro (_ | link) hopen <;> cases hopen
  refine ⟨by decide, QueueWorker.exclusive_run () [] (Nat.zero_le 1) reconnected ?_⟩
  refine ⟨⟨trivial, fun _ => ⟨List.not_mem_nil, nofun⟩⟩, ⟨?_, trivial⟩, ⟨trivial, trivial⟩,
    fun _ => nofun, trivial, ⟨trivial, trivial⟩, ⟨trivial, trivial⟩, ⟨?_, trivial⟩,
    ⟨trivial, trivial⟩, fun _ => nofun, trivial⟩
  · rintro _ _ _ ⟨_, hopen⟩
    cases hopen
  · rintro _ _ _ ⟨link, hopen⟩
    exact hclosed link hopen

end SmartParking
