import SmartParking.Messaging.Attentive
import Mathlib.Tactic.Common

namespace SmartParking

open Machine

namespace RabbitMqConnection

variable {Handler : Type} {connection : RabbitMqConnection Handler}

-- The functions, by what they do to the fields that count.
section Fields

@[simp] theorem connecting_connect : connection.connect.connecting.isSome = true := by
  unfold connect
  split
  · rename_i h
    rw [h]
    rfl
  · rfl

@[simp] theorem reconnectTimer_scheduleReconnect :
    connection.scheduleReconnect.reconnectTimer = true := by
  unfold scheduleReconnect
  split
  · assumption
  · rfl

theorem attentive_of_connecting (h : connection.connecting.isSome = true) :
    connection.Attentive := fun _ => .inl h

theorem attentive_of_reconnectTimer (h : connection.reconnectTimer = true) :
    connection.Attentive := fun _ => .inr h

-- Without an attempt only a channel or the timer is left.
theorem attentive_iff_covered (h : connection.connecting = none) :
    connection.Attentive ↔ connection.Covered := by
  unfold Attentive Covered
  rw [h]
  simp [or_iff_not_imp_left]

theorem any_modify {links : List (Link Handler)} {link other : ℕ}
    {change : Link Handler → Link Handler} :
    (links.modify link change)[other]?.any Link.channelOpen =
      if link = other then links[other]?.any fun opened => (change opened).channelOpen
      else links[other]?.any Link.channelOpen := by
  rw [List.getElem?_modify]
  split <;> cases links[other]? <;> simp_all

theorem subscribe_channelOpen (handler : Handler) (link : Link Handler) :
    (link.subscribe handler).channelOpen = link.channelOpen := by
  unfold Link.subscribe
  split <;> rfl

-- Running a handler opens and closes nothing.
theorem channelOpen_ran {link other : ℕ} {handler : Option Handler} {ok : Bool} :
    (connection.ran link handler ok).channelOpen other ↔ connection.channelOpen other := by
  unfold ran
  split
  · unfold channelOpen
    rw [any_modify]
    simp only [subscribe_channelOpen, ite_self]
  · rfl

theorem hasOpenChannel_ran {link : ℕ} {handler : Option Handler} {ok : Bool} :
    (connection.ran link handler ok).HasOpenChannel ↔ connection.HasOpenChannel :=
  exists_congr fun _ => channelOpen_ran

@[simp] theorem connecting_ran {link : ℕ} {handler : Option Handler} {ok : Bool} :
    (connection.ran link handler ok).connecting = connection.connecting := by
  unfold ran
  split <;> rfl

@[simp] theorem reconnectTimer_ran {link : ℕ} {handler : Option Handler} {ok : Bool} :
    (connection.ran link handler ok).reconnectTimer = connection.reconnectTimer := by
  unfold ran
  split <;> rfl

@[simp] theorem readyHandlers_ran {link : ℕ} {handler : Option Handler} {ok : Bool} :
    (connection.ran link handler ok).readyHandlers = connection.readyHandlers := by
  unfold ran
  split <;> rfl

theorem covered_ran {link : ℕ} {handler : Option Handler} {ok : Bool} :
    (connection.ran link handler ok).Covered ↔ connection.Covered := by
  unfold Covered
  rw [hasOpenChannel_ran, reconnectTimer_ran]

theorem hasOpenChannel_channelClosed {link : ℕ} :
    (connection.channelClosed link).HasOpenChannel ↔
      ∃ other ≠ link, connection.channelOpen other := by
  refine exists_congr fun other => ?_
  unfold channelOpen channelClosed
  rw [any_modify]
  by_cases ho : link = other
  · subst ho
    simp [Link.closeChannel]
  · simp [ho, Ne.symm ho]

theorem hasOpenChannel_append {link : Link Handler} :
    ({ connection with links := connection.links ++ [link] } :
      RabbitMqConnection Handler).HasOpenChannel ↔
        link.channelOpen = true ∨ connection.HasOpenChannel := by
  unfold HasOpenChannel channelOpen
  constructor
  · rintro ⟨other, ho⟩
    rw [List.getElem?_append] at ho
    split at ho
    · exact .inr ⟨other, ho⟩
    · obtain ⟨opened, hm, hopen⟩ := (Option.any_eq_true _ _).mp ho
      rw [List.mem_singleton.mp (List.mem_of_getElem? hm)] at hopen
      exact .inl hopen
  · rintro (ho | ⟨other, ho⟩)
    · exact ⟨connection.links.length, by simpa using ho⟩
    · refine ⟨other, ?_⟩
      obtain ⟨opened, hm, hopen⟩ := (Option.any_eq_true _ _).mp ho
      rw [List.getElem?_append_left (List.getElem?_eq_some_iff.mp hm).1, ho]

end Fields

-- The attempt is over, or goes on with the next handler.
theorem attentive_runFrom_iff {link next : ℕ} :
    (connection.runFrom link next).Attentive ↔
      (connection.readyHandlers.length ≤ next → connection.Covered) := by
  unfold runFrom
  split
  · rename_i hnext
    exact iff_of_true (attentive_of_connecting rfl) fun hle => absurd hnext (Nat.not_lt.mpr hle)
  · rename_i hnext
    rw [attentive_iff_covered rfl]
    exact ⟨fun hc _ => hc, fun hc => hc (Nat.not_lt.mp hnext)⟩

theorem attentive_fail_iff :
    connection.fail.Attentive ↔ connection.retrying = true ∨ connection.Covered := by
  unfold fail
  split
  · rename_i hr
    exact iff_of_true (attentive_of_reconnectTimer reconnectTimer_scheduleReconnect) (.inl hr)
  · rename_i hr
    rw [attentive_iff_covered rfl]
    exact (or_iff_right hr).symm

theorem attentive_modelClosed (h : connection.shuttingDown = false) (link : ℕ) :
    (connection.modelClosed link).Attentive := by
  unfold modelClosed
  simp only [h, Bool.false_eq_true, if_false]
  exact attentive_of_reconnectTimer reconnectTimer_scheduleReconnect

theorem attentive_opened_iff {link : Link Handler} :
    (connection.opened link).Attentive ↔
      (connection.readyHandlers = [] → link.channelOpen = true ∨ connection.Covered) := by
  unfold opened
  rw [attentive_runFrom_iff, Nat.le_zero, List.length_eq_zero_iff]
  refine imp_congr_right fun _ => ?_
  unfold Covered
  rw [← or_assoc]
  exact or_congr_left hasOpenChannel_append

-- Nothing else has to be open when the timer is set, or an attempt goes on.
theorem attentive_channelClosed_iff {link : ℕ} :
    (connection.channelClosed link).Attentive ↔
      connection.connecting.isSome = true ∨ connection.reconnectTimer = true ∨
        ∃ other ≠ link, connection.channelOpen other := by
  unfold Attentive
  rw [hasOpenChannel_channelClosed, ← or_assoc, ← or_iff_not_imp_left, or_comm]
  rfl

theorem attentive_step_iff (h : connection.Attentive) (hdown : connection.shuttingDown = false)
    (event : ConnectionEvent Handler) :
    (connection.step event).Attentive ↔ connection.Retried event := by
  cases event with
  | openChannelFails =>
      simp only [step, Retried]
      cases hc : connection.connecting with
      | none => simp [h]
      | some attempt =>
          cases attempt with
          | opening link => simp [attentive_fail_iff]
          | running link next => simp [h]
  | openChannelSucceeds =>
      simp only [step, Retried]
      cases hc : connection.connecting with
      | none => simp [h]
      | some attempt =>
          cases attempt with
          | opening link => simp [attentive_opened_iff]
          | running link next => simp [h]
  | openingModelCloses =>
      simp only [step, Retried]
      split
      · exact iff_of_true (attentive_of_connecting rfl) trivial
      · exact iff_of_true h trivial
  | openingChannelCloses =>
      simp only [step, Retried]
      split
      · exact iff_of_true (attentive_of_connecting rfl) trivial
      · exact iff_of_true h trivial
  | handlerSettles ok =>
      simp only [step, Retried]
      cases hc : connection.connecting with
      | none => simp [h]
      | some attempt =>
          cases attempt with
          | opening link => simp [h]
          | running link next =>
              rw [attentive_runFrom_iff, readyHandlers_ran, covered_ran]
              refine ⟨fun hrun _ _ he => ?_, fun hrun => hrun link next rfl⟩
              cases he
              exact hrun
  | readyHandlerSettles index ok =>
      simp only [step, Retried]
      split
      · refine iff_of_true (fun hnone => ?_) trivial
        have hleft := h (mt hasOpenChannel_ran.mpr hnone)
        rwa [connecting_ran, reconnectTimer_ran]
      · exact iff_of_true h trivial
  | modelCloses link =>
      simp only [step, Retried]
      split
      · exact iff_of_true (attentive_modelClosed hdown link) trivial
      · exact iff_of_true h trivial
  | channelCloses link =>
      simp only [step, Retried]
      split
      · rename_i hopen
        rw [attentive_channelClosed_iff]
        exact ⟨fun hc _ => hc, fun hc => hc hopen⟩
      · rename_i hopen
        exact iff_of_true h fun hopen' => absurd hopen' hopen
  | timerFires =>
      simp only [step, Retried]
      split
      · exact iff_of_true (attentive_of_connecting connecting_connect) trivial
      · exact iff_of_true h trivial
  | getChannel =>
      simp only [step, Retried, getChannel]
      split
      · exact iff_of_true h trivial
      · exact iff_of_true (attentive_of_connecting connecting_connect) trivial
  | onReady handler => exact iff_of_true h trivial

section ShuttingDown

@[simp] theorem shuttingDown_connect : connection.connect.shuttingDown = connection.shuttingDown := by
  unfold connect
  split <;> rfl

@[simp] theorem shuttingDown_scheduleReconnect :
    connection.scheduleReconnect.shuttingDown = connection.shuttingDown := by
  unfold scheduleReconnect
  split <;> rfl

@[simp] theorem shuttingDown_runFrom (link next : ℕ) :
    (connection.runFrom link next).shuttingDown = connection.shuttingDown := by
  unfold runFrom
  split <;> rfl

@[simp] theorem shuttingDown_ran (link : ℕ) (handler : Option Handler) (ok : Bool) :
    (connection.ran link handler ok).shuttingDown = connection.shuttingDown := by
  unfold ran
  split <;> rfl

end ShuttingDown

theorem shuttingDown_step (event : ConnectionEvent Handler) :
    (connection.step event).shuttingDown = connection.shuttingDown := by
  cases event <;> simp only [step]
  case getChannel =>
    unfold getChannel
    split
    · rfl
    · exact shuttingDown_connect
  case onReady handler => rfl
  all_goals split
  all_goals first | rfl | skip
  · unfold fail
    split <;> simp [finish]
  · exact shuttingDown_runFrom _ _
  · exact (shuttingDown_runFrom _ _).trans (shuttingDown_ran _ _ _)
  · exact shuttingDown_ran _ _ _
  · unfold modelClosed
    dsimp only
    split <;> simp
  · exact shuttingDown_connect

-- In every state of a run an open channel, an attempt or the timer is there,
-- exactly as long as what is lost or fails is retried.
theorem attentive_run_iff (readyHandlers : List Handler) (events : List (ConnectionEvent Handler)) :
    (∀ past, past <+: events → (play step (onModuleInit (new readyHandlers)) past).Attentive) ↔
      Always step Retried (onModuleInit (new readyHandlers)) events := by
  have hstart : (onModuleInit (new readyHandlers)).Attentive :=
    attentive_of_connecting connecting_connect
  rw [forall_prefix_iff, and_iff_right hstart]
  refine always_congr (fun connection => connection.Attentive ∧ connection.shuttingDown = false)
    ⟨hstart, rfl⟩ (fun connection event h hc => ?_)
    fun connection event h => attentive_step_iff h.1 h.2 event
  exact ⟨(attentive_step_iff h.1 h.2 event).mpr hc, (shuttingDown_step event).trans h.2⟩

end RabbitMqConnection

-- The broker is not ready when the process starts.
theorem attentive_run_fails : ¬∀ (readyHandlers : List Unit) (events : List (ConnectionEvent Unit)),
    (play RabbitMqConnection.step (.onModuleInit (.new readyHandlers)) events).Attentive := by
  intro h
  have hdeaf := h [()] [.openChannelFails]
  rcases hdeaf (fun ⟨_, hopen⟩ => by cases hopen) with hconnecting | htimer
  · cases hconnecting
  · cases htimer

end SmartParking
