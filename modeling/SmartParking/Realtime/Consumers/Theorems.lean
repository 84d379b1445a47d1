import SmartParking.Realtime.Consumers
import Mathlib.Tactic.Common

namespace SmartParking.Realtime

open Machine

namespace Relay

variable {Message : Type} {relay relay' : Relay Message}

-- Whether a connection is open, and whether it consumes.
def flags (relay : Relay Message) (connection : ℕ) : Option (Bool × Bool) :=
  relay.connections[connection]?.map fun opened => (opened.isOpen, opened.consuming)

def targets (relay : Relay Message) : List (Option ℕ) :=
  relay.attempts.map Awaited.connection?

-- A connection whose queue is consumed, or may be.
def Active (relay : Relay Message) (connection : ℕ) : Prop :=
  relay.Consuming connection ∨
    some connection ∈ relay.targets ∧ relay.isOpen connection = true

-- The invariant. A message that waits on an active connection was handled less often
-- than it was published.
structure Single [DecidableEq Message] (relay : Relay Message) : Prop where
  known : ∀ connection, some connection ∈ relay.targets → connection < relay.connections.length
  attempt : relay.targets.countP (Option.all relay.isOpen) ≤ 1
  apart : ∀ target ∈ relay.targets, target.all relay.isOpen = true →
    ∀ connection, ¬relay.Consuming connection
  consumer : ∀ first second, relay.Consuming first → relay.Consuming second → first = second
  handled : ∀ message, relay.handled.count message ≤ relay.published.count message
  waiting : ∀ connection opened, relay.connections[connection]? = some opened →
    relay.Active connection → ∀ message,
      relay.handled.count message + opened.queue.count message ≤ relay.published.count message

theorem isOpen_eq (connection : ℕ) :
    relay.isOpen connection = (relay.flags connection).any Prod.fst := by
  unfold isOpen flags
  cases relay.connections[connection]? <;> rfl

theorem consuming_iff {connection : ℕ} :
    relay.Consuming connection ↔ relay.flags connection = some (true, true) := by
  unfold Consuming flags
  cases relay.connections[connection]? <;> simp

theorem flags_ne_none {connection : ℕ} :
    relay.flags connection ≠ none ↔ connection < relay.connections.length := by
  simp [flags]

-- Connections that are kept are the same, or have closed.
def Keeps (relay relay' : Relay Message) : Prop :=
  ∀ connection, relay'.flags connection = relay.flags connection ∨
    relay.flags connection ≠ none ∧ relay'.flags connection = some (false, false)

theorem keeps_of_flags (h : relay'.flags = relay.flags) : relay.Keeps relay' :=
  fun _ => .inl (congrFun h _)

theorem isOpen_of_keeps (h : relay.Keeps relay') {connection : ℕ}
    (hopen : relay'.isOpen connection = true) : relay.isOpen connection = true := by
  rw [isOpen_eq] at hopen ⊢
  rcases h connection with heq | ⟨-, heq⟩
  · rwa [heq] at hopen
  · rw [heq] at hopen
    cases hopen

theorem consuming_of_keeps (h : relay.Keeps relay') {connection : ℕ}
    (hc : relay'.Consuming connection) : relay.Consuming connection := by
  rw [consuming_iff] at hc ⊢
  rcases h connection with heq | ⟨-, heq⟩
  · rwa [heq] at hc
  · rw [heq] at hc
    cases hc

theorem active_of_keeps (h : relay.Keeps relay') (hsub : relay'.targets ⊆ relay.targets)
    {connection : ℕ} (hactive : relay'.Active connection) : relay.Active connection :=
  hactive.imp (consuming_of_keeps h) fun ⟨ht, hopen⟩ => ⟨hsub ht, isOpen_of_keeps h hopen⟩

theorem all_isOpen_of_keeps (h : relay.Keeps relay') {target : Option ℕ}
    (hopen : target.all relay'.isOpen = true) : target.all relay.isOpen = true := by
  cases target with
  | none => rfl
  | some connection => exact isOpen_of_keeps h hopen

section Edits

variable {connection : ℕ} {edit : Connection Message → Connection Message}

theorem getElem?_change (other : ℕ) : (relay.change connection edit).connections[other]? =
    if connection = other then relay.connections[other]?.map edit
    else relay.connections[other]? := by
  unfold change
  rw [List.getElem?_modify]
  split <;> cases relay.connections[other]? <;> rfl

theorem isOpen_change {other : ℕ} (hedit : ∀ opened, (edit opened).isOpen = opened.isOpen) :
    (relay.change connection edit).isOpen other = relay.isOpen other := by
  unfold isOpen
  rw [getElem?_change]
  split
  · cases relay.connections[other]? <;> simp [hedit]
  · rfl

theorem flags_change (hedit : ∀ opened, (edit opened).isOpen = opened.isOpen ∧
    (edit opened).consuming = opened.consuming) : (relay.change connection edit).flags = relay.flags := by
  funext other
  unfold flags
  rw [getElem?_change]
  split
  · cases relay.connections[other]? <;> simp [hedit]
  · rfl

@[simp] theorem published_change : (relay.change connection edit).published = relay.published := rfl

theorem keeps_close : relay.Keeps (relay.change connection .close) := by
  intro other
  unfold flags
  rw [getElem?_change]
  split
  · cases relay.connections[other]? <;> simp [Connection.close]
  · exact .inl rfl

theorem targets_await {attempt : ℕ} {awaited next : Awaited}
    (hattempt : relay.attempts[attempt]? = some awaited)
    (hnext : next.connection? = awaited.connection?) :
    (relay.await attempt next).targets = relay.targets := by
  unfold targets await
  obtain ⟨hlt, rfl⟩ := List.getElem?_eq_some_iff.mp hattempt
  rw [List.map_set, hnext]
  apply List.ext_getElem?
  intro index
  rw [List.getElem?_set]
  split
  · rename_i h
    subst h
    simp [hlt]
  · rfl

-- The target of an attempt, and the others.
theorem targets_perm {attempt : ℕ} {awaited : Awaited}
    (hattempt : relay.attempts[attempt]? = some awaited) :
    relay.targets.Perm
      (awaited.connection? :: (relay.attempts.eraseIdx attempt).map Awaited.connection?) := by
  obtain ⟨hlt, rfl⟩ := List.getElem?_eq_some_iff.mp hattempt
  exact (List.getElem_cons_eraseIdx_perm hlt).symm.map Awaited.connection?

theorem consuming_change_consume {other : ℕ} (hopen : relay.isOpen connection = true) :
    (relay.change connection .consume).Consuming other ↔
      other = connection ∨ relay.Consuming other := by
  unfold Consuming
  rw [getElem?_change]
  obtain ⟨opened, hopened, hisOpen⟩ := (Option.any_eq_true _ _).mp hopen
  split
  · rename_i heq
    subst heq
    simp [hopened, hisOpen, Connection.consume]
  · rename_i hne
    rw [or_iff_right (Ne.symm hne)]

theorem targets_resumed_connect {attempt : ℕ}
    (hattempt : relay.attempts[attempt]? = some .connect) :
    (relay.resumed attempt .connect).targets.Perm
      (some relay.connections.length ::
        (relay.attempts.eraseIdx attempt).map Awaited.connection?) :=
  (List.set_perm_cons_eraseIdx (List.getElem?_eq_some_iff.mp hattempt).1 _).map
    Awaited.connection?

theorem getElem?_resumed_connect {attempt : ℕ} (other : ℕ) :
    (relay.resumed attempt .connect).connections[other]? =
      if other = relay.connections.length then some .fresh else relay.connections[other]? := by
  have happend : (relay.resumed attempt .connect).connections =
      relay.connections ++ [Connection.fresh] := rfl
  rw [happend, List.getElem?_append]
  split
  · rw [if_neg (by omega)]
  · split
    · rename_i heq
      rw [heq, Nat.sub_self]
      rfl
    · rw [List.getElem?_eq_none (by simp; omega), List.getElem?_eq_none (by omega)]

theorem flags_resumed_connect {attempt : ℕ} (other : ℕ) :
    (relay.resumed attempt .connect).flags other =
      if other = relay.connections.length then some (true, false) else relay.flags other := by
  unfold flags
  rw [getElem?_resumed_connect]
  split <;> rfl

end Edits

variable [DecidableEq Message]

-- At most one connection is active.
theorem Single.active_unique (h : relay.Single) {first second : ℕ} (hfirst : relay.Consuming first)
    (hsecond : relay.Active second) : first = second := by
  rcases hsecond with hc | ⟨htarget, hopen⟩
  · exact h.consumer first second hfirst hc
  · exact absurd hfirst (h.apart (some second) htarget hopen first)

-- Steps that open nothing, and after which nothing more consumes or is attempted.
theorem Single.of_keeps (h : relay.Single) (hkeeps : relay.Keeps relay')
    (htargets : relay'.targets.Sublist relay.targets)
    (hhandled : ∀ message, relay'.handled.count message ≤ relay'.published.count message)
    (hwaiting : ∀ connection opened, relay'.connections[connection]? = some opened →
      relay.Active connection → ∀ message, relay'.handled.count message +
        opened.queue.count message ≤ relay'.published.count message) : relay'.Single where
  known := fun connection ht => by
    have hknown := flags_ne_none.mpr (h.known connection (htargets.subset ht))
    rw [← flags_ne_none]
    rcases hkeeps connection with heq | ⟨-, heq⟩
    · exact heq ▸ hknown
    · exact heq ▸ Option.some_ne_none _
  attempt := (htargets.countP_le).trans
    ((List.countP_mono_left fun _ _ => all_isOpen_of_keeps hkeeps).trans h.attempt)
  apart := fun target ht hopen connection hc => h.apart target (htargets.subset ht)
    (all_isOpen_of_keeps hkeeps hopen) connection (consuming_of_keeps hkeeps hc)
  consumer := fun first second hfirst hsecond => h.consumer first second
    (consuming_of_keeps hkeeps hfirst) (consuming_of_keeps hkeeps hsecond)
  handled := hhandled
  waiting := fun connection opened ho hactive =>
    hwaiting connection opened ho (active_of_keeps hkeeps htargets.subset hactive)

theorem Single.of_same (h : relay.Single) (hconnections : relay'.connections = relay.connections)
    (htargets : relay'.targets.Sublist relay.targets) (hhandled : relay'.handled = relay.handled)
    (hpublished : relay'.published = relay.published) : relay'.Single := by
  refine h.of_keeps (keeps_of_flags ?_) htargets ?_ ?_
  · unfold flags
    rw [hconnections]
  · rw [hhandled, hpublished]
    exact h.handled
  · rw [hconnections, hhandled, hpublished]
    exact h.waiting

theorem single_scheduleReconnect (h : relay.Single) : relay.scheduleReconnect.Single := by
  unfold scheduleReconnect
  split
  · exact h
  · exact h.of_same rfl (List.Sublist.refl _) rfl rfl

theorem single_failed (h : relay.Single) (attempt : ℕ) : (relay.failed attempt).Single :=
  single_scheduleReconnect <|
    h.of_same rfl ((List.eraseIdx_sublist _ attempt).map _) rfl rfl

theorem single_closed (h : relay.Single) (connection : ℕ) : (relay.closed connection).Single := by
  have hclosed : Single { relay.change connection .close with model := none } := by
    refine h.of_keeps keeps_close (List.Sublist.refl _) h.handled
      fun other opened ho hactive message => ?_
    dsimp only at ho ⊢
    rw [getElem?_change] at ho
    split at ho
    · obtain ⟨-, -, rfl⟩ := Option.map_eq_some_iff.mp ho
      exact h.handled message
    · exact h.waiting other opened ho hactive message
  unfold closed
  dsimp only
  split
  · exact hclosed
  · exact single_scheduleReconnect hclosed

-- The steps of an attempt on a connection it has.
theorem single_await (h : relay.Single) {attempt : ℕ} {awaited next : Awaited}
    (hattempt : relay.attempts[attempt]? = some awaited)
    (hnext : next.connection? = awaited.connection?) : (relay.await attempt next).Single :=
  h.of_same rfl (by rw [targets_await hattempt hnext]) rfl rfl

theorem single_bindQueue (h : relay.Single) (connection : ℕ) :
    (relay.change connection .bindQueue).Single := by
  refine h.of_keeps (keeps_of_flags (flags_change fun _ => ⟨rfl, rfl⟩)) (List.Sublist.refl _)
    h.handled fun other opened ho hactive message => ?_
  rw [getElem?_change] at ho
  split at ho
  · obtain ⟨bound, hbound, rfl⟩ := Option.map_eq_some_iff.mp ho
    exact h.waiting other bound hbound hactive message
  · exact h.waiting other opened ho hactive message

theorem single_publish (h : relay.Single) (message : Message) : (relay.publish message).Single := by
  have hgrows : ∀ other, relay.published.count other ≤ (relay.publish message).published.count other :=
    fun other => by simp [publish]
  refine h.of_keeps (keeps_of_flags ?_) (List.Sublist.refl _)
    (fun other => (h.handled other).trans (hgrows other))
    fun connection opened ho hactive other => ?_
  · funext connection
    simp only [flags, publish, List.getElem?_map, Option.map_map]
    congr 1
    funext opened
    unfold Function.comp Connection.receive
    split <;> rfl
  · simp only [publish, List.getElem?_map] at ho
    obtain ⟨before, hbefore, rfl⟩ := Option.map_eq_some_iff.mp ho
    have hw := h.waiting connection before hbefore hactive other
    unfold Connection.receive
    split
    · simp only [publish, List.count_append]
      omega
    · exact hw.trans (hgrows other)

theorem single_deliver (h : relay.Single) (connection : ℕ) : (relay.deliver connection).Single := by
  unfold deliver
  split
  · rename_i bound message queue hopened
    have hc : relay.Consuming connection := ⟨_, hopened, rfl, rfl⟩
    have hfirst := h.waiting connection _ hopened (.inl hc)
    refine h.of_keeps (keeps_of_flags (flags_change fun _ => ⟨rfl, rfl⟩)) (List.Sublist.refl _)
      (fun other => ?_) fun second opened ho hactive other => ?_
    · have hother := hfirst other
      simp only [List.count_append, List.count_cons, List.count_nil, published_change] at hother ⊢
      omega
    · obtain rfl := h.active_unique hc hactive
      dsimp only at ho ⊢
      rw [getElem?_change, if_pos rfl, hopened, Option.map_some, Option.some.injEq] at ho
      subst ho
      have hother := hfirst other
      simp only [List.count_append, List.count_cons, List.count_nil, published_change] at hother ⊢
      omega
  · exact h

-- Beside an attempt that can succeed there is no other.
theorem Single.rest_of_viable (h : relay.Single) {attempt : ℕ} {awaited : Awaited}
    (hattempt : relay.attempts[attempt]? = some awaited) (hviable : relay.viable awaited = true) :
    ∀ target ∈ (relay.attempts.eraseIdx attempt).map Awaited.connection?,
      target.all relay.isOpen = false := by
  have hcount := h.attempt
  rw [(targets_perm hattempt).countP_eq, List.countP_cons_of_pos (by exact hviable)] at hcount
  have hzero : ((relay.attempts.eraseIdx attempt).map Awaited.connection?).countP
      (Option.all relay.isOpen) = 0 := by omega
  exact fun target ht => eq_false_of_ne_true (List.countP_eq_zero.mp hzero target ht)

-- The connection of this attempt is the only one that consumes afterwards.
theorem single_consume (h : relay.Single) {attempt connection : ℕ}
    (hattempt : relay.attempts[attempt]? = some (.consume connection))
    (hopen : relay.isOpen connection = true) :
    (relay.resumed attempt (.consume connection)).Single := by
  have hmem : some connection ∈ relay.targets :=
    (targets_perm hattempt).mem_iff.mpr List.mem_cons_self
  have hsame : (relay.resumed attempt (.consume connection)).isOpen = relay.isOpen :=
    funext fun _ => isOpen_change fun _ => rfl
  have hrest : ∀ target ∈ (relay.resumed attempt (.consume connection)).targets,
      target.all (relay.resumed attempt (.consume connection)).isOpen = false := fun target ht =>
    hsame ▸ h.rest_of_viable hattempt hopen target ht
  have hc : ∀ other, (relay.resumed attempt (.consume connection)).Consuming other →
      other = connection := fun other hc =>
    ((consuming_change_consume hopen).mp hc).resolve_right (h.apart _ hmem hopen other)
  refine
    { known := fun other ht => ?_
      attempt := ?_
      apart := fun target ht hviable => absurd (hviable.symm.trans (hrest target ht)) (by decide)
      consumer := fun first second hfirst hsecond => (hc first hfirst).trans (hc second hsecond).symm
      handled := h.handled
      waiting := fun other opened ho hactive message => ?_ }
  · have hlt := h.known other ((targets_perm hattempt).mem_iff.mpr (List.mem_cons_of_mem _ ht))
    simpa [resumed, change] using hlt
  · rw [List.countP_eq_zero.mpr fun target ht => by rw [hrest target ht]; decide]
    omega
  · obtain rfl : other = connection := by
      rcases hactive with hconsuming | ⟨ht, hopen'⟩
      · exact hc other hconsuming
      · exact absurd (hopen'.symm.trans (hrest _ ht)) (by decide)
    have ho' : (relay.change other .consume).connections[other]? = some opened := ho
    rw [getElem?_change, if_pos rfl] at ho'
    obtain ⟨before, hbefore, rfl⟩ := Option.map_eq_some_iff.mp ho'
    exact h.waiting other before hbefore (.inr ⟨hmem, hopen⟩) message

-- The new connection is the only one that may be consumed afterwards.
theorem single_connect (h : relay.Single) {attempt : ℕ}
    (hattempt : relay.attempts[attempt]? = some .connect) :
    (relay.resumed attempt .connect).Single := by
  have hperm := targets_resumed_connect hattempt
  have hnone : ∀ other, ¬(relay.resumed attempt .connect).Consuming other := by
    intro other hc
    rw [consuming_iff, flags_resumed_connect] at hc
    split at hc
    · cases hc
    · exact h.apart none ((targets_perm hattempt).mem_iff.mpr List.mem_cons_self) rfl other
        (consuming_iff.mpr hc)
  have hrest : ∀ target ∈ (relay.attempts.eraseIdx attempt).map Awaited.connection?,
      target.all (relay.resumed attempt .connect).isOpen = false := by
    intro target ht
    have hold := h.rest_of_viable hattempt rfl target ht
    cases target with
    | none => cases hold
    | some other =>
        have hlt := h.known other ((targets_perm hattempt).mem_iff.mpr (List.mem_cons_of_mem _ ht))
        rw [Option.all_some, isOpen_eq, flags_resumed_connect, if_neg (by omega), ← isOpen_eq]
        exact hold
  refine
    { known := fun other ht => ?_
      attempt := ?_
      apart := fun _ _ _ => hnone
      consumer := fun first _ hfirst => absurd hfirst (hnone first)
      handled := h.handled
      waiting := fun other opened ho hactive message => ?_ }
  · have hlength : (relay.resumed attempt .connect).connections.length =
        relay.connections.length + 1 := List.length_append
    rw [hlength]
    rcases List.mem_cons.mp (hperm.mem_iff.mp ht) with heq | hold
    · cases heq
      omega
    · have hlt := h.known other
        ((targets_perm hattempt).mem_iff.mpr (List.mem_cons_of_mem _ hold))
      omega
  · rw [hperm.countP_eq, List.countP_cons,
      List.countP_eq_zero.mpr fun target ht => by rw [hrest target ht]; decide]
    split <;> omega
  · obtain ⟨ht, hopen⟩ := hactive.resolve_left (hnone other)
    rcases List.mem_cons.mp (hperm.mem_iff.mp ht) with heq | hold
    · rw [getElem?_resumed_connect, if_pos (Option.some.inj heq), Option.some.injEq] at ho
      subst ho
      exact h.handled message
    · exact absurd (hopen.symm.trans (hrest _ hold)) (by decide)

theorem single_timerFires (h : relay.Single) (hneeded : relay.Needed .timerFires) :
    (relay.step .timerFires).Single := by
  simp only [step]
  split
  · rename_i htimer
    obtain ⟨hattempts, hnone⟩ := hneeded htimer
    have hrest : ∀ target ∈ relay.targets, target.all relay.isOpen = false := by
      intro target ht
      obtain ⟨awaited, hawaited, rfl⟩ := List.mem_map.mp ht
      exact hattempts awaited hawaited
    have htargets : ({ relay with timer := false } : Relay Message).connect.targets =
        relay.targets ++ [none] := List.map_append
    refine
      { known := fun other ht => ?_
        attempt := ?_
        apart := fun target ht hviable connection => hnone connection
        consumer := h.consumer
        handled := h.handled
        waiting := fun other opened ho hactive => h.waiting other opened ho ?_ }
    · rw [htargets] at ht
      exact h.known other (by simpa using ht)
    · rw [htargets, List.countP_append]
      exact Nat.add_le_add (Nat.le_of_eq (List.countP_eq_zero.mpr fun target ht hopen =>
        absurd (hopen.symm.trans (hrest target ht)) (by decide))) List.countP_le_length
    · refine hactive.imp_right fun ⟨ht, hopen⟩ => ⟨?_, hopen⟩
      rw [htargets] at ht
      simpa using ht
  · exact h

theorem single_step (h : relay.Single) (event : RelayEvent Message)
    (hneeded : relay.Needed event) : (relay.step event).Single := by
  cases event with
  | settles attempt ok =>
      simp only [step]
      split
      · rename_i awaited hattempt
        split
        · exact single_failed h attempt
        · split
          · rename_i hviable
            cases awaited with
            | connect => exact single_connect h hattempt
            | createChannel connection => exact single_await h hattempt rfl
            | assertExchange connection => exact single_await h hattempt rfl
            | assertQueue connection => exact single_await h hattempt rfl
            | bindQueue connection => exact single_await (single_bindQueue h connection) hattempt rfl
            | consume connection => exact single_consume h hattempt hviable
          · exact h
      · exact h
  | connectionCloses connection =>
      simp only [step]
      split
      · exact single_closed h connection
      · exact h
  | timerFires => exact single_timerFires h hneeded
  | stop => exact h.of_same rfl (List.Sublist.refl _) rfl rfl
  | publish message => exact single_publish h message
  | deliver connection => exact single_deliver h connection

theorem single_startRelay : (startRelay : Relay Message).Single where
  known := by simp [startRelay, connect, targets, Awaited.connection?]
  attempt := List.countP_le_length
  apart := fun _ _ _ _ ⟨_, ho, _⟩ => by cases ho
  consumer := fun _ _ ⟨_, ho, _⟩ => by cases ho
  handled := fun _ => Nat.le_refl 0
  waiting := fun _ _ ho => by cases ho

-- As long as the timer fires only when the relay needs a connection, an instance has
-- one consumer, and handles no message twice.
theorem relayedOnce_run (events : List (RelayEvent Message))
    (h : Always step Needed startRelay events) : (play step startRelay events).RelayedOnce :=
  have hsingle := play_invariant Single single_startRelay (fun _ event h => single_step h event) h
  ⟨hsingle.consumer, hsingle.handled⟩

-- All calls of the first attempt succeed.
def connects : List (RelayEvent ℕ) := List.replicate 6 (.settles 0 true)

-- A first attempt fails after it has connected. Its connection closes when the second
-- attempt has succeeded, which starts a third one.
def leftover : List (RelayEvent ℕ) :=
  [.settles 0 true, .settles 0 false, .timerFires] ++ connects ++
    [.connectionCloses 0, .timerFires] ++ connects ++ [.publish 7, .deliver 1, .deliver 2]

theorem relayedOnce_fails :
    (¬∀ (events : List (RelayEvent ℕ)) (first second : ℕ),
      (play step startRelay events).Consuming first →
        (play step startRelay events).Consuming second → first = second) ∧
      ¬∀ (events : List (RelayEvent ℕ)) (message : ℕ),
        (play step startRelay events).handled.count message ≤
          (play step startRelay events).published.count message := by
  constructor
  · intro h
    exact absurd (h leftover 1 2 ⟨_, rfl, rfl, rfl⟩ ⟨_, rfl, rfl, rfl⟩) (by decide)
  · intro h
    exact absurd (h leftover 7) (by decide)

-- The broker is restarted between two messages.
def restarted : List (RelayEvent ℕ) :=
  connects ++ [.publish 7, .deliver 0, .connectionCloses 0, .timerFires] ++ connects ++
    [.publish 8, .deliver 1]

theorem relayedOnce_restarted : (play step startRelay restarted).handled = [7, 8] ∧
    (play step startRelay restarted).RelayedOnce := by
  refine ⟨by decide, relayedOnce_run restarted ?_⟩
  refine ⟨trivial, trivial, trivial, trivial, trivial, trivial, trivial, trivial, trivial,
    fun _ => ⟨by decide, ?_⟩, trivial, trivial, trivial, trivial, trivial, trivial, trivial,
    trivial, trivial⟩
  rintro (_ | connection) ⟨opened, ho, hopen, -⟩
  · cases ho
    cases hopen
  · cases ho

end Relay

end SmartParking.Realtime
