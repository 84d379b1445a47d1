import Mathlib.Data.List.Infix

-- Machines that take every event in every state. A run is a list of events.
namespace Machine

variable {State Event : Type}

def play (step : State → Event → State) (start : State) (events : List Event) : State :=
  events.foldl step start

-- A condition on every step of a run: on its event, and the state before it.
def Always (step : State → Event → State) (cond : State → Event → Prop) :
    State → List Event → Prop
  | _, [] => True
  | state, event :: rest => cond state event ∧ Always step cond (step state event) rest

instance decideAlways {step : State → Event → State} {cond : State → Event → Prop}
    [∀ state event, Decidable (cond state event)] (state : State) :
    (events : List Event) → Decidable (Always step cond state events)
  | [] => isTrue trivial
  | event :: rest =>
      have : Decidable (Always step cond (step state event) rest) :=
        decideAlways (step state event) rest
      inferInstanceAs (Decidable (_ ∧ _))

variable {step : State → Event → State} {cond cond' : State → Event → Prop} {start : State}
  {events more : List Event}

theorem play_append : play step start (events ++ more) =
    play step (play step start events) more :=
  List.foldl_append

theorem always_of_forall {allowed : Event → Prop} (h : ∀ event ∈ events, allowed event) :
    Always step (fun _ => allowed) start events := by
  induction events generalizing start with
  | nil => trivial
  | cons event rest ih =>
      obtain ⟨hevent, hrest⟩ := List.forall_mem_cons.mp h
      exact ⟨hevent, ih hrest⟩

theorem always_true : Always step (fun _ _ => True) start events :=
  always_of_forall fun _ _ => trivial

-- The invariant rule, for runs all of whose steps meet a condition.
theorem play_invariant (inv : State → Prop) (hstart : inv start)
    (hstep : ∀ state event, inv state → cond state event → inv (step state event))
    (h : Always step cond start events) : inv (play step start events) := by
  induction events generalizing start with
  | nil => exact hstart
  | cons event rest ih => exact ih (hstep start event hstart h.1) h.2

-- A condition that another one implies under an invariant.
theorem always_imp (inv : State → Prop) (hstart : inv start)
    (hstep : ∀ state event, inv state → cond state event →
      inv (step state event) ∧ cond' state event)
    (h : Always step cond start events) : Always step cond' start events := by
  induction events generalizing start with
  | nil => trivial
  | cons event rest ih =>
      obtain ⟨hinv, hcond⟩ := hstep start event hstart h.1
      exact ⟨hcond, ih hinv h.2⟩

-- Two conditions that are the same under an invariant hold along the same runs.
theorem always_congr (inv : State → Prop) (hstart : inv start)
    (hstep : ∀ state event, inv state → cond state event → inv (step state event))
    (hiff : ∀ state event, inv state → (cond' state event ↔ cond state event)) :
    Always step cond' start events ↔ Always step cond start events := by
  induction events generalizing start with
  | nil => exact Iff.rfl
  | cons event rest ih =>
      refine (and_congr_left' (hiff start event hstart)).trans (and_congr_right fun hcond => ?_)
      exact ih (hstep start event hstart hcond)

section Outputs

variable {Other Output : Type} {step' : Other → Event → Other} {other : Other}

-- What the steps of a run put out, in their order.
def outputs (step : State → Event → State) (out : State → Event → List Output) :
    State → List Event → List Output
  | _, [] => []
  | state, event :: rest => out state event ++ outputs step out (step state event) rest

variable {out : State → Event → List Output} {out' : Other → Event → List Output}

-- Two machines in related states put out the same, in every run.
theorem outputs_simulation (rel : State → Other → Prop) (hstart : rel start other)
    (hstep : ∀ state state' event, rel state state' →
      rel (step state event) (step' state' event))
    (hout : ∀ state state' event, rel state state' → out state event = out' state' event) :
    outputs step out start events = outputs step' out' other events := by
  induction events generalizing start other with
  | nil => rfl
  | cons event rest ih =>
      exact congrArg₂ (· ++ ·) (hout start other event hstart) (ih (hstep start other event hstart))

-- Events that change nothing and put out nothing can be left out.
theorem outputs_filter (keep : Event → Bool)
    (hstep : ∀ state event, keep event = false → step state event = state)
    (hout : ∀ state event, keep event = false → out state event = []) :
    outputs step out start (events.filter keep) = outputs step out start events := by
  induction events generalizing start with
  | nil => rfl
  | cons event rest ih =>
      by_cases hkeep : keep event = true
      · rw [List.filter_cons_of_pos hkeep, outputs, outputs, ih]
      · rw [Bool.not_eq_true] at hkeep
        rw [List.filter_cons_of_neg (by simp [hkeep]), outputs, hstep start event hkeep,
          hout start event hkeep, List.nil_append, ih]

theorem filter_outputs (keep : Output → Bool) : (outputs step out start events).filter keep =
    outputs step (fun state event => (out state event).filter keep) start events := by
  induction events generalizing start with
  | nil => rfl
  | cons event rest ih => rw [outputs, outputs, List.filter_append, ih]

theorem countP_outputs_le {counts : Output → Bool} {may : Event → Bool}
    (h : ∀ state event, (out state event).countP counts ≤ if may event then 1 else 0) :
    (outputs step out start events).countP counts ≤ events.countP may := by
  induction events generalizing start with
  | nil => exact Nat.le_refl 0
  | cons event rest ih =>
      rw [outputs, List.countP_append, List.countP_cons, Nat.add_comm]
      exact Nat.add_le_add ih (h start event)

theorem mem_outputs {output : Output} : output ∈ outputs step out start events ↔
    ∃ past event, past ++ [event] <+: events ∧ output ∈ out (play step start past) event := by
  induction events generalizing start with
  | nil => simp [outputs]
  | cons event rest ih =>
      rw [outputs, List.mem_append, ih]
      constructor
      · rintro (h | ⟨past, last, hp, h⟩)
        · exact ⟨[], event, List.cons_prefix_cons.mpr ⟨rfl, List.nil_prefix⟩, h⟩
        · exact ⟨event :: past, last, List.cons_prefix_cons.mpr ⟨rfl, hp⟩, h⟩
      · rintro ⟨past, last, hp, h⟩
        cases past with
        | nil =>
            obtain ⟨rfl, -⟩ := List.cons_prefix_cons.mp hp
            exact .inl h
        | cons first past =>
            obtain ⟨rfl, hrest⟩ := List.cons_prefix_cons.mp hp
            exact .inr ⟨past, last, hrest, h⟩

end Outputs

-- What holds in every state of a run holds at its start and after each step.
theorem forall_prefix_iff {holds : State → Prop} :
    (∀ past, past <+: events → holds (play step start past)) ↔
      holds start ∧ Always step (fun state event => holds (step state event)) start events := by
  induction events generalizing start with
  | nil => simp [play, Always]
  | cons event rest ih =>
      rw [Always, ← ih]
      constructor
      · exact fun h => ⟨h [] List.nil_prefix, fun past hp =>
          h (event :: past) (List.cons_prefix_cons.mpr ⟨rfl, hp⟩)⟩
      · rintro ⟨hstart, hrest⟩ past hp
        cases past with
        | nil => exact hstart
        | cons other past =>
            obtain ⟨rfl, hpast⟩ := List.cons_prefix_cons.mp hp
            exact hrest past hpast

-- Something started, and nothing has stopped it afterwards.
def Since (starts stops : Event → Prop) (past : List Event) : Prop :=
  ∃ before event after, past = before ++ event :: after ∧ starts event ∧
    ∀ later ∈ after, ¬stops later

theorem since_append {starts stops : Event → Prop} {past : List Event} {event : Event} :
    Since starts stops (past ++ [event]) ↔
      starts event ∨ (Since starts stops past ∧ ¬stops event) := by
  constructor
  · rintro ⟨before, first, after, heq, hstarts, hstops⟩
    rcases List.eq_nil_or_concat after with rfl | ⟨after, last, rfl⟩
    · obtain ⟨-, hlast⟩ := List.append_inj' heq rfl
      obtain rfl : event = first := by simpa using hlast
      exact .inl hstarts
    · rw [List.concat_eq_append] at heq hstops
      rw [← List.cons_append, ← List.append_assoc] at heq
      obtain ⟨rfl, hlast⟩ := List.append_inj' heq rfl
      obtain rfl : event = last := by simpa using hlast
      refine .inr ⟨⟨before, first, after, rfl, hstarts, fun later hl => ?_⟩, ?_⟩
      · exact hstops later (List.mem_append_left _ hl)
      · exact hstops event (List.mem_append_right _ (List.mem_singleton.mpr rfl))
  · rintro (hstarts | ⟨⟨before, first, after, rfl, hstarts, hstops⟩, hevent⟩)
    · exact ⟨past, event, [], rfl, hstarts, fun _ h => absurd h List.not_mem_nil⟩
    · refine ⟨before, first, after ++ [event], by simp, hstarts, fun later hl => ?_⟩
      rcases List.mem_append.mp hl with hl | hl
      · exact hstops later hl
      · exact List.mem_singleton.mp hl ▸ hevent

end Machine
