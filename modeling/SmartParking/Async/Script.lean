import SmartParking.Async.Sequential

-- Functions that do a fixed list of writes, and what is left of the list when one
-- write is lost.
namespace Async

variable {Call : Type} {Answer : Call → Type} {Err Choice World State α β : Type}

-- A server that loses its write of the given number: it changes nothing, and
-- reaches the caller as an error. The counter is gone once a write was lost.
def losing (serve : Server Choice World Call Answer Err) (writes : Call → Bool) (err : Err) :
    Server Choice (World × Option Nat) Call Answer Err := fun choice (world, left) call =>
  if writes call then
    match left with
    | some 0 => (.error err, (world, none))
    | left => ((serve choice world call).1, ((serve choice world call).2, left.map (· - 1)))
  else ((serve choice world call).1, ((serve choice world call).2, left))

section Losing

variable {serve : Server Choice World Call Answer Err} {writes : Call → Bool} {err : Err}
  {choice : Choice} {world : World} {call : Call}

theorem losing_other (h : writes call = false) (left : Option Nat) :
    losing serve writes err choice (world, left) call =
      ((serve choice world call).1, ((serve choice world call).2, left)) := by
  simp only [losing, h, Bool.false_eq_true, if_false]

theorem losing_zero (h : writes call = true) :
    losing serve writes err choice (world, some 0) call = (.error err, (world, none)) := by
  simp only [losing, h, if_true]

theorem losing_succ (h : writes call = true) (left : Nat) :
    losing serve writes err choice (world, some (left + 1)) call =
      ((serve choice world call).1, ((serve choice world call).2, some left)) := by
  simp only [losing, h, if_true, Option.map_some, Nat.add_sub_cancel]

end Losing

-- One effect after another.
def Chain : List (State → State → Prop) → State → State → Prop
  | [], first, last => last = first
  | effect :: rest, first, last => ∃ middle, effect first middle ∧ Chain rest middle last

theorem chain_append {effects more : List (State → State → Prop)} {first last : State} :
    Chain (effects ++ more) first last ↔
      ∃ middle, Chain effects first middle ∧ Chain more middle last := by
  induction effects generalizing first with
  | nil => exact ⟨fun h => ⟨first, rfl, h⟩, fun ⟨_, rfl, h⟩ => h⟩
  | cons effect rest ih =>
      simp only [List.cons_append, Chain, ih]
      exact ⟨fun ⟨a, ha, b, hb, h⟩ => ⟨b, ⟨a, ha, hb⟩, h⟩, fun ⟨b, ⟨a, ha, hb⟩, h⟩ => ⟨a, ha, b, hb, h⟩⟩

namespace Program

-- The writes of the function have the given effects, in their order. It ends with
-- the first write that fails, and only returns when it has done them all. The
-- other calls do not change what is seen of the world.
def Performs (serve : Server Choice World Call Answer Err) (writes : Call → Bool)
    (view : World → State) : Program Call Answer Err α → State → List (State → State → Prop) → Prop
  | .done (.ok _), _, effects => effects = []
  | .done (.error _), _, _ => True
  | .await call next, state, effects => ∀ choice world, view world = state →
      if writes call then
        match effects with
        | [] => False
        | effect :: rest =>
            (∀ err, ∃ err', next (.error err) = .done (.error err')) ∧
              effect state (view (serve choice world call).2) ∧
              (next (serve choice world call).1).Performs serve writes view
                (view (serve choice world call).2) rest
      else view (serve choice world call).2 = state ∧
        (next (serve choice world call).1).Performs serve writes view state effects

variable {serve : Server Choice World Call Answer Err} {writes : Call → Bool}
  {view : World → State} {err : Err}

-- A lost write ends the list where it stands.
theorem chain_of_lost {p : Program Call Answer Err α} (world : World)
    {effects : List (State → State → Prop)} (hp : p.Performs serve writes view (view world) effects)
    {left : Nat} {choices : Nat → Choice}
    (hlost : (p.run (losing serve writes err) choices (world, some left)).2.2 = none) :
    left < effects.length ∧ Chain (effects.take left) (view world)
      (view (p.run (losing serve writes err) choices (world, some left)).2.1) := by
  induction p generalizing world effects left choices with
  | done result => cases hlost
  | await call next ih =>
      have hcall := hp (choices 0) world rfl
      change ((next (losing serve writes err (choices 0) (world, some left) call).1).run _ _
        (losing serve writes err (choices 0) (world, some left) call).2).2.2 = none at hlost
      change left < _ ∧ Chain _ _ (view ((next (losing serve writes err (choices 0)
        (world, some left) call).1).run _ _ (losing serve writes err (choices 0)
          (world, some left) call).2).2.1)
      cases hw : writes call with
      | false =>
          rw [hw, if_neg Bool.false_ne_true] at hcall
          rw [losing_other hw] at hlost ⊢
          have hrest := hcall.2
          rw [← hcall.1] at hrest ⊢
          exact ih _ _ hrest hlost
      | true =>
          rw [hw, if_pos rfl] at hcall
          cases effects with
          | nil => exact hcall.elim
          | cons effect rest =>
              obtain ⟨hends, heffect, hrest⟩ := hcall
              cases left with
              | zero =>
                  obtain ⟨err', he⟩ := hends err
                  rw [losing_zero hw, he]
                  exact ⟨Nat.succ_pos _, rfl⟩
              | succ left =>
                  rw [losing_succ hw] at hlost ⊢
                  obtain ⟨hl, hchain⟩ := ih _ _ hrest hlost
                  exact ⟨Nat.succ_lt_succ hl, _, heffect, hchain⟩

-- A function that returns has come to the end of the list.
theorem chain_of_ok {p : Program Call Answer Err α} (world : World)
    {effects : List (State → State → Prop)} (hp : p.Performs serve writes view (view world) effects)
    {choices : Nat → Choice} {value : α} (hok : (p.run serve choices world).1 = .ok value) :
    Chain effects (view world) (view (p.run serve choices world).2) := by
  induction p generalizing world effects choices with
  | done result =>
      cases result with
      | ok other =>
          cases hp
          rfl
      | error err => cases hok
  | await call next ih =>
      have hcall := hp (choices 0) world rfl
      split at hcall
      · cases effects with
        | nil => exact hcall.elim
        | cons effect rest => exact ⟨_, hcall.2.1, ih _ _ hcall.2.2 hok⟩
      · have hrest := ih (serve (choices 0) world call).1 (serve (choices 0) world call).2
          (by rw [hcall.1]; exact hcall.2) hok
        rw [hcall.1] at hrest
        exact hrest

-- A function with an empty list changes nothing, returning or not.
theorem view_of_performs_nil {p : Program Call Answer Err α} (world : World)
    (hp : p.Performs serve writes view (view world) []) (choices : Nat → Choice) :
    view (p.run serve choices world).2 = view world := by
  induction p generalizing world choices with
  | done result => rfl
  | await call next ih =>
      have hcall := hp (choices 0) world rfl
      cases hw : writes call with
      | true =>
          rw [hw, if_pos rfl] at hcall
          exact hcall.elim
      | false =>
          rw [hw, if_neg Bool.false_ne_true] at hcall
          have hrest := hcall.2
          rw [← hcall.1] at hrest
          exact (ih _ _ hrest _).trans hcall.1

section Rules

variable {state : State} {effects : List (State → State → Prop)}

theorem performs_throw (err : Err) :
    (throw err : Program Call Answer Err α).Performs serve writes view state effects := trivial

theorem performs_map {p : Program Call Answer Err α} (g : α → β)
    (hp : p.Performs serve writes view state effects) :
    (p >>= fun value => pure (g value)).Performs serve writes view state effects := by
  induction p generalizing state effects with
  | done result =>
      cases result with
      | ok value => exact hp
      | error err => trivial
  | await call next ih =>
      intro choice world hview
      have hcall := hp choice world hview
      cases hw : writes call with
      | false =>
          rw [hw, if_neg Bool.false_ne_true] at hcall
          rw [if_neg Bool.false_ne_true]
          exact ⟨hcall.1, ih _ hcall.2⟩
      | true =>
          rw [hw, if_pos rfl] at hcall
          rw [if_pos rfl]
          cases effects with
          | nil => exact hcall.elim
          | cons effect rest =>
              obtain ⟨hends, heffect, hrest⟩ := hcall
              refine ⟨fun err => ?_, heffect, ih _ hrest⟩
              obtain ⟨err', he⟩ := hends err
              refine ⟨err', ?_⟩
              change (next (.error err)).bind _ = _
              rw [he]
              rfl

-- What comes before the first write.
theorem performs_uses_bind {reads : Call → Prop}
    (hreads : ∀ call, reads call → writes call = false ∧
      ∀ choice world, view (serve choice world call).2 = view world)
    {p : Program Call Answer Err α} (hp : p.Uses reads) {f : α → Program Call Answer Err β}
    (hf : ∀ value, (f value).Performs serve writes view state effects) :
    (p >>= f).Performs serve writes view state effects := by
  induction p with
  | done result =>
      cases result with
      | ok value => exact hf value
      | error err => trivial
  | await call next ih =>
      rintro choice world rfl
      rw [(hreads call hp.1).1, if_neg Bool.false_ne_true]
      exact ⟨(hreads call hp.1).2 choice world, ih _ (hp.2 _)⟩

-- A call whose answer is known from what is seen of the world.
theorem performs_read_bind {call : Call} {value : Answer call}
    {f : Answer call → Program Call Answer Err α} (hw : writes call = false)
    (hserve : ∀ choice world, view world = state →
      (serve choice world call).1 = .ok value ∧ view (serve choice world call).2 = view world)
    (hf : (f value).Performs serve writes view state effects) :
    (perform call >>= f).Performs serve writes view state effects := by
  intro choice world hview
  obtain ⟨ha, hv⟩ := hserve choice world hview
  rw [hw, if_neg Bool.false_ne_true, ha]
  exact ⟨hv.trans hview, hf⟩

theorem performs_write_bind {call : Call} {f : Answer call → Program Call Answer Err α}
    {effect : State → State → Prop} (hw : writes call = true)
    (h : ∀ choice world, view world = state → effect state (view (serve choice world call).2) ∧
      ∀ value, (serve choice world call).1 = .ok value →
        (f value).Performs serve writes view (view (serve choice world call).2) effects) :
    (perform call >>= f).Performs serve writes view state (effect :: effects) := by
  intro choice world hview
  obtain ⟨heffect, hf⟩ := h choice world hview
  rw [hw, if_pos rfl]
  refine ⟨fun err => ⟨err, rfl⟩, heffect, ?_⟩
  change ((Program.done (serve choice world call).1).bind f).Performs _ _ _ _ _
  cases ha : (serve choice world call).1 with
  | ok value => exact hf value ha
  | error err => trivial

end Rules

end Program

end Async
