import SmartParking.Async.Program

namespace Async

variable {Call : Type} {Answer : Call → Type} {Err Choice World α β : Type}

-- The ports of a system: what a call answers and does to the world. The choice
-- carries everything the caller cannot predict about this one call.
abbrev Server (Choice World Call : Type) (Answer : Call → Type) (Err : Type) :=
  Choice → World → (call : Call) → Except Err (Answer call) × World

namespace Program

-- The function executed to completion with nothing else running.
def run (serve : Server Choice World Call Answer Err) :
    Program Call Answer Err α → (Nat → Choice) → World → Except Err α × World
  | .done result, _, world => (result, world)
  | .await call next, choices, world =>
      (next (serve (choices 0) world call).1).run serve (fun n => choices (n + 1))
        (serve (choices 0) world call).2

-- The weakest precondition of an execution to completion: the outcome meets
-- the postcondition whatever the ports choose.
def wp (serve : Server Choice World Call Answer Err) :
    Program Call Answer Err α → World → (Except Err α → World → Prop) → Prop
  | .done result, world, post => post result world
  | .await call next, world, post => ∀ choice,
      (next (serve choice world call).1).wp serve (serve choice world call).2 post

variable {serve : Server Choice World Call Answer Err}

theorem wp_await (call : Call) (next : Except Err (Answer call) → Program Call Answer Err α)
    (world : World) (post : Except Err α → World → Prop) :
    (.await call next : Program Call Answer Err α).wp serve world post =
      ∀ choice, (next (serve choice world call).1).wp serve (serve choice world call).2 post := rfl

theorem wp_mono {p : Program Call Answer Err α} {world : World}
    {post more : Except Err α → World → Prop} (hp : p.wp serve world post)
    (h : ∀ result world', post result world' → more result world') :
    p.wp serve world more := by
  induction p generalizing world with
  | done result => exact h _ _ hp
  | await call next ih => exact fun choice => ih _ (hp choice)

-- What the rest of a function sees: the value of the first part, or nothing
-- when the first part threw.
def continued (serve : Server Choice World Call Answer Err)
    (f : α → Program Call Answer Err β) (post : Except Err β → World → Prop) :
    Except Err α → World → Prop
  | .ok value, world => (f value).wp serve world post
  | .error err, world => post (.error err) world

@[simp] theorem continued_ok (f : α → Program Call Answer Err β)
    (post : Except Err β → World → Prop) (value : α) (world : World) :
    continued serve f post (.ok value) world = (f value).wp serve world post := rfl

theorem wp_bind {p : Program Call Answer Err α} {f : α → Program Call Answer Err β}
    {world : World} {post : Except Err β → World → Prop} :
    (p >>= f).wp serve world post ↔ p.wp serve world (continued serve f post) := by
  induction p generalizing world with
  | done result => cases result <;> rfl
  | await call next ih =>
      simp only [await_bind, wp_await]
      exact forall_congr' fun choice => ih _

theorem wp_map {p : Program Call Answer Err α} {f : α → β} {world : World}
    {post : Except Err β → World → Prop} :
    (f <$> p).wp serve world post ↔ p.wp serve world fun result => post (result.map f) := by
  change (p >>= pure ∘ f).wp serve world post ↔ _
  rw [wp_bind]
  constructor <;> intro h <;> refine wp_mono h fun result world' hpost => ?_ <;>
    cases result <;> exact hpost

theorem wp_and {p : Program Call Answer Err α} {world : World}
    {post more : Except Err α → World → Prop} (hp : p.wp serve world post)
    (hm : p.wp serve world more) :
    p.wp serve world fun result world' => post result world' ∧ more result world' := by
  induction p generalizing world with
  | done result => exact ⟨hp, hm⟩
  | await call next ih => exact fun choice => ih _ (hp choice) (hm choice)

theorem wp_of_yields {possible : (call : Call) → Except Err (Answer call) → Prop}
    (hserve : ∀ choice world call, possible call (serve choice world call).1)
    {p : Program Call Answer Err α} {post : Except Err α → Prop} (hp : p.Yields possible post)
    (world : World) : p.wp serve world fun result _ => post result := by
  induction p generalizing world with
  | done result => exact hp
  | await call next ih => exact fun choice => ih _ (hp _ (hserve choice world call)) _

-- What holds along every allowed call, and composes, holds along a function
-- that only makes allowed calls.
theorem wp_of_uses {allowed : Call → Prop} {rel : World → World → Prop}
    (hrefl : ∀ world, rel world world)
    (htrans : ∀ a b c, rel a b → rel b c → rel a c)
    (hcall : ∀ call, allowed call → ∀ choice world, rel world (serve choice world call).2)
    {p : Program Call Answer Err α} (hp : p.Uses allowed) (world : World) :
    p.wp serve world fun _ world' => rel world world' := by
  induction p generalizing world with
  | done result => exact hrefl world
  | await call next ih =>
      intro choice
      have hone := hcall call hp.1 choice world
      exact wp_mono (ih _ (hp.2 _) _) fun _ world' h => htrans _ _ _ hone h

theorem wp_settle {p : Program Call Answer Err α} {world : World}
    {post : Except Err (Except Err α) → World → Prop} :
    p.settle.wp serve world post ↔ p.wp serve world fun result => post (.ok result) := by
  induction p generalizing world with
  | done result => rfl
  | await call next ih => exact forall_congr' fun choice => ih _

theorem run_of_wp {p : Program Call Answer Err α} {world : World}
    {post : Except Err α → World → Prop} (h : p.wp serve world post) (choices : Nat → Choice) :
    post (p.run serve choices world).1 (p.run serve choices world).2 := by
  induction p generalizing world choices with
  | done result => exact h
  | await call next ih => exact ih _ (h (choices 0)) _

-- What every call with a good choice keeps, and composes, holds along a run of
-- good choices.
theorem run_rel_of (good : Choice → Prop) (rel : World → World → Prop)
    (hrefl : ∀ world, rel world world) (htrans : ∀ a b c, rel a b → rel b c → rel a c)
    (hcall : ∀ choice, good choice → ∀ world call, rel world (serve choice world call).2)
    (p : Program Call Answer Err α) (choices : Nat → Choice) (hgood : ∀ n, good (choices n))
    (world : World) : rel world (p.run serve choices world).2 := by
  induction p generalizing choices world with
  | done result => exact hrefl world
  | await call next ih =>
      exact htrans _ _ _ (hcall _ (hgood 0) _ _) (ih _ _ (fun n => hgood (n + 1)) _)

theorem run_rel (rel : World → World → Prop) (hrefl : ∀ world, rel world world)
    (htrans : ∀ a b c, rel a b → rel b c → rel a c)
    (hcall : ∀ choice world call, rel world (serve choice world call).2)
    (p : Program Call Answer Err α) (choices : Nat → Choice) (world : World) :
    rel world (p.run serve choices world).2 :=
  run_rel_of (fun _ => True) rel hrefl htrans (fun choice _ => hcall choice) p choices
    (fun _ => trivial) world

theorem run_map (f : α → β) (p : Program Call Answer Err α) (choices : Nat → Choice)
    (world : World) : (f <$> p).run serve choices world =
      ((p.run serve choices world).1.map f, (p.run serve choices world).2) := by
  induction p generalizing choices world with
  | done result => cases result <;> rfl
  | await call next ih => exact ih _ _ _

-- A server of more calls that answers the old ones as before.
theorem run_lift {More : Type} {MoreAnswer : More → Type} {embed : Call → More}
    {back : (call : Call) → MoreAnswer (embed call) → Answer call}
    {serve' : Server Choice World More MoreAnswer Err}
    (hanswer : ∀ choice world call,
      (serve' choice world (embed call)).1.map (back call) = (serve choice world call).1)
    (hworld : ∀ choice world call,
      (serve' choice world (embed call)).2 = (serve choice world call).2)
    (p : Program Call Answer Err α) (choices : Nat → Choice) (world : World) :
    (p.lift embed back).run serve' choices world = p.run serve choices world := by
  induction p generalizing choices world with
  | done result => rfl
  | await call next ih =>
      change (((next _).lift embed back).run serve' _ _) = _
      rw [hanswer, hworld]
      exact ih _ _ _

end Program

-- A server whose awaited calls can also be lost. A lost call changes nothing and
-- reaches the caller as the error it was lost with.
def faulty (serve : Server Choice World Call Answer Err) (awaited : Call → Bool) :
    Server (Option Err × Choice) World Call Answer Err
  | (some err, choice), world, call =>
      if awaited call then (.error err, world) else serve choice world call
  | (none, choice), world, call => serve choice world call

-- One answered call of a sequential execution.
structure Record (Call : Type) (Answer : Call → Type) (Err : Type) where
  call : Call
  answer : Except Err (Answer call)

-- A server that also keeps the answered calls, the latest first.
def logged (serve : Server Choice World Call Answer Err) :
    Server Choice (World × List (Record Call Answer Err)) Call Answer Err :=
  fun choice (world, log) call =>
    ((serve choice world call).1,
      ((serve choice world call).2, ⟨call, (serve choice world call).1⟩ :: log))

namespace Program

variable {serve : Server Choice World Call Answer Err}

-- A run in which nothing is lost.
theorem run_faulty_none (awaited : Call → Bool) (p : Program Call Answer Err α)
    (choices : Nat → Choice) (world : World) :
    p.run (faulty serve awaited) (fun n => (none, choices n)) world = p.run serve choices world := by
  induction p generalizing choices world with
  | done result => rfl
  | await call next ih => exact ih _ _ _

-- One call of a run, and the rest of the run.
theorem run_perform_bind {call : Call} {f : Answer call → Program Call Answer Err α}
    (choices : Nat → Choice) (world : World) :
    (perform call >>= f).run serve choices world =
      match serve (choices 0) world call with
      | (.ok value, world') => (f value).run serve (fun n => choices (n + 1)) world'
      | (.error err, world') => (.error err, world') := by
  change (Program.run serve ((Program.done (serve (choices 0) world call).1).bind f)
    (fun n => choices (n + 1)) (serve (choices 0) world call).2) = _
  cases serve (choices 0) world call with
  | mk answer world' => cases answer <;> rfl

theorem run_perform_ok {call : Call} {f : Answer call → Program Call Answer Err α}
    {choices : Nat → Choice} {world world' : World} {value : Answer call}
    (h : serve (choices 0) world call = (.ok value, world')) :
    (perform call >>= f).run serve choices world =
      (f value).run serve (fun n => choices (n + 1)) world' := by
  rw [run_perform_bind, h]

-- Where the calls only concern a part of the world, a function runs as it does
-- on that part alone.
theorem run_embed {Choice' World' : Type} {serve' : Server Choice' World' Call Answer Err}
    {embed : World' → World} {view : Choice → Choice'} {allowed : Call → Prop}
    (hcall : ∀ call, allowed call → ∀ choice world, serve choice (embed world) call =
      ((serve' (view choice) world call).1, embed (serve' (view choice) world call).2))
    {p : Program Call Answer Err α} (hp : p.Uses allowed) (choices : Nat → Choice)
    (world : World') :
    p.run serve choices (embed world) =
      ((p.run serve' (fun n => view (choices n)) world).1,
        embed (p.run serve' (fun n => view (choices n)) world).2) := by
  induction p generalizing choices world with
  | done result => rfl
  | await call next ih =>
      change (next (serve (choices 0) (embed world) call).1).run serve (fun n => choices (n + 1))
        (serve (choices 0) (embed world) call).2 = _
      rw [hcall call hp.1]
      exact ih _ (hp.2 _) _ _

end Program

end Async
