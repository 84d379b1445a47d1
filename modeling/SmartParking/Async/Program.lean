import Mathlib.Logic.Basic

namespace Async

-- An asynchronous function, seen from its ports: it has ended with a value or
-- an error, or it awaits the answer of one port call. An answer can itself be
-- an error, which is how a failing port reaches the function.
inductive Program (Call : Type) (Answer : Call → Type) (Err α : Type) where
  | done (result : Except Err α)
  | await (call : Call) (next : Except Err (Answer call) → Program Call Answer Err α)

namespace Program

variable {Call : Type} {Answer : Call → Type} {Err α β γ : Type}

def bind : Program Call Answer Err α → (α → Program Call Answer Err β) →
    Program Call Answer Err β
  | .done (.ok value), f => f value
  | .done (.error err), _ => .done (.error err)
  | .await call next, f => .await call fun answer => (next answer).bind f

-- The handler sees the errors thrown by the function and those of its ports.
def tryCatch : Program Call Answer Err α → (Err → Program Call Answer Err α) →
    Program Call Answer Err α
  | .done (.ok value), _ => .done (.ok value)
  | .done (.error err), handler => handler err
  | .await call next, handler => .await call fun answer => (next answer).tryCatch handler

instance : Monad (Program Call Answer Err) where
  pure value := .done (.ok value)
  bind := bind

instance : MonadExceptOf Err (Program Call Answer Err) where
  throw err := .done (.error err)
  tryCatch := tryCatch

-- The call whose answer is the value.
def perform (call : Call) : Program Call Answer Err (Answer call) :=
  .await call .done

-- The outcome of a function as a value.
def settle : Program Call Answer Err α → Program Call Answer Err (Except Err α)
  | .done result => .done (.ok result)
  | .await call next => .await call fun answer => (next answer).settle

-- Promise.all: both are started, and the first error is thrown when both ended.
def both (p : Program Call Answer Err α) (q : Program Call Answer Err β) :
    Program Call Answer Err (α × β) := do
  let first ← p.settle
  let second ← q.settle
  match first, second with
  | .ok a, .ok b => pure (a, b)
  | .error err, _ => throw err
  | .ok _, .error err => throw err

def all : List (Program Call Answer Err α) → Program Call Answer Err (List α)
  | [] => pure []
  | p :: rest => do
      let (value, values) ← p.both (all rest)
      pure (value :: values)

@[simp] theorem await_bind (call : Call)
    (next : Except Err (Answer call) → Program Call Answer Err α)
    (f : α → Program Call Answer Err β) :
    (.await call next : Program Call Answer Err α) >>= f =
      .await call fun answer => next answer >>= f := rfl

theorem bind_done (p : Program Call Answer Err α) :
    p.bind (fun value => .done (.ok value)) = p := by
  induction p with
  | done result => cases result <;> rfl
  | await call next ih => simp only [bind, ih]

theorem bind_assoc (p : Program Call Answer Err α) (f : α → Program Call Answer Err β)
    (g : β → Program Call Answer Err γ) :
    (p.bind f).bind g = p.bind fun value => (f value).bind g := by
  induction p with
  | done result => cases result <;> rfl
  | await call next ih => simp only [bind, ih]

instance : LawfulMonad (Program Call Answer Err) :=
  LawfulMonad.mk' _ bind_done (fun _ _ => rfl) bind_assoc

-- The call whose answer the function waits for.
def awaited : Program Call Answer Err α → Option Call
  | .done _ => none
  | .await call _ => some call

theorem exists_of_awaited {p : Program Call Answer Err α} {call : Call}
    (h : p.awaited = some call) : ∃ next, p = .await call next := by
  cases p with
  | done result => cases h
  | await other next =>
      cases h
      exact ⟨next, rfl⟩

-- Every call the function can make is allowed, whatever the ports answer.
def Uses (allowed : Call → Prop) : Program Call Answer Err α → Prop
  | .done _ => True
  | .await call next => allowed call ∧ ∀ answer, (next answer).Uses allowed

theorem uses_perform {allowed : Call → Prop} {call : Call} (h : allowed call) :
    (perform call : Program Call Answer Err _).Uses allowed :=
  ⟨h, fun _ => trivial⟩

theorem uses_bind {allowed : Call → Prop} {p : Program Call Answer Err α}
    {f : α → Program Call Answer Err β} (hp : p.Uses allowed)
    (hf : ∀ value, (f value).Uses allowed) : (p >>= f).Uses allowed := by
  change (p.bind f).Uses allowed
  induction p with
  | done result =>
      cases result with
      | ok value => exact hf value
      | error err => trivial
  | await call next ih => exact ⟨hp.1, fun answer => ih answer (hp.2 answer)⟩

theorem uses_map {allowed : Call → Prop} {p : Program Call Answer Err α} (hp : p.Uses allowed)
    (f : α → β) : (f <$> p).Uses allowed :=
  uses_bind hp fun _ => trivial

theorem uses_tryCatch {allowed : Call → Prop} {p : Program Call Answer Err α}
    {handler : Err → Program Call Answer Err α} (hp : p.Uses allowed)
    (hh : ∀ err, (handler err).Uses allowed) : (p.tryCatch handler).Uses allowed := by
  induction p with
  | done result =>
      cases result with
      | ok value => trivial
      | error err => exact hh err
  | await call next ih => exact ⟨hp.1, fun answer => ih answer (hp.2 answer)⟩

theorem uses_settle {allowed : Call → Prop} {p : Program Call Answer Err α}
    (hp : p.Uses allowed) : p.settle.Uses allowed := by
  induction p with
  | done result => trivial
  | await call next ih => exact ⟨hp.1, fun answer => ih answer (hp.2 answer)⟩

theorem uses_both {allowed : Call → Prop} {p : Program Call Answer Err α}
    {q : Program Call Answer Err β} (hp : p.Uses allowed) (hq : q.Uses allowed) :
    (p.both q).Uses allowed := by
  refine uses_bind (uses_settle hp) fun first => uses_bind (uses_settle hq) fun second => ?_
  cases first <;> cases second <;> trivial

theorem uses_all {allowed : Call → Prop} {ps : List (Program Call Answer Err α)}
    (h : ∀ p ∈ ps, p.Uses allowed) : (all ps).Uses allowed := by
  induction ps with
  | nil => trivial
  | cons p rest ih =>
      have hp := h p List.mem_cons_self
      have hrest := ih fun q hq => h q (List.mem_cons_of_mem p hq)
      exact uses_bind (uses_both hp hrest) fun _ => trivial

theorem uses_true (p : Program Call Answer Err α) : p.Uses fun _ => True := by
  induction p with
  | done result => trivial
  | await call next ih => exact ⟨trivial, ih⟩

theorem Uses.mono {allowed more : Call → Prop} {p : Program Call Answer Err α}
    (hp : p.Uses allowed) (h : ∀ call, allowed call → more call) : p.Uses more := by
  induction p with
  | done result => trivial
  | await call next ih => exact ⟨h call hp.1, fun answer => ih answer (hp.2 answer)⟩

-- Every outcome the function can have when its ports give possible answers.
def Yields (possible : (call : Call) → Except Err (Answer call) → Prop)
    (post : Except Err α → Prop) : Program Call Answer Err α → Prop
  | .done result => post result
  | .await call next => ∀ answer, possible call answer → (next answer).Yields possible post

variable {possible : (call : Call) → Except Err (Answer call) → Prop}

theorem yields_bind {middle : Except Err α → Prop} {post : Except Err β → Prop}
    {p : Program Call Answer Err α} {f : α → Program Call Answer Err β}
    (hp : p.Yields possible middle) (herr : ∀ err, middle (.error err) → post (.error err))
    (hf : ∀ value, middle (.ok value) → (f value).Yields possible post) :
    (p >>= f).Yields possible post := by
  change (p.bind f).Yields possible post
  induction p with
  | done result =>
      cases result with
      | ok value => exact hf value hp
      | error err => exact herr err hp
  | await call next ih => exact fun answer ha => ih answer (hp answer ha)

theorem Yields.mono {post more : Except Err α → Prop} {p : Program Call Answer Err α}
    (hp : p.Yields possible post) (h : ∀ result, post result → more result) :
    p.Yields possible more := by
  induction p with
  | done result => exact h result hp
  | await call next ih => exact fun answer ha => ih answer (hp answer ha)

theorem yields_true (p : Program Call Answer Err α) : p.Yields possible fun _ => True := by
  induction p with
  | done result => trivial
  | await call next ih => exact fun answer _ => ih answer

-- A handler that always returns leaves no error to throw.
theorem yields_tryCatch_pure (p : Program Call Answer Err α) (value : α) :
    (p.tryCatch fun _ => .done (.ok value)).Yields possible
      fun result => ∃ value, result = .ok value := by
  induction p with
  | done result => cases result <;> exact ⟨_, rfl⟩
  | await call next ih => exact fun answer _ => ih answer

-- A function over some ports, as one over more of them.
section Lift

variable {More : Type} {MoreAnswer : More → Type} (embed : Call → More)
  (back : (call : Call) → MoreAnswer (embed call) → Answer call)

def lift : Program Call Answer Err α → Program More MoreAnswer Err α
  | .done result => .done result
  | .await call next => .await (embed call) fun answer => (next (answer.map (back call))).lift

theorem lift_bind (p : Program Call Answer Err α) (f : α → Program Call Answer Err β) :
    (p >>= f).lift embed back = p.lift embed back >>= fun value => (f value).lift embed back := by
  change (p.bind f).lift embed back = (p.lift embed back).bind _
  induction p with
  | done result => cases result <;> rfl
  | await call next ih => simp only [bind, lift, ih]

theorem uses_lift (p : Program Call Answer Err α) :
    (p.lift embed back).Uses fun more => ∃ call, more = embed call := by
  induction p with
  | done result => trivial
  | await call next ih => exact ⟨⟨call, rfl⟩, fun _ => ih _⟩

end Lift

end Program

end Async
