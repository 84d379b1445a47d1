import SmartParking.Async.Discipline
import Mathlib.Algebra.BigOperators.Group.List.Basic
import Mathlib.Algebra.GroupWithZero.Nat

namespace Async

variable {Tid Call : Type} {Answer : Call → Type} {Err Choice World Fact α β : Type}
  {possible : (call : Call) → Except Err (Answer call) → Prop} {weight : Call → ℕ}

namespace Program

-- The weights of the calls of one execution come to no more than a number.
def AtMost (possible : (call : Call) → Except Err (Answer call) → Prop) (weight : Call → ℕ) :
    Program Call Answer Err α → ℕ → Prop
  | .done _, _ => True
  | .await call next, most => weight call ≤ most ∧ ∀ answer, possible call answer →
      (next answer).AtMost possible weight (most - weight call)

variable {p : Program Call Answer Err α} {most more : ℕ}

theorem atMost_mono (hp : p.AtMost possible weight most) (h : most ≤ more) :
    p.AtMost possible weight more := by
  induction p generalizing most more with
  | done result => trivial
  | await call next ih =>
      refine ⟨hp.1.trans h, fun answer ha => ?_⟩
      exact ih answer (hp.2 answer ha) (Nat.sub_le_sub_right h _)

theorem atMost_bind {f : α → Program Call Answer Err β} (hp : p.AtMost possible weight most)
    (hf : ∀ value, (f value).AtMost possible weight more) :
    (p >>= f).AtMost possible weight (most + more) := by
  change (p.bind f).AtMost possible weight (most + more)
  induction p generalizing most with
  | done result =>
      cases result with
      | ok value => exact atMost_mono (hf value) (Nat.le_add_left _ _)
      | error err => trivial
  | await call next ih =>
      refine ⟨hp.1.trans (Nat.le_add_right _ _), fun answer ha => ?_⟩
      rw [Nat.sub_add_comm hp.1]
      exact ih answer (hp.2 answer ha)

theorem atMost_tryCatch {handler : Err → Program Call Answer Err α}
    (hp : p.AtMost possible weight most)
    (hh : ∀ err, (handler err).AtMost possible weight more) :
    (p.tryCatch handler).AtMost possible weight (most + more) := by
  induction p generalizing most with
  | done result =>
      cases result with
      | ok value => trivial
      | error err => exact atMost_mono (hh err) (Nat.le_add_left _ _)
  | await call next ih =>
      refine ⟨hp.1.trans (Nat.le_add_right _ _), fun answer ha => ?_⟩
      rw [Nat.sub_add_comm hp.1]
      exact ih answer (hp.2 answer ha)

theorem atMost_of_uses (hp : p.Uses fun call => weight call = 0) :
    p.AtMost possible weight 0 := by
  induction p with
  | done result => trivial
  | await call next ih =>
      refine ⟨hp.1.le, fun answer _ => ?_⟩
      rw [Nat.zero_sub]
      exact ih answer (hp.2 answer)

-- An execution makes no call of weight while it has not been told what such a call needs.
theorem atMost_of_obeys {rules : Discipline Fact Call Answer Err}
    {post : Except Err α → Set Fact → Prop} {allowed : Call → Prop} (ignorant : Set Fact → Prop)
    (hcall : ∀ known call, ignorant known → allowed call → rules.permits known call →
      weight call = 0)
    (hteaches : ∀ known call answer, ignorant known → allowed call →
      ignorant (rules.teaches call answer ∪ known))
    {known : Set Fact} (hp : p.Obeys rules post known) (huses : p.Uses allowed)
    (hknown : ignorant known) : p.AtMost rules.possible weight 0 := by
  induction p generalizing known with
  | done result => trivial
  | await call next ih =>
      refine ⟨(hcall known call hknown huses.1 hp.1).le, fun answer ha => ?_⟩
      rw [Nat.zero_sub]
      exact ih answer (hp.2 answer ha) (huses.2 answer) (hteaches known call answer hknown huses.1)

end Program

variable [DecidableEq Tid]

-- The weights of the calls that an execution has made.
def spent (weight : Call → ℕ) (history : List (Event Tid Call Answer Err)) (thread : Tid) : ℕ :=
  ((history.filter (·.thread = thread)).map fun event => weight event.call).sum

theorem Pool.Reaches.spent_le {serve : Server Choice World Call Answer Err}
    {guard : Pool.Guard Tid Choice World Call Answer Err} {first pool : Pool Tid World Call Answer Err α}
    (h : Pool.Reaches serve guard first pool) (hstart : first.history = [])
    (hpossible : ∀ choice world call, possible call (serve choice world call).1) {most : ℕ}
    (hmost : ∀ thread, (first.threads thread).AtMost possible weight most) (thread : Tid) :
    spent weight pool.history thread ≤ most := by
  suffices hleft : ∀ thread, ∃ left, (pool.threads thread).AtMost possible weight left ∧
      spent weight pool.history thread + left ≤ most by
    obtain ⟨left, -, hle⟩ := hleft thread
    exact (Nat.le_add_right _ _).trans hle
  clear thread
  induction h with
  | refl =>
      intro thread
      exact ⟨most, hmost thread, by simp [spent, hstart]⟩
  | @step pool thread choice _ _ ih =>
      cases ht : pool.threads thread with
      | done result =>
          rw [Pool.step_done ht]
          exact ih
      | await call next =>
          rw [Pool.step_await ht]
          intro other
          obtain ⟨left, hatMost, hle⟩ := ih other
          by_cases ho : other = thread
          · subst ho
            rw [ht] at hatMost
            refine ⟨left - weight call, ?_, ?_⟩
            · dsimp only
              rw [Function.update_self]
              exact hatMost.2 _ (hpossible _ _ _)
            · have hcall := hatMost.1
              simp only [spent, List.filter_cons, decide_true, if_true, List.map_cons,
                List.sum_cons] at hle ⊢
              omega
          · refine ⟨left, ?_, ?_⟩
            · dsimp only
              rwa [Function.update_of_ne ho]
            · have hne : ¬thread = other := fun heq => ho heq.symm
              simpa only [spent, List.filter_cons, hne, decide_false, Bool.false_eq_true, if_false]
                using hle

end Async
