import SmartParking.Async.Pool
import Mathlib.Data.Set.Insert

namespace Async

variable {Tid Call : Type} {Answer : Call → Type} {Err Choice World Fact α β : Type}

-- Which calls an execution may make after what it has been told, and what each
-- answer tells it.
structure Discipline (Fact Call : Type) (Answer : Call → Type) (Err : Type) where
  permits : Set Fact → Call → Prop
  teaches : (call : Call) → Except Err (Answer call) → Set Fact
  possible : (call : Call) → Except Err (Answer call) → Prop
  permits_mono : ∀ {known more call}, known ⊆ more → permits known call → permits more call

namespace Program

variable {rules : Discipline Fact Call Answer Err} {known more : Set Fact}

-- Every call is permitted by what the answers before it have told.
def Obeys (rules : Discipline Fact Call Answer Err) (post : Except Err α → Set Fact → Prop) :
    Program Call Answer Err α → Set Fact → Prop
  | .done result, known => post result known
  | .await call next, known => rules.permits known call ∧
      ∀ answer, rules.possible call answer →
        (next answer).Obeys rules post (rules.teaches call answer ∪ known)

theorem obeys_mono {post weaker : Except Err α → Set Fact → Prop} {p : Program Call Answer Err α}
    (hp : p.Obeys rules post known) (hknown : known ⊆ more)
    (hpost : ∀ result known' more', known' ⊆ more' → post result known' → weaker result more') :
    p.Obeys rules weaker more := by
  induction p generalizing known more with
  | done result => exact hpost result known more hknown hp
  | await call next ih =>
      refine ⟨rules.permits_mono hknown hp.1, fun answer ha => ?_⟩
      exact ih answer (hp.2 answer ha) (Set.union_subset_union_right _ hknown)

theorem obeys_imp {post weaker : Except Err α → Set Fact → Prop} {p : Program Call Answer Err α}
    (hp : p.Obeys rules post known) (h : ∀ result known', post result known' → weaker result known') :
    p.Obeys rules weaker known := by
  induction p generalizing known with
  | done result => exact h result known hp
  | await call next ih => exact ⟨hp.1, fun answer ha => ih answer (hp.2 answer ha)⟩

-- What follows an outcome of the first part of a function.
def Continues (rules : Discipline Fact Call Answer Err) (post : Except Err β → Set Fact → Prop)
    (f : α → Program Call Answer Err β) : Except Err α → Set Fact → Prop
  | .ok value, known => (f value).Obeys rules post known
  | .error err, known => post (.error err) known

theorem obeys_bind {post : Except Err β → Set Fact → Prop} {p : Program Call Answer Err α}
    {f : α → Program Call Answer Err β} (hp : p.Obeys rules (Continues rules post f) known) :
    (p >>= f).Obeys rules post known := by
  induction p generalizing known with
  | done result => cases result <;> exact hp
  | await call next ih => exact ⟨hp.1, fun answer ha => ih answer (hp.2 answer ha)⟩

theorem obeys_map {p : Program Call Answer Err α} {f : α → β}
    (hp : p.Obeys rules (fun _ _ => True) known) :
    (f <$> p).Obeys rules (fun _ _ => True) known :=
  obeys_bind (obeys_imp hp fun result _ _ => by cases result <;> trivial)

theorem obeys_perform_bind {post : Except Err β → Set Fact → Prop} {call : Call}
    {f : Answer call → Program Call Answer Err β} (hcall : rules.permits known call)
    (hf : ∀ answer, rules.possible call answer →
      Continues rules post f answer (rules.teaches call answer ∪ known)) :
    (perform call >>= f).Obeys rules post known :=
  obeys_bind ⟨hcall, hf⟩

theorem obeys_tryCatch {post : Except Err α → Set Fact → Prop} {p : Program Call Answer Err α}
    {handler : Err → Program Call Answer Err α}
    (hp : p.Obeys rules (fun result known => match result with
      | .ok value => post (.ok value) known
      | .error err => (handler err).Obeys rules post known) known) :
    (p.tryCatch handler).Obeys rules post known := by
  induction p generalizing known with
  | done result => cases result <;> exact hp
  | await call next ih => exact ⟨hp.1, fun answer ha => ih answer (hp.2 answer ha)⟩

theorem obeys_settle {post : Except Err (Except Err α) → Set Fact → Prop}
    {p : Program Call Answer Err α} (hp : p.Obeys rules (fun result => post (.ok result)) known) :
    p.settle.Obeys rules post known := by
  induction p generalizing known with
  | done result => exact hp
  | await call next ih => exact ⟨hp.1, fun answer ha => ih answer (hp.2 answer ha)⟩

-- What is known is not forgotten.
theorem obeys_grows {post : Except Err α → Set Fact → Prop} {p : Program Call Answer Err α}
    (hp : p.Obeys rules post known) :
    p.Obeys rules (fun result known' => post result known' ∧ known ⊆ known') known := by
  induction p generalizing known with
  | done result => exact ⟨hp, subset_rfl⟩
  | await call next ih =>
      refine ⟨hp.1, fun answer ha => obeys_imp (ih answer (hp.2 answer ha)) fun _ _ h => ?_⟩
      exact ⟨h.1, Set.subset_union_right.trans h.2⟩

-- A function whose calls are all permitted by what is known at its start.
theorem obeys_of_uses {p : Program Call Answer Err α} (hp : p.Uses (rules.permits known)) :
    p.Obeys rules (fun _ _ => True) known := by
  have h : ∀ more, known ⊆ more → p.Obeys rules (fun _ _ => True) more := by
    induction p with
    | done result => exact fun _ _ => trivial
    | await call next ih =>
        intro more hmore
        refine ⟨rules.permits_mono hmore hp.1, fun answer _ => ?_⟩
        exact ih answer (hp.2 answer) _ (hmore.trans Set.subset_union_right)
  exact h known subset_rfl

def paired : Except Err α → Except Err β → Except Err (α × β)
  | .ok a, .ok b => .ok (a, b)
  | .error err, _ => .error err
  | .ok _, .error err => .error err

theorem obeys_both {post : Except Err (α × β) → Set Fact → Prop} {p : Program Call Answer Err α}
    {q : Program Call Answer Err β}
    (hp : p.Obeys rules
      (fun first => q.Obeys rules fun second => post (paired first second)) known) :
    (p.both q).Obeys rules post known := by
  refine obeys_bind (obeys_settle (obeys_imp hp fun first known' hq => ?_))
  refine obeys_bind (obeys_settle (obeys_imp hq fun second known'' h => ?_))
  cases first <;> cases second <;> exact h

-- Executions over some ports obey over more of them.
theorem obeys_lift {More : Type} {MoreAnswer : More → Type}
    {rulesMore : Discipline Fact More MoreAnswer Err} {embed : Call → More}
    {back : (call : Call) → MoreAnswer (embed call) → Answer call}
    (hpermits : ∀ known call, rules.permits known call → rulesMore.permits known (embed call))
    (hteaches : ∀ call answer,
      rules.teaches call (Except.map (back call) answer) = rulesMore.teaches (embed call) answer)
    (hpossible : ∀ call answer, rulesMore.possible (embed call) answer →
      rules.possible call (Except.map (back call) answer))
    {post : Except Err α → Set Fact → Prop} {p : Program Call Answer Err α}
    (hp : p.Obeys rules post known) : (p.lift embed back).Obeys rulesMore post known := by
  induction p generalizing known with
  | done result => exact hp
  | await call next ih =>
      refine ⟨hpermits known call hp.1, fun answer ha => ?_⟩
      have hnext := hp.2 _ (hpossible call answer ha)
      rw [hteaches] at hnext
      exact ih _ hnext

end Program

-- Something holds of each event of a history and of those before it, the latest
-- event first.
def Along {Ev : Type} (holds : Ev → List Ev → Prop) : List Ev → Prop
  | [] => True
  | event :: earlier => holds event earlier ∧ Along holds earlier

theorem Along.of_append {Ev : Type} {holds : Ev → List Ev → Prop} {later earlier : List Ev}
    (h : Along holds (later ++ earlier)) : Along holds earlier := by
  induction later with
  | nil => exact h
  | cons last later ih => exact ih h.2

theorem Along.mem {Ev : Type} {holds : Ev → List Ev → Prop} {history : List Ev} {event : Ev}
    (h : Along holds history) (hevent : event ∈ history) :
    ∃ later earlier, history = later ++ event :: earlier ∧ holds event earlier := by
  obtain ⟨later, earlier, rfl⟩ := List.append_of_mem hevent
  exact ⟨later, earlier, rfl, h.of_append.1⟩

-- What the answers to an execution have told it.
def Discipline.taught (rules : Discipline Fact Call Answer Err)
    (history : List (Event Tid Call Answer Err)) (thread : Tid) : Set Fact :=
  {fact | ∃ event ∈ history, event.thread = thread ∧ fact ∈ rules.teaches event.call event.answer}

namespace Pool

variable [DecidableEq Tid] {rules : Discipline Fact Call Answer Err}
  {serve : Server Choice World Call Answer Err} {guard : Guard Tid Choice World Call Answer Err}
  {first pool : Pool Tid World Call Answer Err α}

omit [DecidableEq Tid] in
theorem taught_cons_self {history : List (Event Tid Call Answer Err)} {thread : Tid} {call : Call}
    {answer : Except Err (Answer call)} :
    rules.taught (⟨thread, call, answer⟩ :: history) thread =
      rules.teaches call answer ∪ rules.taught history thread := by
  ext fact
  simp [Discipline.taught]

omit [DecidableEq Tid] in
theorem taught_cons_ne {history : List (Event Tid Call Answer Err)} {thread other : Tid}
    {call : Call} {answer : Except Err (Answer call)} (h : other ≠ thread) :
    rules.taught (⟨thread, call, answer⟩ :: history) other = rules.taught history other := by
  ext fact
  simp [Discipline.taught, h.symm]

-- Executions that obey make no call that is not permitted by what they were told
-- before it, whatever the others do.
theorem Reaches.obeys (h : Reaches serve guard first pool) (hstart : first.history = [])
    (hpossible : ∀ choice world call, rules.possible call (serve choice world call).1)
    (hobeys : ∀ thread, (first.threads thread).Obeys rules (fun _ _ => True) ∅) :
    Along (fun event earlier => rules.permits (rules.taught earlier event.thread) event.call)
        pool.history ∧
      ∀ thread, (pool.threads thread).Obeys rules (fun _ _ => True)
        (rules.taught pool.history thread) := by
  induction h with
  | refl =>
      refine ⟨by rw [hstart]; trivial, fun thread => ?_⟩
      exact Program.obeys_mono (hobeys thread) (Set.empty_subset _) fun _ _ _ _ _ => trivial
  | @step pool thread choice _ _ ih =>
      obtain ⟨halong, hthreads⟩ := ih
      cases ht : pool.threads thread with
      | done result =>
          rw [step_done ht]
          exact ⟨halong, hthreads⟩
      | await call next =>
          have hthread := hthreads thread
          rw [ht] at hthread
          rw [step_await ht]
          refine ⟨⟨hthread.1, halong⟩, fun other => ?_⟩
          by_cases ho : other = thread
          · subst ho
            dsimp only
            rw [Function.update_self, taught_cons_self]
            exact hthread.2 _ (hpossible choice pool.world call)
          · dsimp only
            rw [Function.update_of_ne ho, taught_cons_ne ho]
            exact hthreads other

-- What permitted calls keep holds of every state.
theorem Reaches.kept (h : Reaches serve guard first pool) (hstart : first.history = [])
    (hpossible : ∀ choice world call, rules.possible call (serve choice world call).1)
    (hobeys : ∀ thread, (first.threads thread).Obeys rules (fun _ _ => True) ∅)
    {inv : World → Prop} (hfirst : inv first.world)
    (hcall : ∀ choice world call known, rules.permits known call → inv world →
      inv (serve choice world call).2) : inv pool.world := by
  induction h with
  | refl => exact hfirst
  | @step pool thread choice hr _ ih =>
      cases ht : pool.threads thread with
      | done result =>
          rw [step_done ht]
          exact ih
      | await call next =>
          have hthread := (hr.obeys hstart hpossible hobeys).2 thread
          rw [ht] at hthread
          rw [step_await ht]
          exact hcall choice pool.world call _ hthread.1 ih

-- What a step puts on record by its guard.
theorem Reaches.along (h : Reaches serve guard first pool) (hstart : first.history = [])
    {holds : Event Tid Call Answer Err → List (Event Tid Call Answer Err) → Prop}
    (hstep : ∀ world history thread call choice, guard world history thread call choice →
      holds ⟨thread, call, (serve choice world call).1⟩ history) :
    Along holds pool.history := by
  induction h with
  | refl => rw [hstart]; trivial
  | @step pool thread choice _ hm ih =>
      cases ht : pool.threads thread with
      | done result =>
          rw [step_done ht]
          exact ih
      | await call next =>
          rw [step_await ht]
          exact ⟨hstep _ _ _ _ _ ((meets_await ht choice).mp hm), ih⟩

-- Every call is one that its execution can make.
theorem Reaches.uses (h : Reaches serve guard first pool) (hstart : first.history = [])
    {allowed : Tid → Call → Prop} (huses : ∀ thread, (first.threads thread).Uses (allowed thread)) :
    (∀ event ∈ pool.history, allowed event.thread event.call) ∧
      ∀ thread, (pool.threads thread).Uses (allowed thread) := by
  induction h with
  | refl =>
      rw [hstart]
      exact ⟨fun _ hm => absurd hm List.not_mem_nil, huses⟩
  | @step pool thread choice _ _ ih =>
      obtain ⟨hhistory, hthreads⟩ := ih
      cases ht : pool.threads thread with
      | done result =>
          rw [step_done ht]
          exact ⟨hhistory, hthreads⟩
      | await call next =>
          have hthread := hthreads thread
          rw [ht] at hthread
          rw [step_await ht]
          refine ⟨List.forall_mem_cons.mpr ⟨hthread.1, hhistory⟩, fun other => ?_⟩
          dsimp only
          by_cases ho : other = thread
          · subst ho
            rw [Function.update_self]
            exact hthread.2 _
          · rw [Function.update_of_ne ho]
            exact hthreads other

-- What the answers have told about the world stays true.
theorem Reaches.upheld (h : Reaches serve guard first pool) (hstart : first.history = [])
    {holds : World → Fact → Prop}
    (htold : ∀ choice world call fact, fact ∈ rules.teaches call (serve choice world call).1 →
      holds (serve choice world call).2 fact)
    (hkept : ∀ choice world call fact, holds world fact → holds (serve choice world call).2 fact) :
    ∀ event ∈ pool.history, ∀ fact ∈ rules.teaches event.call event.answer,
      holds pool.world fact := by
  induction h with
  | refl =>
      rw [hstart]
      exact nofun
  | @step pool thread choice _ _ ih =>
      cases ht : pool.threads thread with
      | done result =>
          rw [step_done ht]
          exact ih
      | await call next =>
          rw [step_await ht]
          rintro event hevent fact hfact
          rcases List.mem_cons.mp hevent with rfl | hevent
          · exact htold choice pool.world call fact hfact
          · exact hkept choice pool.world call fact (ih event hevent fact hfact)

theorem Reaches.informed (h : Reaches serve guard first pool) (hstart : first.history = [])
    {holds : World → Fact → Prop}
    (htold : ∀ choice world call fact, fact ∈ rules.teaches call (serve choice world call).1 →
      holds (serve choice world call).2 fact)
    (hkept : ∀ choice world call fact, holds world fact → holds (serve choice world call).2 fact)
    (thread : Tid) : ∀ fact ∈ rules.taught pool.history thread, holds pool.world fact := by
  rintro fact ⟨event, hevent, -, hfact⟩
  exact h.upheld hstart htold hkept event hevent fact hfact

-- What permitted calls keep, when all that their executions know is true.
theorem Reaches.sustained (h : Reaches serve guard first pool) (hstart : first.history = [])
    (hpossible : ∀ choice world call, rules.possible call (serve choice world call).1)
    (hobeys : ∀ thread, (first.threads thread).Obeys rules (fun _ _ => True) ∅)
    {holds : World → Fact → Prop}
    (htold : ∀ choice world call fact, fact ∈ rules.teaches call (serve choice world call).1 →
      holds (serve choice world call).2 fact)
    (hkept : ∀ choice world call fact, holds world fact → holds (serve choice world call).2 fact)
    {inv : World → Prop} (hfirst : inv first.world)
    (hcall : ∀ choice world call known, rules.permits known call →
      (∀ fact ∈ known, holds world fact) → inv world → inv (serve choice world call).2) :
    inv pool.world := by
  induction h with
  | refl => exact hfirst
  | @step pool thread choice hr _ ih =>
      cases ht : pool.threads thread with
      | done result =>
          rw [step_done ht]
          exact ih
      | await call next =>
          have hthread := (hr.obeys hstart hpossible hobeys).2 thread
          rw [ht] at hthread
          rw [step_await ht]
          exact hcall choice pool.world call _ hthread.1
            (hr.informed hstart htold hkept thread) ih

end Pool

end Async
