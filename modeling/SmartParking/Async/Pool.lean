import SmartParking.Async.Sequential
import Mathlib.Logic.Function.Basic

namespace Async

variable {Tid Call : Type} {Answer : Call → Type} {Err Choice World α : Type}

-- One answered port call of one execution.
structure Event (Tid Call : Type) (Answer : Call → Type) (Err : Type) where
  thread : Tid
  call : Call
  answer : Except Err (Answer call)

-- Any number of executions over one world, each stopped at its next port call.
-- The history lists the answered calls, the latest first.
structure Pool (Tid World Call : Type) (Answer : Call → Type) (Err α : Type) where
  world : World
  threads : Tid → Program Call Answer Err α
  history : List (Event Tid Call Answer Err)

-- A change came after a look, in a history with the latest event first.
def Since {Ev : Type} (look change : Ev → Prop) : List Ev → Prop
  | [] => False
  | event :: earlier =>
      (change event ∧ ∃ old ∈ earlier, look old) ∨ Since look change earlier

section Since

variable {Ev : Type} {look change : Ev → Prop} {event : Ev} {history : List Ev}

instance decideSince [DecidablePred look] [DecidablePred change] :
    (history : List Ev) → Decidable (Since look change history)
  | [] => isFalse id
  | _ :: earlier =>
      have := decideSince earlier
      inferInstanceAs (Decidable ((_ ∧ ∃ old ∈ earlier, look old) ∨ _))

theorem since_cons_iff (h : ¬change event) :
    Since look change (event :: history) ↔ Since look change history := by
  simp only [Since, h, false_and, false_or]

theorem exists_of_since (h : Since look change history) : ∃ event ∈ history, change event := by
  induction history with
  | nil => exact h.elim
  | cons event earlier ih =>
      rcases h with ⟨hc, -⟩ | h
      · exact ⟨event, List.mem_cons_self, hc⟩
      · obtain ⟨old, hm, hc⟩ := ih h
        exact ⟨old, List.mem_cons_of_mem _ hm, hc⟩

theorem Since.mono {more : Ev → Prop} (h : Since look change history)
    (hmore : ∀ event, change event → more event) : Since look more history := by
  induction history with
  | nil => exact h
  | cons event earlier ih => exact h.imp (fun hc => ⟨hmore event hc.1, hc.2⟩) ih

end Since

namespace Pool

variable [DecidableEq Tid]

def start (world : World) (threads : Tid → Program Call Answer Err α) :
    Pool Tid World Call Answer Err α :=
  { world, threads, history := [] }

-- The scheduler lets one execution make its next call. A finished one stays
-- as it is.
def step (serve : Server Choice World Call Answer Err) (pool : Pool Tid World Call Answer Err α)
    (thread : Tid) (choice : Choice) : Pool Tid World Call Answer Err α :=
  match pool.threads thread with
  | .done _ => pool
  | .await call next =>
      { world := (serve choice pool.world call).2
        threads := Function.update pool.threads thread (next (serve choice pool.world call).1)
        history := ⟨thread, call, (serve choice pool.world call).1⟩ :: pool.history }

def play (serve : Server Choice World Call Answer Err) (pool : Pool Tid World Call Answer Err α)
    (schedule : List (Tid × Choice)) : Pool Tid World Call Answer Err α :=
  schedule.foldl (fun pool turn => pool.step serve turn.1 turn.2) pool

-- A condition on the state before a step: the world, the history, and the call
-- a thread is about to make with a choice.
abbrev Guard (Tid Choice World Call : Type) (Answer : Call → Type) (Err : Type) :=
  World → List (Event Tid Call Answer Err) → Tid → Call → Choice → Prop

def Meets (guard : Guard Tid Choice World Call Answer Err)
    (pool : Pool Tid World Call Answer Err α) (thread : Tid) (choice : Choice) : Prop :=
  match pool.threads thread with
  | .done _ => True
  | .await call _ => guard pool.world pool.history thread call choice

-- The states of the runs all of whose steps meet the guard.
inductive Reaches (serve : Server Choice World Call Answer Err)
    (guard : Guard Tid Choice World Call Answer Err) (first : Pool Tid World Call Answer Err α) :
    Pool Tid World Call Answer Err α → Prop
  | refl : Reaches serve guard first first
  | step {pool} (thread : Tid) (choice : Choice) : Reaches serve guard first pool →
      pool.Meets guard thread choice → Reaches serve guard first (pool.step serve thread choice)

-- Every step of the schedule meets the guard.
def Follows (serve : Server Choice World Call Answer Err)
    (guard : Guard Tid Choice World Call Answer Err) (pool : Pool Tid World Call Answer Err α) :
    List (Tid × Choice) → Prop
  | [] => True
  | turn :: rest =>
      pool.Meets guard turn.1 turn.2 ∧ (pool.step serve turn.1 turn.2).Follows serve guard rest

-- Two conditions at once.
def both (guard guard' : Guard Tid Choice World Call Answer Err) :
    Guard Tid Choice World Call Answer Err := fun world history thread call choice =>
  guard world history thread call choice ∧ guard' world history thread call choice

-- No condition: every interleaving.
def unguarded : Guard Tid Choice World Call Answer Err := fun _ _ _ _ _ => True

variable {serve : Server Choice World Call Answer Err}
  {guard : Guard Tid Choice World Call Answer Err} {first pool : Pool Tid World Call Answer Err α}

section Decidable

variable [∀ world history thread call choice, Decidable (guard world history thread call choice)]

instance (pool : Pool Tid World Call Answer Err α) (thread : Tid) (choice : Choice) :
    Decidable (pool.Meets guard thread choice) :=
  match h : pool.threads thread with
  | .done _ => isTrue (by simp only [Meets, h])
  | .await call _ =>
      decidable_of_iff (guard pool.world pool.history thread call choice) (by simp only [Meets, h])

instance decideFollows (pool : Pool Tid World Call Answer Err α) :
    (schedule : List (Tid × Choice)) → Decidable (pool.Follows serve guard schedule)
  | [] => isTrue trivial
  | turn :: rest =>
      have := decideFollows (pool.step serve turn.1 turn.2) rest
      inferInstanceAs (Decidable (_ ∧ _))

end Decidable

omit [DecidableEq Tid] in
theorem meets_unguarded (pool : Pool Tid World Call Answer Err α) (thread : Tid)
    (choice : Choice) : pool.Meets unguarded thread choice := by
  unfold Meets
  split <;> trivial

theorem follows_unguarded (schedule : List (Tid × Choice)) :
    pool.Follows serve unguarded schedule := by
  induction schedule generalizing pool with
  | nil => trivial
  | cons turn rest ih => exact ⟨meets_unguarded _ _ _, ih⟩

theorem reaches_of_follows {schedule : List (Tid × Choice)}
    (h : Reaches serve guard first pool) (hf : pool.Follows serve guard schedule) :
    Reaches serve guard first (pool.play serve schedule) := by
  induction schedule generalizing pool with
  | nil => exact h
  | cons turn rest ih => exact ih (.step turn.1 turn.2 h hf.1) hf.2

omit [DecidableEq Tid] in
theorem done_of_awaited {p : Program Call Answer Err α} (h : p.awaited = none) :
    ∃ result, p = .done result := by
  cases p with
  | done result => exact ⟨result, rfl⟩
  | await call next => cases h

omit [DecidableEq Tid] in
theorem meets_await {thread : Tid} {call : Call}
    {next : Except Err (Answer call) → Program Call Answer Err α}
    (h : pool.threads thread = .await call next) (choice : Choice) :
    pool.Meets guard thread choice ↔ guard pool.world pool.history thread call choice := by
  unfold Meets
  rw [h]

theorem step_done {thread : Tid} {result : Except Err α} (h : pool.threads thread = .done result)
    (choice : Choice) : pool.step serve thread choice = pool := by
  unfold step
  rw [h]

theorem step_await {thread : Tid} {call : Call}
    {next : Except Err (Answer call) → Program Call Answer Err α}
    (h : pool.threads thread = .await call next) (choice : Choice) :
    pool.step serve thread choice = {
      world := (serve choice pool.world call).2
      threads := Function.update pool.threads thread (next (serve choice pool.world call).1)
      history := ⟨thread, call, (serve choice pool.world call).1⟩ :: pool.history } := by
  unfold step
  rw [h]

theorem Reaches.trans {mid : Pool Tid World Call Answer Err α} (h : Reaches serve guard first mid)
    (h' : Reaches serve guard mid pool) : Reaches serve guard first pool := by
  induction h' with
  | refl => exact h
  | step thread choice _ hmeets ih => exact ih.step thread choice hmeets

-- What no call changes is the same in all states of a run.
theorem Reaches.constant {Value : Type} (h : Reaches serve guard first pool) (value : World → Value)
    (hserve : ∀ choice world call, value (serve choice world call).2 = value world) :
    value pool.world = value first.world := by
  induction h with
  | refl => rfl
  | @step pool thread choice _ _ ih =>
      refine Eq.trans ?_ ih
      cases hthread : pool.threads thread with
      | done result => rw [step_done hthread]
      | await call next =>
          rw [step_await hthread]
          exact hserve choice pool.world call

theorem threads_step_self {thread : Tid} {call : Call}
    {next : Except Err (Answer call) → Program Call Answer Err α}
    (h : pool.threads thread = .await call next) (choice : Choice) :
    (pool.step serve thread choice).threads thread = next (serve choice pool.world call).1 := by
  rw [step_await h]
  exact Function.update_self ..

theorem history_suffix_step (thread : Tid) (choice : Choice) :
    pool.history <:+ (pool.step serve thread choice).history := by
  unfold step
  split
  · exact List.suffix_refl _
  · exact List.suffix_cons _ _

theorem history_step (thread : Tid) (choice : Choice) :
    pool.history ⊆ (pool.step serve thread choice).history :=
  (history_suffix_step thread choice).subset

theorem play_append (before after : List (Tid × Choice)) :
    pool.play serve (before ++ after) = (pool.play serve before).play serve after :=
  List.foldl_append

theorem follows_append {before after : List (Tid × Choice)} :
    pool.Follows serve guard (before ++ after) ↔
      pool.Follows serve guard before ∧ (pool.play serve before).Follows serve guard after := by
  induction before generalizing pool with
  | nil => exact (true_and _).symm.to_iff
  | cons turn rest ih => exact (and_congr_right fun _ => ih).trans and_assoc.symm

theorem follows_both {guard' : Guard Tid Choice World Call Answer Err}
    {schedule : List (Tid × Choice)} (h : pool.Follows serve guard schedule)
    (h' : pool.Follows serve guard' schedule) :
    pool.Follows serve (both guard guard') schedule := by
  induction schedule generalizing pool with
  | nil => trivial
  | cons turn rest ih =>
      refine ⟨?_, ih h.2 h'.2⟩
      have hmeets := h.1
      have hmeets' := h'.1
      unfold Meets at *
      split
      · trivial
      · rename_i hawait
        rw [hawait] at hmeets hmeets'
        exact ⟨hmeets, hmeets'⟩

end Pool

-- Thread-modular reasoning. Each execution owns a ghost value, and the shared
-- invariant ties the ghosts of all executions to the world and its history.
section Modular

variable [DecidableEq Tid] {Ghost : Type}
  (serve : Server Choice World Call Answer Err)
  (guard : Pool.Guard Tid Choice World Call Answer Err)
  (inv : World → List (Event Tid Call Answer Err) → (Tid → Ghost) → Prop)

-- From any moment at which the shared invariant holds and the thread owns its
-- ghost, each of its calls can move the ghost so that the invariant holds again.
def Safe (thread : Tid) : Program Call Answer Err α → Ghost →
    (Except Err α → Ghost → Prop) → Prop
  | .done result, ghost, post => post result ghost
  | .await call next, ghost, post => ∀ world history ghosts choice,
      ghosts thread = ghost → inv world history ghosts →
      guard world history thread call choice →
      ∃ ghost', inv (serve choice world call).2
          (⟨thread, call, (serve choice world call).1⟩ :: history)
          (Function.update ghosts thread ghost') ∧
        Safe thread (next (serve choice world call).1) ghost' post

-- A call of one execution that keeps the shared invariant without moving any
-- ghost.
def Quiet (thread : Tid) (call : Call) : Prop :=
  ∀ world history ghosts choice, inv world history ghosts →
    guard world history thread call choice →
    inv (serve choice world call).2 (⟨thread, call, (serve choice world call).1⟩ :: history) ghosts

variable {serve guard inv} {thread : Tid}

theorem safe_mono {p : Program Call Answer Err α} {ghost : Ghost}
    {post more : Except Err α → Ghost → Prop} (hp : Safe serve guard inv thread p ghost post)
    (h : ∀ result ghost', post result ghost' → more result ghost') :
    Safe serve guard inv thread p ghost more := by
  induction p generalizing ghost with
  | done result => exact h _ _ hp
  | await call next ih =>
      intro world history ghosts choice hg hi hc
      obtain ⟨ghost', hi', hs⟩ := hp world history ghosts choice hg hi hc
      exact ⟨ghost', hi', ih _ hs⟩

theorem safe_bind {β : Type} {p : Program Call Answer Err α}
    {f : α → Program Call Answer Err β} {ghost : Ghost} {post : Except Err β → Ghost → Prop}
    (middle : α → Ghost → Prop)
    (hp : Safe serve guard inv thread p ghost fun result ghost' =>
      match result with
      | .ok value => middle value ghost'
      | .error err => post (.error err) ghost')
    (hf : ∀ value ghost', middle value ghost' → Safe serve guard inv thread (f value) ghost' post) :
    Safe serve guard inv thread (p >>= f) ghost post := by
  induction p generalizing ghost with
  | done result =>
      cases result with
      | ok value => exact hf value ghost hp
      | error err => exact hp
  | await call next ih =>
      intro world history ghosts choice hg hi hc
      obtain ⟨ghost', hi', hs⟩ := hp world history ghosts choice hg hi hc
      exact ⟨ghost', hi', ih _ hs⟩

theorem safe_tryCatch {p : Program Call Answer Err α} {handler : Err → Program Call Answer Err α}
    {ghost : Ghost} {post : Except Err α → Ghost → Prop} (middle : Err → Ghost → Prop)
    (hp : Safe serve guard inv thread p ghost fun result ghost' =>
      match result with
      | .ok value => post (.ok value) ghost'
      | .error err => middle err ghost')
    (hh : ∀ err ghost', middle err ghost' →
      Safe serve guard inv thread (handler err) ghost' post) :
    Safe serve guard inv thread (p.tryCatch handler) ghost post := by
  induction p generalizing ghost with
  | done result =>
      cases result with
      | ok value => exact hp
      | error err => exact hh err ghost hp
  | await call next ih =>
      intro world history ghosts choice hg hi hc
      obtain ⟨ghost', hi', hs⟩ := hp world history ghosts choice hg hi hc
      exact ⟨ghost', hi', ih _ hs⟩

-- A quiet call leaves the ghost where it is.
theorem safe_await_quiet {call : Call} {next : Except Err (Answer call) → Program Call Answer Err α}
    {ghost : Ghost} {post : Except Err α → Ghost → Prop} (hquiet : Quiet serve guard inv thread call)
    (h : ∀ choice world,
      Safe serve guard inv thread (next (serve choice world call).1) ghost post) :
    Safe serve guard inv thread (.await call next) ghost post := by
  intro world history ghosts choice hg hi hc
  refine ⟨ghost, ?_, h choice world⟩
  have hnext := hquiet world history ghosts choice hi hc
  rwa [← hg, Function.update_eq_self]

-- A function that only makes quiet calls needs no proof of its own.
theorem safe_of_uses {quiet : Call → Prop} {post : Except Err α → Prop}
    {possible : (call : Call) → Except Err (Answer call) → Prop}
    (hserve : ∀ choice world call, possible call (serve choice world call).1)
    (hquiet : ∀ call, quiet call → Quiet serve guard inv thread call)
    {p : Program Call Answer Err α} (hp : p.Uses quiet) (hpost : p.Yields possible post)
    (ghost : Ghost) :
    Safe serve guard inv thread p ghost fun result ghost' => post result ∧ ghost' = ghost := by
  induction p with
  | done result => exact ⟨hpost, rfl⟩
  | await call next ih =>
      refine safe_await_quiet (hquiet call hp.1) fun choice world => ?_
      exact ih _ (hp.2 _) (hpost _ (hserve choice world call))

theorem safe_of_quiet {quiet : Call → Prop}
    (hquiet : ∀ call, quiet call → Quiet serve guard inv thread call)
    {p : Program Call Answer Err α} (hp : p.Uses quiet) (ghost : Ghost) :
    Safe serve guard inv thread p ghost fun _ ghost' => ghost' = ghost := by
  have hyields : p.Yields (fun _ _ => True) fun _ => True := p.yields_true
  exact safe_mono (safe_of_uses (fun _ _ _ => trivial) hquiet hp hyields ghost) fun _ _ h => h.2

-- What comes after a call, from its answer on.
def Onward {β : Type} (serve : Server Choice World Call Answer Err)
    (guard : Pool.Guard Tid Choice World Call Answer Err)
    (inv : World → List (Event Tid Call Answer Err) → (Tid → Ghost) → Prop) (thread : Tid)
    (f : β → Program Call Answer Err α) (post : Except Err α → Ghost → Prop) :
    Except Err β → Ghost → Prop
  | .ok value, ghost => Safe serve guard inv thread (f value) ghost post
  | .error err, ghost => post (.error err) ghost

theorem safe_of_onward {β : Type} {f : β → Program Call Answer Err α}
    {post : Except Err α → Ghost → Prop} {answer : Except Err β} {ghost : Ghost}
    (h : Onward serve guard inv thread f post answer ghost) :
    Safe serve guard inv thread (.done answer >>= f) ghost post := by
  cases answer <;> exact h

-- One call, and the rest of the function.
theorem safe_perform_bind {call : Call} {f : Answer call → Program Call Answer Err α}
    {ghost : Ghost} {post : Except Err α → Ghost → Prop}
    (h : ∀ world history ghosts choice, ghosts thread = ghost → inv world history ghosts →
      guard world history thread call choice →
      ∃ ghost', inv (serve choice world call).2
          (⟨thread, call, (serve choice world call).1⟩ :: history)
          (Function.update ghosts thread ghost') ∧
        Onward serve guard inv thread f post (serve choice world call).1 ghost') :
    Safe serve guard inv thread (Program.perform call >>= f) ghost post := by
  intro world history ghosts choice hg hi hc
  obtain ⟨ghost', hi', hs⟩ := h world history ghosts choice hg hi hc
  exact ⟨ghost', hi', safe_of_onward hs⟩

theorem safe_quiet_bind {call : Call} {f : Answer call → Program Call Answer Err α}
    {ghost : Ghost} {post : Except Err α → Ghost → Prop} (hquiet : Quiet serve guard inv thread call)
    (h : ∀ choice world, Onward serve guard inv thread f post (serve choice world call).1 ghost) :
    Safe serve guard inv thread (Program.perform call >>= f) ghost post :=
  safe_await_quiet hquiet fun choice world => safe_of_onward (h choice world)

-- One step of executions that are safe on their own.
theorem Pool.step_invariant {pool : Pool Tid World Call Answer Err α} {ghosts : Tid → Ghost}
    {post : Tid → Except Err α → Ghost → Prop} (hinv : inv pool.world pool.history ghosts)
    (hsafe : ∀ thread, Safe serve guard inv thread (pool.threads thread) (ghosts thread)
      (post thread)) {choice : Choice} (hm : pool.Meets guard thread choice) :
    ∃ ghosts, inv (pool.step serve thread choice).world (pool.step serve thread choice).history
        ghosts ∧
      ∀ other, Safe serve guard inv other ((pool.step serve thread choice).threads other)
        (ghosts other) (post other) := by
  unfold Pool.step Pool.Meets at *
  cases ht : pool.threads thread with
  | done result => exact ⟨ghosts, hinv, hsafe⟩
  | await call next =>
      rw [ht] at hm
      have hthread := hsafe thread
      rw [ht] at hthread
      obtain ⟨ghost', hi', hs'⟩ := hthread pool.world pool.history ghosts choice rfl hinv hm
      refine ⟨Function.update ghosts thread ghost', hi', fun other => ?_⟩
      by_cases ho : other = thread
      · subst other
        simpa using hs'
      · simpa [ho] using hsafe other

-- The invariant rule: executions that are safe on their own keep the shared
-- invariant in every interleaving.
theorem Pool.Reaches.invariant {first pool : Pool Tid World Call Answer Err α}
    {ghosts : Tid → Ghost} (h : Pool.Reaches serve guard first pool)
    (inv : World → List (Event Tid Call Answer Err) → (Tid → Ghost) → Prop)
    (post : Tid → Except Err α → Ghost → Prop)
    (hinv : inv first.world first.history ghosts)
    (hsafe : ∀ thread, Safe serve guard inv thread (first.threads thread) (ghosts thread)
      (post thread)) :
    ∃ ghosts, inv pool.world pool.history ghosts ∧
      ∀ thread, Safe serve guard inv thread (pool.threads thread) (ghosts thread) (post thread) := by
  induction h with
  | refl => exact ⟨ghosts, hinv, hsafe⟩
  | step thread choice hr hm ih =>
      obtain ⟨ghosts, hi, hs⟩ := ih
      exact Pool.step_invariant hi hs hm

-- An invariant that does not look at the history holds of a function over some ports
-- as it does over more of them.
theorem safe_lift {More : Type} {MoreAnswer : More → Type}
    {serveMore : Server Choice World More MoreAnswer Err} {embed : Call → More}
    {back : (call : Call) → MoreAnswer (embed call) → Answer call}
    {inv : World → (Tid → Ghost) → Prop}
    (hserve : ∀ choice world call,
      (serveMore choice world (embed call)).1.map (back call) = (serve choice world call).1 ∧
        (serveMore choice world (embed call)).2 = (serve choice world call).2)
    {p : Program Call Answer Err α} {ghost : Ghost} {post : Except Err α → Ghost → Prop}
    (hp : Safe serve Pool.unguarded (fun world _ => inv world) thread p ghost post) :
    Safe serveMore Pool.unguarded (fun world _ => inv world) thread (p.lift embed back) ghost
      post := by
  induction p generalizing ghost with
  | done result => exact hp
  | await call next ih =>
      intro world history ghosts choice hg hi _
      obtain ⟨ghost', hi', hs⟩ := hp world [] ghosts choice hg hi trivial
      obtain ⟨hanswer, hworld⟩ := hserve choice world call
      refine ⟨ghost', ?_, ?_⟩
      · rwa [hworld]
      · dsimp only
        rw [hanswer]
        exact ih _ hs

end Modular

end Async
