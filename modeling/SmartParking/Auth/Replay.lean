import SmartParking.Auth.Operations

namespace SmartParking.Auth

open Async

variable {Tid : Type}

-- Any number of executions of VerifyMfa.
abbrev Verifications (Tid : Type) := Pool Tid World Call Answer Fault LoginUserResult

def Verifications.start (env : Environment) (world : World) (inputs : Tid → VerifyMfaInput) :
    Verifications Tid :=
  Pool.start world fun thread => VerifyMfaUseCase.execute env (inputs thread)

-- A code is accepted by the write of its step.
def acceptance (userId : Id) : Event Tid Call Answer Fault → Option (Tid × ℤ)
  | ⟨thread, .updateMfa id patch, .ok _⟩ =>
      if id = userId then patch.lastStep.join.map fun step => (thread, step) else none
  | _ => none

def accepted (userId : Id) (history : History Tid) : List (Tid × ℤ) :=
  history.filterMap (acceptance userId)

def lastStep (userId : Id) (pool : Verifications Tid) : Option ℤ :=
  (credentials pool.world.db userId).lastStep

-- Each step is accepted by one execution at most, and no turn lowers the last step.
structure AntiReplay [DecidableEq Tid] (env : Environment) (userId : Id)
    (first : Verifications Tid) (schedule : List (Tid × Choice)) : Prop where
  once : ∀ step thread thread',
    (thread, step) ∈ accepted userId (first.play (serve env) schedule).history →
      (thread', step) ∈ accepted userId (first.play (serve env) schedule).history →
        thread = thread'
  grows : ∀ past turn, past ++ [turn] <+: schedule →
    ∀ old ∈ lastStep userId (first.play (serve env) past),
      ∃ new ∈ lastStep userId (first.play (serve env) (past ++ [turn])), old ≤ new

def LooksUp (userId : Id) (thread : Tid) (event : Event Tid Call Answer Fault) : Prop :=
  event.thread = thread ∧ event.call = .findMfaCredentials userId

-- Since the lookup of an execution, another one was accepted on the step or a
-- later one.
def Overtaken (userId : Id) (thread : Tid) (step : ℤ) (history : History Tid) : Prop :=
  Since (LooksUp userId thread)
    (fun event => ∃ other later, acceptance userId event = some (other, later) ∧
      other ≠ thread ∧ step ≤ later) history

-- No execution writes a step that it was overtaken on.
def InOrder (userId : Id) : CallGuard Tid := fun _ history thread call _ =>
  ∀ patch step, call = .updateMfa userId patch → patch.lastStep = some (some step) →
    ¬Overtaken userId thread step history

-- All values of the last step so far, the latest first.
def steps (userId : Id) (initial : Option ℤ) (history : History Tid) : List ℤ :=
  (accepted userId history).map Prod.snd ++ initial.toList

-- The invariant. The ghost of an execution is the last step that it has read.
structure Ordered (userId : Id) (initial : Option ℤ) (world : World) (history : History Tid)
    (ghosts : Tid → Option (Option ℤ)) : Prop where
  stored : (credentials world.db userId).lastStep = (steps userId initial history).head?
  sorted : (steps userId initial history).Pairwise (· > ·)
  looked : ∀ thread, ∀ found ∈ ghosts thread, ∃ event ∈ history, LooksUp userId thread event
  read : ∀ thread, ∀ found ∈ ghosts thread, ∀ step, used found step = false →
    ¬Overtaken userId thread step history → ∀ earlier ∈ steps userId initial history, earlier < step

end SmartParking.Auth
