import SmartParking.Async.Sequential

namespace Async.Program

variable {Call : Type} {Answer : Call → Type} {Err Choice World α : Type}

-- The world when an execution is stopped after a number of calls.
def runFor (serve : Server Choice World Call Answer Err) :
    (calls : Nat) → Program Call Answer Err α → (Nat → Choice) → World → World
  | calls + 1, .await call next, choices, world =>
      (next (serve (choices 0) world call).1).runFor serve calls (fun n => choices (n + 1))
        (serve (choices 0) world call).2
  | _, _, _, world => world

variable {serve : Server Choice World Call Answer Err}

-- What every call keeps, and composes, holds from where an execution was stopped
-- to where it would have ended.
theorem runFor_rel (rel : World → World → Prop) (hrefl : ∀ world, rel world world)
    (htrans : ∀ a b c, rel a b → rel b c → rel a c)
    (hcall : ∀ choice world call, rel world (serve choice world call).2) (calls : Nat)
    (p : Program Call Answer Err α) (choices : Nat → Choice) (world : World) :
    rel world (p.runFor serve calls choices world) ∧
      rel (p.runFor serve calls choices world) (p.run serve choices world).2 := by
  induction calls generalizing p choices world with
  | zero => exact ⟨hrefl world, run_rel rel hrefl htrans hcall p choices world⟩
  | succ calls ih =>
      cases p with
      | done result => exact ⟨hrefl world, hrefl world⟩
      | await call next =>
          obtain ⟨hbefore, hafter⟩ := ih (next (serve (choices 0) world call).1)
            (fun n => choices (n + 1)) (serve (choices 0) world call).2
          exact ⟨htrans _ _ _ (hcall _ _ _) hbefore, hafter⟩

end Async.Program

namespace Async

variable {Call : Type} {Answer : Call → Type} {Err Choice World : Type}

-- A server whose calls can be lost, on the way to it or on the way back. The caller only
-- sees the error that a call was lost with.
def unreliable (serve : Server Choice World Call Answer Err) :
    Server (Option (Err × Bool) × Choice) World Call Answer Err
  | (none, choice), world, call => serve choice world call
  | (some (err, true), choice), world, call => (.error err, (serve choice world call).2)
  | (some (err, false), _), world, _ => (.error err, world)

variable {serve : Server Choice World Call Answer Err}

theorem unreliable_cases {call : Call} {world : World}
    (holds : Except Err (Answer call) → World → Prop)
    (hserved : ∀ choice, holds (serve choice world call).1 (serve choice world call).2)
    (hunheard : ∀ choice err, holds (.error err) (serve choice world call).2)
    (hlost : ∀ err, holds (.error err) world) (choice : Option (Err × Bool) × Choice) :
    holds (unreliable serve choice world call).1 (unreliable serve choice world call).2 := by
  obtain ⟨lost, choice⟩ := choice
  rcases lost with _ | ⟨err, _ | _⟩
  · exact hserved choice
  · exact hlost err
  · exact hunheard choice err

end Async
