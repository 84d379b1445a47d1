import SmartParking.Auth.Replay
import SmartParking.Removal

namespace SmartParking.Auth

open Async

-- The stored hashes are of distinct codes, and compare tells which code a hash is of.
structure IdealHasher (env : Environment) (codes : List String) (hashOf : String → String) :
    Prop where
  distinct : codes.Nodup
  compare : ∀ code ∈ codes, ∀ plain, env.compare plain (hashOf code) = true ↔ plain = code

-- The backup code that a request presents.
def presented (env : Environment) (input : VerifyMfaInput) : String :=
  normalizeBackupCode env.toUpperCase (JsString.trim input.code)

variable {Tid : Type}

-- A backup code is accepted by the write of the list without its hash.
def consumption (env : Environment) (userId : Id) (inputs : Tid → VerifyMfaInput) :
    Event Tid Call Answer Fault → Option String
  | ⟨thread, .updateMfa id patch, .ok _⟩ =>
      if id = userId ∧ patch.backupCodeHashes.isSome then some (presented env (inputs thread))
      else none
  | _ => none

def consumed (env : Environment) (userId : Id) (inputs : Tid → VerifyMfaInput)
    (history : History Tid) : List String :=
  history.filterMap (consumption env userId inputs)

-- Each code is accepted once at most, and the hashes of the others are stored.
structure SingleUse (env : Environment) (userId : Id) (inputs : Tid → VerifyMfaInput)
    (codes : List String) (hashOf : String → String) (pool : Verifications Tid) : Prop where
  once : (consumed env userId inputs pool.history).Nodup
  stored : (credentials pool.world.db userId).backupCodeHashes =
    (codes.filter (· ∉ consumed env userId inputs pool.history)).map hashOf

variable [DecidableEq Tid]

-- The list that an execution has read, in its last lookup.
def lookupOf (userId : Id) (thread : Tid) : Event Tid Call Answer Fault → Option (List String)
  | ⟨other, .findMfaCredentials id, .ok (some found)⟩ =>
      if other = thread ∧ id = userId then some found.backupCodeHashes else none
  | _ => none

def seen (userId : Id) (thread : Tid) : History Tid → Option (List String)
  | [] => none
  | event :: earlier => (lookupOf userId thread event).or (seen userId thread earlier)

def Call.WritesCodes (userId : Id) : Call → Prop
  | .updateMfa id patch => id = userId ∧ patch.backupCodeHashes.isSome
  | _ => False

instance (userId : Id) (call : Call) : Decidable (call.WritesCodes userId) := by
  cases call with
  | updateMfa id patch =>
      exact inferInstanceAs (Decidable (id = userId ∧ patch.backupCodeHashes.isSome = true))
  | _ => exact isFalse id

-- When an execution writes the list, the stored one is still the one that it has read.
def UpToDate (userId : Id) : CallGuard Tid := fun world history thread call _ =>
  call.WritesCodes userId →
    seen userId thread history = some (credentials world.db userId).backupCodeHashes

instance (userId : Id) (world : World) (history : History Tid) (thread : Tid) (call : Call)
    (choice : Choice) : Decidable (UpToDate userId world history thread call choice) :=
  inferInstanceAs (Decidable (_ → _))

-- The run as the executions see the list.

def access (env : Environment) (userId : Id) (inputs : Tid → VerifyMfaInput) :
    Event Tid Call Answer Fault → Option (Removal.Access Tid String)
  | ⟨thread, .findMfaCredentials id, .ok (some _)⟩ => if id = userId then some (.read thread) else none
  | ⟨thread, .updateMfa id patch, .ok _⟩ =>
      if id = userId ∧ patch.backupCodeHashes.isSome then
        some (.write thread (presented env (inputs thread)))
      else none
  | _ => none

def removal (env : Environment) (userId : Id) (inputs : Tid → VerifyMfaInput)
    (codes : List String) : History Tid → Removal Tid String
  | [] => .start codes
  | event :: earlier =>
      match access env userId inputs event with
      | some access => (removal env userId inputs codes earlier).step access
      | none => removal env userId inputs codes earlier

-- The state after a run, and the list as the executions see it.

def verified (env : Environment) (world : World) (inputs : Tid → VerifyMfaInput)
    (schedule : List (Tid × Choice)) : Verifications Tid :=
  (Verifications.start env world inputs).play (serve env) schedule

def removalAfter (env : Environment) (userId : Id) (world : World)
    (inputs : Tid → VerifyMfaInput) (codes : List String) (schedule : List (Tid × Choice)) :
    Removal Tid String :=
  removal env userId inputs codes (verified env world inputs schedule).history

-- What is removed was read before.
def Possible (env : Environment) (userId : Id) (inputs : Tid → VerifyMfaInput)
    (codes : List String) : History Tid → Prop
  | [] => True
  | event :: earlier =>
      (∀ found ∈ access env userId inputs event,
        (removal env userId inputs codes earlier).Possible found) ∧
      Possible env userId inputs codes earlier

-- The invariant of all runs. The ghost of an execution is the list that it has read.
structure Simulates (env : Environment) (userId : Id) (inputs : Tid → VerifyMfaInput)
    (codes : List String) (hashOf : String → String) (world : World) (history : History Tid)
    (ghosts : Tid → Option (List String)) : Prop where
  stored : (credentials world.db userId).backupCodeHashes =
    (removal env userId inputs codes history).stored.map hashOf
  seen : ∀ thread, seen userId thread history =
    ((removal env userId inputs codes history).copies thread).map (List.map hashOf)
  ghost : ∀ thread, ∀ copy ∈ ghosts thread,
    copy ∈ (removal env userId inputs codes history).copies thread
  within : (removal env userId inputs codes history).stored.Sublist codes
  copied : ∀ thread, ∀ copy ∈ (removal env userId inputs codes history).copies thread,
    copy.Sublist codes ∧ (world.db.users.lookup userId).isSome
  possible : Possible env userId inputs codes history
  written : ∀ event ∈ history, event.call.WritesCodes userId →
    (access env userId inputs event).isSome
  removed : (removal env userId inputs codes history).removed =
    consumed env userId inputs history

end SmartParking.Auth
