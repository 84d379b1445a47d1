import SmartParking.Payments.Ledger

namespace SmartParking.Payments

open Async

variable {Tid : Type}

abbrev History (Tid : Type) := List (Event Tid Call Answer Fault)

abbrev CallGuard (Tid : Type) := Pool.Guard Tid Choice World Call Answer Fault

-- Concurrent requests for one session.
abbrev Payers (Tid : Type) := Pool Tid World Call Answer Fault Payment

def Payers.start (world : World) (sessionId : Id) (inputs : Tid → RegisterPaymentInput) :
    Payers Tid :=
  Pool.start world fun thread =>
    RegisterPaymentUseCase.execute { inputs thread with sessionId }

-- The total money charged for the session.
def charged (sessionId : Id) : History Tid → Soles
  | [] => 0
  | event :: rest => charged sessionId rest + approvedAmount sessionId event.call event.answer

def amountOf : Option Payment → Soles
  | some payment => payment.amount
  | none => 0

def stored (sessionId : Id) (db : Database) : Soles :=
  amountOf (PrismaPaymentRepository.findBySessionId db sessionId)

def quotedAmount (event : Event Tid Call Answer Fault) : Option Soles :=
  match event with
  | ⟨_, .getQuote _, .ok quote⟩ => some quote.amount
  | _ => none

def Charges (event : Event Tid Call Answer Fault) : Prop :=
  match event.call with
  | .charge _ => True
  | _ => False

-- A payment was created or increased.
def Stores (event : Event Tid Call Answer Fault) : Prop :=
  match event with
  | ⟨_, .create _, .ok _⟩ => True
  | ⟨_, .update _ _, .ok _⟩ => True
  | _ => False

def LooksUp (thread : Tid) (event : Event Tid Call Answer Fault) : Prop :=
  event.thread = thread ∧
    match event.call with
    | .findBySessionId _ => True
    | _ => False

-- Some quote was of this amount.
def Quoted (amount : Soles) (history : History Tid) : Prop :=
  ∃ event ∈ history, quotedAmount event = some amount

def StoredBy (thread : Tid) (history : History Tid) : Prop :=
  ∃ event ∈ history, event.thread = thread ∧ Stores event

-- Every execution that has begun has ended.
def Ended (pool : Payers Tid) : Prop :=
  ∀ event ∈ pool.history, (pool.threads event.thread).awaited = none

-- Not more than a quoted amount is charged, and in the end it is on record.
structure Fair (sessionId : Id) (pool : Payers Tid) : Prop where
  bounded : (∃ event ∈ pool.history, Charges event) →
    ∃ amount, Quoted amount pool.history ∧ charged sessionId pool.history ≤ amount
  settled : Ended pool → stored sessionId pool.world.db = charged sessionId pool.history

-- Every charge is approved, and no quote is below an earlier one.
def Regular : CallGuard Tid := fun _ history _ call choice =>
  match call with
  | .charge _ => choice.charge.status = .APPROVED
  | .getQuote _ =>
      match choice.quote with
      | .ok quote => ∀ event ∈ history, ∀ amount ∈ quotedAmount event, amount ≤ quote.amount
      | .error _ => True
  | _ => True

-- When an execution charges, all charges before are on record, and were when it
-- looked for the payment.
def OneByOne : CallGuard Tid := fun _ history thread call _ =>
  match call with
  | .charge _ =>
      (∀ event ∈ history, Charges event → StoredBy event.thread history) ∧
        ¬Since (LooksUp thread) Stores history
  | _ => True

section Decidable

instance : DecidablePred (Charges : Event Tid Call Answer Fault → Prop) := by
  intro event
  unfold Charges
  split <;> infer_instance

instance : DecidablePred (Stores : Event Tid Call Answer Fault → Prop) := by
  intro event
  unfold Stores
  split <;> infer_instance

variable [DecidableEq Tid]

instance (thread : Tid) : DecidablePred (LooksUp thread) := by
  intro event
  unfold LooksUp
  split <;> infer_instance

instance (thread : Tid) (history : History Tid) : Decidable (StoredBy thread history) :=
  inferInstanceAs (Decidable (∃ event ∈ history, _ ∧ _))

instance (world : World) (history : History Tid) (thread : Tid) (call : Call) (choice : Choice) :
    Decidable (Regular world history thread call choice) := by
  unfold Regular
  split
  · infer_instance
  · split <;> infer_instance
  · infer_instance

instance (world : World) (history : History Tid) (thread : Tid) (call : Call) (choice : Choice) :
    Decidable (OneByOne world history thread call choice) := by
  unfold OneByOne
  split <;> infer_instance

end Decidable

-- How far an execution has come: it has a quote, it has looked for the payment,
-- or it has charged an amount on top of what it has seen and not stored it yet.
inductive Progress where
  | idle
  | quoted (required : Soles)
  | looked (required : Soles) (seen : Option Payment)
  | charging (seen : Option Payment) (amount : Soles)
  | done

def Progress.Pending : Progress → Prop
  | .charging _ _ => True
  | _ => False

-- What an execution may rely on.
def Backs (sessionId : Id) (db : Database) (history : History Tid) (thread : Tid) :
    Progress → Prop
  | .idle => ¬StoredBy thread history
  | .quoted required => ¬StoredBy thread history ∧ Quoted required history
  | .looked required seen => ¬StoredBy thread history ∧ Quoted required history ∧
      (∃ event ∈ history, LooksUp thread event) ∧
      (¬Since (LooksUp thread) Stores history →
        PrismaPaymentRepository.findBySessionId db sessionId = seen)
  | .charging seen amount => ¬StoredBy thread history ∧
      (∃ event ∈ history, event.thread = thread ∧ Charges event) ∧
      PrismaPaymentRepository.findBySessionId db sessionId = seen ∧
      charged sessionId history = amountOf seen + amount
  | .done => True

structure Charging (sessionId : Id) (db : Database) (history : History Tid)
    (progress : Tid → Progress) : Prop where
  backs : ∀ thread, Backs sessionId db history thread (progress thread)
  chargers : ∀ event ∈ history, Charges event →
    StoredBy event.thread history ∨ (progress event.thread).Pending
  single : ∀ thread other, (progress thread).Pending → (progress other).Pending → thread = other
  settled : (∀ thread, ¬(progress thread).Pending) → stored sessionId db = charged sessionId history
  bounded : (∃ event ∈ history, Charges event) → Quoted (charged sessionId history) history

end SmartParking.Payments
