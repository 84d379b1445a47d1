import SmartParking.Blocking
import SmartParking.Machine

namespace SmartParking

open Async

inductive OccupancyLevel where
  | GREEN | YELLOW | RED
  deriving DecidableEq

def computeOccupancyLevel (occupied total : ℕ) : OccupancyLevel :=
  if total = 0 then .GREEN
  else if (occupied : ℚ) / total < 1 / 2 then .GREEN
  else if (occupied : ℚ) / total < 85 / 100 then .YELLOW
  else .RED

namespace PrismaParkingSlotRepository

-- WHERE branchId IN (...) AND ... GROUP BY branchId, with the count of each group.
def groupBy (db : Database) (branchIds : List Id) (keep : ParkingSlot → Bool) : List (Id × ℕ) :=
  branchIds.dedup.filterMap fun branchId =>
    let slots := db.slots.rows.filter fun slot => slot.branchId = branchId && keep slot
    if slots = [] then none else some (branchId, slots.length)

-- getOccupancySummary from the answers of its two queries.
def summaries (totals occupied : List (Id × ℕ)) : List BranchOccupancySummary :=
  totals.map fun row => {
    branchId := row.1
    totalSlots := row.2
    occupiedOrReserved := (occupied.lookup row.1).getD 0 }

-- updateMany WHERE branchId, status = DISPONIBLE.
def markAllOccupied (db : Database) (now : ℤ) (branchId : Id) : Database :=
  ((db.slots.rows.filter (available branchId none)).map ParkingSlot.id).foldl
    (fun db slotId => setStatus db slotId .OCUPADA now) db

end PrismaParkingSlotRepository

namespace Occupancy

-- The calls of the other use cases, and the write of the simulation.
inductive Call where
  | reported (call : Blocking.Call)
  | slotsMarkAllOccupied (branchId : Id)
  deriving DecidableEq

@[reducible] def Answer : Call → Type
  | .reported call => Blocking.Answer call
  | .slotsMarkAllOccupied _ => Unit

abbrev Port (α : Type) := Program Call Answer Fault α

abbrev report {α : Type} (p : Blocking.Port α) : Port α := p.lift Call.reported fun _ => id

abbrev lift {α : Type} (p : SmartParking.Port α) : Port α := report (Blocking.lift p)

abbrev slots.markAllOccupied (branchId : Id) : Port Unit :=
  Program.perform (Call.slotsMarkAllOccupied branchId)

def serve : Server Choice World Call Answer Fault := fun choice world call =>
  match call with
  | .reported call => Blocking.serve choice world call
  | .slotsMarkAllOccupied branchId =>
      let now := world.clock + choice.elapsed
      (.ok (), ⟨PrismaParkingSlotRepository.markAllOccupied world.db now branchId, now⟩)

namespace SimulateBranchFullUseCase

def execute (branchId : Id) : Port Unit := do
  let branch ← lift (branches.findById branchId)
  match branch with
  | none => throw (.domain (.NotFound "Branch" branchId))
  | some _ => do
      slots.markAllOccupied branchId
      lift (notifier.notify (.OccupancyUpdated branchId))

end SimulateBranchFullUseCase

-- What the API and the worker execute on the slots.
inductive Task where
  | Request (task : Blocking.Task)
  | ReservationRequest (message : ReservationRequestMessage)
  | SimulateBranchFull (branchId : Id)
  deriving DecidableEq

def Task.execute (config : Config) : Task → Port Unit
  | .Request task => report (task.execute config)
  | .ReservationRequest message => lift (ReservationRequestConsumer.handle config message)
  | .SimulateBranchFull branchId => SimulateBranchFullUseCase.execute branchId

-- The payload of branch.occupancy.updated.
structure OccupancyEvent where
  branchId : Id
  occupied : ℕ
  total : ℕ
  level : OccupancyLevel
  deriving DecidableEq

def occupancyEvent (branchId : Id) (occupied total : ℕ) : OccupancyEvent where
  branchId
  occupied
  total
  level := computeOccupancyLevel occupied total

-- An event with the number of the query that counted its occupied slots. The number
-- is not part of the message.
structure Reading where
  query : ℕ
  event : OccupancyEvent
  deriving DecidableEq

-- A notifyOccupancyUpdated that goes on after it has returned: it awaits one query,
-- the other, and the channel.
inductive Update where
  | countsSlots (branchId : Id)
  | countsOccupied (branchId : Id) (totals : List (Id × ℕ))
  | publishes (reading : Reading)
  deriving DecidableEq

namespace RabbitRealtimePublisherAdapter

def summarize (branchId : Id) (summaries : List BranchOccupancySummary) : OccupancyEvent :=
  let summary := summaries.head?
  occupancyEvent branchId ((summary.map BranchOccupancySummary.occupiedOrReserved).getD 0)
    ((summary.map BranchOccupancySummary.totalSlots).getD 0)

-- The updates that a call of a use case starts.
def notifyOccupancyUpdated : SmartParking.Call → List Update
  | .notify (.OccupancyUpdated branchId) => [.countsSlots branchId]
  | _ => []

end RabbitRealtimePublisherAdapter

-- The database with the updates under way, and the events of the exchange, the latest
-- first.
structure Feed where
  world : World
  updates : List Update
  published : List Reading
  queries : ℕ

namespace Feed

def start (world : World) : Feed where
  world
  updates := []
  published := []
  queries := 0

-- The answer that the update of the given number awaits.
def advance (feed : Feed) (index : ℕ) : Feed :=
  match feed.updates[index]? with
  | none => feed
  | some (.countsSlots branchId) =>
      let totals := PrismaParkingSlotRepository.groupBy feed.world.db [branchId] fun _ => true
      { feed with updates := feed.updates.set index (.countsOccupied branchId totals) }
  | some (.countsOccupied branchId totals) =>
      let occupied := PrismaParkingSlotRepository.groupBy feed.world.db [branchId]
        PrismaParkingSlotRepository.occupiedOrReserved
      let event := RabbitRealtimePublisherAdapter.summarize branchId
        (PrismaParkingSlotRepository.summaries totals occupied)
      { feed with
        updates := feed.updates.set index (.publishes ⟨feed.queries, event⟩)
        queries := feed.queries + 1 }
  | some (.publishes reading) =>
      { feed with
        updates := feed.updates.eraseIdx index
        published := reading :: feed.published }

-- The last event of the branch, which the pages keep.
def last (feed : Feed) (branchId : Id) : Option OccupancyEvent :=
  (feed.published.map Reading.event).find? fun event => event.branchId = branchId

end Feed

def Update.reading : Update → Option Reading
  | .publishes reading => some reading
  | _ => none

-- A server whose calls start updates. No call waits for them.
def announcing {Call : Type} {Answer : Call → Type} (serve : Server Choice World Call Answer Fault)
    (started : Call → List Update) : Server Choice Feed Call Answer Fault := fun choice feed call =>
  let (answer, world) := serve choice feed.world call
  (answer, { feed with world, updates := feed.updates ++ started call })

def reportedUpdates : Blocking.Call → List Update
  | .backend call => RabbitRealtimePublisherAdapter.notifyOccupancyUpdated call
  | .slotsFindById _ => []

def startedUpdates : Call → List Update
  | .reported call => reportedUpdates call
  | .slotsMarkAllOccupied _ => []

-- The executions of all processes, over one database and one exchange.
abbrev Processes (Tid : Type) := Pool Tid Feed Call Answer Fault Unit

inductive ProcessEvent (Tid : Type) where
  | call (thread : Tid) (choice : Choice)
  | update (index : ℕ)

namespace Processes

variable {Tid : Type}

def start (config : Config) (world : World) (tasks : Tid → Task) : Processes Tid :=
  Pool.start (.start world) fun thread => (tasks thread).execute config

def step [DecidableEq Tid] (processes : Processes Tid) : ProcessEvent Tid → Processes Tid
  | .call thread choice => Pool.step (announcing serve startedUpdates) processes thread choice
  | .update index => { processes with world := processes.world.advance index }

-- No event of a branch is published after one that was counted later.
def InOrder (processes : Processes Tid) : ProcessEvent Tid → Prop
  | .call _ _ => True
  | .update index => ∀ reading ∈ processes.world.updates[index]?.bind Update.reading,
      ∀ other ∈ processes.world.published, other.event.branchId = reading.event.branchId →
        other.query < reading.query

instance (processes : Processes Tid) (event : ProcessEvent Tid) :
    Decidable (processes.InOrder event) :=
  match event with
  | .call _ _ => isTrue trivial
  | .update index =>
      inferInstanceAs (Decidable (∀ reading ∈ processes.world.updates[index]?.bind Update.reading,
        ∀ other ∈ processes.world.published, other.event.branchId = reading.event.branchId →
          other.query < reading.query))

-- All operations and all updates have completed.
structure Finished (processes : Processes Tid) : Prop where
  executions : ∀ thread, (processes.threads thread).awaited = none
  updates : processes.world.updates = []

end Processes

def totalSlots (db : Database) (branchId : Id) : ℕ :=
  (db.slots.rows.filter fun slot => slot.branchId = branchId).length

def occupiedSlots (db : Database) (branchId : Id) : ℕ :=
  (db.slots.rows.filter fun slot => slot.branchId = branchId ∧
    (slot.status = .OCUPADA ∨ slot.status = .RESERVADA)).length

-- The last event of the branch is its occupancy. Without one the occupancy is as it
-- was at the start.
structure LastIsTrue (first : Database) (feed : Feed) (branchId : Id) : Prop where
  carries : ∀ event, feed.last branchId = some event →
    event = occupancyEvent branchId (occupiedSlots feed.world.db branchId)
      (totalSlots feed.world.db branchId)
  unchanged : feed.last branchId = none →
    occupiedSlots feed.world.db branchId = occupiedSlots first branchId

end Occupancy

end SmartParking
