import SmartParking.Occupancy.Executions

namespace SmartParking.Occupancy

open Async Machine

variable {Tid : Type} {first : Database} {feed : Feed} {branchId : Id}

-- The events of each branch are in the order in which they were counted.
def Feed.Ordered (feed : Feed) : Prop :=
  feed.published.Pairwise fun later earlier =>
    earlier.event.branchId = later.event.branchId → earlier.query < later.query

theorem ordered_advance (h : feed.Ordered) {index : ℕ}
    (hnext : ∀ reading ∈ feed.updates[index]?.bind Update.reading, ∀ other ∈ feed.published,
      other.event.branchId = reading.event.branchId → other.query < reading.query) :
    (feed.advance index).Ordered := by
  unfold Feed.advance
  split
  · exact h
  · exact h
  · exact h
  · rename_i reading hindex
    refine List.pairwise_cons.mpr ⟨fun other ho hb => ?_, h⟩
    exact hnext reading (by rw [hindex]; rfl) other ho hb

@[simp] theorem world_advance (feed : Feed) (index : ℕ) : (feed.advance index).world = feed.world := by
  unfold Feed.advance
  split <;> rfl

-- With nothing under way the newest event of a branch is the last one.
theorem newest_of_last (hordered : feed.Ordered) (hdone : feed.updates = []) {event : OccupancyEvent}
    (hlast : feed.last branchId = some event) :
    ∃ reading, feed.Newest reading ∧ reading.event = event ∧ event.branchId = branchId := by
  unfold Feed.last at hlast
  rw [List.find?_map] at hlast
  obtain ⟨reading, hfind, rfl⟩ := Option.map_eq_some_iff.mp hlast
  obtain ⟨hbranch, later, earlier, hsplit, hnone⟩ := List.find?_eq_some_iff_append.mp hfind
  simp only [Function.comp_apply, decide_eq_true_eq] at hbranch
  refine ⟨reading, ⟨?_, fun other ho hb => ?_⟩, rfl, hbranch⟩
  · exact .inr (hsplit ▸ List.mem_append_right _ List.mem_cons_self)
  have hother : other ∈ feed.published := ho.resolve_left (by simp [hdone])
  unfold Feed.Ordered at hordered
  rw [hsplit] at hother hordered
  rcases List.mem_append.mp hother with hm | hm
  · have hne := hnone other hm
    simp [hb, hbranch] at hne
  · rcases List.mem_cons.mp hm with rfl | hm
    · exact Nat.le_refl _
    · have hrest := (List.pairwise_append.mp hordered).2.1
      exact Nat.le_of_lt ((List.pairwise_cons.mp hrest).1 other hm hb)

theorem lastIsTrue_of_current (h : Current first feed branchId) (hordered : feed.Ordered)
    (hdone : feed.updates = []) : LastIsTrue first feed branchId where
  carries event hlast := by
    obtain ⟨reading, hnewest, rfl, hbranch⟩ := newest_of_last hordered hdone hlast
    exact h.newest reading hnewest hbranch
  unchanged hlast := by
    refine h.untold fun reading hr hbranch => ?_
    have hm : reading ∈ feed.published := hr.resolve_left (by simp [hdone])
    have hnone := List.find?_eq_none.mp hlast reading.event (List.mem_map_of_mem hm)
    exact hnone (decide_eq_true hbranch)

namespace Processes

variable [DecidableEq Tid]

-- The invariant of the runs that publish in order.
structure Sound (first : Database) (processes : Processes Tid) : Prop where
  careful : ∃ duties, Watched first processes.world duties ∧ ∀ thread,
    CarefulTask first thread (processes.threads thread) (duties thread) Settles
  ordered : processes.world.Ordered

theorem published_call (processes : Processes Tid) (thread : Tid) (choice : Choice) :
    (processes.step (.call thread choice)).world.published = processes.world.published := by
  change (Pool.step (announcing serve startedUpdates) processes thread choice).world.published = _
  unfold Pool.step
  split <;> rfl

theorem sound_start (config : Config) (world : World) (hplaced : Placed world.db)
    (tasks : Tid → Task) : (start config world tasks).Sound world.db where
  careful := ⟨fun _ => ⟨none, .nothing⟩, ⟨Tracked.start world hplaced _, fun _ => trivial⟩,
    fun thread => careful_task (tasks thread) rfl⟩
  ordered := List.Pairwise.nil

theorem sound_step {processes : Processes Tid} (h : processes.Sound first)
    (event : ProcessEvent Tid) (horder : processes.InOrder event) :
    (processes.step event).Sound first := by
  obtain ⟨⟨duties, hwatched, hsafe⟩, hordered⟩ := h
  cases event with
  | call thread choice =>
      refine ⟨?_, ?_⟩
      · exact Pool.step_invariant (by exact hwatched) hsafe (Pool.meets_unguarded _ thread choice)
      · unfold Feed.Ordered
        rwa [published_call]
  | update index =>
      refine ⟨⟨duties, ⟨hwatched.tracked.advance index, fun thread => ?_⟩, hsafe⟩,
        ordered_advance hordered horder⟩
      change (duties thread).known.holds (processes.world.advance index).world.db
      rw [world_advance]
      exact hwatched.known thread

-- What a finished run has told of a branch.
theorem Sound.lastIsTrue {processes : Processes Tid} (h : processes.Sound first)
    (hfinished : processes.Finished) (branchId : Id) :
    LastIsTrue first processes.world branchId := by
  obtain ⟨⟨duties, hwatched, hsafe⟩, hordered⟩ := h
  have howed : ∀ thread, (duties thread).owed = none := by
    intro thread
    obtain ⟨result, hdone⟩ := Pool.done_of_awaited (hfinished.executions thread)
    have hs := hsafe thread
    rw [hdone] at hs
    exact hs
  rcases hwatched.tracked.told branchId with ⟨thread, ho⟩ | ⟨update, hm, -⟩ | hcurrent
  · rw [howed] at ho
    cases ho
  · rw [hfinished.updates] at hm
    cases hm
  · exact lastIsTrue_of_current hcurrent hordered hfinished.updates

-- When every event is published after those of its branch that were counted before it,
-- the last one of a branch is its occupancy.
theorem lastIsTrue_run (config : Config) (branches : Table Branch.id Branch.id)
    (slots : Table ParkingSlot.id fun slot => (slot.branchId, slot.code)) (now : ℤ)
    (tasks : Tid → Task) (events : List (ProcessEvent Tid))
    (h : Always step InOrder (start config ⟨.opening branches slots, now⟩ tasks) events)
    (hfinished : (play step (start config ⟨.opening branches slots, now⟩ tasks) events).Finished)
    (branchId : Id) : LastIsTrue (.opening branches slots)
      (play step (start config ⟨.opening branches slots, now⟩ tasks) events).world branchId :=
  have hstart := sound_start config ⟨.opening branches slots, now⟩ (placed_opening branches slots)
    tasks
  have hsound := play_invariant (Sound (.opening branches slots)) hstart
    (fun _ event h => sound_step h event) h
  hsound.lastIsTrue hfinished branchId

end Processes

-- The admin marks the branch full, and its only slot is reported as blocked.
def Demo.tasks : Bool → Task
  | true => .SimulateBranchFull "b1"
  | false => .Request (.ReportSlotBlocked "s1")

def Demo.calls (thread : Bool) (count : ℕ) : List (ProcessEvent Bool) :=
  List.replicate count (.call thread (SmartParking.Demo.choice "x1"))

-- The update of the simulation counts before the report, and is published last.
def Demo.overtaken : List (ProcessEvent Bool) :=
  Demo.calls true 3 ++ [.update 0, .update 0] ++ Demo.calls false 4 ++
    [.update 1, .update 1, .update 1, .update 0]

def Demo.inTurn : List (ProcessEvent Bool) :=
  Demo.calls true 3 ++ [.update 0, .update 0] ++ Demo.calls false 4 ++
    [.update 0, .update 0, .update 0, .update 0]

theorem lastIsTrue_fails : ¬∀ (config : Config) (branches : Table Branch.id Branch.id)
    (slots : Table ParkingSlot.id fun slot => (slot.branchId, slot.code)) (now : ℤ)
    (tasks : Bool → Task) (events : List (ProcessEvent Bool)),
    (play Processes.step (.start config ⟨.opening branches slots, now⟩ tasks) events).Finished →
      ∀ branchId, LastIsTrue (.opening branches slots)
        (play Processes.step (.start config ⟨.opening branches slots, now⟩ tasks) events).world
          branchId := by
  intro h
  have hlast := h SmartParking.Demo.config SmartParking.Demo.branches SmartParking.Demo.slots 0
    Demo.tasks Demo.overtaken ⟨by decide, by decide⟩ "b1"
  have hcarries := congrArg OccupancyEvent.occupied (hlast.carries _ rfl)
  exact absurd hcarries (by decide)

theorem lastIsTrue_inTurn :
    ((play Processes.step (.start SmartParking.Demo.config
        ⟨.opening SmartParking.Demo.branches SmartParking.Demo.slots, 0⟩ Demo.tasks)
          Demo.inTurn).world.last "b1").map OccupancyEvent.occupied = some 0 ∧
      LastIsTrue (.opening SmartParking.Demo.branches SmartParking.Demo.slots)
        (play Processes.step (.start SmartParking.Demo.config
          ⟨.opening SmartParking.Demo.branches SmartParking.Demo.slots, 0⟩ Demo.tasks)
            Demo.inTurn).world "b1" :=
  ⟨by decide, Processes.lastIsTrue_run SmartParking.Demo.config SmartParking.Demo.branches
    SmartParking.Demo.slots 0 Demo.tasks Demo.inTurn (by decide) ⟨by decide, by decide⟩ "b1"⟩

end SmartParking.Occupancy
