import SmartParking.Eligibility
import SmartParking.Backend.Operations
import Mathlib.Data.List.Induction

namespace SmartParking

open Async

variable {Tid : Type} {userId : Id} {db : Database} {history : History Tid} {looks : Tid → Look}
  {thread : Tid}

theorem not_insertFor {event : Event Tid Call Answer Fault} (hc : insertedUser event.call = none) :
    ¬InsertFor userId event := by
  intro he
  rw [InsertFor, hc] at he
  cases he

theorem not_insert_of_reads {call : Call} (h : call.Reads) : insertedUser call = none := by
  cases call <;> first | rfl | exact h.elim

theorem not_insert_of_claims {call : Call} (h : call.Claims) : insertedUser call = none := by
  cases call <;> first | rfl | exact h.elim

theorem Alone.cons (h : Alone userId db history looks) {event : Event Tid Call Answer Fault}
    (hc : insertedUser event.call = none) {db' : Database}
    (hdb : db'.reservations = db.reservations) :
    Alone userId db' (event :: history) looks where
  single := by
    unfold AtMostOneLive
    rw [hdb]
    exact h.single
  clear other hl := by
    obtain ⟨⟨look, hm, hlook⟩, hnone⟩ := h.clear other hl
    refine ⟨⟨look, List.mem_cons_of_mem _ hm, hlook⟩, fun hn => ?_⟩
    rw [hdb]
    exact hnone fun hi => hn ((since_cons_iff (not_insertFor hc)).mpr hi)
  inserted hex := by
    rw [hdb]
    obtain ⟨insert, hm, hi⟩ := hex
    rcases List.mem_cons.mp hm with rfl | hm
    · rw [InsertFor, hc] at hi
      cases hi
    · exact h.inserted ⟨insert, hm, hi⟩

theorem alone_ignores_reads :
    IgnoresReads (Unraced userId : CallGuard Tid) (Alone userId) :=
  fun _ hcall _ _ _ _ _ _ h _ => h.cons (not_insert_of_reads hcall) rfl

variable [DecidableEq Tid]

-- The execution looked and found no live reservation of the user.
theorem Alone.look (h : Alone userId db history looks)
    (hnone : PrismaReservationRepository.findActiveByUser db userId = none)
    (answer : Except Fault (Option Reservation)) :
    Alone userId db (⟨thread, .reservationsFindActiveByUser userId, answer⟩ :: history)
      (Function.update looks thread .clear) where
  single := h.single
  clear other hl := by
    by_cases ho : other = thread
    · subst other
      refine ⟨⟨_, List.mem_cons_self, rfl, rfl⟩, fun _ reservation hm hlive => ?_⟩
      have hn := List.find?_eq_none.mp hnone reservation hm
      exact hn (decide_eq_true hlive)
    · rw [Function.update_of_ne ho] at hl
      obtain ⟨⟨look, hm, hlook⟩, hfree⟩ := h.clear other hl
      refine ⟨⟨look, List.mem_cons_of_mem _ hm, hlook⟩, fun hn => hfree fun hi => hn ?_⟩
      exact .inr hi
  inserted hex := by
    obtain ⟨insert, hm, hi⟩ := hex
    rcases List.mem_cons.mp hm with rfl | hm
    · cases hi
    · exact h.inserted ⟨insert, hm, hi⟩

theorem Alone.insert (h : Alone userId db history looks) (hclear : looks thread = .clear)
    (hn : ¬InsertedSince userId thread history) {data : CreateReservationData}
    {row : Reservation} (huser : row.userId = userId) (hstatus : row.status = .PENDING)
    (hdata : data.userId = userId) {bigger : Table Reservation.id Reservation.id}
    (hb : db.reservations.insert row = some bigger) (answer : Except Fault Reservation) :
    Alone userId { db with reservations := bigger }
      (⟨thread, .reservationsCreate data, answer⟩ :: history)
      (Function.update looks thread .over) where
  single := by
    have hfree := (h.clear thread hclear).2 hn
    intro reservation hr other ho hl hl'
    rcases (Table.mem_insert hb).mp hr with hr | rfl
    · exact absurd hl (hfree reservation hr)
    · rcases (Table.mem_insert hb).mp ho with ho | rfl
      · exact absurd hl' (hfree other ho)
      · rfl
  clear other hl := by
    by_cases ho : other = thread
    · subst other
      rw [Function.update_self] at hl
      cases hl
    · rw [Function.update_of_ne ho] at hl
      obtain ⟨⟨look, hm, hlook⟩, -⟩ := h.clear other hl
      refine ⟨⟨look, List.mem_cons_of_mem _ hm, hlook⟩, fun hn => absurd ?_ hn⟩
      exact .inl ⟨congrArg some hdata, look, hm, hlook⟩
  inserted _ := ⟨row, (Table.mem_insert hb).mpr (.inr rfl), huser, .inl hstatus⟩

theorem safe_creation (config : Config) (input : CreateReservationInput)
    (huser : input.userId = userId) :
    SafeCall (Unraced userId) (Alone userId) thread
      (CreateReservationUseCase.execute config input) .pending fun _ _ => True := by
  unfold CreateReservationUseCase.execute DefaultReservationPolicy.canCreateReservation
  simp only [bind_assoc]
  refine safe_ask_bind fun db history looks choice now clock ht h _ => ?_
  rw [huser]
  change ∃ look, Alone userId db _ (Function.update looks thread look) ∧ SafeCall _ _ thread _ look _
  cases hfound : PrismaReservationRepository.findActiveByUser db userId with
  | some reservation =>
      refine ⟨.pending, ?_, trivial⟩
      rw [← ht, Function.update_eq_self]
      exact h.cons rfl rfl
  | none =>
      refine ⟨.clear, h.look hfound _, ?_⟩
      simp only [bind_assoc]
      refine safe_reads_bind alone_ignores_reads (uses_ask.mpr (by trivial)) (Program.yields_true _)
        (fun _ _ => trivial) fun session _ => ?_
      cases session with
      | some session => trivial
      | none =>
          refine safe_reserve alone_ignores_reads (fun _ look => look = .clear)
            (fun _ _ => trivial) ?_ ?_ ?_
          · exact fun db history looks event _ h _ hcall _ => h.cons (not_insert_of_claims hcall) rfl
          · intro db history looks event now slot ht h _ _ _ hcall _
            refine ⟨.clear, ?_, rfl⟩
            rw [← ht, Function.update_eq_self]
            exact h.cons (not_insert_of_claims hcall) rfl
          · rintro slot look rfl
            refine safe_store alone_ignores_reads ?_
            intro db history looks choice start now clock bigger ht h hg hb
            exact ⟨.over, h.insert ht (hg (congrArg some huser)) huser rfl huser hb _, trivial⟩

section Runs

variable {config : Config} {world : World} {inputs : Tid → CreateReservationInput}
  {pool : Creations Tid}

theorem alone_of_reaches
    (hnone : ∀ reservation ∈ world.db.reservations, ¬LiveOf userId reservation)
    (hreach : Pool.Reaches serve (Unraced userId) (Creations.ofUser config world userId inputs)
      pool) : ∃ looks : Tid → Look, Alone userId pool.world.db pool.history looks := by
  have hstart : Alone userId world.db ([] : History Tid) fun _ => .pending := by
    constructor
    · exact fun reservation hr _ _ hl _ => absurd hl (hnone reservation hr)
    · exact fun _ hl => by cases hl
    · rintro ⟨event, hm, -⟩
      exact absurd hm List.not_mem_nil
  obtain ⟨looks, h, -⟩ := hreach.invariant (onWorld (Alone userId))
    (fun _ _ _ => True) hstart fun thread => safe_creation config _ rfl
  exact ⟨looks, h⟩

-- A raced insert leaves the user with two live reservations.
theorem two_live_of_raced {looks : Tid → Look} (h : Alone userId pool.world.db pool.history looks)
    {choice : Choice} (hraced : ¬pool.Meets (Unraced userId) thread choice) :
    ¬AtMostOneLive userId (pool.step serve thread choice).world.db := by
  unfold Pool.Meets at hraced
  split at hraced
  · exact absurd trivial hraced
  · rename_i call next hawait
    rw [db_step hawait]
    simp only [Unraced, Classical.not_imp, not_not] at hraced
    obtain ⟨hcall, hsince⟩ := hraced
    obtain ⟨earlier, hm, hlive⟩ := h.inserted (exists_of_since hsince)
    cases call with
    | reservationsCreate data =>
        obtain ⟨bigger, hb, hq⟩ := query_reservationsCreate pool.world.db choice
          (pool.world.clock + choice.elapsed) data
        rw [hq]
        intro hone
        have hold := (Table.mem_insert hb).mpr (.inl hm)
        have hnew := (Table.mem_insert hb).mpr (.inr rfl)
        have he := hone earlier hold _ hnew hlive ⟨Option.some.inj hcall, .inl rfl⟩
        exact (Table.insert_fresh hb).1 earlier hm (congrArg Reservation.id he)
    | _ => cases hcall

end Runs

-- A user has at most one live reservation in every state of a run exactly when
-- no insert of the run comes after another one that its execution did not see.
theorem one_live_iff (config : Config) (world : World) (userId : Id)
    (inputs : Tid → CreateReservationInput)
    (hnone : ∀ reservation ∈ world.db.reservations, ¬LiveOf userId reservation)
    (schedule : List (Tid × Choice)) :
    (∀ past, past <+: schedule → AtMostOneLive userId
      ((Creations.ofUser config world userId inputs).play serve past).world.db) ↔
    (Creations.ofUser config world userId inputs).Follows serve (Unraced userId) schedule := by
  constructor
  · intro hone
    induction schedule using List.reverseRecOn with
    | nil => trivial
    | append_singleton past turn ih =>
        have hpast := ih fun before hb => hone before (hb.trans (List.prefix_append past [turn]))
        rw [Pool.follows_append]
        refine ⟨hpast, ?_, trivial⟩
        by_contra hraced
        obtain ⟨looks, h⟩ := alone_of_reaches hnone (Pool.reaches_of_follows .refl hpast)
        have hafter := hone (past ++ [turn]) (List.prefix_refl _)
        rw [Pool.play_append] at hafter
        exact two_live_of_raced h hraced hafter
  · rintro hf past ⟨rest, rfl⟩
    have hpast := (Pool.follows_append.mp hf).1
    obtain ⟨looks, h⟩ := alone_of_reaches hnone (Pool.reaches_of_follows .refl hpast)
    exact h.single

-- Two requests of one user, the second after the first has ended.
theorem one_live_serial : AtMostOneLive "u1" ((Creations.ofUser Demo.config
    ⟨.opening Demo.branches Demo.twoSlots, 0⟩ "u1" fun _ : ℕ => Demo.request "u1").play serve
      (List.replicate 15 (0, Demo.choice "r1") ++
        List.replicate 3 (1, Demo.choice "r2"))).world.db :=
  (one_live_iff Demo.config ⟨.opening Demo.branches Demo.twoSlots, 0⟩ "u1"
    (fun _ : ℕ => Demo.request "u1") (by decide) _).mpr (by decide) _ (List.prefix_refl _)

-- Both requests look before either inserts.
theorem one_live_fails : ¬∀ (config : Config) (world : World) (userId : Id)
    (inputs : ℕ → CreateReservationInput),
    (∀ reservation ∈ world.db.reservations, ¬LiveOf userId reservation) →
    (∀ session ∈ world.db.sessions, session.userId = userId → session.status ≠ .ACTIVE) →
    ∀ schedule : List (ℕ × Choice), AtMostOneLive userId
      ((Creations.ofUser config world userId inputs).play serve schedule).world.db := by
  intro h
  let schedule : List (ℕ × Choice) := [0, 1, 0, 1, 0, 1, 0, 1, 0, 1].map fun thread =>
    (thread, Demo.choice (if thread = 0 then "r1" else "r2"))
  have hone := h Demo.config ⟨.opening Demo.branches Demo.twoSlots, 0⟩ "u1"
    (fun _ => Demo.request "u1") (by decide) (by decide) schedule
  revert hone
  decide +kernel

end SmartParking
