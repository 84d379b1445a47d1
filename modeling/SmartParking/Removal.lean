import Mathlib.Data.List.Nodup
import Mathlib.Logic.Function.Basic

-- A stored list from which clients remove items. A client reads the list, and later
-- writes its copy back without one item.
structure Removal (Client Item : Type) where
  stored : List Item
  copies : Client → Option (List Item)
  removed : List Item

namespace Removal

variable {Client Item : Type} [DecidableEq Client] [DecidableEq Item]

inductive Access (Client Item : Type) where
  | read (client : Client)
  | write (client : Client) (item : Item)

def start (initial : List Item) : Removal Client Item where
  stored := initial
  copies _ := none
  removed := []

def step (state : Removal Client Item) : Access Client Item → Removal Client Item
  | .read client =>
      { state with copies := Function.update state.copies client (some state.stored) }
  | .write client item =>
      { state with
        stored := ((state.copies client).getD []).erase item
        removed := item :: state.removed }

-- A client only removes what it has read.
def Possible (state : Removal Client Item) : Access Client Item → Prop
  | .read _ => True
  | .write client item => ∃ copy ∈ state.copies client, item ∈ copy

-- What the client has read is still what is stored.
def Current (state : Removal Client Item) : Access Client Item → Prop
  | .read _ => True
  | .write client _ => state.copies client = some state.stored

def without (initial removed : List Item) : List Item := initial.filter (· ∉ removed)

-- Each item was removed once at most, and what is stored is the rest.
structure Exact (initial : List Item) (state : Removal Client Item) : Prop where
  once : state.removed.Nodup
  stored : state.stored = without initial state.removed

-- The copies are what was stored when they were read.
structure Coherent (initial : List Item) (state : Removal Client Item) : Prop
    extends Exact initial state where
  copies : ∀ client, ∀ copy ∈ state.copies client,
    ∃ earlier, earlier <:+ state.removed ∧ copy = without initial earlier

variable {initial : List Item} {state : Removal Client Item} {access : Access Client Item}

omit [DecidableEq Client] in
theorem coherent_start (initial : List Item) :
    Coherent initial (start initial : Removal Client Item) where
  once := List.nodup_nil
  stored := by simp [without, start]
  copies client copy hc := by cases hc

theorem mem_without {removed : List Item} {item : Item} :
    item ∈ without initial removed ↔ item ∈ initial ∧ item ∉ removed := by
  simp [without]

theorem erase_without (hn : initial.Nodup) (removed : List Item) (item : Item) :
    (without initial removed).erase item = without initial (item :: removed) := by
  have hnodup : (without initial removed).Nodup := hn.filter _
  rw [hnodup.erase_eq_filter, without, without, List.filter_filter]
  exact List.filter_congr fun other _ => Bool.eq_iff_iff.mpr (by simp)

theorem Coherent.step (hn : initial.Nodup) (h : Coherent initial state)
    (hp : Possible state access) (hc : Current state access) :
    Coherent initial (state.step access) := by
  cases access with
  | read client =>
      refine ⟨⟨h.once, h.stored⟩, fun other copy hcopy => ?_⟩
      by_cases ho : other = client
      · subst ho
        obtain rfl : state.stored = copy := by simpa [Removal.step] using hcopy
        exact ⟨state.removed, List.suffix_refl _, h.stored⟩
      · exact h.copies other copy (by simpa [Removal.step, ho] using hcopy)
  | write client item =>
      obtain ⟨copy, hcopy, hitem⟩ := hp
      obtain rfl : state.stored = copy := Option.some.inj (hc.symm.trans hcopy)
      rw [h.stored, mem_without] at hitem
      refine ⟨⟨List.nodup_cons.mpr ⟨hitem.2, h.once⟩, ?_⟩, fun other copy hother => ?_⟩
      · rw [Removal.step, hc, Option.getD_some, h.stored, erase_without hn]
      · obtain ⟨earlier, hsuffix, hcopy⟩ := h.copies other copy hother
        exact ⟨earlier, hsuffix.trans (List.suffix_cons _ _), hcopy⟩

-- What the write of an old copy brings back is something that was removed.
theorem Coherent.current_of_exact (hn : initial.Nodup) (h : Coherent initial state)
    (hp : Possible state access) (hexact : Exact initial (state.step access)) :
    Current state access := by
  cases access with
  | read client => trivial
  | write client item =>
      obtain ⟨copy, hcopy, -⟩ := hp
      obtain ⟨earlier, ⟨later, hremoved⟩, rfl⟩ := h.copies client copy hcopy
      have hfresh : item ∉ state.removed := (List.nodup_cons.mp hexact.once).1
      have hstored := hexact.stored
      rw [Removal.step, hcopy, Option.getD_some, erase_without hn] at hstored
      dsimp only at hstored
      suffices hsame : state.stored = without initial earlier by rw [Current, hcopy, hsame]
      rw [h.stored]
      refine List.filter_congr fun other ho => decide_eq_decide.mpr (not_congr ?_)
      refine ⟨fun hm => ?_, fun hm => hremoved ▸ List.mem_append_right _ hm⟩
      by_contra hearlier
      have hne : other ≠ item := fun he => hfresh (he ▸ hm)
      have hback : other ∈ without initial (item :: earlier) :=
        mem_without.mpr ⟨ho, by simp [hne, hearlier]⟩
      rw [hstored, mem_without] at hback
      exact hback.2 (List.mem_cons_of_mem _ hm)

theorem Coherent.exact_step_iff (hn : initial.Nodup) (h : Coherent initial state)
    (hp : Possible state access) : Exact initial (state.step access) ↔ Current state access :=
  ⟨h.current_of_exact hn hp, fun hc => (h.step hn hp hc).toExact⟩

end Removal
