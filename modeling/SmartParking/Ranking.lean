import Mathlib.Data.List.Sort

-- Sorting is stable: elements that the order does not tell apart stay as they were.
namespace Ranking

variable {α : Type} {rank before : α → α → Prop} [DecidableRel rank] {a b : α} {list : List α}

-- One element comes first in rank, and in the old order when the ranks are the same.
def First (rank before : α → α → Prop) (a b : α) : Prop := rank a b ∧ (rank b a → before a b)

theorem pairwise_orderedInsert [Std.Total rank] [IsTrans α rank] (hbefore : ∀ b ∈ list, before a b)
    (h : list.Pairwise (First rank before)) :
    (list.orderedInsert rank a).Pairwise (First rank before) := by
  induction list with
  | nil => exact List.pairwise_singleton _ _
  | cons b list ih =>
      obtain ⟨hb, hrest⟩ := List.pairwise_cons.mp h
      by_cases hab : rank a b
      · rw [List.orderedInsert_cons_of_le _ _ hab]
        refine List.pairwise_cons.mpr ⟨fun c hc => ⟨?_, fun _ => hbefore c hc⟩, h⟩
        rcases List.mem_cons.mp hc with rfl | hc
        · exact hab
        · exact IsTrans.trans _ _ _ hab (hb c hc).1
      · rw [List.orderedInsert_of_not_le _ _ hab]
        have htail := ih (fun c hc => hbefore c (List.mem_cons_of_mem _ hc)) hrest
        refine List.pairwise_cons.mpr ⟨fun c hc => ?_, htail⟩
        rcases (List.mem_orderedInsert _).mp hc with rfl | hc
        · exact ⟨(Std.Total.total c b).resolve_left hab, fun h => absurd h hab⟩
        · exact hb c hc

theorem pairwise_insertionSort [Std.Total rank] [IsTrans α rank] (h : list.Pairwise before) :
    (list.insertionSort rank).Pairwise (First rank before) := by
  induction list with
  | nil => exact .nil
  | cons a list ih =>
      obtain ⟨ha, hrest⟩ := List.pairwise_cons.mp h
      rw [List.insertionSort_cons]
      exact pairwise_orderedInsert (fun b hb => ha b ((List.mem_insertionSort _).mp hb)) (ih hrest)

-- The first element of a sorted list that passes a test comes before the others that do.
theorem first_of_find? [Std.Total rank] [IsTrans α rank] {test : α → Bool}
    (h : list.Pairwise before) (hfind : (list.insertionSort rank).find? test = some a)
    (hb : b ∈ list) (htest : test b = true) : b = a ∨ First rank before a b := by
  obtain ⟨-, front, rest, hsorted, hfront⟩ := List.find?_eq_some_iff_append.mp hfind
  have hpairwise : (list.insertionSort rank).Pairwise (First rank before) :=
    pairwise_insertionSort h
  have hm : b ∈ list.insertionSort rank := (List.mem_insertionSort _).mpr hb
  rw [hsorted] at hpairwise hm
  obtain ⟨-, hafter, -⟩ := List.pairwise_append.mp hpairwise
  rcases List.mem_append.mp hm with hm | hm
  · have hfalse := hfront b hm
    rw [htest] at hfalse
    cases hfalse
  · rcases List.mem_cons.mp hm with rfl | hm
    · exact .inl rfl
    · exact .inr ((List.pairwise_cons.mp hafter).1 b hm)

-- What is left out of the first few comes after them.
theorem take_insertionSort [Std.Total rank] [IsTrans α rank] {n : ℕ} (h : a ∈ list)
    (hout : a ∉ (list.insertionSort rank).take n) :
    ((list.insertionSort rank).take n).length = n ∧
      ∀ b ∈ (list.insertionSort rank).take n, rank b a := by
  have hsplit := List.take_append_drop n (list.insertionSort rank)
  have hm : a ∈ list.insertionSort rank := (List.mem_insertionSort _).mpr h
  rw [← hsplit] at hm
  have hdrop := (List.mem_append.mp hm).resolve_left hout
  have hsorted := List.pairwise_insertionSort rank list
  rw [← hsplit] at hsorted
  refine ⟨?_, fun b hb => (List.pairwise_append.mp hsorted).2.2 b hb a hdrop⟩
  have hpos := List.length_pos_of_mem hdrop
  rw [List.length_drop] at hpos
  rw [List.length_take]
  omega

theorem pair_sublist (ha : a ∈ list) (hb : b ∈ list) (hne : a ≠ b) :
    [a, b].Sublist list ∨ [b, a].Sublist list := by
  induction list with
  | nil => cases ha
  | cons c list ih =>
      rcases List.mem_cons.mp ha with rfl | hla
      · exact .inl ((List.singleton_sublist.mpr ((List.mem_cons.mp hb).resolve_left hne.symm)).cons_cons _)
      · rcases List.mem_cons.mp hb with rfl | hlb
        · exact .inr ((List.singleton_sublist.mpr hla).cons_cons _)
        · exact (ih hla hlb).imp (List.Sublist.cons _) (List.Sublist.cons _)

theorem not_pair_sublist (hnodup : list.Nodup) (h : [a, b].Sublist list) :
    ¬[b, a].Sublist list := by
  induction list with
  | nil => cases h
  | cons c list ih =>
      obtain ⟨hc, hrest⟩ := List.nodup_cons.mp hnodup
      intro hback
      cases h with
      | cons _ h =>
          cases hback with
          | cons _ hback => exact ih hrest h hback
          | cons_cons _ _ => exact hc (h.subset (List.mem_cons_of_mem _ List.mem_cons_self))
      | cons_cons _ _ =>
          cases hback with
          | cons _ hback => exact hc (hback.subset (List.mem_cons_of_mem _ List.mem_cons_self))
          | cons_cons _ hback => exact hc (hback.subset List.mem_cons_self)

-- Each element is in rank strictly before those that stand before it.
def Rises (rank : α → α → Prop) (list : List α) : Prop := list.Pairwise fun a b => rank b a ∧ ¬rank a b

omit [DecidableRel rank] in
theorem Rises.nodup (h : Rises rank list) : list.Nodup :=
  h.imp fun {a b} hab heq => hab.2 (by rw [heq] at hab ⊢; exact hab.1)

omit [DecidableRel rank] in
-- Then the order of rank is the reverse of the old one.
theorem Rises.eq_reverse (h : Rises rank list) {sorted : List α} (hsorted : sorted.Pairwise rank)
    (hperm : sorted.Perm list) : sorted = list.reverse := by
  have hequal : ∀ a b, a ∈ sorted → b ∈ list.reverse → rank a b → rank b a → a = b := by
    intro a b ha hb hab hba
    by_contra hne
    rcases pair_sublist (hperm.mem_iff.mp ha) (List.mem_reverse.mp hb) hne with hpair | hpair
    · exact (List.pairwise_pair.mp (h.sublist hpair)).2 hab
    · exact (List.pairwise_pair.mp (h.sublist hpair)).2 hba
  exact List.Perm.eq_of_pairwise hequal hsorted (List.pairwise_reverse.mpr (h.imp And.left))
    (hperm.trans list.reverse_perm.symm)

-- And only then, when it is so from the elements in some order and from the reverse of it.
theorem rises_of_insertionSort [Std.Total rank] {other : List α} (hnodup : list.Nodup)
    (hperm : other.Perm list) (hsort : other.insertionSort rank = list.reverse)
    (hsort' : other.reverse.insertionSort rank = list.reverse) : Rises rank list := by
  refine List.pairwise_iff_forall_sublist.mpr fun {a b} hpair => ?_
  have hne : a ≠ b := by
    have hpairNodup := hnodup.sublist hpair
    simpa using hpairNodup
  have hlast : ¬rank a b := by
    intro hab
    -- Sorting keeps the two as they stand, which is the wrong way round.
    have hout : [a, b].Sublist list.reverse := by
      have ha := hperm.mem_iff.mpr (hpair.subset List.mem_cons_self)
      have hb := hperm.mem_iff.mpr (hpair.subset (List.mem_cons_of_mem _ List.mem_cons_self))
      rcases pair_sublist ha hb hne with h | h
      · rw [← hsort]
        exact List.pair_sublist_insertionSort hab h
      · rw [← hsort']
        exact List.pair_sublist_insertionSort hab (List.reverse_sublist.mpr h)
    exact not_pair_sublist hnodup hpair (List.reverse_sublist.mp hout)
  exact ⟨(Std.Total.total a b).resolve_left hlast, hlast⟩

end Ranking
