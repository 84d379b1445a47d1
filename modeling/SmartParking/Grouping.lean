import Mathlib.Algebra.BigOperators.Group.List.Basic
import Mathlib.Data.List.Dedup
import Mathlib.Tactic.Abel

-- Sums over the rows of a table, in groups of one key.
namespace Grouping

variable {Row Key Amount : Type} [AddCommMonoid Amount]

-- SELECT SUM(amount) WHERE test
def total (amount : Row → Amount) (test : Row → Bool) (rows : List Row) : Amount :=
  ((rows.filter test).map amount).sum

variable {amount : Row → Amount} {test left right : Row → Bool} {row : Row} {rows more : List Row}

theorem total_nil : total amount test [] = 0 := rfl

theorem total_cons : total amount test (row :: rows) =
    (if test row then amount row else 0) + total amount test rows := by
  unfold total
  by_cases h : test row = true <;> simp [h]

theorem total_append :
    total amount test (rows ++ more) = total amount test rows + total amount test more := by
  simp [total]

theorem total_congr (h : ∀ row ∈ rows, left row = right row) :
    total amount left rows = total amount right rows := by
  unfold total
  rw [List.filter_congr h]

theorem total_eq_zero (h : ∀ row ∈ rows, test row = false) : total amount test rows = 0 := by
  unfold total
  rw [List.filter_eq_nil_iff.mpr fun row hrow => by rw [h row hrow]; decide]
  rfl

-- A test that splits into two that exclude each other.
theorem total_split (h : ∀ row ∈ rows, test row = (left row || right row))
    (hapart : ∀ row ∈ rows, ¬(left row = true ∧ right row = true)) :
    total amount test rows = total amount left rows + total amount right rows := by
  induction rows with
  | nil => simp [total_nil]
  | cons row rows ih =>
      obtain ⟨hrow, hrows⟩ := List.forall_mem_cons.mp h
      obtain ⟨hnot, hnots⟩ := List.forall_mem_cons.mp hapart
      rw [total_cons, total_cons, total_cons, ih hrows hnots, hrow, add_add_add_comm]
      congr 1
      cases hl : left row <;> cases hr : right row <;> simp_all

variable [DecidableEq Key] {key : Row → Key} {k : Key} {keys : List Key}

-- The groups of different keys make up the whole.
theorem sum_total_keys (hkeys : keys.Nodup) :
    (keys.map fun k => total amount (fun row => decide (key row = k) && test row) rows).sum =
      total amount (fun row => decide (key row ∈ keys) && test row) rows := by
  induction keys with
  | nil => exact (total_eq_zero fun row _ => by simp).symm
  | cons k keys ih =>
      obtain ⟨hk, hrest⟩ := List.nodup_cons.mp hkeys
      rw [List.map_cons, List.sum_cons, ih hrest]
      refine (total_split (fun row _ => ?_) fun row _ hboth => ?_).symm
      · by_cases hr : key row = k <;> simp [hr]
      · simp only [Bool.and_eq_true, decide_eq_true_eq] at hboth
        exact hk (hboth.1.1 ▸ hboth.2.1)

-- UPDATE of the row with a key: its amount before is replaced by the one after.
theorem total_update {change : Row → Row} (hn : (rows.map key).Nodup) (hm : row ∈ rows) :
    total amount test (rows.map fun other => if key other = key row then change other else other) +
        (if test row then amount row else 0) =
      total amount test rows + if test (change row) then amount (change row) else 0 := by
  induction rows with
  | nil => cases hm
  | cons head rows ih =>
      obtain ⟨hhead, hrest⟩ := List.nodup_cons.mp hn
      rw [List.map_cons, total_cons, total_cons]
      rcases List.mem_cons.mp hm with rfl | hm
      · have hsame : (rows.map fun other => if key other = key row then change other else other) =
            rows := by
          refine (List.map_congr_left fun other ho => if_neg fun he => ?_).trans (List.map_id _)
          exact hhead (he ▸ List.mem_map_of_mem ho)
        rw [if_pos rfl, hsame]
        abel
      · have hne : key head ≠ key row := fun he => hhead (he ▸ List.mem_map_of_mem hm)
        rw [if_neg hne, add_assoc, ih hrest hm, add_assoc]

-- SELECT key, SUM(amount) WHERE test GROUP BY key
def groups (key : Row → Key) (amount : Row → Amount) (test : Row → Bool) (rows : List Row) :
    List (Key × Amount) :=
  ((rows.filter test).map key).dedup.map fun k =>
    (k, total amount (fun row => decide (key row = k) && test row) rows)

-- `new Map(entries).get(key)`. Of two entries with one key the later one counts.
def get {Value : Type} (entries : List (Key × Value)) (k : Key) : Option Value :=
  entries.reverse.lookup k

theorem lookup_map {Value : Type} (value : Key → Value) (keys : List Key) :
    (keys.map fun k => (k, value k)).lookup k = if k ∈ keys then some (value k) else none := by
  induction keys with
  | nil => rfl
  | cons other keys ih =>
      rw [List.map_cons, List.lookup_cons, ih]
      by_cases h : k = other
      · simp [h]
      · simp [h, beq_eq_false_iff_ne.mpr h]

theorem get_map {Value : Type} (value : Key → Value) (keys : List Key) :
    get (keys.map fun k => (k, value k)) k = if k ∈ keys then some (value k) else none := by
  rw [get, ← List.map_reverse, lookup_map]
  simp

-- A key without a group has nothing to sum up.
theorem get_groups : (get (groups key amount test rows) k).getD 0 =
    total amount (fun row => decide (key row = k) && test row) rows := by
  rw [groups, get_map]
  split
  · rfl
  · rename_i h
    refine (total_eq_zero fun row hrow => ?_).symm
    rw [List.mem_dedup] at h
    by_contra hne
    obtain ⟨hk, htest⟩ := Bool.and_eq_true_iff.mp (Bool.not_eq_false _ ▸ hne)
    exact h (List.mem_map.mpr ⟨row, List.mem_filter.mpr ⟨hrow, htest⟩, of_decide_eq_true hk⟩)

end Grouping
