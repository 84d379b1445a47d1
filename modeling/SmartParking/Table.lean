import Mathlib.Data.List.Nodup

-- A database table: its rows, with a primary key and one unique constraint.
-- A table without a further constraint repeats its key as the constraint.
structure Table {Row Key Mark : Type} (key : Row → Key) (mark : Row → Mark) where
  rows : List Row
  keys_nodup : (rows.map key).Nodup
  marks_nodup : (rows.map mark).Nodup

namespace Table

variable {Row Key Mark : Type} {key : Row → Key} {mark : Row → Mark}

instance : Membership Row (Table key mark) where
  mem table row := row ∈ table.rows

@[simp] theorem mem_rows {table : Table key mark} {row : Row} : row ∈ table.rows ↔ row ∈ table :=
  Iff.rfl

instance (table : Table key mark) (p : Row → Prop) [DecidablePred p] :
    Decidable (∀ row ∈ table, p row) :=
  inferInstanceAs (Decidable (∀ row ∈ table.rows, p row))

instance (table : Table key mark) (p : Row → Prop) [DecidablePred p] :
    Decidable (∃ row ∈ table, p row) :=
  inferInstanceAs (Decidable (∃ row ∈ table.rows, p row))

def empty : Table key mark where
  rows := []
  keys_nodup := List.nodup_nil
  marks_nodup := List.nodup_nil

@[simp] theorem not_mem_empty (row : Row) : row ∉ (empty : Table key mark) := List.not_mem_nil

def lookup [DecidableEq Key] (table : Table key mark) (k : Key) : Option Row :=
  table.rows.find? fun row => key row = k

def lookupBy [DecidableEq Mark] (table : Table key mark) (m : Mark) : Option Row :=
  table.rows.find? fun row => mark row = m

-- A change of a row that leaves the columns of the constraints as they are.
structure Change (key : Row → Key) (mark : Row → Mark) where
  apply : Row → Row
  key_apply : ∀ row, key (apply row) = key row
  mark_apply : ∀ row, mark (apply row) = mark row

instance : CoeFun (Change key mark) fun _ => Row → Row where
  coe := Change.apply

-- UPDATE of the row with the given key.
def modify [DecidableEq Key] (table : Table key mark) (k : Key) (change : Change key mark) :
    Table key mark where
  rows := table.rows.map fun row => if key row = k then change row else row
  keys_nodup := by
    have h : (key ∘ fun row => if key row = k then change row else row) = key := by
      funext row
      by_cases hk : key row = k <;> simp [hk, change.key_apply]
    simpa only [List.map_map, h] using table.keys_nodup
  marks_nodup := by
    have h : (mark ∘ fun row => if key row = k then change row else row) = mark := by
      funext row
      by_cases hk : key row = k <;> simp [hk, change.mark_apply]
    simpa only [List.map_map, h] using table.marks_nodup

-- INSERT, refused when a constraint is violated.
def insert [DecidableEq Key] [DecidableEq Mark] (table : Table key mark) (row : Row) :
    Option (Table key mark) :=
  if h : key row ∉ table.rows.map key ∧ mark row ∉ table.rows.map mark then
    some {
      rows := table.rows ++ [row]
      keys_nodup := by
        rw [List.map_append]
        exact List.nodup_append.mpr ⟨table.keys_nodup, List.nodup_singleton _,
          fun a ha b hb hab => h.1 (by simp_all)⟩
      marks_nodup := by
        rw [List.map_append]
        exact List.nodup_append.mpr ⟨table.marks_nodup, List.nodup_singleton _,
          fun a ha b hb hab => h.2 (by simp_all)⟩ }
  else none

section Lookup

-- A column with no repeated value identifies the rows.
theorem find?_column_eq_some {Column : Type} [DecidableEq Column] {column : Row → Column}
    {rows : List Row} (hn : (rows.map column).Nodup) {c : Column} {row : Row} :
    (rows.find? fun row => column row = c) = some row ↔ row ∈ rows ∧ column row = c := by
  constructor
  · intro h
    exact ⟨List.mem_of_find?_eq_some h, by simpa using List.find?_some h⟩
  · rintro ⟨hm, rfl⟩
    obtain ⟨found, hf⟩ := Option.isSome_iff_exists.mp
      (List.find?_isSome (p := fun r => decide (column r = column row)).mpr ⟨row, hm, by simp⟩)
    have hc : column found = column row := by simpa using List.find?_some hf
    rw [hf, List.inj_on_of_nodup_map hn (List.mem_of_find?_eq_some hf) hm hc]

variable {table : Table key mark} {row other : Row}

theorem eq_of_key_eq (h : row ∈ table) (ho : other ∈ table) (hk : key row = key other) :
    row = other :=
  List.inj_on_of_nodup_map table.keys_nodup h ho hk

theorem eq_of_mark_eq (h : row ∈ table) (ho : other ∈ table) (hm : mark row = mark other) :
    row = other :=
  List.inj_on_of_nodup_map table.marks_nodup h ho hm

-- What holds of the rows with a key holds of the one that has it.
theorem forall_key_iff (hm : row ∈ table) {holds : Row → Prop} :
    (∀ other ∈ table, key other = key row → holds other) ↔ holds row := by
  constructor
  · exact fun h => h row hm rfl
  · intro h other ho hk
    rwa [eq_of_key_eq ho hm hk]

theorem lookup_eq_some [DecidableEq Key] {k : Key} :
    table.lookup k = some row ↔ row ∈ table ∧ key row = k :=
  find?_column_eq_some table.keys_nodup

theorem lookupBy_eq_some [DecidableEq Mark] {m : Mark} :
    table.lookupBy m = some row ↔ row ∈ table ∧ mark row = m :=
  find?_column_eq_some table.marks_nodup

theorem lookup_key [DecidableEq Key] (h : row ∈ table) : table.lookup (key row) = some row :=
  lookup_eq_some.mpr ⟨h, rfl⟩

theorem lookup_eq_none [DecidableEq Key] {k : Key} :
    table.lookup k = none ↔ ∀ row ∈ table, key row ≠ k := by
  simp [lookup, List.find?_eq_none]

theorem lookupBy_eq_none [DecidableEq Mark] {m : Mark} :
    table.lookupBy m = none ↔ ∀ row ∈ table, mark row ≠ m := by
  simp [lookupBy, List.find?_eq_none]

end Lookup

section Modify

variable [DecidableEq Key] {table : Table key mark} {row : Row} {k : Key} {change : Change key mark}

theorem mem_modify : row ∈ table.modify k change ↔
    ∃ old ∈ table, row = if key old = k then change old else old := by
  change row ∈ table.rows.map _ ↔ _
  simp only [List.mem_map, mem_rows, eq_comm]

-- The frame of an update: rows with another key are the same before and after.
theorem mem_modify_of_ne (h : key row ≠ k) : row ∈ table.modify k change ↔ row ∈ table := by
  rw [mem_modify]
  constructor
  · rintro ⟨old, ho, rfl⟩
    by_cases hk : key old = k
    · simp [hk, change.key_apply] at h
    · simpa [hk] using ho
  · exact fun hm => ⟨row, hm, by simp [h]⟩

theorem mem_modify_cases (h : row ∈ table.modify k change) :
    (∃ old ∈ table, key old = k ∧ row = change old) ∨ row ∈ table ∧ key row ≠ k := by
  obtain ⟨old, ho, rfl⟩ := mem_modify.mp h
  by_cases hk : key old = k
  · exact .inl ⟨old, ho, hk, if_pos hk⟩
  · rw [if_neg hk]
    exact .inr ⟨ho, hk⟩

-- Without a row of the key nothing changes.
theorem modify_of_lookup_eq_none (h : table.lookup k = none) : table.modify k change = table := by
  have hrows : (table.modify k change).rows = table.rows := by
    refine (List.map_congr_left fun row hrow => ?_).trans (List.map_id _)
    exact if_neg (lookup_eq_none.mp h row hrow)
  cases hm : table.modify k change
  cases table
  rw [hm] at hrows
  cases hrows
  rfl

@[simp] theorem lookup_modify (other : Key) : (table.modify k change).lookup other =
    if other = k then (table.lookup k).map change else table.lookup other := by
  by_cases ho : other = k
  · subst other
    rw [if_pos rfl]
    cases hf : table.lookup k with
    | none => rw [Option.map_none, modify_of_lookup_eq_none hf, hf]
    | some old =>
        obtain ⟨hm, hk⟩ := lookup_eq_some.mp hf
        rw [Option.map_some, lookup_eq_some]
        exact ⟨mem_modify.mpr ⟨old, hm, by simp [hk]⟩, by rw [change.key_apply, hk]⟩
  · rw [if_neg ho]
    ext row
    rw [lookup_eq_some, lookup_eq_some]
    constructor
    · rintro ⟨hm, hk⟩
      exact ⟨(mem_modify_of_ne (by simpa [hk] using ho)).mp hm, hk⟩
    · rintro ⟨hm, hk⟩
      exact ⟨(mem_modify_of_ne (by simpa [hk] using ho)).mpr hm, hk⟩

theorem lookupBy_modify [DecidableEq Mark] (m : Mark) : (table.modify k change).lookupBy m =
    (table.lookupBy m).map fun row => if key row = k then change row else row := by
  ext row
  rw [lookupBy_eq_some, mem_modify, Option.map_eq_some_iff]
  have hmark : ∀ old, mark (if key old = k then change old else old) = mark old := by
    intro old
    split
    · exact change.mark_apply old
    · rfl
  constructor
  · rintro ⟨⟨old, ho, rfl⟩, hm⟩
    exact ⟨old, lookupBy_eq_some.mpr ⟨ho, (hmark old).symm.trans hm⟩, rfl⟩
  · rintro ⟨old, ho, rfl⟩
    obtain ⟨hmem, hm⟩ := lookupBy_eq_some.mp ho
    exact ⟨⟨old, hmem, rfl⟩, (hmark old).trans hm⟩

end Modify

section Insert

variable [DecidableEq Key] [DecidableEq Mark] {table bigger : Table key mark} {row other : Row}
  {k : Key} {m : Mark}

theorem insert_eq_none : table.insert row = none ↔
    (∃ old ∈ table, key old = key row) ∨ ∃ old ∈ table, mark old = mark row := by
  unfold insert
  split
  · rename_i h
    simp only [List.mem_map, not_exists, not_and, mem_rows] at h
    simp only [reduceCtorEq, false_iff, not_or, not_exists, not_and]
    exact h
  · rename_i h
    simp only [List.mem_map, mem_rows, not_and_or, not_not] at h
    simpa using h

theorem insert_isSome (hk : ∀ old ∈ table, key old ≠ key row)
    (hm : ∀ old ∈ table, mark old ≠ mark row) : ∃ bigger, table.insert row = some bigger := by
  cases h : table.insert row with
  | some bigger => exact ⟨bigger, rfl⟩
  | none =>
      rcases insert_eq_none.mp h with ⟨old, ho, he⟩ | ⟨old, ho, he⟩
      · exact absurd he (hk old ho)
      · exact absurd he (hm old ho)

theorem insert_fresh (h : table.insert row = some bigger) :
    (∀ old ∈ table, key old ≠ key row) ∧ ∀ old ∈ table, mark old ≠ mark row := by
  have hn : table.insert row ≠ none := by simp [h]
  rw [ne_eq, insert_eq_none, not_or] at hn
  simpa using hn

theorem rows_insert (h : table.insert row = some bigger) : bigger.rows = table.rows ++ [row] := by
  unfold insert at h
  split at h
  · cases h
    rfl
  · cases h

theorem mem_insert (h : table.insert row = some bigger) :
    other ∈ bigger ↔ other ∈ table ∨ other = row := by
  rw [← mem_rows, rows_insert h]
  simp

theorem lookup_insert (h : table.insert row = some bigger) :
    bigger.lookup k = if k = key row then some row else table.lookup k := by
  have hf := (insert_fresh h).1
  by_cases hk : k = key row
  · rw [if_pos hk, lookup_eq_some]
    exact ⟨(mem_insert h).mpr (.inr rfl), hk.symm⟩
  · rw [if_neg hk]
    ext found
    rw [lookup_eq_some, lookup_eq_some, mem_insert h]
    constructor
    · rintro ⟨hm | rfl, he⟩
      · exact ⟨hm, he⟩
      · exact absurd he.symm hk
    · rintro ⟨hm, he⟩
      exact ⟨.inl hm, he⟩

theorem lookup_insert_of_some (h : table.insert row = some bigger)
    (hold : table.lookup k = some other) : bigger.lookup k = some other := by
  obtain ⟨hm, rfl⟩ := lookup_eq_some.mp hold
  rw [lookup_insert h, if_neg ((insert_fresh h).1 other hm), hold]

theorem lookupBy_insert (h : table.insert row = some bigger) :
    bigger.lookupBy m = if m = mark row then some row else table.lookupBy m := by
  have hf := (insert_fresh h).2
  by_cases hm : m = mark row
  · rw [if_pos hm, lookupBy_eq_some]
    exact ⟨(mem_insert h).mpr (.inr rfl), hm.symm⟩
  · rw [if_neg hm]
    ext found
    rw [lookupBy_eq_some, lookupBy_eq_some, mem_insert h]
    constructor
    · rintro ⟨hmem | rfl, he⟩
      · exact ⟨hmem, he⟩
      · exact absurd he.symm hm
    · rintro ⟨hmem, he⟩
      exact ⟨.inl hmem, he⟩

-- INSERT that does nothing when a constraint is violated.
theorem mem_getD_insert_of_mem (h : other ∈ table) : other ∈ (table.insert row).getD table := by
  cases hb : table.insert row with
  | none => exact h
  | some bigger => exact (mem_insert hb).mpr (.inl h)

theorem mem_of_mem_getD_insert (h : other ∈ (table.insert row).getD table) :
    other ∈ table ∨ other = row := by
  cases hb : table.insert row with
  | none =>
      rw [hb] at h
      exact .inl h
  | some bigger =>
      rw [hb] at h
      exact (mem_insert hb).mp h

end Insert

-- A table whose only constraint is its key has a row of the key afterwards.
theorem exists_key_getD_insert [DecidableEq Key] (table : Table key key) (row : Row) :
    ∃ other ∈ (table.insert row).getD table, key other = key row := by
  cases hb : table.insert row with
  | none => rcases insert_eq_none.mp hb with h | h <;> exact h
  | some bigger => exact ⟨row, (mem_insert hb).mpr (.inr rfl), rfl⟩

end Table
