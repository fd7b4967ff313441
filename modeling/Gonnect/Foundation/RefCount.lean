import Mathlib.Data.List.AList

/-!
# Reference-counted tables

A table holds items under keys, each with the number of times it was retained and not yet
released. The count of a stored item is positive by construction.
-/

namespace Gonnect

open AList Option

universe u v

structure Counted (α : Type v) where
  item : α
  count : ℕ
  positive : 0 < count

abbrev RefTable (κ : Type u) (α : Type v) := AList fun _ : κ => Counted α

namespace RefTable

variable {κ : Type u} {α : Type v} [DecidableEq κ] (table : RefTable κ α)

def count (key : κ) : ℕ :=
  match table.lookup key with
  | some entry => entry.count
  | none => 0

def retain (key : κ) (item : α) : RefTable κ α :=
  match table.lookup key with
  | some entry => table.insert key ⟨entry.item, entry.count + 1, Nat.succ_pos _⟩
  | none => table.insert key ⟨item, 1, Nat.one_pos⟩

def release (key : κ) : RefTable κ α × Bool :=
  match table.lookup key with
  | some entry =>
    if more : 1 < entry.count then
      (table.insert key ⟨entry.item, entry.count - 1, Nat.sub_pos_of_lt more⟩, false)
    else
      (table.erase key, true)
  | none => (table, false)

def items : List α :=
  table.entries.map fun entry => entry.2.item

def All (property : κ → α → Prop) (table : RefTable κ α) : Prop :=
  ∀ key entry, table.lookup key = some entry → property key entry.item

@[simp]
theorem count_empty (key : κ) : count (∅ : RefTable κ α) key = 0 := by
  simp [count]

variable {property : κ → α → Prop} {table} {key : κ} {item : α}

theorem count_pos_iff : 0 < table.count key ↔ ∃ entry, table.lookup key = some entry := by
  cases found : table.lookup key with
  | none => simp [count, found]
  | some entry => simp [count, found, entry.positive]

theorem count_eq_zero_iff : table.count key = 0 ↔ ¬(table.lookup key).isSome := by
  rw [isSome_iff_exists, ← count_pos_iff]
  omega

section

variable (table)

theorem count_insert (key other : κ) (entry : Counted α) :
    count (table.insert key entry : RefTable κ α) other =
      if other = key then entry.count else table.count other := by
  split_ifs with same
  · subst same
    simp [count]
  · simp [count, lookup_insert_ne same]

theorem count_retain (key other : κ) (item : α) :
    (table.retain key item).count other =
      if other = key then table.count key + 1 else table.count other := by
  split_ifs with same
  · subst same
    cases found : table.lookup other with
    | none | some entry => simp [retain, count, found]
  · cases found : table.lookup key with
    | none | some entry => simp [retain, count, found, lookup_insert_ne same]

theorem count_release (key other : κ) :
    (table.release key).1.count other =
      if other = key then table.count key - 1 else table.count other := by
  cases found : table.lookup key with
  | none =>
    split_ifs with same
    · subst same
      simp [release, count, found]
    · simp [release, found]
  | some entry =>
    by_cases more : 1 < entry.count
    · split_ifs with same
      · subst same
        simp [release, count, found, more]
      · simp [release, count, found, more, lookup_insert_ne same]
    · split_ifs with same
      · subst same
        have single : entry.count - 1 = 0 := by omega
        simp [release, count, found, more, single]
      · simp [release, count, found, more, lookup_erase_ne same]

theorem release_last (key : κ) : (table.release key).2 = true ↔ table.count key = 1 := by
  cases found : table.lookup key with
  | none => simp [release, count, found]
  | some entry =>
    have positive := entry.positive
    by_cases more : 1 < entry.count
    · simp [release, count, found, more]
      omega
    · simp [release, count, found, more]
      omega

end

theorem all_empty (property : κ → α → Prop) : All property (∅ : RefTable κ α) := by
  intro key entry found
  simp at found

theorem All.insert (all : All property table) {entry : Counted α}
    (fresh : property key entry.item) :
    All property (insert key entry table : RefTable κ α) := by
  intro other found lookup
  by_cases same : other = key
  · subst same
    rw [lookup_insert, some.injEq] at lookup
    rw [← lookup]
    exact fresh
  · rw [lookup_insert_ne same] at lookup
    exact all other found lookup

theorem All.retain (all : All property table) (fresh : property key item) :
    All property (table.retain key item) := by
  intro other entry found
  by_cases same : other = key
  · subst same
    cases old : table.lookup other with
    | none | some before =>
      simp only [RefTable.retain, old, lookup_insert, some.injEq] at found
      rw [← found]
      first | exact fresh | exact all other before old
  · apply all other entry
    cases old : table.lookup key with
    | none | some before => simpa [RefTable.retain, old, lookup_insert_ne same] using found

theorem All.release (all : All property table) (key : κ) : All property (table.release key).1 := by
  intro other entry found
  cases old : table.lookup key with
  | none =>
    apply all other entry
    simpa [RefTable.release, old] using found
  | some before =>
    by_cases more : 1 < before.count
    · simp only [RefTable.release, old, dif_pos more] at found
      by_cases same : other = key
      · subst same
        simp only [lookup_insert, some.injEq] at found
        rw [← found]
        exact all other before old
      · rw [lookup_insert_ne same] at found
        exact all other entry found
    · simp only [RefTable.release, old, dif_neg more] at found
      by_cases same : other = key
      · subst same
        simp at found
      · rw [lookup_erase_ne same] at found
        exact all other entry found

theorem mem_items_iff :
    item ∈ table.items ↔ ∃ key entry, table.lookup key = some entry ∧ entry.item = item := by
  simp only [items, List.mem_map]
  constructor
  · rintro ⟨⟨key, entry⟩, member, rfl⟩
    exact ⟨key, entry, mem_lookup_iff.mpr member, rfl⟩
  · rintro ⟨key, entry, found, rfl⟩
    exact ⟨⟨key, entry⟩, mem_lookup_iff.mp found, rfl⟩

end RefTable

end Gonnect
