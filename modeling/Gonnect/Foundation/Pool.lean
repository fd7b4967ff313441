import Mathlib.Data.List.Infix

/-!
# Tables of values without repetition

A compiler collects the constants of a program in a table and names them by their position.
A value that is in the table keeps its position, and a new one is put at the end, as long as
there is room. So a position means the same value in every later table.
-/

namespace Gonnect

open List

structure Pool (α : Type) (limit : ℕ) where
  entries : List α
  small : entries.length ≤ limit

namespace Pool

variable {α : Type} {limit : ℕ}

def empty : Pool α limit where
  entries := []
  small := Nat.zero_le _

def Extends (later pool : Pool α limit) : Prop :=
  pool.entries <+: later.entries

theorem Extends.refl (pool : Pool α limit) : pool.Extends pool :=
  prefix_rfl

theorem Extends.trans {first second third : Pool α limit} (later : third.Extends second)
    (earlier : second.Extends first) : third.Extends first :=
  IsPrefix.trans earlier later

variable {pool later : Pool α limit} {position : ℕ} {value : α}

theorem Extends.getElem? (extended : later.Extends pool)
    (found : pool.entries[position]? = some value) : later.entries[position]? = some value := by
  rcases extended with ⟨rest, joined⟩
  have inside : position < pool.entries.length := (List.getElem?_eq_some_iff.mp found).1
  rw [← joined, getElem?_append_left inside]
  exact found

def push (pool : Pool α limit) (value : α) : Option (ℕ × Pool α limit) :=
  if room : pool.entries.length < limit then
    some (pool.entries.length, ⟨pool.entries ++ [value], by
      rw [length_append, length_singleton]
      omega⟩)
  else
    none

theorem push_spec (pushed : pool.push value = some (position, later)) :
    later.Extends pool ∧ later.entries[position]? = some value ∧ position < limit := by
  rw [push] at pushed
  split_ifs at pushed with room
  cases pushed
  exact ⟨⟨[value], rfl⟩, by simp, room⟩

variable [DecidableEq α]

def intern (pool : Pool α limit) (value : α) : Option (ℕ × Pool α limit) :=
  match pool.entries.idxOf? value with
  | some position => some (position, pool)
  | none => pool.push value

theorem intern_spec (interned : pool.intern value = some (position, later)) :
    later.Extends pool ∧ later.entries[position]? = some value ∧ position < limit := by
  rw [intern] at interned
  cases isOld : pool.entries.idxOf? value with
  | some old =>
    rw [isOld] at interned
    cases interned
    have found : pool.entries[position]? = some value := by
      rw [idxOf?, findIdx?_eq_some_iff_getElem] at isOld
      rcases isOld with ⟨inside, same, _⟩
      rw [getElem?_eq_getElem inside]
      simpa using same
    have inside : position < pool.entries.length := (List.getElem?_eq_some_iff.mp found).1
    exact ⟨.refl _, found, lt_of_lt_of_le inside pool.small⟩
  | none =>
    rw [isOld] at interned
    exact push_spec interned

end Pool

end Gonnect
