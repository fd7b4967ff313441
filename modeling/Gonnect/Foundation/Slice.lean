import Mathlib.Data.List.Basic

/-!
# Slices with a capacity

A slice is a window on a backing array: the elements in the window and the number of cells
from its start to the end of the array. Dropping elements from the front moves the window,
so the capacity shrinks. Appending inside the capacity keeps the array.
-/

namespace Gonnect

universe u

/-- The elements of a window and the cells between its start and the array's end. -/
structure Slice (α : Type u) where
  elems : List α
  cap : ℕ
  length_le_cap : elems.length ≤ cap

namespace Slice

variable {α : Type u}

def make (cap : ℕ) : Slice α where
  elems := []
  cap := cap
  length_le_cap := Nat.zero_le cap

variable (slice : Slice α)

def free : ℕ :=
  slice.cap - slice.elems.length

/--
Append, with the same array while the elements fit. A new array is only known
to have room for the result.
-/
def append (more : List α) : Slice α :=
  if fits : slice.elems.length + more.length ≤ slice.cap then
    { elems := slice.elems ++ more
      cap := slice.cap
      length_le_cap := by simpa using fits }
  else
    { elems := slice.elems ++ more
      cap := slice.elems.length + more.length
      length_le_cap := by simp }

def dropFront (count : ℕ) : Slice α where
  elems := slice.elems.drop count
  cap := slice.cap - min count slice.elems.length
  length_le_cap := by
    have bound := slice.length_le_cap
    simp only [List.length_drop]
    omega

theorem ext {left right : Slice α} (elems : left.elems = right.elems)
    (cap : left.cap = right.cap) : left = right := by
  cases left
  cases right
  simp_all

variable (cap : ℕ) (slice : Slice α)

variable (more : List α) (count : ℕ)

@[simp]
theorem append_elems : (slice.append more).elems = slice.elems ++ more := by
  unfold append
  split <;> rfl

theorem append_cap_of_le_free (fits : more.length ≤ slice.free) :
    (slice.append more).cap = slice.cap := by
  have bound := slice.length_le_cap
  unfold append
  rw [dif_pos (by unfold free at fits; omega)]

@[simp]
theorem append_nil : slice.append [] = slice := by
  apply ext
  · simp
  · exact append_cap_of_le_free slice [] (Nat.zero_le _)

theorem append_free (fits : more.length ≤ slice.free) :
    (slice.append more).free = slice.free - more.length := by
  simp only [free, append_elems, append_cap_of_le_free slice more fits, List.length_append]
  omega

theorem free_eq_zero_iff : slice.free = 0 ↔ ¬slice.elems.length < slice.cap := by
  simp only [free]
  omega

@[simp]
theorem dropFront_elems : (slice.dropFront count).elems = slice.elems.drop count := rfl

@[simp]
theorem dropFront_cap (slice : Slice α) (count : ℕ) :
    (slice.dropFront count).cap = slice.cap - min count slice.elems.length := rfl

/-- Moving the window keeps the free cells: they lie behind the last element. -/
@[simp]
theorem dropFront_free : (slice.dropFront count).free = slice.free := by
  simp only [free, dropFront_elems, dropFront_cap, List.length_drop]
  omega

end Slice

end Gonnect
