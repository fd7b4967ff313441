import Mathlib.Data.List.Basic
import Mathlib.Data.Nat.ModEq
import Mathlib.Order.Basic

/-!
# Searching for a free block of addresses

Addresses are numbers. A block occupies the interval of `size` addresses from a multiple of
`size`, and the blockers are intervals of any size. A first-fit search moves a candidate
that a blocker overlaps to the first aligned address behind the blocker, and passes no free
block over.
-/

namespace Gonnect

open List

structure Interval where
  first : ℕ
  last : ℕ
  deriving DecidableEq, Repr

namespace Interval

def Overlaps (left right : Interval) : Prop :=
  left.first ≤ right.last ∧ right.first ≤ left.last

def block (start size : ℕ) : Interval where
  first := start
  last := start + size - 1

instance (left right : Interval) : Decidable (left.Overlaps right) :=
  inferInstanceAs (Decidable (_ ∧ _))

theorem Overlaps.symm {left right : Interval} (overlap : left.Overlaps right) :
    right.Overlaps left :=
  ⟨overlap.2, overlap.1⟩

/-- The first blocker on the candidate, when the blockers are sorted by first address. -/
def firstOverlap (candidate : Interval) : List Interval → Option Interval
  | [] => none
  | blocker :: rest =>
    if blocker.last < candidate.first then
      firstOverlap candidate rest
    else if candidate.last < blocker.first then
      none
    else
      some blocker

variable {blockers : List Interval}

theorem firstOverlap_some {candidate blocker : Interval}
    (found : firstOverlap candidate blockers = some blocker) :
    blocker ∈ blockers ∧ blocker.Overlaps candidate := by
  induction blockers with
  | nil => simp [firstOverlap] at found
  | cons head rest ih =>
    simp only [firstOverlap] at found
    split_ifs at found with before behind
    · rcases ih found with ⟨member, overlap⟩
      exact ⟨mem_cons_of_mem _ member, overlap⟩
    · cases found
      exact ⟨mem_cons_self, by omega, by omega⟩

theorem firstOverlap_none {candidate : Interval}
    (sorted : blockers.Pairwise (fun left right => left.first ≤ right.first))
    (free : firstOverlap candidate blockers = none) :
    ∀ blocker ∈ blockers, ¬blocker.Overlaps candidate := by
  induction blockers with
  | nil => simp
  | cons head rest ih =>
    rw [pairwise_cons] at sorted
    rcases sorted with ⟨headFirst, sortedRest⟩
    simp only [firstOverlap] at free
    intro blocker member overlap
    rcases mem_cons.mp member with rfl | inRest
    · split_ifs at free with before behind
      · exact absurd overlap.2 (by omega)
      · exact absurd overlap.1 (by omega)
    · split_ifs at free with before behind
      · exact ih sortedRest free blocker inRest overlap
      · have later := headFirst blocker inRest
        exact absurd overlap.1 (by omega)

end Interval

def alignUp (value size : ℕ) : ℕ :=
  let remainder := value % size
  if remainder = 0 then value else value + (size - remainder)

theorem le_alignUp (value size : ℕ) : value ≤ alignUp value size := by
  simp only [alignUp]
  split_ifs
  · exact le_refl _
  · exact Nat.le_add_right _ _

theorem dvd_alignUp {value size : ℕ} (positive : 0 < size) : size ∣ alignUp value size := by
  simp only [alignUp]
  split_ifs with aligned
  · exact Nat.dvd_of_mod_eq_zero aligned
  · have bound := Nat.mod_lt value positive
    have parts := Nat.div_add_mod value size
    have next : value + (size - value % size) = size * (value / size + 1) := by
      rw [mul_add]
      omega
    rw [next]
    exact Nat.dvd_mul_right _ _

theorem add_le_of_dvd {size lower upper : ℕ} (left : size ∣ lower) (right : size ∣ upper)
    (below : lower < upper) : lower + size ≤ upper := by
  have same : lower ≡ upper [MOD size] :=
    (Nat.modEq_zero_iff_dvd.mpr left).trans (Nat.modEq_zero_iff_dvd.mpr right).symm
  exact same.add_le_of_lt below

theorem alignUp_le {value size aligned : ℕ} (positive : 0 < size) (divides : size ∣ aligned)
    (bound : value ≤ aligned) : alignUp value size ≤ aligned := by
  have near : alignUp value size < value + size := by
    simp only [alignUp]
    split_ifs
    · omega
    · omega
  by_contra above
  have gap := add_le_of_dvd divides (dvd_alignUp positive) (Nat.lt_of_not_le above)
  omega

theorem Interval.overlaps_of_lt_alignUp {blocker : Interval} {candidate other size : ℕ}
    (positive : 0 < size) (overlap : blocker.Overlaps (block candidate size))
    (aligned : size ∣ other) (above : candidate ≤ other)
    (passed : other < alignUp (blocker.last + 1) size) : blocker.Overlaps (block other size) := by
  rcases overlap with ⟨starts, _⟩
  simp only [block] at starts
  refine ⟨?_, ?_⟩
  · simp only [block]
    omega
  · simp only [block]
    by_contra behind
    have reached := alignUp_le positive aligned (show blocker.last + 1 ≤ other by omega)
    omega

end Gonnect
