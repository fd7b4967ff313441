import Mathlib.Data.List.Basic

/-!
# Scanning candidates with a budget

A scan looks at candidates one after another until one of them is free. Every look costs one
unit of a budget, and the scan gives up when it is spent. Scans over two lists one after the
other are a scan over both, so nested loops are a single scan.
-/

namespace Gonnect

open List

namespace Scan

variable {α : Type} {budget used : ℕ} {order : List α}

def pick (free : ℕ → α → Bool) (budget : ℕ) : List α → ℕ → Option α × ℕ
  | [], used => (none, used)
  | candidate :: rest, used =>
    if budget ≤ used then (none, used)
    else if free used candidate then (some candidate, used + 1)
    else pick free budget rest (used + 1)

variable {free : ℕ → α → Bool}

theorem pick_spent (spent : budget ≤ used) : pick free budget order used = (none, used) := by
  cases order with
  | nil => rfl
  | cons candidate rest => exact if_pos spent

theorem pick_append (front back : List α) (used : ℕ) :
    pick free budget (front ++ back) used =
      match pick free budget front used with
      | (some candidate, after) => (some candidate, after)
      | (none, after) => pick free budget back after := by
  induction front generalizing used with
  | nil => rfl
  | cons candidate rest ih =>
    simp only [cons_append, pick]
    split_ifs with spent
    · exact (pick_spent spent).symm
    · rfl
    · exact ih (used + 1)

/-- What a scan comes to if its candidates stay free or taken while it goes on. -/
theorem pick_outcome {isFree : α → Bool} (used : ℕ)
    (same : ∀ moment < budget, ∀ item ∈ order, free moment item = isFree item) :
    ((pick free budget order used).1.isSome ↔
        ∃ item ∈ order.take (budget - used), isFree item = true) ∧
      ((pick free budget order used).1 = none →
        (pick free budget order used).2 = used + min order.length (budget - used)) := by
  induction order generalizing used with
  | nil => simp [pick]
  | cons head rest ih =>
    by_cases spent : budget ≤ used
    · simp [pick, spent, Nat.sub_eq_zero_of_le spent]
    · have left : budget - used = (budget - (used + 1)) + 1 := by omega
      have now := same used (Nat.lt_of_not_le spent) head mem_cons_self
      rcases ih (used + 1) fun moment more item member =>
        same moment more item (mem_cons_of_mem _ member) with ⟨found, counted⟩
      simp only [pick, if_neg spent, now, left, take_succ_cons, exists_mem_cons_iff,
        length_cons]
      split_ifs with headFree
      · simp [headFree]
      · refine ⟨by simp [headFree, found], fun nothing => ?_⟩
        rw [counted nothing]
        omega

theorem take_append_congr {front front' back back' : List α}
    (sameFront : front.take budget = front'.take budget)
    (sameBack : back.take budget = back'.take budget) :
    (front ++ back).take budget = (front' ++ back').take budget := by
  have lengths := congrArg List.length sameFront
  have rest : budget - front.length = budget - front'.length := by
    simp only [length_take] at lengths
    omega
  have sameRest := congrArg (List.take (budget - front.length)) sameBack
  simp only [take_take, Nat.min_eq_left (Nat.sub_le _ _)] at sameRest
  rw [take_append, take_append, sameFront, sameRest, rest]

theorem pick_mem {candidate : α} (found : (pick free budget order used).1 = some candidate) :
    candidate ∈ order.take (budget - used) ∧ ∃ moment, free moment candidate = true := by
  induction order generalizing used with
  | nil => cases found
  | cons head rest ih =>
    simp only [pick] at found
    split_ifs at found with spent isFree
    · have left : budget - used = (budget - (used + 1)) + 1 := by omega
      cases found
      rw [left, take_succ_cons]
      exact ⟨mem_cons_self, used, isFree⟩
    · have left : budget - used = (budget - (used + 1)) + 1 := by omega
      rw [left, take_succ_cons]
      rcases ih found with ⟨member, rest⟩
      exact ⟨mem_cons_of_mem _ member, rest⟩

theorem pick_only {order : List α} {used : ℕ} {candidate : α}
    (reached : candidate ∈ order.take (budget - used))
    (isFree : ∀ moment < budget, free moment candidate = true)
    (only : ∀ moment, ∀ other ∈ order, free moment other = true → other = candidate) :
    (pick free budget order used).1 = some candidate := by
  induction order generalizing used with
  | nil => simp at reached
  | cons head rest ih =>
    have more : used < budget := by
      by_contra spent
      simp [Nat.sub_eq_zero_of_le (Nat.le_of_not_lt spent)] at reached
    have left : budget - used = (budget - (used + 1)) + 1 := by omega
    rw [left, take_succ_cons] at reached
    simp only [pick, if_neg (Nat.not_le.mpr more)]
    split_ifs with headFree
    · rw [only used head mem_cons_self headFree]
    · rcases mem_cons.mp reached with rfl | later
      · exact absurd (isFree used more) headFree
      · exact ih later fun moment other member => only moment other (by simp [member])

end Scan

end Gonnect
