import Gonnect.Foundation.Run
import Mathlib.Data.Int.Notation
import Mathlib.Data.List.Perm.Basic
import Mathlib.Order.MinMax

/-!
# The sizes of a joiner, and the batches behind a detached one

A `Joiner` has the batch size of its largest nested tun, and computes it again whenever a tun
is attached or detached. A `DetachedTun` around the joiner takes the size once, when it is
made, and a batch that is larger than the buffers of its reader loses its last packets.
-/

namespace Gonnect.Tun

open List

variable {Packet : Type}

def batchSizeOf (size : ℤ) : ℤ :=
  if size > 0 then size else 1

def joinerDefaultBatch : ℤ := 256

def recalculateBatch (sizes : List ℤ) : ℤ :=
  (sizes.foldl (fun (first, batch) size =>
    (false, if size > 0 ∧ (first ∨ size > batch) then size else batch))
    (true, joinerDefaultBatch)).2

structure BatchState (Packet : Type) where
  nested : List ℤ
  batch : ℤ
  wrapper : Option ℕ
  /-- The batches that the wrapper took from the joiner, and what its reader got of each. -/
  taken : List (List Packet)
  received : List (List Packet)

def BatchState.new : BatchState Packet where
  nested := []
  batch := joinerDefaultBatch
  wrapper := none
  taken := []
  received := []

/-- `DetachedTun.Read` with `count` buffers that have room for every packet. -/
def readBatch (count : ℕ) (packets : List Packet) : List Packet :=
  packets.take (min count packets.length)

inductive BatchEvent (Packet : Type) where
  | attach (size : ℤ)
  | detach (size : ℤ)
  | wrap
  | read (packets : List Packet)

/-- The steps of the joiner and its wrapper, whose reader always comes with `BatchSize()`
buffers. What was read from a tun waits in `j.reads`, also after the tun is detached. -/
inductive BatchStep : BatchState Packet → BatchEvent Packet → BatchState Packet → Prop
  | attach {state : BatchState Packet} {size : ℤ} {walk : List ℤ}
      (isWalk : walk.Perm (size :: state.nested)) :
      BatchStep state (.attach size)
        { state with nested := walk, batch := recalculateBatch walk }
  | detach {state : BatchState Packet} {size : ℤ} {walk : List ℤ}
      (isWalk : (size :: walk).Perm state.nested) :
      BatchStep state (.detach size)
        { state with nested := walk, batch := recalculateBatch walk }
  | wrap {state : BatchState Packet} (first : state.wrapper = none) :
      BatchStep state .wrap { state with wrapper := some (batchSizeOf state.batch).toNat }
  | read {state : BatchState Packet} {count : ℕ} (packets : List Packet)
      (wrapped : state.wrapper = some count) :
      BatchStep state (.read packets)
        { state with
          taken := state.taken ++ [packets]
          received := state.received ++ [readBatch count packets] }

variable {events : List (BatchEvent Packet)} {state : BatchState Packet} {count : ℕ}

theorem received_of_run (run : Run BatchStep .new events state) :
    (state.wrapper = none → state.taken = [] ∧ state.received = []) ∧
      ∀ count, state.wrapper = some count → state.received = state.taken.map (readBatch count) := by
  induction run with
  | nil => exact ⟨fun _ => ⟨rfl, rfl⟩, nofun⟩
  | snoc _ step ih =>
    cases step with
    | attach | detach => exact ih
    | wrap first =>
      rcases ih.1 first with ⟨noneTaken, noneReceived⟩
      exact ⟨nofun, fun _ _ => by simp [noneTaken, noneReceived]⟩
    | read packets wrapped =>
      refine ⟨fun missing => (nomatch wrapped.symm.trans missing), fun other isOther => ?_⟩
      cases wrapped.symm.trans isOther
      simp [ih.2 _ wrapped]

theorem flatten_readBatch_iff (batches : List (List Packet)) :
    (batches.map (readBatch count)).flatten = batches.flatten ↔
      ∀ packets ∈ batches, packets.length ≤ count := by
  constructor
  · intro whole
    induction batches with
    | nil => nofun
    | cons packets batches ih =>
      rw [map_cons, flatten_cons, flatten_cons] at whole
      -- What is cut off the first batch cannot be made up by the others.
      have shorter : ∀ batches : List (List Packet),
          (batches.map (readBatch count)).flatten.length ≤ batches.flatten.length := by
        intro batches
        induction batches with
        | nil => exact le_refl _
        | cons _ _ ih =>
          simp only [map_cons, flatten_cons, length_append, readBatch,
            length_take]
          omega
      have lengths := congrArg List.length whole
      have others := shorter batches
      simp only [length_append, readBatch, length_take] at lengths others
      have sameLength : (readBatch count packets).length = packets.length := by
        simp only [readBatch, length_take]
        omega
      rcases append_inj whole sameLength with ⟨_, rest⟩
      refine forall_mem_cons.mpr ⟨?_, ih rest⟩
      omega
  · intro fit
    have same : ∀ packets ∈ batches, readBatch count packets = packets := by
      intro packets member
      exact take_of_length_le (Nat.le_min.mpr ⟨fit packets member, le_refl _⟩)
    rw [map_congr_left (g := id) same, map_id]

/-- The reader gets all packets that the wrapper took from the joiner, in their order, exactly
if no batch was larger than the size that the wrapper was made with. -/
theorem received_whole_iff (run : Run BatchStep .new events state)
    (wrapped : state.wrapper = some count) :
    state.received.flatten = state.taken.flatten ↔
      ∀ packets ∈ state.taken, packets.length ≤ count := by
  rw [(received_of_run run).2 count wrapped]
  exact flatten_readBatch_iff state.taken

theorem received_whole_once : ∃ events state, Run BatchStep (.new : BatchState ℕ) events state ∧
    state.taken = [[5, 6]] ∧ state.received.flatten = state.taken.flatten :=
  have run := ((Run.nil.snoc (.attach (.refl [2]))).snoc (.wrap rfl)).snoc
    (.read [5, 6] rfl)
  ⟨_, _, run, rfl, (received_whole_iff run rfl).mpr (by decide)⟩

/-- A tun with batches of two is attached behind the wrapper of a joiner with batches of one. -/
theorem larger_batch_cut : ∃ events state, Run BatchStep (.new : BatchState ℕ) events state ∧
    state.taken = [[5, 6]] ∧ state.received = [[5]] :=
  ⟨_, _, (((Run.nil.snoc (.attach (.refl [1]))).snoc (.wrap rfl)).snoc
    (.attach (.refl [2, 1]))).snoc
    (.read [5, 6] rfl), rfl, rfl⟩

def joinerDefaultMTU : ℤ := 1500

/-- What a nested tun answers; `MTU` may fail. -/
structure NestedSizes where
  mtu : Option ℤ
  batch : ℤ

/-- A turn of the loop of `recalculateLocked`, with its variables `first`, `mtu` and `batch`. -/
def recalculateTurn : Bool × ℤ × ℤ → NestedSizes → Bool × ℤ × ℤ
  | (first, mtu, batch), n =>
    (false, n.mtu.elim mtu fun own => if first ∨ own < mtu then own else mtu,
      if n.batch > 0 ∧ (first ∨ n.batch > batch) then n.batch else batch)

/-- The sizes that `recalculateLocked` sets, as the map is walked. -/
def recalculate (walk : List NestedSizes) : ℤ × ℤ :=
  (walk.foldl recalculateTurn (true, joinerDefaultMTU, joinerDefaultBatch)).2

variable (walk : List NestedSizes)

def mtus : List ℤ := walk.filterMap NestedSizes.mtu

def batches : List ℤ := (walk.map NestedSizes.batch).filter (0 < ·)

def smallestMTU : ℤ := (mtus walk).min?.getD joinerDefaultMTU

def largestBatch : ℤ := (batches walk).max?.getD joinerDefaultBatch

theorem recalculate_rest (mtu batch : ℤ) : walk.foldl recalculateTurn (false, mtu, batch) =
    (false, (mtus walk).foldl min mtu, (batches walk).foldl max batch) := by
  induction walk generalizing mtu batch with
  | nil => rfl
  | cons n walk ih =>
    have smaller (own : ℤ) : (if own < mtu then own else mtu) = min mtu own := by omega
    have larger : (if n.batch > batch then n.batch else batch) = max batch n.batch := by omega
    rw [foldl_cons, recalculateTurn, ih]
    cases own : n.mtu <;> by_cases positive : 0 < n.batch <;>
      simp [mtus, batches, own, positive, smaller, larger]

theorem foldl_min_iff {α : Type} [LinearOrder α] (values : List α) (start : α) :
    values.foldl min start = values.min?.getD start ↔ values.min?.getD start ≤ start := by
  cases values with
  | nil => simp
  | cons value values =>
    rw [foldl_cons, foldl_assoc]
    exact min_eq_right_iff

variable {walk} {order : List NestedSizes}

theorem recalculate_cons_iff (n : NestedSizes) : let order := n :: walk
    recalculate order = (smallestMTU order, largestBatch order) ↔
      (n.mtu = none → smallestMTU order ≤ joinerDefaultMTU) ∧
        (n.batch ≤ 0 → joinerDefaultBatch ≤ largestBatch order) := by
  intro order
  have first : recalculate order = ((mtus walk).foldl min (n.mtu.getD joinerDefaultMTU),
      (batches walk).foldl max (if 0 < n.batch then n.batch else joinerDefaultBatch)) := by
    cases own : n.mtu <;> simp [order, recalculate, recalculateTurn, recalculate_rest, own]
  rw [first, Prod.mk.injEq]
  refine and_congr ?_ ?_
  · cases own : n.mtu with
    | none => simpa [order, smallestMTU, mtus, own] using foldl_min_iff (mtus walk) joinerDefaultMTU
    | some own => simp [order, smallestMTU, mtus, own, min?]
  · by_cases positive : 0 < n.batch
    · simp [order, largestBatch, batches, positive, max?]
    · have dual : (batches walk).foldl max joinerDefaultBatch =
          (batches walk).max?.getD joinerDefaultBatch ↔
            joinerDefaultBatch ≤ (batches walk).max?.getD joinerDefaultBatch :=
        @foldl_min_iff ℤᵒᵈ _ (batches walk) joinerDefaultBatch
      simpa [order, largestBatch, batches, positive, Int.not_lt.mp positive] using dual

theorem sizes_perm (same : order.Perm walk) :
    smallestMTU order = smallestMTU walk ∧ largestBatch order = largestBatch walk := by
  have smallest : (mtus order).min? = (mtus walk).min? := by
    ext mtu
    simp only [min?_eq_some_iff, (same.filterMap _).mem_iff, mtus]
  have largest : (batches order).max? = (batches walk).max? := by
    ext batch
    simp only [max?_eq_some_iff, ((same.map _).filter _).mem_iff, batches]
  simp only [smallestMTU, largestBatch, smallest, largest, and_self]

/-- The sizes are those of the nested tuns in every order of the map exactly if a default that
a tun without an MTU or a batch size leaves behind, when it comes first, cannot win. -/
theorem recalculate_iff (walk : List NestedSizes) :
    (∀ order, order.Perm walk → recalculate order = (smallestMTU walk, largestBatch walk)) ↔
      ((∃ n ∈ walk, n.mtu = none) → smallestMTU walk ≤ joinerDefaultMTU) ∧
        ((∃ n ∈ walk, n.batch ≤ 0) → joinerDefaultBatch ≤ largestBatch walk) := by
  constructor
  · intro every
    have first : ∀ n ∈ walk, (n.mtu = none → smallestMTU walk ≤ joinerDefaultMTU) ∧
        (n.batch ≤ 0 → joinerDefaultBatch ≤ largestBatch walk) := by
      intro n member
      rcases append_of_mem member with ⟨front, back, rfl⟩
      have same : (n :: (front ++ back)).Perm (front ++ n :: back) := perm_middle.symm
      have set := every _ same
      rw [← (sizes_perm same).1, ← (sizes_perm same).2] at set ⊢
      exact (recalculate_cons_iff n).mp set
    exact ⟨fun ⟨n, member, fails⟩ => (first n member).1 fails,
      fun ⟨n, member, small⟩ => (first n member).2 small⟩
  · rintro ⟨mtu, batch⟩ order same
    rcases sizes_perm same with ⟨sameMTU, sameBatch⟩
    rw [← sameMTU] at mtu ⊢
    rw [← sameBatch] at batch ⊢
    cases order with
    | nil => rfl
    | cons n order =>
      have member := same.mem_iff.mp mem_cons_self
      exact (recalculate_cons_iff n).mpr ⟨fun fails => mtu ⟨n, member, fails⟩,
        fun small => batch ⟨n, member, small⟩⟩

/-- A tun with jumbo frames and one whose MTU cannot be read. -/
theorem recalculate_by_order : let walk : List NestedSizes := [⟨none, 1⟩, ⟨some 9000, 1⟩]
    recalculate walk = (1500, 1) ∧ recalculate walk.reverse = (9000, 1) ∧
      smallestMTU walk = 9000 := by
  decide

end Gonnect.Tun
