import Gonnect.Routing.SplitSemantics

/-!
# The condition arena of the split compiler

Nodes refer to earlier nodes only, so a truth assignment for the atoms extends to all nodes:
`Models` says that an assignment respects every node. Each operation of the builder is
specified by `Built`: the arena grew, it is still well formed, and in every model of the new
arena the resulting node has the meaning of the operation.
-/

namespace Gonnect.Routing

open Checked List Function SplitCond

namespace SplitJoin

def combine (values : List Bool) : SplitJoin → Bool
  | .and => values.all id
  | .or => values.any id

def apply (left right : Bool) : SplitJoin → Bool
  | .and => left && right
  | .or => left || right

theorem combine_append (left right : List Bool) (kind : SplitJoin) :
    kind.combine (left ++ right) = kind.apply (kind.combine left) (kind.combine right) := by
  cases kind with
  | and => exact all_append
  | or => exact any_append

theorem combine_singleton (value : Bool) (kind : SplitJoin) : kind.combine [value] = value := by
  cases kind <;> simp [combine]

end SplitJoin

namespace SplitCond

def children : SplitCond → List ℕ
  | .const _ | .atom _ _ => []
  | .not child => [child]
  | .join _ children => children

def holds (reading : AtomReading) (truth : ℕ → Bool) : SplitCond → Bool
  | .const value => value
  | .atom op param => reading.holds op param
  | .not child => !truth child
  | .join kind children => kind.combine (children.map truth)

theorem holds_congr {reading : AtomReading} {truth other : ℕ → Bool} (cond : SplitCond)
    (same : ∀ child ∈ cond.children, truth child = other child) :
    cond.holds reading truth = cond.holds reading other := by
  cases cond with
  | const value | atom op param => rfl
  | not child => simp [holds, same child (by simp [children])]
  | join kind nodes =>
    have equal : nodes.map truth = nodes.map other := map_congr_left same
    simp [holds, equal]

end SplitCond

namespace SplitConds

variable {reading : AtomReading}

structure WellFormed (reading : AtomReading) (conds : SplitConds) : Prop where
  constants : initial <+: conds
  backward : ∀ idx (cond : SplitCond), conds[idx]? = some cond →
    ∀ child ∈ cond.children, child < idx
  atoms : ∀ op param, .atom op param ∈ conds → reading.allowed op param

def Models (reading : AtomReading) (conds : SplitConds) (truth : ℕ → Bool) : Prop :=
  ∀ idx cond, conds[idx]? = some cond → truth idx = cond.holds reading truth

theorem wellFormed_initial : WellFormed reading initial where
  constants := prefix_rfl
  backward := by
    intro idx cond stored child member
    have constant : ∃ value, cond = .const value := by
      have := mem_of_getElem? stored
      simp only [initial, mem_cons, not_mem_nil, or_false] at this
      rcases this with rfl | rfl <;> exact ⟨_, rfl⟩
    rcases constant with ⟨value, rfl⟩
    cases member
  atoms := by simp [initial]

variable {conds later : SplitConds}

theorem getElem?_of_grown (grown : conds <+: later) {idx : ℕ} {cond : SplitCond}
    (stored : conds[idx]? = some cond) : later[idx]? = some cond := by
  rcases grown with ⟨added, rfl⟩
  rw [List.getElem?_append_left (List.getElem?_eq_some_iff.mp stored).1, stored]

theorem Models.mono {truth : ℕ → Bool} (models : Models reading later truth)
    (grown : conds <+: later) : Models reading conds truth :=
  fun idx cond stored => models idx cond (getElem?_of_grown grown stored)

theorem WellFormed.add (wellFormed : conds.WellFormed reading) {cond : SplitCond}
    (children : ∀ child ∈ cond.children, child < conds.length)
    (atoms : ∀ op param, cond = .atom op param → reading.allowed op param) :
    WellFormed reading (conds ++ [cond]) where
  constants := wellFormed.constants.trans (prefix_append _ _)
  backward := by
    intro idx other stored child member
    by_cases old : idx < conds.length
    · rw [getElem?_append_left old] at stored
      exact wellFormed.backward idx other stored child member
    · have inside := (List.getElem?_eq_some_iff.mp stored).1
      have last : idx = conds.length := by
        rw [length_append, length_singleton] at inside
        omega
      subst last
      rw [getElem?_concat_length] at stored
      cases stored
      exact children child member
  atoms := by
    intro op param member
    rcases mem_append.mp member with old | new
    · exact wellFormed.atoms op param old
    · exact atoms op param (mem_singleton.mp new).symm

theorem exists_models (backward : ∀ idx (cond : SplitCond), conds[idx]? = some cond →
      ∀ child ∈ cond.children, child < idx) : ∃ truth, Models reading conds truth := by
  induction conds using reverseRecOn with
  | nil => exact ⟨fun _ => false, by simp [Models]⟩
  | append_singleton conds last ih =>
    have old : ∀ idx cond, conds[idx]? = some cond → (conds ++ [last])[idx]? = some cond :=
      fun idx cond stored => getElem?_of_grown (prefix_append _ _) stored
    rcases ih fun idx cond stored => backward idx cond (old idx cond stored) with ⟨truth, models⟩
    refine ⟨update truth conds.length (last.holds reading truth), ?_⟩
    -- The value of the new node does not matter for the nodes before it.
    have unchanged : ∀ idx cond, idx ≤ conds.length → (conds ++ [last])[idx]? = some cond →
        cond.holds reading (update truth conds.length (last.holds reading truth)) =
          cond.holds reading truth := by
      intro idx cond low stored
      refine holds_congr cond fun child member => ?_
      have before := backward idx cond stored child member
      exact update_of_ne (by omega) _ _
    intro idx cond stored
    have inside := (List.getElem?_eq_some_iff.mp stored).1
    rw [length_append, length_singleton] at inside
    rw [unchanged idx cond (by omega) stored]
    by_cases new : idx = conds.length
    · subst new
      rw [getElem?_concat_length] at stored
      cases stored
      exact update_self _ _ _
    · rw [getElem?_append_left (by omega)] at stored
      rw [update_of_ne new]
      exact models idx cond stored

/-- What an operation of the builder leaves: a larger arena and a node in it that has the
meaning of the operation. -/
structure Built (reading : AtomReading) (conds : SplitConds) (meaning : (ℕ → Bool) → Bool)
    (result : ℕ × SplitConds) : Prop where
  grown : conds <+: result.2
  wellFormed : result.2.WellFormed reading
  inside : result.1 < result.2.length
  means : ∀ truth, Models reading result.2 truth → truth result.1 = meaning truth

variable {idx left right : ℕ}

section

variable (wellFormed : conds.WellFormed reading)

include wellFormed

theorem WellFormed.reuse {node : ℕ} (inside : node < conds.length) {meaning : (ℕ → Bool) → Bool}
    (means : ∀ truth, Models reading conds truth → truth node = meaning truth) :
    Built reading conds meaning (node, conds) :=
  ⟨prefix_rfl, wellFormed, inside, means⟩

theorem WellFormed.append (cond : SplitCond)
    (children : ∀ child ∈ cond.children, child < conds.length)
    (atoms : ∀ op param, cond = .atom op param → reading.allowed op param) :
    Built reading conds (fun truth => cond.holds reading truth) (conds.add cond) where
  grown := prefix_append _ _
  wellFormed := wellFormed.add children atoms
  inside := by simp [SplitConds.add]
  means := fun truth models => models conds.length cond getElem?_concat_length

theorem WellFormed.falseCond : Built reading conds (fun _ => false) (falseCond, conds) := by
  have stored : conds[SplitConds.falseCond]? = some (.const false) :=
    getElem?_of_grown wellFormed.constants rfl
  exact wellFormed.reuse (List.getElem?_eq_some_iff.mp stored).1
    fun truth models => models _ _ stored

theorem WellFormed.trueCond : Built reading conds (fun _ => true) (trueCond, conds) := by
  have stored : conds[SplitConds.trueCond]? = some (.const true) :=
    getElem?_of_grown wellFormed.constants rfl
  exact wellFormed.reuse (List.getElem?_eq_some_iff.mp stored).1
    fun truth models => models _ _ stored

end

theorem Built.congr {meaning other : (ℕ → Bool) → Bool} {result : ℕ × SplitConds}
    (built : Built reading conds meaning result)
    (same : ∀ truth, Models reading conds truth → meaning truth = other truth) :
    Built reading conds other result :=
  { built with
    means := fun truth models =>
      (built.means truth models).trans (same truth (models.mono built.grown)) }

theorem constValue_ok (reading : AtomReading) (inside : idx < conds.length) :
    ∃ const, conds.constValue idx = .ok const ∧
      ∀ value ∈ const, ∀ truth, Models reading conds truth → truth idx = value := by
  rcases exists_index inside with ⟨node, stored, read⟩
  simp only [constValue, read, ok_bind]
  split
  · rename_i value
    refine ⟨some value, rfl, ?_⟩
    rintro _ ⟨⟩ truth models
    rw [models idx _ stored]
    rfl
  · exact ⟨none, rfl, by simp⟩

section

variable (wellFormed : conds.WellFormed reading)

include wellFormed

theorem not_built (inside : idx < conds.length) :
    ∃ result, conds.not idx = .ok result ∧ Built reading conds (fun truth => !truth idx) result := by
  rcases constValue_ok reading inside with ⟨const, read, known⟩
  simp only [not, read, ok_bind]
  match const with
  | some true =>
    refine ⟨_, rfl, wellFormed.falseCond.congr fun truth models => ?_⟩
    simp [known true rfl truth models]
  | some false =>
    refine ⟨_, rfl, wellFormed.trueCond.congr fun truth models => ?_⟩
    simp [known false rfl truth models]
  | none =>
    rcases exists_index inside with ⟨node, stored, found⟩
    have negated : Built reading conds (fun truth => !truth idx) (conds.add (.not idx)) :=
      wellFormed.append (.not idx) (by simpa [children] using inside) (by simp)
    simp only [found, ok_bind]
    split
    · rename_i inner
      have earlier := wellFormed.backward idx _ stored inner (by simp [children])
      refine ⟨_, rfl, wellFormed.reuse (by omega) fun truth models => ?_⟩
      simp [models idx _ stored, holds]
    · exact ⟨_, rfl, negated⟩

theorem operands_ok (kind : SplitJoin) (inside : idx < conds.length) :
    ∃ nodes, conds.operands kind idx = .ok nodes ∧ (∀ node ∈ nodes, node < conds.length) ∧
      ∀ truth, Models reading conds truth → kind.combine (nodes.map truth) = truth idx := by
  rcases exists_index inside with ⟨node, stored, read⟩
  simp only [operands, read, ok_bind]
  split
  · rename_i inner children
    split_ifs with same
    · subst same
      refine ⟨children, rfl, ?_, ?_⟩
      · intro node member
        have earlier := wellFormed.backward idx _ stored node member
        omega
      · intro truth models
        exact (models idx _ stored).symm
    · exact ⟨[idx], rfl, by simpa using inside, fun truth _ => kind.combine_singleton _⟩
  · exact ⟨[idx], rfl, by simpa using inside, fun truth _ => kind.combine_singleton _⟩

theorem join_built (kind : SplitJoin) (insideLeft : left < conds.length)
    (insideRight : right < conds.length) :
    ∃ result, conds.join kind left right = .ok result ∧
      Built reading conds (fun truth => kind.apply (truth left) (truth right)) result := by
  rcases operands_ok wellFormed kind insideLeft with ⟨leftNodes, readLeft, boundLeft, meansLeft⟩
  rcases operands_ok wellFormed kind insideRight with
    ⟨rightNodes, readRight, boundRight, meansRight⟩
  simp only [join, readLeft, readRight, ok_bind]
  have appended : Built reading conds _ (conds.add (.join kind (leftNodes ++ rightNodes))) :=
    wellFormed.append _
      (fun child member => (mem_append.mp member).elim (boundLeft child) (boundRight child))
      (by simp)
  refine ⟨_, rfl, appended.congr fun truth models => ?_⟩
  simp [holds, SplitJoin.combine_append, meansLeft truth models, meansRight truth models]

theorem and_built (insideLeft : left < conds.length) (insideRight : right < conds.length) :
    ∃ result, conds.and left right = .ok result ∧
      Built reading conds (fun truth => truth left && truth right) result := by
  rcases constValue_ok reading insideLeft with ⟨leftConst, readLeft, knownLeft⟩
  rcases constValue_ok reading insideRight with ⟨rightConst, readRight, knownRight⟩
  simp only [and, readLeft, ok_bind]
  match leftConst with
  | some false =>
    refine ⟨_, rfl, wellFormed.falseCond.congr fun truth models => ?_⟩
    simp [knownLeft false rfl truth models]
  | some true =>
    refine ⟨_, rfl, wellFormed.reuse insideRight fun truth models => ?_⟩
    simp [knownLeft true rfl truth models]
  | none =>
    simp only [readRight, ok_bind]
    match rightConst with
    | some true =>
      refine ⟨_, rfl, wellFormed.reuse insideLeft fun truth models => ?_⟩
      simp [knownRight true rfl truth models]
    | some false | none => exact join_built wellFormed .and insideLeft insideRight

theorem or_built (insideLeft : left < conds.length) (insideRight : right < conds.length) :
    ∃ result, conds.or left right = .ok result ∧
      Built reading conds (fun truth => truth left || truth right) result := by
  rcases constValue_ok reading insideLeft with ⟨leftConst, readLeft, knownLeft⟩
  rcases constValue_ok reading insideRight with ⟨rightConst, readRight, knownRight⟩
  simp only [or, readLeft, ok_bind]
  match leftConst with
  | some true =>
    refine ⟨_, rfl, wellFormed.trueCond.congr fun truth models => ?_⟩
    simp [knownLeft true rfl truth models]
  | some false =>
    refine ⟨_, rfl, wellFormed.reuse insideRight fun truth models => ?_⟩
    simp [knownLeft false rfl truth models]
  | none =>
    simp only [readRight, ok_bind]
    match rightConst with
    | some false =>
      refine ⟨_, rfl, wellFormed.reuse insideLeft fun truth models => ?_⟩
      simp [knownRight false rfl truth models]
    | some true | none => exact join_built wellFormed .or insideLeft insideRight

end

end SplitConds

end Gonnect.Routing
