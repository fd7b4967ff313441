import Gonnect.Foundation.Checked
import Mathlib.Data.List.Forall2

/-!
# Computations with a memory that does not show

`Reaches` is the weakest precondition of a computation on a state that may fault. A
computation may keep results in its state to save work, and still have one result that does
not depend on what the state holds: `Yields invariant computation value`. `Ensures` is the same
with a property of the value.
-/

namespace Gonnect

open List

variable {State α β : Type}

abbrev Stateful (State α : Type) := StateT State (Except Fault) α

namespace Stateful

@[simp] theorem lift_ok_bind (value : α) (next : α → Stateful State β) :
    (StateT.lift (.ok value : Checked α) >>= next) = next value :=
  rfl

theorem mapM_congr {step other : α → Stateful State β} {inputs : List α}
    (same : ∀ input ∈ inputs, step input = other input) : inputs.mapM step = inputs.mapM other := by
  induction inputs with
  | nil => rfl
  | cons input rest ih =>
    rcases forall_mem_cons.mp same with ⟨first, later⟩
    rw [mapM_cons, mapM_cons, first, ih later]

end Stateful

def Reaches (state : State) (computation : Stateful State α) (wanted : α → State → Prop) : Prop :=
  ∃ value after, computation.run state = .ok (value, after) ∧ wanted value after

namespace Reaches

variable {state : State} {wanted : α → State → Prop} {value : α} {computation : Stateful State α}

@[simp] theorem pure_iff : Reaches state (Pure.pure value) wanted ↔ wanted value state := by
  constructor
  · rintro ⟨_, _, ⟨⟩, holds⟩
    exact holds
  · intro holds
    exact ⟨value, state, rfl, holds⟩

@[simp] theorem bind_iff {first : Stateful State β} {next : β → Stateful State α} :
    Reaches state (first >>= next) wanted ↔
      Reaches state first fun value after => Reaches after (next value) wanted := by
  constructor
  · rintro ⟨value, after, computed, holds⟩
    rcases Checked.of_bind computed with ⟨⟨between, middle⟩, computedFirst, computedNext⟩
    exact ⟨between, middle, computedFirst, value, after, computedNext, holds⟩
  · rintro ⟨between, middle, computedFirst, value, after, computedNext, holds⟩
    refine ⟨value, after, ?_, holds⟩
    rw [StateT.run_bind, computedFirst]
    exact computedNext

@[simp] theorem get_iff {wanted : State → State → Prop} :
    Reaches state (get : Stateful State State) wanted ↔ wanted state state :=
  pure_iff

@[simp] theorem set_iff {replacement : State} {wanted : PUnit → State → Prop} :
    Reaches state (set replacement : Stateful State PUnit) wanted ↔
      wanted PUnit.unit replacement := by
  constructor
  · rintro ⟨_, _, ⟨⟩, holds⟩
    exact holds
  · intro holds
    exact ⟨_, _, rfl, holds⟩

@[simp] theorem modify_iff {change : State → State} {wanted : PUnit → State → Prop} :
    Reaches state (modify change : Stateful State PUnit) wanted ↔
      wanted PUnit.unit (change state) := by
  constructor
  · rintro ⟨_, _, ⟨⟩, holds⟩
    exact holds
  · intro holds
    exact ⟨_, _, rfl, holds⟩

@[simp] theorem modifyGet_iff {change : State → α × State} :
    Reaches state (modifyGet change : Stateful State α) wanted ↔
      wanted (change state).1 (change state).2 := by
  constructor
  · rintro ⟨value, after, computed, holds⟩
    have result : change state = (value, after) := Except.ok.inj computed
    rw [result]
    exact holds
  · intro holds
    exact ⟨_, _, rfl, holds⟩

theorem lift_ok {computation : Checked α} (computed : computation = .ok value) :
    Reaches state (StateT.lift computation) wanted ↔ wanted value state := by
  subst computed
  exact pure_iff

theorem mono {weaker : α → State → Prop} (reaches : Reaches state computation wanted)
    (weakened : ∀ value after, wanted value after → weaker value after) :
    Reaches state computation weaker := by
  rcases reaches with ⟨value, after, computed, holds⟩
  exact ⟨value, after, computed, weakened value after holds⟩

theorem of_run (reaches : Reaches state computation wanted) {after : State}
    (computed : computation.run state = .ok (value, after)) : wanted value after := by
  rcases reaches with ⟨_, _, reached, holds⟩
  cases reached.symm.trans computed
  exact holds

/-- A walk over a list, where the value of a step is related to the state in which the step is
made. This state is the one that the steps before it reach. -/
theorem mapM {step : β → Stateful State α} {invariant : State → Prop}
    {relation : β → State → α → Prop} {inputs : List β} {state : State}
    (steps : ∀ input ∈ inputs, ∀ state, invariant state →
      Reaches state (step input) fun output after => invariant after ∧ relation input state output)
    (holds : invariant state) :
    Reaches state (inputs.mapM step) fun outputs after =>
      invariant after ∧ outputs.length = inputs.length ∧
        ∀ front input back, inputs = front ++ input :: back →
          Reaches state (front.mapM step) fun _ moment =>
            ∃ output, outputs[front.length]? = some output ∧ relation input moment output := by
  induction inputs generalizing state with
  | nil =>
    refine pure_iff.mpr ⟨holds, rfl, ?_⟩
    intro front input back split
    cases front <;> cases split
  | cons first rest ih =>
    rcases steps first (by simp) state holds with ⟨output, middle, stepped, kept, related⟩
    rcases ih (fun input member => steps input (by simp [member])) kept with
      ⟨outputs, after, walked, finished, length, moments⟩
    refine ⟨output :: outputs, after, ?_, finished, by simp [length], ?_⟩
    · rw [mapM_cons, StateT.run_bind, stepped]
      change (rest.mapM step >>= fun outputs => Pure.pure (output :: outputs)).run middle = _
      rw [StateT.run_bind, walked]
      rfl
    · intro front input back split
      cases front with
      | nil =>
        cases split
        exact pure_iff.mpr ⟨output, rfl, related⟩
      | cons head front =>
        rw [cons_append, List.cons.injEq] at split
        rcases split with ⟨rfl, split⟩
        rw [mapM_cons, bind_iff]
        refine ⟨output, middle, stepped, bind_iff.mpr ?_⟩
        refine (moments front input back split).mono ?_
        intro values moment found
        exact pure_iff.mpr (by simpa using found)

end Reaches

/-- Every value of the computation has the property, and the invariant is kept. -/
def Ensures (invariant : State → Prop) (computation : Stateful State α) (property : α → Prop) :
    Prop :=
  ∀ state, invariant state →
    Reaches state computation fun value after => invariant after ∧ property value

/-- The computation always has this value, and the invariant is kept. -/
def Yields (invariant : State → Prop) (computation : Stateful State α) (value : α) : Prop :=
  Ensures invariant computation (· = value)

namespace Ensures

variable {invariant : State → Prop}

theorem bind {first : Stateful State α} {next : α → Stateful State β} {property : α → Prop}
    {wanted : β → Prop} (ensuresFirst : Ensures invariant first property)
    (ensuresNext : ∀ value, property value → Ensures invariant (next value) wanted) :
    Ensures invariant (first >>= next) wanted := by
  intro state holds
  rw [Reaches.bind_iff]
  refine (ensuresFirst state holds).mono ?_
  rintro value after ⟨kept, has⟩
  exact ensuresNext value has after kept

theorem mapM {step : β → Stateful State α} {property : β → α → Prop} {inputs : List β}
    (ensuresStep : ∀ input ∈ inputs, Ensures invariant (step input) (property input)) :
    Ensures invariant (inputs.mapM step) fun outputs => Forall₂ property inputs outputs := by
  induction inputs with
  | nil =>
    intro state holds
    exact Reaches.pure_iff.mpr ⟨holds, .nil⟩
  | cons input rest ih =>
    rw [mapM_cons]
    refine bind (ensuresStep input (by simp)) fun output first => ?_
    refine bind (ih fun other member => ensuresStep other (by simp [member])) fun outputs others => ?_
    intro state holds
    exact Reaches.pure_iff.mpr ⟨holds, .cons first others⟩

end Ensures

namespace Yields

variable {invariant : State → Prop}

theorem pure (value : α) : Yields invariant (Pure.pure value) value := by
  intro state holds
  exact Reaches.pure_iff.mpr ⟨holds, rfl⟩

theorem bind {first : Stateful State α} {next : α → Stateful State β} {value : α} {result : β}
    (yieldsFirst : Yields invariant first value)
    (yieldsNext : Yields invariant (next value) result) :
    Yields invariant (first >>= next) result := by
  refine Ensures.bind yieldsFirst ?_
  rintro _ rfl
  exact yieldsNext

theorem lift {computation : Checked α} {value : α} (computed : computation = .ok value) :
    Yields invariant (StateT.lift computation) value := by
  intro state holds
  exact (Reaches.lift_ok computed).mpr ⟨holds, rfl⟩

variable {test : α → Stateful State Bool} {value : α → Bool} {elements : List α}

section

variable (yieldsTest : ∀ element ∈ elements, Yields invariant (test element) (value element))

include yieldsTest

theorem allM : Yields invariant (elements.allM test) (elements.all value) := by
  induction elements with
  | nil => exact pure true
  | cons element rest ih =>
    rw [all_cons]
    refine bind (yieldsTest element (by simp)) ?_
    cases value element with
    | true => exact ih fun other member => yieldsTest other (by simp [member])
    | false => exact pure false

theorem anyM : Yields invariant (elements.anyM test) (elements.any value) := by
  induction elements with
  | nil => exact pure false
  | cons element rest ih =>
    rw [any_cons]
    refine bind (yieldsTest element (by simp)) ?_
    cases value element with
    | true => exact pure true
    | false => exact ih fun other member => yieldsTest other (by simp [member])

end

theorem mapM {step : β → Stateful State α} {value : β → α} {inputs : List β}
    (yieldsStep : ∀ input ∈ inputs, Yields invariant (step input) (value input)) :
    Yields invariant (inputs.mapM step) (inputs.map value) := by
  induction inputs with
  | nil => exact pure []
  | cons input rest ih =>
    rw [mapM_cons, map_cons]
    refine bind (yieldsStep input (by simp)) ?_
    exact bind (ih fun other member => yieldsStep other (by simp [member])) (pure _)

end Yields

end Gonnect
