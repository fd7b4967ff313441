import Gonnect.Foundation.StraightLine

/-!
# A machine with a stack of truth values

The commands push a truth value, combine the topmost ones, or take the topmost one and end
the run with a target if it is true. An operator without its operands does nothing, so the
machine is total; a program whose stack depth was checked never comes to that.
-/

namespace Gonnect.BoolStack

open StraightLine

inductive Cmd (Target : Type) where
  | push (value : Bool)
  | not
  | and
  | or
  | halt (target : Target)
  | skip
deriving DecidableEq, Repr

variable {Target : Type}

def step : Cmd Target → List Bool → Outcome (List Bool) (Option Target)
  | .push value, stack => .next (value :: stack)
  | .not, value :: stack => .next ((!value) :: stack)
  | .and, b :: a :: stack => .next ((a && b) :: stack)
  | .or, b :: a :: stack => .next ((a || b) :: stack)
  | .halt target, true :: _ => .halt (some target)
  | .halt _, false :: stack => .next stack
  | _, stack => .next stack

def run (program : List (Cmd Target)) (stack : List Bool) : Option Target :=
  runModel step (fun _ => none) program stack

@[simp] theorem run_nil (stack : List Bool) : run ([] : List (Cmd Target)) stack = none :=
  rfl

@[simp] theorem run_push (value : Bool) (rest : List (Cmd Target)) (stack : List Bool) :
    run (.push value :: rest) stack = run rest (value :: stack) :=
  rfl

@[simp] theorem run_and (a b : Bool) (rest : List (Cmd Target)) (stack : List Bool) :
    run (.and :: rest) (b :: a :: stack) = run rest ((a && b) :: stack) :=
  rfl

@[simp] theorem run_halt (value : Bool) (target : Target) (rest : List (Cmd Target))
    (stack : List Bool) :
    run (.halt target :: rest) (value :: stack) = if value then some target else run rest stack := by
  cases value <;> rfl

theorem run_target {property : Target → Prop} {program : List (Cmd Target)}
    (targets : ∀ target, .halt target ∈ program → property target) (stack : List Bool) :
    ∀ target ∈ run program stack, property target := by
  induction program generalizing stack with
  | nil => simp
  | cons cmd rest ih =>
    have later := ih fun target member => targets target (List.mem_cons_of_mem _ member)
    rintro target ended
    unfold run runModel at ended
    split at ended
    · exact later _ target ended
    · rename_i answer halted
      have selected : cmd = .halt target := by
        unfold step at halted
        split at halted <;> cases halted
        cases ended
        rfl
      exact targets target (by simp [selected])

end Gonnect.BoolStack
