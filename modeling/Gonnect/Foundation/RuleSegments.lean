import Gonnect.Foundation.BoolStack

/-!
# Rules on a common stack

A program of `BoolStack` is a list of rules, each with a condition and a target. A program
that never runs out of operands leaves everything below them as it is (`walk_frame`). So if
every rule has its operands on its own, the program selects the first rule whose condition is
true (`run_flatten`).
-/

namespace Gonnect.BoolStack

open StraightLine List Option

variable {Target : Type}

def Cmd.depth : Cmd Target → ℕ → Option ℕ
  | .push _, depth => some (depth + 1)
  | .not, depth + 1 => some (depth + 1)
  | .and, depth + 2 => some (depth + 1)
  | .or, depth + 2 => some (depth + 1)
  | .halt _, depth + 1 => some depth
  | .skip, depth => some depth
  | _, _ => none

def depth : List (Cmd Target) → ℕ → Option ℕ
  | [], height => some height
  | cmd :: rest, height => (cmd.depth height).bind (depth rest)

def walk : List (Cmd Target) → List Bool → Outcome (List Bool) (Option Target)
  | [], stack => .next stack
  | cmd :: rest, stack =>
    match step cmd stack with
    | .next after => walk rest after
    | .halt answer => .halt answer

theorem run_cons (cmd : Cmd Target) (rest : List (Cmd Target)) (stack : List Bool) :
    run (cmd :: rest) stack =
      match step cmd stack with
      | .next after => run rest after
      | .halt answer => answer := by
  rw [run, runModel]
  cases step cmd stack with
  | next after | halt answer => rfl

theorem run_append (front back : List (Cmd Target)) (stack : List Bool) :
    run (front ++ back) stack =
      match walk front stack with
      | .next after => run back after
      | .halt answer => answer := by
  induction front generalizing stack with
  | nil => rfl
  | cons cmd rest ih =>
    rw [cons_append, run_cons, walk]
    cases step cmd stack with
    | next after => exact ih after
    | halt answer => rfl

theorem run_eq_walk (program : List (Cmd Target)) (stack : List Bool) :
    run program stack =
      match walk program stack with
      | .next _ => none
      | .halt answer => answer := by
  have whole := run_append program [] stack
  rw [append_nil] at whole
  exact whole

/-- What a program does on its own part of the stack, whatever is below. -/
inductive Framed (program : List (Cmd Target)) (own : List Bool) (height : ℕ) : Prop where
  | leaves (after : List Bool) (same : after.length = height)
      (walked : ∀ base, walk program (own ++ base) = .next (after ++ base))
  | selects (target : Target) (walked : ∀ base, walk program (own ++ base) = .halt (some target))

theorem step_frame {cmd : Cmd Target} {own : List Bool} {height : ℕ}
    (enough : cmd.depth own.length = some height) :
    (∃ after : List Bool, after.length = height ∧
        ∀ base, step cmd (own ++ base) = .next (after ++ base)) ∨
      ∃ target, ∀ base, step cmd (own ++ base) = .halt (some target) := by
  match cmd, own, enough with
  | .push value, own, enough =>
    cases enough
    exact .inl ⟨value :: own, rfl, fun _ => rfl⟩
  | .not, value :: own, enough =>
    cases enough
    exact .inl ⟨(!value) :: own, rfl, fun _ => rfl⟩
  | .and, b :: a :: own, enough =>
    cases enough
    exact .inl ⟨(a && b) :: own, rfl, fun _ => rfl⟩
  | .or, b :: a :: own, enough =>
    cases enough
    exact .inl ⟨(a || b) :: own, rfl, fun _ => rfl⟩
  | .halt target, true :: own, enough => exact .inr ⟨target, fun _ => rfl⟩
  | .halt target, false :: own, enough =>
    cases enough
    exact .inl ⟨own, rfl, fun _ => rfl⟩
  | .skip, own, enough =>
    cases enough
    refine .inl ⟨own, rfl, fun base => ?_⟩
    rfl

theorem walk_frame {program : List (Cmd Target)} {own : List Bool} {height : ℕ}
    (enough : depth program own.length = some height) : Framed program own height := by
  induction program generalizing own with
  | nil =>
    cases enough
    exact .leaves own rfl fun _ => rfl
  | cons cmd rest ih =>
    rcases bind_eq_some_iff.mp enough with ⟨between, first, later⟩
    rcases step_frame first with ⟨after, rfl, stepped⟩ | ⟨target, stepped⟩
    · cases ih later with
      | leaves last same walked =>
        exact .leaves last same fun base => by simp [walk, stepped, walked]
      | selects target walked =>
        exact .selects target fun base => by simp [walk, stepped, walked]
    · exact .selects target fun base => by simp only [walk, stepped]

variable (rule : List (Cmd Target))

def Closed : Prop :=
  (depth rule 0).isSome

instance : Decidable (Closed rule) :=
  inferInstanceAs (Decidable (_ = true))

/-- The target of a rule whose condition on its own is true. A rule that lacks an operand
has no condition. -/
def selected : Option Target :=
  if Closed rule then run rule [] else none

def firstMatch (rules : List (List (Cmd Target))) : Option Target :=
  rules.findSome? selected

theorem run_flatten {rules : List (List (Cmd Target))} (closed : ∀ rule ∈ rules, Closed rule)
    (stack : List Bool) : run rules.flatten stack = firstMatch rules := by
  induction rules generalizing stack with
  | nil => rfl
  | cons rule rest ih =>
    have isClosed : Closed rule := closed rule mem_cons_self
    have later := ih fun other member =>
      closed other (mem_cons_of_mem _ member)
    rcases isSome_iff_exists.mp isClosed with ⟨height, enough⟩
    have alone : selected rule = run rule [] := if_pos isClosed
    rw [flatten_cons, run_append, firstMatch, findSome?_cons, alone, run_eq_walk]
    cases @walk_frame _ rule [] height enough with
    | leaves after _ walked =>
      simp only [nil_append] at walked
      rw [walked stack, walked []]
      exact later _
    | selects target walked =>
      simp only [nil_append] at walked
      rw [walked stack, walked []]

def keptRules (rules : List (Bool × List (Cmd Target))) : List (List (Cmd Target)) :=
  (rules.filter Prod.fst).map Prod.snd

end Gonnect.BoolStack
