import Gonnect.Foundation.RuleSegments
import Gonnect.Routing.InterpreterSafety

/-!
# Routing programs as programs of a stack machine

The interpreters of routers and sniffers do the same to the stack of truth values. They
differ in the truth of a predicate and in the result of a terminal. `Interprets.exec`
says that an interpreter with given truths and results computes what `BoolStack`
computes.
-/

namespace Gonnect.Routing

open Checked StraightLine BoolStack

/-- The command of an opcode, from the truth that it pushes if it is a predicate and the
result that it has if it is a terminal. -/
def Op.stackCommand {Result : Type} (op : Op) (truth : Bool) (result : Result) :
    BoolStack.Cmd Result :=
  match op with
  | .drop | .slot | .intercept | .route | .backend => .halt result
  | .pushTrue => .push true
  | .pushFalse => .push false
  | .not => .not
  | .and => .and
  | .or => .or
  | _ => .push truth

variable {Result : Type} {op : Op} {before : ℕ}

theorem Op.stackCommand_depth (op : Op) (truth : Bool) (result : Result) (depth : ℕ) :
    (op.stackCommand truth result).depth depth = depthEffect op depth := by
  cases op <;> rcases depth with _ | _ | depth <;> rfl

theorem Op.stackCommand_terminal (isTerminal : op.isTerminal = true) (truth : Bool)
    (result : Result) : op.stackCommand truth result = .halt result := by
  cases op <;> first
    | rfl
    | cases isTerminal

theorem Op.stackCommand_predicate (notTerminal : op.isTerminal = false)
    (notLogic : op.isLogic = false) (truth : Bool) (result : Result) :
    op.stackCommand truth result = .push truth := by
  cases op <;> first
    | rfl
    | exact absurd notTerminal (by decide)
    | exact absurd notLogic (by decide)

/-- The command of an instruction; a byte that is no opcode is skipped. -/
def Instr.command {Result : Type} (truth : Op → ℕ → Bool) (result : Op → ℕ → Result)
    (instr : Instr) : BoolStack.Cmd Result :=
  match instr.op with
  | some op => op.stackCommand (truth op instr.param) (result op instr.param)
  | none => .skip

variable {after : ℕ} {stack : Stack} {program : List Instr}

def SameStack (depth : ℕ) (stack model : List Bool) : Prop :=
  stack = model ∧ model.length = depth

def Answers {Result : Type} (default result : Result) (target : Option Result) : Prop :=
  result = target.getD default

theorem terminal_agrees {default result : Result}
    (enough : (BoolStack.Cmd.halt result).depth before = some after)
    (tall : stack.length = before) :
    ∃ outcome, terminal stack (.ok result) = .ok outcome ∧
      outcome.Agree (SameStack after) (Answers default) (step (.halt result) stack) := by
  match stack, before, tall, enough with
  | true :: rest, _, rfl, enough =>
    exact ⟨.halt result, rfl, rfl⟩
  | false :: rest, _, rfl, enough =>
    cases enough
    exact ⟨.next rest, rfl, rfl, rfl⟩

theorem logic_agrees (predicate : Op → Option (Checked Bool)) (truth : Bool) (result : Result)
    (isLogic : op.isLogic = true) (enough : depthEffect op before = some after)
    (tall : stack.length = before) :
    ∃ next, pushStep predicate op stack = .ok next ∧
      step (op.stackCommand truth result) stack = .next next ∧ next.length = after := by
  subst tall
  rcases Op.isLogic_cases isLogic with rfl | rfl | rfl | rfl | rfl
  all_goals
    match stack, enough with
    | [], enough | [_], enough | _ :: _ :: _, enough =>
      cases enough <;> exact ⟨_, rfl, rfl, rfl⟩

section Exec

variable {accepts : Op → ℕ → Prop} {step : Op → ℕ → Stack → Checked (Outcome Stack Result)}
    {truth : Op → ℕ → Bool} {result : Op → ℕ → Result}

theorem Interprets.step_agrees (interprets : Interprets accepts step truth result)
    {default : Result} {op : Op} {param before after : ℕ} {stack : Stack}
    (accepted : accepts op param) (enough : depthEffect op before = some after)
    (tall : stack.length = before) :
    ∃ outcome, step op param stack = .ok outcome ∧
      outcome.Agree (SameStack after) (Answers default)
        (BoolStack.step (op.stackCommand (truth op param) (result op param)) stack) := by
  cases terminalOp : op.isTerminal with
  | true =>
    rw [interprets.terminal stack accepted terminalOp, Op.stackCommand_terminal terminalOp]
    refine terminal_agrees ?_ tall
    rw [← enough, ← op.stackCommand_depth (truth op param) (result op param),
      Op.stackCommand_terminal terminalOp]
  | false =>
    rcases interprets.pushes stack accepted terminalOp with ⟨predicate, stepped, pushed⟩
    rw [stepped]
    cases logic : op.isLogic with
    | true =>
      rcases logic_agrees predicate (truth op param) (result op param) logic enough tall with
        ⟨next, computed, modelled, height⟩
      refine ⟨.next next, by rw [computed, ok_bind], ?_⟩
      rw [modelled]
      exact ⟨rfl, height⟩
    | false =>
      rw [depthEffect_predicate terminalOp logic] at enough
      cases enough
      refine ⟨.next (truth op param :: stack),
        by rw [pushStep_predicate logic (pushed logic), ok_bind], ?_⟩
      rw [Op.stackCommand_predicate terminalOp logic]
      exact ⟨rfl, congrArg (· + 1) tall⟩

theorem Interprets.exec (interprets : Interprets accepts step truth result) (default : Result)
    {name : String} {validateOp : ℕ → Op → ℕ → Except BytecodeError Unit}
    (sound : ∀ pc op param, validateOp pc op param = .ok () → accepts op param) {code : List UInt8}
    {last : ℕ} (accepted : validateLoop name validateOp depthEffect code 0 0 = .ok last)
    (decoded : decode code = .ok program) :
    execLoop step (fun _ => default) code 0 [] =
      .ok ((BoolStack.run (program.map (Instr.command truth result)) []).getD default) := by
  rcases validateLoop_decodes sound accepted with ⟨same, decodedAgain, checks⟩
  cases decoded.symm.trans decodedAgain
  rw [execLoop_eq_run decoded, BoolStack.run, runModel_map]
  have simulated : ∃ answer,
      run (fun instr => instr.perform step) (fun _ => default) program [] = .ok answer ∧
        Answers default answer (runModel
          (fun instr => BoolStack.step (instr.command truth result)) (fun _ => none) program []) := by
    have initial : SameStack 0 [] [] := ⟨rfl, rfl⟩
    refine run_simulates ?_ ?_ checks initial
    · rintro instr before after state model ⟨op, isOp, allowed, enough⟩ ⟨rfl, tall⟩
      rcases instr with ⟨_, param⟩
      cases isOp
      exact interprets.step_agrees allowed enough tall
    · intro last state model _
      rfl
  rcases simulated with ⟨answer, finished, answers⟩
  rw [finished, answers]

end Exec

end Gonnect.Routing
