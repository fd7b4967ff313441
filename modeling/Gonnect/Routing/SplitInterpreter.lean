import Gonnect.Routing.SplitSemantics

/-!
# The stack interpreter of the split router

For a program that passed validation, the interpreter computes what the abstract
machine of `BoolStack` does when every test pushes its truth. The array of the
interpreter is large enough, since `compileSplitBytecode` counts the depth that the
validator counts.
-/

namespace Gonnect.Routing

open Checked StraightLine List SplitRouter

variable {before after : ℕ}

namespace SplitRouter

structure Accepts (tables : Tables) (op : Op) (param : ℕ) : Prop where
  notMethod : op.isRouterMethod = false
  notSniffer : op.isSnifferOnly = false
  notDNS : op.isDNSOnly = false
  slot : op = .slot → param ≤ routerSlots
  inRange : tables.InRange op param

theorem checkIndex_sound {name : String} {pc param : ℕ} {table : Option (String × ℕ)}
    (accepted : checkIndex name pc param table = .ok ()) : ∀ entry ∈ table, param < entry.2 := by
  rintro ⟨label, size⟩ ⟨⟩
  cases indexed : bytecodeParamIndex param size with
  | none => simp [checkIndex, indexed] at accepted
  | some idx =>
    unfold bytecodeParamIndex at indexed
    split_ifs at indexed with empty outside
    exact Nat.lt_of_not_le outside

variable {tables : Tables}

theorem validateOp_sound {rules pc : ℕ} {op : Op} {param : ℕ}
    (accepted : validateOp tables rules pc op param = .ok ()) : Accepts tables op param := by
  unfold validateOp at accepted
  by_cases foreign : (op.isRouterMethod || op.isSnifferOnly || op.isDNSOnly) = true
  · rw [if_pos foreign] at accepted
    cases accepted
  · rw [if_neg foreign] at accepted
    simp only [Bool.or_eq_true, not_or, Bool.not_eq_true] at foreign
    rcases foreign with ⟨⟨notMethod, notSniffer⟩, notDNS⟩
    refine ⟨notMethod, notSniffer, notDNS, ?_, ?_⟩
    · rintro rfl
      split_ifs at accepted with large
      exact Nat.le_of_not_lt large
    · split at accepted
      · rintro entry ⟨⟩
      · rintro entry ⟨⟩
      · exact checkIndex_sound accepted

abbrev Validated (tables : Tables) : List Instr → ℕ → ℕ → Prop :=
  Checks (Instr.Valid (Accepts tables) depthEffect)

theorem splitMaxDepth_cons {instr : Instr}
    (valid : instr.Valid (Accepts tables) depthEffect before after) (rest : List Instr)
    (maxDepth : ℕ) :
    ∃ reached, splitMaxDepth (instr :: rest) before maxDepth = splitMaxDepth rest after reached ∧
      (after ≤ before ∨ after ≤ reached) := by
  rcases valid with ⟨op, known, accepted, enough⟩
  rcases accepted with ⟨_, notSniffer, notDNS, _, _⟩
  rw [splitMaxDepth, known]
  cases op <;> simp_all only [depthEffect, Op.isSnifferOnly, Op.isDNSOnly, Bool.true_eq_false]
  case drop | slot | not | and | or =>
      split_ifs at enough
      cases enough
      exact ⟨maxDepth, rfl, by omega⟩
  all_goals
    cases enough
    exact ⟨max maxDepth (before + 1), rfl, by omega⟩

theorem le_splitMaxDepth (program : List Instr) (depth maxDepth : ℕ) :
    maxDepth ≤ splitMaxDepth program depth maxDepth := by
  induction program generalizing depth maxDepth with
  | nil => exact le_refl _
  | cons instr rest ih =>
    unfold splitMaxDepth
    split
    case h_6 => exact le_trans (le_max_left _ _) (ih _ _)
    all_goals exact ih _ _

theorem Validated.bounded {program : List Instr} {depth last maxDepth bound : ℕ}
    (validated : Validated tables program depth last) (low : depth ≤ bound)
    (covered : splitMaxDepth program depth maxDepth ≤ bound) :
    Checks (fun instr before after =>
      instr.Valid (Accepts tables) depthEffect before after ∧ after ≤ bound) program depth last := by
  induction validated generalizing maxDepth with
  | nil => exact .nil
  | cons valid _ ih =>
    rcases splitMaxDepth_cons valid _ maxDepth with ⟨reached, counted, below⟩
    rw [counted] at covered
    have inside := le_trans (le_splitMaxDepth _ _ _) covered
    exact .cons ⟨valid, by omega⟩ (ih (by omega) covered)

end SplitRouter

namespace SplitStack

/-- The cells in use are the stack, with the top last. -/
structure Holds (stack : SplitStack) (values : List Bool) : Prop where
  height : stack.sp = values.length
  cells : stack.cells.take stack.sp = values.reverse

variable {stack : SplitStack} {values : List Bool}

theorem Holds.push (holds : stack.Holds values) (room : values.length < stack.cells.length)
    (value : Bool) :
    ∃ after, stack.push value = .ok after ∧ after.Holds (value :: values) ∧
      after.cells.length = stack.cells.length := by
  rw [← holds.height] at room
  refine ⟨⟨stack.cells.set stack.sp value, stack.sp + 1⟩, if_pos room, ⟨?_, ?_⟩, by simp⟩
  · simp [holds.height]
  · have inside : stack.sp < (stack.cells.set stack.sp value).length := by simpa using room
    rw [take_succ_eq_append_getElem inside, take_set_of_le (le_refl _), holds.cells]
    simp

theorem Holds.pop {value : Bool} (holds : stack.Holds (value :: values)) :
    ∃ after, stack.pop = .ok (value, after) ∧ after.Holds values ∧
      after.cells.length = stack.cells.length := by
  have height : stack.sp = values.length + 1 := holds.height
  have cells := holds.cells
  rw [height, reverse_cons] at cells
  have inside : values.length < stack.cells.length := by
    have := congrArg List.length cells
    simp only [length_take, length_append, length_reverse, length_cons,
      length_nil] at this
    omega
  rw [take_succ_eq_append_getElem inside] at cells
  rcases append_inj' cells rfl with ⟨below, top⟩
  have topValue : stack.cells[values.length] = value := by simpa using top
  refine ⟨{ stack with sp := stack.sp - 1 }, ?_, ⟨by simp [height], by simpa [height] using below⟩,
    rfl⟩
  unfold SplitStack.pop
  rw [if_neg (by omega), height, Nat.add_sub_cancel, index_eq_ok inside, topValue]
  rfl

end SplitStack

namespace SplitContext

variable (memory : SplitEval → Prop)

/-- The machine holds the stack of the model, has room up to the bound, and remembers
only what is right. -/
structure Simulates (bound depth : ℕ)
    (machine : SplitStack × SplitEval) (model : List Bool) : Prop where
  height : model.length = depth
  stack : machine.1.Holds model
  room : bound ≤ machine.1.cells.length
  memory : memory machine.2

def Selects (result : ℕ × SplitEval) (answer : Option ℕ) : Prop :=
  result.1 = answer.getD 0 ∧ memory result.2

abbrev Follows (bound depth : ℕ)
    (machine : Checked (Outcome (SplitStack × SplitEval) (ℕ × SplitEval)))
    (model : Outcome (List Bool) (Option ℕ)) : Prop :=
  ∃ outcome, machine = .ok outcome ∧
    outcome.Agree (Simulates memory bound depth) (Selects memory) model

variable {memory} {ctx : SplitContext} {bound depth : ℕ} {stack : SplitStack} {ev : SplitEval}
  {model : List Bool}

section

variable (simulates : Simulates memory bound depth (stack, ev) model)

include simulates

theorem Simulates.push (room : depth + 1 ≤ bound) (value : Bool) :
    ∃ after, stack.push value = .ok after ∧
      Simulates memory bound (depth + 1) (after, ev) (value :: model) := by
  have inside : model.length < stack.cells.length := by
    have height := simulates.height
    have large : bound ≤ stack.cells.length := simulates.room
    omega
  rcases simulates.stack.push inside value with ⟨after, pushed, holds, same⟩
  exact ⟨after, pushed, by simp [simulates.height], holds, same ▸ simulates.room, simulates.memory⟩

theorem Simulates.pop (enough : 0 < depth) :
    ∃ value rest after, model = value :: rest ∧ stack.pop = .ok (value, after) ∧
      Simulates memory bound (depth - 1) (after, ev) rest := by
  cases model with
  | nil => exact absurd simulates.height (ne_of_lt enough)
  | cons value rest =>
    rcases simulates.stack.pop with ⟨after, popped, holds, same⟩
    exact ⟨value, rest, after, rfl, popped, by simp [← simulates.height], holds,
      same ▸ simulates.room, simulates.memory⟩

theorem halt_agrees (enough : 0 < depth) (target : ℕ) :
    Follows memory bound (depth - 1) (do
        let (value, stack) ← stack.pop
        .ok (if value then .halt (target, ev) else .next (stack, ev)))
      (BoolStack.step (.halt target) model) := by
  rcases simulates.pop enough with ⟨value, rest, after, rfl, popped, below⟩
  simp only [popped, ok_bind]
  cases value with
  | true => exact ⟨_, rfl, rfl, simulates.memory⟩
  | false => exact ⟨_, rfl, below⟩

theorem push_agrees (room : depth + 1 ≤ bound) (value : Bool) :
    Follows memory bound (depth + 1) (do
        let stack ← stack.push value
        .ok (.next (stack, ev)))
      (BoolStack.step (.push value) model) := by
  rcases simulates.push room value with ⟨after, pushed, above⟩
  simp only [pushed, ok_bind]
  exact ⟨_, rfl, above⟩

theorem join_agrees {cmd : BoolStack.Cmd ℕ} {operator : Bool → Bool → Bool}
    (combines : ∀ b a rest, BoolStack.step cmd (b :: a :: rest) = .next (operator a b :: rest))
    (enough : 2 ≤ depth) (room : depth - 1 ≤ bound) :
    Follows memory bound (depth - 1) (do
        let (b, stack) ← stack.pop
        let (a, stack) ← stack.pop
        let stack ← stack.push (operator a b)
        .ok (.next (stack, ev)))
      (BoolStack.step cmd model) := by
  rcases simulates.pop (by omega) with ⟨b, rest, second, rfl, poppedB, below⟩
  rcases below.pop (by omega) with ⟨a, rest, third, rfl, poppedA, lowest⟩
  rcases lowest.push (by omega) (operator a b) with ⟨after, pushed, above⟩
  simp only [poppedB, poppedA, pushed, ok_bind, combines]
  refine ⟨_, rfl, ?_⟩
  rwa [Nat.sub_add_cancel (by omega)] at above

theorem not_agrees (enough : 0 < depth) (room : depth ≤ bound) :
    Follows memory bound depth (do
        let (value, stack) ← stack.pop
        let stack ← stack.push (!value)
        .ok (.next (stack, ev)))
      (BoolStack.step .not model) := by
  rcases simulates.pop enough with ⟨value, rest, second, rfl, popped, below⟩
  rcases below.push (by omega) (!value) with ⟨after, pushed, above⟩
  simp only [popped, pushed, ok_bind]
  refine ⟨_, rfl, ?_⟩
  rwa [Nat.sub_add_cancel enough] at above

theorem test_agrees (evaluates : ctx.Evaluates memory) {op : Op} {param : ℕ} {test : SplitM Bool}
    (inRange : ctx.router.tables.InRange op param) (listed : ctx.test op param = some test)
    (room : depth + 1 ≤ bound) :
    Follows memory bound (depth + 1) (do
        let (value, ev) ← test.run ev
        let stack ← stack.push value
        .ok (.next (stack, ev)))
      (BoolStack.step (.push (ctx.testHolds op param)) model) := by
  rcases test_yields evaluates inRange listed ev simulates.memory with
    ⟨value, after, tested, kept, rfl⟩
  simp only [tested, ok_bind]
  have remembered : Simulates memory bound depth (stack, after) model :=
    { simulates with memory := kept }
  exact push_agrees remembered room _

end

theorem step_agrees (evaluates : ctx.Evaluates memory) {instr : Instr}
    (valid : instr.Valid (Accepts ctx.router.tables) depthEffect before after)
    (room : after ≤ bound) (simulates : Simulates memory bound before (stack, ev) model) :
    Follows memory bound after (ctx.step instr (stack, ev))
      (BoolStack.step (ctx.reading.command instr) model) := by
  rcases instr with ⟨_, param⟩
  rcases valid with ⟨op, rfl, accepted, enough⟩
  cases op
  case drop | slot | not | and | or =>
      simp only [depthEffect] at enough
      split_ifs at enough with shallow
      cases enough
      first
        | exact halt_agrees simulates (by omega) _
        | exact not_agrees simulates (by omega) room
        | exact join_agrees simulates (fun _ _ _ => rfl) (by omega) room
  case pushTrue | pushFalse | fqdn | lfqdn =>
      cases enough
      exact push_agrees simulates room _
  case dial | listen | lookup => exact absurd accepted.notMethod (by decide)
  case intercept | sniff | sniffNone | route => exact absurd accepted.notSniffer (by decide)
  case backend | qtype | qclass | opcode => exact absurd accepted.notDNS (by decide)
  all_goals
    cases enough
    exact test_agrees simulates evaluates accepted.inRange rfl room

theorem interpret_yields (evaluates : ctx.Evaluates memory) {last : ℕ}
    (validated : Validated ctx.router.tables ctx.router.routeProgram 0 last)
    (counted : splitMaxDepth ctx.router.routeProgram 0 0 = ctx.router.routeStackDepth) :
    Yields memory ctx.interpret ctx.slot := by
  intro ev remembers
  have bounded := validated.bounded (Nat.zero_le _) (Nat.le_of_eq counted)
  have initial : Simulates memory ctx.router.routeStackDepth 0
      (⟨replicate (max 64 ctx.router.routeStackDepth) false, 0⟩, ev) [] :=
    ⟨rfl, ⟨rfl, rfl⟩, by simp, remembers⟩
  have stepAgrees : ∀ instr before after (machine : SplitStack × SplitEval) model,
      instr.Valid (Accepts ctx.router.tables) depthEffect before after ∧
          after ≤ ctx.router.routeStackDepth →
        Simulates memory ctx.router.routeStackDepth before machine model →
          Follows memory ctx.router.routeStackDepth after (ctx.step instr machine)
            (BoolStack.step (ctx.reading.command instr) model) := by
    rintro instr before after ⟨stack, ev⟩ model ⟨valid, room⟩ simulates
    exact step_agrees evaluates valid room simulates
  have finishAgrees : ∀ depth (machine : SplitStack × SplitEval) model,
      Simulates memory ctx.router.routeStackDepth depth machine model →
        Selects memory (0, machine.2) none :=
    fun _ _ _ simulates => ⟨rfl, simulates.memory⟩
  rcases run_simulates stepAgrees finishAgrees bounded initial with
    ⟨⟨slot, after⟩, computed, rfl, kept⟩
  refine ⟨_, after, computed, kept, ?_⟩
  rw [SplitContext.slot, BoolStack.run, runModel_map]

end SplitContext

end Gonnect.Routing
