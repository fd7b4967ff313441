import Gonnect.Foundation.Checked

/-!
# Straight-line programs that may stop early

An interpreter without jumps walks over its instructions once. Each instruction changes the
state of the machine or ends the run with a result. A step may fault, so a run is a
`Checked` computation.

A checker walks over the same instructions in an abstract state. It is sound (`run_sound`)
if one step of the machine from a state that the abstract state describes does not fault and
ends in a state that the next abstract state describes. `run_simulates` compares a machine
with a model that cannot fault.
-/

namespace Gonnect

namespace StraightLine

open Checked

universe u

variable {Instr State Result Abstract : Type u}

inductive Outcome (State Result : Type u) where
  | next (state : State)
  | halt (result : Result)
deriving DecidableEq, Repr

def run (step : Instr → State → Checked (Outcome State Result)) (finish : State → Result) :
    List Instr → State → Checked Result
  | [], state => .ok (finish state)
  | instr :: rest, state => do
      match ← step instr state with
      | .next after => run step finish rest after
      | .halt result => .ok result

/-- A checker goes over the program from one abstract state to another. -/
inductive Checks (effect : Instr → Abstract → Abstract → Prop) :
    List Instr → Abstract → Abstract → Prop where
  | nil {state : Abstract} : Checks effect [] state state
  | cons {instr : Instr} {rest : List Instr} {before between after : Abstract} :
      effect instr before between → Checks effect rest between after →
        Checks effect (instr :: rest) before after

theorem Checks.forall_mem {effect : Instr → Abstract → Abstract → Prop} {program : List Instr}
    {start last : Abstract} (checked : Checks effect program start last) :
    ∀ instr ∈ program, ∃ before after, effect instr before after := by
  induction checked with
  | nil => simp
  | cons allowed _ ih =>
    intro instr member
    rcases List.mem_cons.mp member with rfl | later
    · exact ⟨_, _, allowed⟩
    · exact ih instr later

/-- An outcome that the checker foresaw: the abstract state after the instruction
describes the state to go on in, and a result is as wanted. -/
def Outcome.Described (describes : Abstract → State → Prop) (wanted : Result → Prop)
    (after : Abstract) : Outcome State Result → Prop
  | .next state => describes after state
  | .halt result => wanted result

section Soundness

variable {step : Instr → State → Checked (Outcome State Result)} {finish : State → Result}
  {effect : Instr → Abstract → Abstract → Prop} {describes : Abstract → State → Prop}
  {wanted : Result → Prop}

theorem run_sound (stepSound : ∀ instr before after state, effect instr before after →
      describes before state →
        ∃ outcome, step instr state = .ok outcome ∧ outcome.Described describes wanted after)
    {program : List Instr} {start last : Abstract} {state : State}
    (checked : Checks effect program start last) (described : describes start state)
    (finishSound : ∀ final, describes last final → wanted (finish final)) :
    ∃ result, run step finish program state = .ok result ∧ wanted result := by
  induction checked generalizing state with
  | nil => exact ⟨finish state, rfl, finishSound state described⟩
  | cons allowed _ ih =>
    rcases stepSound _ _ _ _ allowed described with ⟨outcome, taken, foreseen⟩
    cases outcome with
    | next next =>
      rcases ih foreseen finishSound with ⟨result, completed, holds⟩
      exact ⟨result, by simp [run, taken, ok_bind, completed], holds⟩
    | halt result =>
      exact ⟨result, by simp [run, taken, ok_bind], foreseen⟩

end Soundness

variable {Model Answer : Type u}

def runModel (step : Instr → Model → Outcome Model Answer) (finish : Model → Answer) :
    List Instr → Model → Answer
  | [], model => finish model
  | instr :: rest, model =>
    match step instr model with
    | .next after => runModel step finish rest after
    | .halt answer => answer

theorem runModel_map {Source : Type u} (translate : Source → Instr)
    (step : Instr → Model → Outcome Model Answer) (finish : Model → Answer)
    (program : List Source) (model : Model) :
    runModel step finish (program.map translate) model =
      runModel (fun source => step (translate source)) finish program model := by
  induction program generalizing model with
  | nil => rfl
  | cons source rest ih =>
    simp only [List.map_cons, runModel]
    split
    · exact ih _
    · rfl

def Outcome.Agree (related : State → Model → Prop) (agrees : Result → Answer → Prop) :
    Outcome State Result → Outcome Model Answer → Prop
  | .next state, .next model => related state model
  | .halt result, .halt answer => agrees result answer
  | _, _ => False

section Simulation

variable {step : Instr → State → Checked (Outcome State Result)} {finish : State → Result}
  {modelStep : Instr → Model → Outcome Model Answer} {modelFinish : Model → Answer}
  {effect : Instr → Abstract → Abstract → Prop} {related : Abstract → State → Model → Prop}
  {agrees : Result → Answer → Prop}

theorem run_simulates (stepAgrees : ∀ instr before after state model, effect instr before after →
      related before state model →
        ∃ outcome, step instr state = .ok outcome ∧
          outcome.Agree (related after) agrees (modelStep instr model))
    (finishAgrees : ∀ last state model, related last state model →
      agrees (finish state) (modelFinish model))
    {program : List Instr} {start last : Abstract} {state : State} {model : Model}
    (checked : Checks effect program start last) (initial : related start state model) :
    ∃ result, run step finish program state = .ok result ∧
      agrees result (runModel modelStep modelFinish program model) := by
  induction checked generalizing state model with
  | nil => exact ⟨finish state, rfl, finishAgrees _ _ _ initial⟩
  | cons allowed _ ih =>
    rcases stepAgrees _ _ _ _ _ allowed initial with ⟨outcome, taken, agree⟩
    match outcome, modelled : modelStep _ model, agree with
    | .next next, .next after, agree =>
      rcases ih agree with ⟨result, completed, holds⟩
      refine ⟨result, by simp [run, taken, ok_bind, completed], ?_⟩
      simpa only [runModel, modelled] using holds
    | .halt result, .halt answer, agree =>
      refine ⟨result, by simp [run, taken, ok_bind], ?_⟩
      simp only [runModel, modelled]
      exact agree

end Simulation

end StraightLine

end Gonnect
