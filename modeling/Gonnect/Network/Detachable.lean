import Mathlib.Data.Nat.Notation
import Mathlib.Logic.Relation

/-!
# Operations of a detached network

`runDetachedOp` runs an operation in a worker, which sends the result on a channel with room for
one. The caller takes the result, or leaves when the wrapper is shut down or the context is done;
then a closer takes the result.
-/

namespace Gonnect.Network

open Relation

variable {T : Type}

inductive OpError
  | errClosed
  | ctxErr
  | refused
  | failed (message : String)

abbrev OpResult (T : Type) := T × Option OpError

inductive Worker (T : Type)
  | refused
  | calling
  | sending (result : OpResult T)
  | sent (result : OpResult T)

inductive Caller (T : Type)
  | selecting
  | cancelled
  | returned (value : Option T) (err : Option OpError)

inductive Closer
  | absent
  | waiting
  | done

structure DetachedOp (T : Type) where
  wrapperDone : Bool
  ctxDone : Bool
  worker : Worker T
  ch : List (OpResult T)
  caller : Caller T
  closer : Closer
  /-- The values that `closeLate` was called with. -/
  late : List T

/-- The value of a result without an error. -/
def OpResult.values : OpResult T → List T
  | (value, none) => [value]
  | _ => []

namespace DetachedOp

def start (spawned : Bool) : DetachedOp T :=
  if spawned then ⟨false, false, .calling, [], .selecting, .absent, []⟩
  else ⟨false, false, .refused, [], .returned none (some .refused), .absent, []⟩

variable (op : DetachedOp T)

inductive Meets : DetachedOp T → Prop
  | shutdown : Meets { op with wrapperDone := true }
  | cancel : Meets { op with ctxDone := true }
  | complete (result : OpResult T) : op.worker = .calling →
      Meets { op with worker := .sending result }

/-- The steps of the goroutines. A `select` takes any case that is ready. -/
inductive Goes : DetachedOp T → Prop
  | send {result : OpResult T} : op.worker = .sending result → op.ch.length < 1 →
      Goes { op with worker := .sent result, ch := op.ch ++ [result] }
  | receive {result : OpResult T} {rest : List (OpResult T)} : op.caller = .selecting →
      op.ch = result :: rest →
      Goes { op with caller := .returned (some result.1) result.2, ch := rest }
  | shutdown : op.caller = .selecting → op.wrapperDone = true →
      Goes { op with caller := .returned none (some .errClosed), closer := .waiting }
  | cancel : op.caller = .selecting → op.ctxDone = true →
      Goes { op with caller := .cancelled, closer := .waiting }
  | leave : op.caller = .cancelled → Goes { op with
      caller := .returned none (some (if op.wrapperDone then .errClosed else .ctxErr)) }
  | closeLate {result : OpResult T} {rest : List (OpResult T)} : op.closer = .waiting →
      op.ch = result :: rest →
      Goes { op with closer := .done, ch := rest, late := op.late ++ result.values }

def produced : List T :=
  match op.worker with
  | .sending result | .sent result => result.values
  | _ => []

def handedOver : List T :=
  (match op.caller with
    | .returned (some value) err => OpResult.values (value, err)
    | _ => []) ++ op.late

/-- The result is still to be taken, by the caller or by the closer. -/
def Untaken : Prop :=
  op.handedOver = [] ∧ op.closer ≠ .done ∧ (op.caller = .selecting ↔ op.closer = .absent)

def Settled : Prop :=
  op.ch = [] ∧ op.caller ≠ .selecting ∧ op.closer ≠ .waiting ∧ op.handedOver = op.produced

def Sound : Prop :=
  match op.worker with
  | .refused => op.Settled
  | .calling | .sending _ => op.ch = [] ∧ op.Untaken
  | .sent result => op.ch = [result] ∧ op.Untaken ∨ op.Settled

def left : ℕ :=
  (match op.worker with | .calling | .sending _ => 1 | _ => 0) +
    (match op.caller with | .selecting => 3 | .cancelled => 1 | _ => 0) +
    match op.closer with | .waiting => 1 | _ => 0

def Step (after : DetachedOp T) : Prop :=
  op.Meets after ∨ op.Goes after

variable {op} {after : DetachedOp T}

theorem Meets.sound (step : op.Meets after) (sound : op.Sound) :
    after.Sound ∧ after.left = op.left := by
  cases step with
  | shutdown | cancel => exact ⟨sound, rfl⟩
  | complete result calling => simp_all [Sound, Untaken, handedOver, left]

theorem Goes.sound (step : op.Goes after) (sound : op.Sound) :
    after.Sound ∧ after.left < op.left := by
  rcases op with ⟨_, _, worker, _, _, _, _⟩
  -- Where the result is depends on the worker, and who takes it on the step.
  cases step <;> cases worker <;>
    simp_all [Sound, Settled, Untaken, left, produced, handedOver]

theorem sound_of_run {spawned : Bool} (run : ReflTransGen Step (start spawned) op) : op.Sound := by
  induction run with
  | refl => cases spawned <;> simp [start, Sound, Settled, Untaken, handedOver, produced]
  | tail _ step ih =>
    rcases step with met | went
    · exact (met.sound ih).1
    · exact (went.sound ih).1

theorem Untaken.goes {result : OpResult T} (untaken : op.Untaken) (buffered : op.ch = [result]) :
    ∃ after, op.Goes after := by
  rcases untaken with ⟨_, open_, absent⟩
  cases closer : op.closer with
  | absent => exact ⟨_, .receive (absent.mpr closer) buffered⟩
  | waiting => exact ⟨_, .closeLate closer buffered⟩
  | done => exact absurd closer open_

/-- In every interleaving the worker can send, and what was handed over, to the caller or to
`closeLate`, is nothing or the produced value. The goroutines end, and then it is the value. -/
theorem handed_over_once {spawned : Bool} (run : ReflTransGen Step (start spawned) op) :
    (∀ result, op.worker = .sending result → op.ch.length < 1) ∧
      (op.handedOver = [] ∨ op.handedOver = op.produced) ∧
      (∀ after, (op.Meets after → after.left = op.left) ∧ (op.Goes after → after.left < op.left)) ∧
      ((∀ after, ¬op.Goes after) → op.handedOver = op.produced) := by
  have sound := sound_of_run run
  refine ⟨?_, ?_, fun after => ⟨fun met => (met.sound sound).2, fun went => (went.sound sound).2⟩,
    ?_⟩
  · intro result sending
    simp_all [Sound]
  · grind [Sound, Untaken, Settled]
  · intro quiet
    unfold Sound at sound
    split at sound
    · exact sound.2.2.2
    · rename_i calling
      simp [produced, calling, sound.2.1]
    · rename_i sending
      exact absurd (.send sending (by simp [sound.1])) (quiet _)
    · rcases sound with ⟨buffered, untaken⟩ | settled
      · exact absurd (untaken.goes buffered) (not_exists.mpr quiet)
      · exact settled.2.2.2

theorem late_value_closed :
    let op : DetachedOp ℕ :=
      ⟨false, true, .sent (7, none), [], .returned none (some .ctxErr), .done, [7]⟩
    ReflTransGen Step (start true) op ∧ op.handedOver = op.produced := by
  have run : ReflTransGen Step (start true) _ := ReflTransGen.refl.tail (.inl .cancel)
    |>.tail (.inr (.cancel rfl rfl)) |>.tail (.inr (.leave rfl))
    |>.tail (.inl (.complete (7, none) rfl)) |>.tail (.inr (.send rfl Nat.one_pos))
    |>.tail (.inr (.closeLate rfl rfl))
  exact ⟨run, (handed_over_once run).2.2.2 (by rintro _ ⟨⟩ <;> contradiction)⟩

end DetachedOp

end Gonnect.Network
