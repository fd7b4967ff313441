import Mathlib
import Gonnect.Foundation.Checked
import Gonnect.Foundation.Text

/-!
# The byte loops shared by the stream classifiers

A classifier is fed the stream in chunks. Most classifiers run one loop over the bytes of a
chunk: each byte changes the memory and may settle the result, and when the chunk ends first
a last test looks at the memory. The four loops of the package differ in the step only, so
the loop is written once and its safety is proved once.
-/

namespace Gonnect.Sniffer

open Checked List

/-- The result of a classifier so far. `matched` and `mismatch` are final. -/
inductive State where
  | needMore
  | matched
  | mismatch
deriving DecidableEq, Repr

def State.ofBool (accepted : Bool) : State :=
  if accepted then .matched else .mismatch

/-- `protocolHasBytes` and `tlsHasBytes`, for operands that are never negative. -/
def protocolHasBytes (data : List UInt8) (offset count : ℕ) : Bool :=
  decide (offset ≤ data.length ∧ count ≤ data.length - offset)

variable {offset count : ℕ}

@[simp] theorem protocolHasBytes_iff {data : List UInt8} :
    protocolHasBytes data offset count = true ↔ offset + count ≤ data.length := by
  simp only [protocolHasBytes, decide_eq_true_eq]
  omega

theorem safe_guardBytes {α : Type} {data : List UInt8} {value : α} {rest : Checked α}
    (safeRest : offset + count ≤ data.length → Safe rest) :
    Safe (if ¬protocolHasBytes data offset count then pure value else rest) :=
  Safe.guard fun present => safeRest (protocolHasBytes_iff.mp (not_not.mp present))

variable {Memory : Type}

/-- Take the bytes of a chunk one by one until a step settles the result. -/
def feedLoop (step : Memory → UInt8 → Checked (Memory × State)) (finish : Memory → State) :
    Memory → List UInt8 → Checked (Memory × State)
  | memory, [] => .ok (memory, finish memory)
  | memory, byte :: rest => do
      let (next, state) ← step memory byte
      if state = .needMore then
        feedLoop step finish next rest
      else
        return (next, state)

variable {step : Memory → UInt8 → Checked (Memory × State)} {finish : Memory → State}
  {Fit : Memory → Prop}

theorem feedLoop_safe (safeStep : ∀ memory byte, Fit memory → Safe (step memory byte))
    (keepsFit : ∀ memory byte next, Fit memory →
      step memory byte = .ok (next, .needMore) → Fit next) :
    ∀ chunk memory, Fit memory → Safe (feedLoop step finish memory chunk) := by
  intro chunk
  induction chunk with
  | nil =>
    intro memory fit
    exact safe_ok _
  | cons byte rest ih =>
    intro memory fit
    apply Safe.bind (safeStep memory byte fit)
    rintro ⟨next, state⟩ stepped
    apply Safe.ite
    · intro more
      apply ih
      subst more
      exact keepsFit memory byte next fit stepped
    · intro settled
      exact safe_ok _

theorem feedLoop_keeps (keepsFit : ∀ memory byte next, Fit memory →
      step memory byte = .ok (next, .needMore) → Fit next) :
    ∀ chunk memory next, Fit memory →
      feedLoop step finish memory chunk = .ok (next, .needMore) → Fit next := by
  intro chunk
  induction chunk with
  | nil =>
    intro memory next fit fed
    simp only [feedLoop, Except.ok.injEq, Prod.mk.injEq] at fed
    exact fed.1 ▸ fit
  | cons byte rest ih =>
    intro memory next fit fed
    rcases of_bind fed with ⟨⟨middle, state⟩, stepped, continued⟩
    by_cases more : state = .needMore
    · subst more
      exact ih middle next (keepsFit memory byte middle fit stepped) continued
    · simp only [if_neg more, pure_eq_ok, Except.ok.injEq, Prod.mk.injEq] at continued
      exact absurd continued.2 more

variable (maxBytes : ℕ) (line : List UInt8) (limit : ℕ)

/-- The step of `protocolPrefixClassifier`, shared by the MQTT and Redis classifiers. -/
def protocolPrefixStep (matchPrefix : List UInt8 → Checked State) (buf : List UInt8)
    (byte : UInt8) : Checked (List UInt8 × State) :=
  if buf.length = maxBytes then
    .ok (buf, .mismatch)
  else do
    let state ← matchPrefix (buf ++ [byte])
    return (buf ++ [byte], state)

/-- The end of a chunk in `protocolPrefixClassifier` and `boundedCRLFLineClassifier`. -/
def boundedFinish (buf : List UInt8) : State :=
  if buf.length = maxBytes then .mismatch else .needMore

theorem protocolPrefixStep_safe {maxBytes : ℕ} {matchPrefix : List UInt8 → Checked State}
    (safeMatch : ∀ data, Safe (matchPrefix data)) (buf : List UInt8) (byte : UInt8) :
    Safe (protocolPrefixStep maxBytes matchPrefix buf byte) := by
  apply Safe.ite
  · intro full
    exact safe_ok _
  · intro room
    exact Safe.map (safeMatch _)

/--
The step of the classifiers of a header of fixed size. A full header takes no
further byte. `early` looks at the header after every byte and `valid` at the
full one.
-/
def headerStep (size : ℕ) (early valid : List UInt8 → Checked Bool)
    (buf : List UInt8) (byte : UInt8) : Checked (List UInt8 × State) :=
  if buf.length = size then
    .ok (buf, .needMore)
  else do
    if ← early (buf ++ [byte]) then
      return (buf ++ [byte], .mismatch)
    if (buf ++ [byte]).length = size then
      return (buf ++ [byte], State.ofBool (← valid (buf ++ [byte])))
    return (buf ++ [byte], .needMore)

theorem headerStep_safe {size : ℕ} {early valid : List UInt8 → Checked Bool}
    (safeEarly : ∀ data, data ≠ [] → Safe (early data)) (safeValid : ∀ data, Safe (valid data))
    (buf : List UInt8) (byte : UInt8) : Safe (headerStep size early valid buf byte) := by
  apply Safe.ite
  · intro full
    exact safe_ok _
  · intro room
    apply Safe.bind (safeEarly _ (by simp))
    intro rejected looked
    apply Safe.ite
    · intro reject
      exact safe_ok _
    · intro accept
      apply Safe.ite
      · intro complete
        exact Safe.map (safeValid _)
      · intro incomplete
        exact safe_ok _

def endsWithCarriage : Checked Bool := do
  if line.length = 0 then
    return false
  return (← index line (line.length - 1)) = 13

theorem endsWithCarriage_safe : Safe (endsWithCarriage line) := by
  apply Safe.guard
  intro nonempty
  exact Safe.lastAt

/--
Keep the part of a chunk that fits into `limit` bytes. Without room the
classifiers with such a limit give up, which is `none` here.
-/
def appendBounded (buf chunk : List UInt8) : Checked (Option (List UInt8)) := do
  if chunk.length = 0 then
    return some buf
  let remaining := limit - buf.length
  if remaining = 0 then
    return none
  if remaining < chunk.length then
    return some (buf ++ (← window chunk 0 remaining))
  return some (buf ++ chunk)

theorem appendBounded_eq {limit : ℕ} {buf chunk : List UInt8} (fits : buf.length ≤ limit) :
    appendBounded limit buf chunk =
      .ok (if chunk ≠ [] ∧ buf.length = limit then none else some ((buf ++ chunk).take limit)) := by
  have whole : buf.take limit = buf := take_of_length_le fits
  unfold appendBounded
  by_cases empty : chunk = []
  · simp [empty, whole]
  · have positive : chunk.length ≠ 0 := by simpa using empty
    rw [if_neg positive]
    by_cases full : buf.length = limit
    · simp [empty, full]
    · have room : ¬limit - buf.length = 0 := by omega
      have unfilled : ¬(chunk ≠ [] ∧ buf.length = limit) := fun both => full both.2
      rw [if_neg room, if_neg unfilled, take_append, whole]
      by_cases long : limit - buf.length < chunk.length
      · rw [if_pos long, window_eq_ok (by omega) (by omega)]
        simp
      · rw [if_neg long, take_of_length_le (Nat.le_of_not_lt long)]
        rfl

theorem appendBounded_safe (buf chunk : List UInt8) : Safe (appendBounded limit buf chunk) := by
  apply Safe.skip
  apply Safe.skip
  apply Safe.ite
  · intro long
    apply Safe.readWindow ?_
    intro part partLength
    exact safe_ok _
  · intro short
    exact safe_ok _

section Reports

variable {state : State}

def reported (outcome : Checked (Memory × State)) : Checked State :=
  outcome.map Prod.snd

@[simp] theorem reported_ok (memory : Memory) (state : State) :
    reported (.ok (memory, state)) = .ok state :=
  rfl

@[simp] theorem reported_error (fault : Fault) :
    reported (.error fault : Checked (Memory × State)) = .error fault :=
  rfl

theorem of_reported {outcome : Checked (Memory × State)} {state : State}
    (answered : reported outcome = .ok state) : ∃ memory, outcome = .ok (memory, state) := by
  rcases outcome with fault | ⟨memory, reached⟩
  · cases answered
  · cases answered
    exact ⟨memory, rfl⟩

theorem safe_reported {outcome : Checked (Memory × State)} :
    Safe (reported outcome) ↔ Safe outcome := by
  cases outcome with
  | error fault => simp
  | ok result => exact iff_of_true (safe_ok _) (safe_ok _)

/-- A later report counts while the result is open. -/
def resume (state : State) (later : Checked State) : Checked State :=
  if state = .needMore then later else .ok state

@[simp] theorem resume_needMore (later : Checked State) : resume .needMore later = later :=
  rfl

theorem resume_final (final : state ≠ .needMore) (later : Checked State) :
    resume state later = .ok state :=
  if_neg final

end Reports

end Gonnect.Sniffer
