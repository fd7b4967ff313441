import Mathlib.Data.List.Basic

/-!
# The reader of a nested tun

A `Joiner` reads every nested tun, and a `Splitter` its backend, in a goroutine of its own:
`readNested` and `readBackend` are the same loop, which waits while the flag `up` is not set.
The watcher sets it by the events of the tun. The reader clears it when a read says that the
tun is down, but in a step of its own after the read. If the watcher sees the tun go up again
in between, nobody sets the flag again.
-/

namespace Gonnect.Tun

inductive ReadOutcome (Packet : Type) where
  | packets (packets : List Packet)
  /-- `ErrDetachedTunDown` -/
  | down
  | terminated
  | failed

inductive ReaderPhase (Packet : Type) where
  | waitUp
  | isClosed
  | read
  /-- A read has said that the tun is down, and the flag is not yet cleared. -/
  | readDown
  | deliver (packets : List Packet)
  | returned
deriving DecidableEq

structure NestedReader (Packet : Type) where
  up : Bool
  closed : Bool
  phase : ReaderPhase Packet
  delivered : List (List Packet)

inductive TunEvent where
  | up
  | down
  | mtuUpdate

inductive ReaderAction (Packet : Type) where
  | watch (event : TunEvent)
  | step (outcome : ReadOutcome Packet)

variable {Packet : Type}

namespace NestedReader

def new : NestedReader Packet where
  up := true
  closed := false
  phase := .waitUp
  delivered := []

variable (reader : NestedReader Packet)

def setUp (up : Bool) : NestedReader Packet :=
  { reader with up := up }

def watchEvent : TunEvent → NestedReader Packet
  | .up => reader.setUp true
  | .down => reader.setUp false
  | .mtuUpdate => reader

/-- One step of `readNested` and `readBackend`; the outcome counts if the step is a read. -/
def step (outcome : ReadOutcome Packet) : NestedReader Packet :=
  match reader.phase with
  | .waitUp => if reader.up ∨ reader.closed then { reader with phase := .isClosed } else reader
  | .isClosed => { reader with phase := if reader.closed then .returned else .read }
  | .read =>
    match outcome with
    | .packets packets => { reader with phase := .deliver packets }
    | .down => { reader with phase := .readDown }
    | .terminated => { reader with phase := .returned, closed := true, up := false }
    | .failed => { reader with phase := .waitUp }
  | .readDown => { reader.setUp false with phase := .waitUp }
  | .deliver packets =>
    { reader with phase := .waitUp, delivered := reader.delivered ++ [packets] }
  | .returned => reader

def act : ReaderAction Packet → NestedReader Packet
  | .watch event => reader.watchEvent event
  | .step outcome => reader.step outcome

def goOn (reader : NestedReader Packet) (reads : ℕ → List Packet) : ℕ → NestedReader Packet
  | 0 => reader
  | count + 1 => (reader.goOn reads count).step (.packets (reads count))

/-- The reader calls `Read` again and again, and every time hands the packets on. -/
def KeepsReading (reads : ℕ → List Packet) : Prop :=
  ∀ count, ∃ later ≥ count, (reader.goOn reads later).phase = .read ∧
    (reader.goOn reads (later + 2)).delivered =
      (reader.goOn reads later).delivered ++ [reads later]

structure Running (reader : NestedReader Packet) : Prop where
  up : reader.up = true
  attached : reader.closed = false
  notDown : reader.phase ≠ .readDown
  notReturned : reader.phase ≠ .returned

variable {reader} (reads : ℕ → List Packet)

theorem Running.step (running : reader.Running) (packets : List Packet) :
    (reader.step (.packets packets)).Running := by
  rcases reader with ⟨up, closed, phase, delivered⟩
  rcases running with ⟨rfl, rfl, notDown, notReturned⟩
  cases phase with
  | readDown => exact absurd rfl notDown
  | returned => exact absurd rfl notReturned
  | _ => exact ⟨rfl, rfl, nofun, nofun⟩

theorem Running.goOn (running : reader.Running) (count : ℕ) :
    (reader.goOn reads count).Running := by
  induction count with
  | zero => exact running
  | succ count ih => exact ih.step _

theorem Running.reads_next (running : reader.Running) (count : ℕ) :
    ∃ later ≥ count, (reader.goOn reads later).phase = .read := by
  have here := running.goOn reads count
  cases phase : (reader.goOn reads count).phase with
  | readDown => exact absurd phase here.notDown
  | returned => exact absurd phase here.notReturned
  | waitUp =>
    refine ⟨count + 2, by omega, ?_⟩
    simp [NestedReader.goOn, NestedReader.step, phase, here.up, here.attached]
  | isClosed =>
    refine ⟨count + 1, by omega, ?_⟩
    simp [NestedReader.goOn, NestedReader.step, phase, here.attached]
  | read => exact ⟨count, Nat.le_refl _, phase⟩
  | deliver packets =>
    refine ⟨count + 3, by omega, ?_⟩
    simp [NestedReader.goOn, NestedReader.step, phase, here.up, here.attached]

theorem parked (attached : reader.closed = false) (late : reader.phase = .readDown) (count : ℕ) :
    (reader.goOn reads (count + 1)).phase = .waitUp ∧
      (reader.goOn reads (count + 1)).up = false ∧
      (reader.goOn reads (count + 1)).closed = false := by
  induction count with
  | zero => simp [goOn, step, setUp, late, attached]
  | succ count ih =>
    rw [goOn, step, ih.1]
    simpa [ih.2.1, ih.2.2] using ih

/-- When the last event says that the tun is up and every later read succeeds, the reader goes
on, unless it has yet to clear the flag after an earlier read. -/
theorem keepsReading_after_up_iff {before : NestedReader Packet}
    (attached : before.closed = false) (reading : before.phase ≠ .returned)
    (reads : ℕ → List Packet) :
    (before.watchEvent .up).KeepsReading reads ↔ before.phase ≠ .readDown := by
  constructor
  · intro keeps late
    rcases keeps 1 with ⟨later, atLeast, isRead, _⟩
    obtain ⟨count, rfl⟩ : ∃ count, later = count + 1 := ⟨later - 1, by omega⟩
    have isParked := (@parked _ (before.watchEvent .up) reads attached late count).1
    cases isParked.symm.trans isRead
  · intro notDown count
    have running : (before.watchEvent .up).Running := ⟨rfl, attached, notDown, reading⟩
    rcases running.reads_next reads count with ⟨later, atLeast, isRead⟩
    exact ⟨later, atLeast, isRead, by simp [goOn, step, isRead]⟩

theorem keepsReading_after_up_first :
    ((new : NestedReader ℕ).watchEvent .up).KeepsReading fun count => [count] :=
  (keepsReading_after_up_iff rfl (by decide) _).mpr (by decide)

/-- The read returns before the tun goes down and up, and the reader clears the flag after. -/
theorem up_event_overwritten :
    let actions : List (ReaderAction ℕ) :=
      [.step .failed, .step .failed, .step .down, .watch .down, .watch .up]
    let reader := actions.foldl act new
    reader.up = true ∧ reader.closed = false ∧ ∀ reads, ¬reader.KeepsReading reads := by
  refine ⟨rfl, rfl, fun reads keeps => ?_⟩
  rcases keeps 1 with ⟨later, atLeast, isRead, _⟩
  obtain ⟨count, rfl⟩ : ∃ count, later = count + 1 := ⟨later - 1, by omega⟩
  cases (parked reads rfl rfl count).1.symm.trans isRead

end NestedReader

end Gonnect.Tun
