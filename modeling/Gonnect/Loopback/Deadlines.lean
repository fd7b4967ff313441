import Mathlib.Data.Int.Order.Basic
import Mathlib.Order.MinMax

/-!
# Deadlines of blocked calls

`ReadFrom` of the UDP connections of the loopback network and of the router, and `AcceptTCP` of
the loopback listener, look at the deadline once, when they start, and make their timer for it.
-/

namespace Gonnect.Loopback

/-- A deadline in nanoseconds, where the zero time is none. -/
def due (deadline : Option ℤ) (now : ℤ) : Bool :=
  deadline.any (· ≤ now)

structure Blocked (α : Type) where
  deadline : Option ℤ
  /-- The deadline that the timer of the call was made for. -/
  timer : Option ℤ
  queue : List α
  closed : Bool

inductive WaitOutcome (α : Type)
  | received (value : α)
  | timeout
  | closed

namespace Blocked

variable {α : Type}

/-- The call has read the deadline and found nothing to return. -/
def start (deadline : Option ℤ) : Blocked α :=
  ⟨deadline, deadline, [], false⟩

def setDeadline (blocked : Blocked α) (deadline : Option ℤ) : Blocked α :=
  { blocked with deadline }

variable (blocked : Blocked α) (now : ℤ)

def timeouts : List (WaitOutcome α) :=
  if due blocked.timer now then [.timeout] else []

/-- The cases that are ready of a `select` over packets, the timer and the end. -/
def selectPacket : List (WaitOutcome α) :=
  (blocked.queue.take 1).map .received ++ blocked.timeouts now ++
    if blocked.closed then [.closed] else []

/-- `ReadFrom` of `loopbackUDPConn`. -/
def readFrom : List (WaitOutcome α) :=
  blocked.selectPacket now

/-- `ReadFrom` of `routerUDPConn`. -/
def routerReadFrom : List (WaitOutcome α) :=
  blocked.selectPacket now

def acceptTCP : List (WaitOutcome α) :=
  if blocked.closed then [.closed]
  else
    match blocked.queue with
    | conn :: _ => [.received conn]
    | [] => blocked.timeouts now

/-- At a time a timeout is possible exactly if the deadline that was set last is over. -/
def GovernedAt : Prop :=
  (.timeout ∈ blocked.readFrom now ↔ due blocked.deadline now = true) ∧
    (.timeout ∈ blocked.routerReadFrom now ↔ due blocked.deadline now = true) ∧
    (.timeout ∈ blocked.acceptTCP now ↔ due blocked.deadline now = true)

theorem deadlines_set (updates : List (Option ℤ)) :
    (updates.foldl setDeadline blocked).timer = blocked.timer ∧
      (updates.foldl setDeadline blocked).queue = blocked.queue ∧
      (updates.foldl setDeadline blocked).closed = blocked.closed := by
  induction updates generalizing blocked with
  | nil => exact ⟨rfl, rfl, rfl⟩
  | cons deadline updates ih => exact ih (blocked.setDeadline deadline)

theorem due_alike_iff {first last : Option ℤ} {moment : ℤ} (early : due first moment = false) :
    (∀ now ≥ moment, due first now = true ↔ due last now = true) ↔ last = first := by
  constructor
  · intro alike
    rcases first with _ | first <;> rcases last with _ | last
    · rfl
    · simpa [due] using alike (max moment last) (le_max_left _ _)
    · have later : moment < first := by simpa [due] using early
      simpa [due] using alike first later.le
    · have later : moment < first := by simpa [due] using early
      have atFirst := alike first later.le
      have atLast := alike (max moment last) (le_max_left _ _)
      simp only [due, Option.any_some, decide_eq_true_eq, le_refl, true_iff] at atFirst atLast
      simp only [le_max_right, iff_true] at atLast
      congr 1
      omega
  · rintro rfl now _
    rfl

/-- A call that is still blocked at a moment keeps to the deadline that was set last exactly if
it is the one the call started with. -/
theorem governed_iff {deadline : Option ℤ} {moment : ℤ} (early : due deadline moment = false)
    (updates : List (Option ℤ)) :
    let blocked : Blocked α := updates.foldl setDeadline (start deadline)
    (∀ now ≥ moment, blocked.GovernedAt now) ↔ blocked.deadline = deadline := by
  intro blocked
  obtain ⟨timer, queue, closed⟩ : blocked.timer = deadline ∧ blocked.queue = [] ∧
      blocked.closed = false := deadlines_set _ updates
  have answers (now : ℤ) : blocked.GovernedAt now ↔
      (due deadline now = true ↔ due blocked.deadline now = true) := by
    simp [GovernedAt, readFrom, routerReadFrom, selectPacket, acceptTCP, timeouts, timer, queue,
      closed]
  simp only [answers, due_alike_iff early]

theorem governed_unchanged :
    let blocked := ((start (some 5) : Blocked Unit).setDeadline none).setDeadline (some 5)
    due (some 5) 3 = false ∧ ∀ now ≥ 3, blocked.GovernedAt now :=
  ⟨rfl, (governed_iff rfl [none, some 5]).mpr rfl⟩

/-- A deadline that has passed is set, and the call that waits without one does not end. -/
theorem past_deadline_ignored :
    let blocked := (start none : Blocked Unit).setDeadline (some 0)
    due blocked.deadline 1 = true ∧ blocked.readFrom 1 = [] ∧
      blocked.routerReadFrom 1 = [] ∧ blocked.acceptTCP 1 = [] :=
  ⟨rfl, rfl, rfl, rfl⟩

end Blocked

end Gonnect.Loopback
