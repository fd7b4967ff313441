import Mathlib.Logic.Function.Iterate

/-!
# Dialing a full listener

`DialTCP` reserves a local port and hands the server end of the new connection to `NewConn` of
the listener. While the accept queue is full `NewConn` waits for a change of it. It is not given
the context of the dial.
-/

namespace Gonnect.Loopback

open Function

/-- The part of a `loopbackTCPListener` that `NewConn` looks at. The connections in the queue
are known by the port that dialed. -/
structure AcceptQueue where
  capacity : ℕ
  acceptQ : List ℕ
  isClosed : Bool

inductive DialPhase
  | newConn
  | connected
  | failed

structure Dial where
  inUse : List ℕ
  listener : AcceptQueue
  port : ℕ
  cancelled : Bool
  phase : DialPhase

namespace Dial

/-- A turn of the goroutine of the call. A turn in which it waits changes nothing. -/
def turn (dial : Dial) : Dial :=
  match dial.phase with
  | .newConn =>
    if dial.listener.isClosed then
      -- The close of `clientConn` gives its port back.
      { dial with inUse := dial.inUse.erase dial.port, phase := .failed }
    else if dial.listener.acceptQ.length < dial.listener.capacity then
      { dial with listener.acceptQ := dial.listener.acceptQ ++ [dial.port], phase := .connected }
    else
      dial
  | .connected | .failed => dial

/-- The call has returned, and without a connection it has given its port back. -/
def Returned (inUse : List ℕ) (dial : Dial) : Prop :=
  dial.phase = .connected ∨ dial.phase = .failed ∧ dial.inUse = inUse

/-- With its context cancelled, and left alone, the call returns exactly if the listener is
closed or has room. -/
theorem cancelled_returns_iff (inUse : List ℕ) (listener : AcceptQueue) (port : ℕ) :
    (∃ turns, (turn^[turns] ⟨port :: inUse, listener, port, true, .newConn⟩).Returned inUse) ↔
      listener.isClosed = true ∨ listener.acceptQ.length < listener.capacity := by
  by_cases closed : listener.isClosed = true
  · refine iff_of_true ⟨1, .inr ?_⟩ (.inl closed)
    simp [turn, closed]
  by_cases room : listener.acceptQ.length < listener.capacity
  · refine iff_of_true ⟨1, .inl ?_⟩ (.inr room)
    simp [turn, closed, room]
  · refine iff_of_false ?_ (not_or.mpr ⟨closed, room⟩)
    rintro ⟨turns, returned⟩
    rw [iterate_fixed (by simp [turn, closed, room])] at returned
    rcases returned with ⟨⟨⟩⟩ | ⟨⟨⟩, _⟩

/-- One connection fills a queue for one, and the second dial does not return. -/
theorem cancelled_waits :
    ¬∃ turns, (turn^[turns] ⟨[49153, 49152], ⟨1, [49152], false⟩, 49153, true, .newConn⟩).Returned
      [49152] := by
  rintro ⟨turns, returned⟩
  rw [iterate_fixed rfl] at returned
  rcases returned with ⟨⟨⟩⟩ | ⟨⟨⟩, _⟩

end Dial

end Gonnect.Loopback
