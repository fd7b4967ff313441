import Mathlib.Data.Option.Basic

/-!
# Rejected connections

A listener runs its callbacks on each connection that it has accepted. When one of them returns
an error, the connection that it returns with the error is closed. The accepted connection is
closed only if the one returned is a way to it.
-/

namespace Gonnect.Loopback

variable {Conn : Type} (closes : Conn → Bool)

inductive AcceptError
  | errClosed
  | connRefused (network : String) (addr : Option String)
  | other (message : String)

/-- What a callback or a run of them returns, and whether it has closed the accepted
connection. -/
structure Accepted (Conn : Type) where
  conn : Option Conn
  err : Option AcceptError
  closed : Bool

structure CallbackSet (Conn : Type) where
  stopped : Bool
  onAccept : List (Option Conn → Accepted Conn)

/-- The loop of `runOnAccept`. Closing a connection that `closes` holds of closes the accepted
one. -/
def runCallbacks : List (Option Conn → Accepted Conn) → Option Conn → Bool → Accepted Conn
  | [], conn, closed => ⟨conn, none, closed⟩
  | callback :: callbacks, conn, closed =>
    let answer := callback conn
    match answer.err with
    | some err => ⟨none, some err, closed || answer.closed || answer.conn.any closes⟩
    | none => runCallbacks callbacks answer.conn (closed || answer.closed)

/-- `runOnAccept` on the connections of `Accept`, `runOnAcceptTCP` on those of `AcceptTCP`. -/
def runOnAccept (callbacks : Option (CallbackSet Conn)) (conn : Conn) : Accepted Conn :=
  match callbacks with
  | none => ⟨some conn, none, false⟩
  | some set =>
    if set.stopped then ⟨none, some .errClosed, closes conn⟩
    else runCallbacks closes set.onAccept (some conn) false

/-- The answer of the first callback that rejects; what the callbacks before it have closed
counts as closed by it. -/
def rejection : List (Option Conn → Accepted Conn) → Option Conn → Bool → Option (Accepted Conn)
  | [], _, _ => none
  | callback :: callbacks, conn, closed =>
    let answer := { callback conn with closed := closed || (callback conn).closed }
    if answer.err.isSome then some answer else rejection callbacks answer.conn answer.closed

theorem runCallbacks_closed_iff (callbacks : List (Option Conn → Accepted Conn))
    (conn : Option Conn) (closed : Bool) :
    let result := runCallbacks closes callbacks conn closed
    (result.err.isSome → result.closed = true) ↔
      ∀ answer ∈ rejection callbacks conn closed,
        answer.closed = true ∨ ∃ returned ∈ answer.conn, closes returned = true := by
  induction callbacks generalizing conn closed with
  | nil => simp [runCallbacks, rejection]
  | cons callback callbacks ih =>
    cases err : (callback conn).err with
    | none => simpa [runCallbacks, rejection, err] using ih _ _
    | some err => simp [runCallbacks, rejection, err, Option.any_eq_true]

/-- A rejected connection is closed exactly if the set is stopped, or the callback that rejects
it returns a way to it, or it was closed by then. -/
theorem rejected_closed_iff {closes : Conn → Bool} {conn : Conn} (own : closes conn = true)
    (callbacks : Option (CallbackSet Conn)) :
    let result := runOnAccept closes callbacks conn
    (result.err.isSome → result.closed = true) ↔
      ∀ set ∈ callbacks, set.stopped = false →
        ∀ answer ∈ rejection set.onAccept (some conn) false,
          answer.closed = true ∨ ∃ returned ∈ answer.conn, closes returned = true := by
  cases callbacks with
  | none => simp [runOnAccept]
  | some set =>
    cases stopped : set.stopped with
    | true => simp [runOnAccept, stopped, own]
    | false =>
      simpa [runOnAccept, stopped] using
        runCallbacks_closed_iff closes set.onAccept (some conn) false

/-- The callback that `ListenTCP` of a loopback network sets; `wrap` adds the tracking. -/
def registerTCPConnCallback (up : Bool) (remoteAddr : Conn → String) (wrap : Conn → Conn)
    (conn : Option Conn) : Accepted Conn :=
  if !up then ⟨none, some (.connRefused "tcp" (conn.map remoteAddr)), false⟩
  else ⟨conn.map wrap, none, false⟩

theorem rejected_closed_returned :
    let result := runOnAccept (fun _ => true)
      (some ⟨false, [registerTCPConnCallback true id id, (⟨·, some (.other "full"), false⟩)]⟩)
      "127.0.0.1:49152"
    result.err.isSome ∧ result.closed = true :=
  ⟨rfl, (rejected_closed_iff rfl _).mpr (by simp [rejection, registerTCPConnCallback]) rfl⟩

/-- While the network is down, a connection that it accepts is rejected and stays open. -/
theorem rejected_left_open :
    runOnAccept (fun _ => true) (some ⟨false, [registerTCPConnCallback false id id]⟩)
        "127.0.0.1:49152" =
      ⟨none, some (.connRefused "tcp" (some "127.0.0.1:49152")), false⟩ :=
  rfl

end Gonnect.Loopback
