import Mathlib
import Gonnect.Foundation.Run
import Gonnect.Foundation.Slice

/-!
# One direction of a loopback TCP connection

A `Write` appends to the slice of a `loopbackTCPStream` while it has spare capacity and waits
otherwise. A `Read` copies from the front of the slice, moves the slice past these bytes and
wakes the writers. The mutex is given up only in a wait, so one atomic step is the part of a
call up to its return or its next wait.

Moving the slice gives up the cells it leaves behind. So the waiting writes of a run return
exactly if the run offers no more bytes than the buffer has cells, however much has been
read.
-/

namespace Gonnect.Loopback

open List Slice

def loopbackTCPBufferSize : ℕ := 64 * 1024

inductive StreamError where
  | netClosed
  | eof
  | closedPipe
  | opClosed (op : String)
  | timeout (op : String)
  deriving DecidableEq, Repr

/-- `loopbackTCPStream` without its mutex and condition variables. -/
structure TCPStream where
  buf : Slice UInt8
  readerClosed : Bool
  writerClosed : Bool

def newLoopbackTCPStream : TCPStream where
  buf := make loopbackTCPBufferSize
  readerClosed := false
  writerClosed := false

structure ConnStatus where
  closed : Bool
  deadlineExpired : Bool

def ConnStatus.idle : ConnStatus where
  closed := false
  deadlineExpired := false

inductive ReadResult where
  | returned (data : List UInt8) (err : Option StreamError)
  | waiting

inductive WriteResult where
  | returned (written : ℕ) (err : Option StreamError)
  | waiting (written : ℕ)

namespace TCPStream

/-- `loopbackTCPPipeConn.Read` up to its return or its next wait. -/
def read (status : ConnStatus) (room : ℕ) (stream : TCPStream) : ReadResult × TCPStream :=
  if status.closed then
    (.returned [] (some (.opClosed "read")), stream)
  else if 0 < stream.buf.elems.length then
    (.returned (stream.buf.elems.take room) none, { stream with buf := stream.buf.dropFront room })
  else if stream.readerClosed then
    (.returned [] (some .netClosed), stream)
  else if stream.writerClosed then
    (.returned [] (some .eof), stream)
  else if status.deadlineExpired then
    (.returned [] (some (.timeout "read")), stream)
  else
    (.waiting, stream)

def writeLoop (status : ConnStatus) (data : List UInt8) (written : ℕ) (stream : TCPStream) :
    WriteResult × TCPStream :=
  if written < data.length then
    if stream.readerClosed then
      (.returned written (some .closedPipe), stream)
    else if status.deadlineExpired then
      (.returned written (some (.timeout "write")), stream)
    else if stream.buf.elems.length < stream.buf.cap then
      let space := min stream.buf.free (data.length - written)
      writeLoop status data (written + space)
        { stream with buf := stream.buf.append ((data.drop written).take space) }
    else
      (.waiting written, stream)
  else
    (.returned written none, stream)
termination_by data.length - written
decreasing_by
  simp only [free]
  omega

/-- `loopbackTCPPipeConn.Write`, also after a wait, up to its return or its next wait. -/
def write (status : ConnStatus) (data : List UInt8) (written : ℕ) (stream : TCPStream) :
    WriteResult × TCPStream :=
  if status.closed then
    (.returned written (some (.opClosed "write")), stream)
  else
    writeLoop status data written stream

theorem writeLoop_done (status : ConnStatus) (data : List UInt8) (stream : TCPStream) :
    writeLoop status data data.length stream = (.returned data.length none, stream) := by
  rw [writeLoop, if_neg (lt_irrefl _)]

variable {data : List UInt8} {written : ℕ} {stream : TCPStream}

section

variable (readerOpen : stream.readerClosed = false)

include readerOpen

theorem writeLoop_full (more : written < data.length) (full : stream.buf.free = 0) :
    writeLoop .idle data written stream = (.waiting written, stream) := by
  rw [writeLoop, if_pos more, if_neg (by simp [readerOpen]),
    if_neg (by simp [ConnStatus.idle]), if_neg ((free_eq_zero_iff _).mp full)]

theorem writeLoop_room (more : written < data.length) (room : stream.buf.free ≠ 0) :
    writeLoop .idle data written stream =
      writeLoop .idle data (written + min stream.buf.free (data.length - written)) { stream with
          buf := stream.buf.append
            ((data.drop written).take (min stream.buf.free (data.length - written))) } := by
  have notFull : stream.buf.elems.length < stream.buf.cap := by
    by_contra full
    exact room ((free_eq_zero_iff _).mpr full)
  rw [writeLoop, if_pos more, if_neg (by simp [readerOpen]),
    if_neg (by simp [ConnStatus.idle]), if_pos notFull]

theorem writeLoop_of_fits (bound : written ≤ data.length)
    (fits : data.length - written ≤ stream.buf.free) :
    writeLoop .idle data written stream =
      (.returned data.length none,
        { stream with buf := stream.buf.append (data.drop written) }) := by
  rcases Nat.eq_or_lt_of_le bound with all | more
  · subst all
    simp [writeLoop_done]
  · have room : stream.buf.free ≠ 0 := by omega
    rw [writeLoop_room readerOpen more room, min_eq_right fits,
      Nat.add_sub_cancel' bound, writeLoop_done,
      take_of_length_le (by simp)]

theorem writeLoop_of_not_fits (tooLong : stream.buf.free < data.length - written) :
    writeLoop .idle data written stream =
      (.waiting (written + stream.buf.free), { stream with
          buf := stream.buf.append ((data.drop written).take stream.buf.free) }) := by
  by_cases full : stream.buf.free = 0
  · rw [writeLoop_full readerOpen (by omega) full, full]
    simp
  · rw [writeLoop_room readerOpen (by omega) full, min_eq_left (by omega)]
    refine writeLoop_full readerOpen (by omega) ?_
    rw [append_free _ _ (by simp)]
    simp only [length_take, length_drop]
    omega

end

end TCPStream

structure PendingWrite where
  data : List UInt8
  written : ℕ
  unfinished : written < data.length

structure Direction where
  stream : TCPStream
  pending : List PendingWrite
  accepted : List UInt8
  delivered : List UInt8
  results : List (List UInt8 × ℕ × Option StreamError)

inductive Call where
  | write (data : List UInt8)
  | resume (index : ℕ)
  | read (room : ℕ)

namespace Direction

def new : Direction where
  stream := newLoopbackTCPStream
  pending := []
  accepted := []
  delivered := []
  results := []

open TCPStream

def runWrite (data : List UInt8) (written : ℕ) (direction : Direction) : Direction :=
  match write .idle data written direction.stream with
  | (.returned count err, stream) =>
    { direction with
      stream := stream
      accepted := direction.accepted ++ (data.drop written).take (count - written)
      results := direction.results ++ [(data, count, err)] }
  | (.waiting count, stream) =>
    { direction with
      stream := stream
      accepted := direction.accepted ++ (data.drop written).take (count - written)
      pending :=
        if unfinished : count < data.length then
          direction.pending ++ [⟨data, count, unfinished⟩]
        else
          direction.pending }

def runRead (room : ℕ) (direction : Direction) : Direction :=
  match read .idle room direction.stream with
  | (.returned data _, stream) =>
    { direction with stream := stream, delivered := direction.delivered ++ data }
  | (.waiting, _) => direction

def runResume (index : ℕ) (direction : Direction) : Direction :=
  match direction.pending[index]? with
  | some call =>
    runWrite call.data call.written
      { direction with pending := direction.pending.eraseIdx index }
  | none => direction

variable (direction : Direction)

def perform : Call → Direction
  | .write data => direction.runWrite data 0
  | .resume index => direction.runResume index
  | .read room => direction.runRead room

def Step (before : Direction) (call : Call) (after : Direction) : Prop :=
  after = before.perform call

def drainRound : Direction :=
  direction.pending.foldl (fun state _ => state.runResume 0)
    (direction.runRead direction.stream.buf.elems.length)

def WritesReturn : Prop :=
  ∃ rounds, (drainRound^[rounds] direction).pending = []

def WritesComplete : Prop :=
  ∀ result ∈ direction.results, result.2.1 = result.1.length ∧ result.2.2 = none

def offered : List Call → ℕ
  | [] => 0
  | .write data :: calls => data.length + offered calls
  | .resume _ :: calls => offered calls
  | .read _ :: calls => offered calls

theorem offered_append (left right : List Call) :
    offered (left ++ right) = offered left + offered right := by
  induction left with
  | nil => simp [offered]
  | cons call calls ih => cases call <;> simp [offered, ih, Nat.add_assoc]

def owed (pending : List PendingWrite) : ℕ :=
  (pending.map fun call => call.data.length - call.written).sum

variable {pending : List PendingWrite} {index : ℕ} {call : PendingWrite}

theorem owed_pos (waiting : pending ≠ []) : 0 < owed pending := by
  cases pending with
  | nil => contradiction
  | cons call rest =>
    have unfinished := call.unfinished
    simp only [owed, map_cons, sum_cons]
    omega

theorem owed_append (left right : List PendingWrite) :
    owed (left ++ right) = owed left + owed right := by
  simp [owed]

theorem owed_rotate (found : pending[index]? = some call) :
    owed (pending.eraseIdx index ++ [call]) = owed pending := by
  induction pending generalizing index with
  | nil => simp at found
  | cons head rest ih =>
    cases index with
    | zero =>
      simp only [getElem?_cons_zero, Option.some.injEq] at found
      subst found
      simp [owed, Nat.add_comm]
    | succ index =>
      have tail := ih found
      simp only [owed, eraseIdx_cons_succ, cons_append, map_cons,
        sum_cons] at tail ⊢
      omega

variable {history : List Call} {direction} {data : List UInt8}

section

variable (readerOpen : direction.stream.readerClosed = false)

include readerOpen

theorem runWrite_of_fits {written : ℕ} (bound : written ≤ data.length)
    (fits : data.length - written ≤ direction.stream.buf.free) :
    direction.runWrite data written =
      { direction with
        stream := { direction.stream with
          buf := direction.stream.buf.append (data.drop written) }
        accepted := direction.accepted ++ data.drop written
        results := direction.results ++ [(data, data.length, none)] } := by
  have result : write .idle data written direction.stream = _ :=
    writeLoop_of_fits readerOpen bound fits
  simp only [runWrite, result]
  rw [take_of_length_le (by simp)]

theorem runWrite_of_not_fits {written : ℕ}
    (tooLong : direction.stream.buf.free < data.length - written) :
    direction.runWrite data written =
      { direction with
        stream := { direction.stream with
          buf := direction.stream.buf.append ((data.drop written).take direction.stream.buf.free) }
        accepted := direction.accepted ++ (data.drop written).take direction.stream.buf.free
        pending := direction.pending ++
          [⟨data, written + direction.stream.buf.free, by omega⟩] } := by
  have result : write .idle data written direction.stream = _ :=
    writeLoop_of_not_fits readerOpen tooLong
  simp only [runWrite, result]
  rw [dif_pos (by omega), Nat.add_sub_cancel_left]

theorem runRead_spec (room : ℕ) :
    (direction.runRead room).stream.buf = direction.stream.buf.dropFront room ∧
      (direction.runRead room).stream.readerClosed = false ∧
      (direction.runRead room).delivered =
        direction.delivered ++ direction.stream.buf.elems.take room ∧
      (direction.runRead room).pending = direction.pending ∧
      (direction.runRead room).accepted = direction.accepted ∧
      (direction.runRead room).results = direction.results := by
  by_cases nonempty : 0 < direction.stream.buf.elems.length
  · simp [runRead, TCPStream.read, ConnStatus.idle, nonempty, readerOpen]
  · have empty : direction.stream.buf.elems = [] := by
      apply eq_nil_of_length_eq_zero
      omega
    have unmoved : direction.stream.buf.dropFront room = direction.stream.buf := by
      apply ext
      · simp [empty]
      · simp [empty]
    cases writerClosed : direction.stream.writerClosed with
    | true | false =>
      simp [runRead, TCPStream.read, ConnStatus.idle, empty, readerOpen, writerClosed, unmoved]

variable (full : direction.stream.buf.free = 0)

include full

theorem runResume_of_full (found : direction.pending[index]? = some call) :
    direction.runResume index =
      { direction with pending := direction.pending.eraseIdx index ++ [call] } := by
  have tooLong : direction.stream.buf.free < call.data.length - call.written := by
    have unfinished := call.unfinished
    omega
  simp only [runResume, found]
  have waits := @runWrite_of_not_fits
    { direction with pending := direction.pending.eraseIdx index } call.data readerOpen _ tooLong
  rw [waits]
  simp [full]

theorem resumes_of_full (calls : List PendingWrite) :
    let woken := calls.foldl (fun state _ => state.runResume 0) direction
    woken.stream = direction.stream ∧ woken.pending.length = direction.pending.length := by
  induction calls generalizing direction with
  | nil => exact ⟨rfl, rfl⟩
  | cons _ rest ih =>
    simp only [foldl_cons]
    cases pending : direction.pending with
    | nil =>
      have unchanged : direction.runResume 0 = direction := by
        simp [runResume, pending]
      rw [unchanged, ← pending]
      exact ih readerOpen full
    | cons call others =>
      have first : direction.pending[0]? = some call := by simp [pending]
      rw [runResume_of_full readerOpen full first]
      rcases @ih { direction with pending := direction.pending.eraseIdx 0 ++ [call] }
        readerOpen full with ⟨stream, length⟩
      exact ⟨stream, by simpa [pending] using length⟩

theorem drainRounds_of_full (rounds : ℕ) :
    (drainRound^[rounds] direction).pending.length = direction.pending.length := by
  induction rounds generalizing direction with
  | zero => rfl
  | succ rounds ih =>
    rcases runRead_spec readerOpen direction.stream.buf.elems.length with
      ⟨buf, stillOpen, _, pending, _, _⟩
    have stillFull :
        (direction.runRead direction.stream.buf.elems.length).stream.buf.free = 0 := by
      rw [buf, dropFront_free]
      exact full
    rcases resumes_of_full stillOpen stillFull direction.pending with ⟨stream, length⟩
    have round : (drainRound direction).pending.length = direction.pending.length := by
      rw [← pending]
      exact length
    have roundStream : (drainRound direction).stream =
        (direction.runRead direction.stream.buf.elems.length).stream := stream
    rw [Function.iterate_succ_apply, ih (by rw [roundStream]; exact stillOpen)
      (by rw [roundStream]; exact stillFull), round]

end

/--
What every run keeps: nothing is lost between the two ends, free cells are spent
by the accepted bytes alone, and a call waits only when no cell is free.
-/
structure Invariant (history : List Call) (direction : Direction) : Prop where
  readerOpen : direction.stream.readerClosed = false
  conserved : direction.accepted = direction.delivered ++ direction.stream.buf.elems
  spent : direction.accepted.length + direction.stream.buf.free = loopbackTCPBufferSize
  full : direction.pending ≠ [] → direction.stream.buf.free = 0
  balanced : offered history = direction.accepted.length + owed direction.pending
  complete : direction.WritesComplete

theorem invariant_new : Invariant [] new where
  readerOpen := rfl
  conserved := rfl
  spent := rfl
  full := by simp [new]
  balanced := rfl
  complete := by simp [WritesComplete, new]

section

variable (invariant : Invariant history direction)

include invariant

theorem invariant_write (data : List UInt8) :
    Invariant (history ++ [.write data]) (direction.runWrite data 0) := by
  rcases invariant with ⟨readerOpen, conserved, spent, full, balanced, complete⟩
  by_cases fits : data.length - 0 ≤ direction.stream.buf.free
  · rw [runWrite_of_fits readerOpen (Nat.zero_le _) fits]
    refine ⟨readerOpen, ?_, ?_, ?_, ?_, ?_⟩
    · simp [conserved]
    · have freeAfter := append_free direction.stream.buf (data.drop 0) (by simpa using fits)
      simp only [length_append, freeAfter, length_drop]
      omega
    · intro waiting
      have freeAfter := append_free direction.stream.buf (data.drop 0) (by simpa using fits)
      have noneFree := full waiting
      simp only [freeAfter]
      omega
    · simp only [offered_append, offered, balanced, length_append, length_drop]
      omega
    · intro result resultMem
      simp only [mem_append, mem_singleton] at resultMem
      rcases resultMem with old | rfl
      · exact complete result old
      · exact ⟨rfl, rfl⟩
  · rw [runWrite_of_not_fits readerOpen (by omega)]
    have taken : ((data.drop 0).take direction.stream.buf.free).length =
        direction.stream.buf.free := by
      simp only [length_take, length_drop]
      omega
    have freeAfter := append_free direction.stream.buf
      ((data.drop 0).take direction.stream.buf.free) (by omega)
    refine ⟨readerOpen, ?_, ?_, ?_, ?_, ?_⟩
    · simp [conserved]
    · simp only [length_append, freeAfter, taken]
      omega
    · intro _
      simp only [freeAfter, taken]
      omega
    · simp only [offered_append, offered, balanced, length_append, taken, owed_append]
      simp [owed]
      omega
    · exact complete

theorem invariant_resume (index : ℕ) :
    Invariant (history ++ [.resume index]) (direction.runResume index) := by
  rcases invariant with ⟨readerOpen, conserved, spent, full, balanced, complete⟩
  cases found : direction.pending[index]? with
  | none =>
    have unchanged : direction.runResume index = direction := by
      simp [runResume, found]
    rw [unchanged]
    exact ⟨readerOpen, conserved, spent, full, by simpa [offered_append, offered], complete⟩
  | some call =>
    have waiting : direction.pending ≠ [] := by
      intro empty
      simp [empty] at found
    rw [runResume_of_full readerOpen (full waiting) found]
    refine ⟨readerOpen, conserved, spent, fun _ => full waiting, ?_, complete⟩
    simp only [offered_append, offered, balanced, owed_rotate found]
    omega

theorem invariant_read (room : ℕ) :
    Invariant (history ++ [.read room]) (direction.runRead room) := by
  rcases runRead_spec invariant.readerOpen room with
    ⟨buf, readerOpen, delivered, pending, accepted, results⟩
  refine ⟨readerOpen, ?_, ?_, ?_, ?_, ?_⟩
  · rw [accepted, delivered, buf, invariant.conserved]
    simp
  · rw [accepted, buf, dropFront_free]
    exact invariant.spent
  · intro waiting
    rw [pending] at waiting
    rw [buf, dropFront_free]
    exact invariant.full waiting
  · rw [accepted, pending, offered_append, invariant.balanced]
    rfl
  · intro result resultMem
    rw [results] at resultMem
    exact invariant.complete result resultMem

theorem Invariant.writesReturn_iff :
    direction.WritesReturn ↔ direction.pending = [] := by
  constructor
  · rintro ⟨rounds, returned⟩
    by_contra waiting
    have length := drainRounds_of_full invariant.readerOpen (invariant.full waiting) rounds
    rw [returned] at length
    exact waiting (eq_nil_of_length_eq_zero length.symm)
  · intro none
    exact ⟨0, none⟩

theorem Invariant.pending_eq_nil_iff :
    direction.pending = [] ↔ offered history ≤ loopbackTCPBufferSize := by
  have spent := invariant.spent
  have balanced := invariant.balanced
  constructor
  · intro none
    rw [none] at balanced
    simp only [owed, map_nil, sum_nil] at balanced
    omega
  · intro within
    by_contra waiting
    have noneFree := invariant.full waiting
    have positive := owed_pos waiting
    omega

end

theorem invariant_of_run {events : List Call} (run : Run Step new events direction) :
    Invariant events direction := by
  apply run.history_invariant invariant_new
  intro history before call after invariant taken
  subst taken
  cases call with
  | write data => exact invariant_write invariant data
  | resume index => exact invariant_resume invariant index
  | read room => exact invariant_read invariant room

/--
In every run the reader receives a prefix of what the writers handed over, and
all writes return in full, exactly when the run offers at most one buffer of bytes.
-/
theorem writes_return_iff_offered_le {events : List Call} {direction : Direction}
    (run : Run Step new events direction) :
    (direction.delivered <+: direction.accepted ∧ direction.WritesComplete ∧
      direction.WritesReturn) ↔ offered events ≤ loopbackTCPBufferSize := by
  have invariant := invariant_of_run run
  rw [invariant.writesReturn_iff, invariant.pending_eq_nil_iff]
  constructor
  · rintro ⟨_, _, within⟩
    exact within
  · intro within
    refine ⟨?_, invariant.complete, within⟩
    rw [invariant.conserved]
    exact prefix_append _ _

theorem writes_return_around_read :
    let direction := ((new.perform (.write [7, 8])).perform (.read 1)).perform (.write [9])
    direction.delivered <+: direction.accepted ∧ direction.WritesComplete ∧
      direction.WritesReturn := by
  have run : Run Step new [.write [7, 8], .read 1, .write [9]] _ :=
    ((Run.single rfl).snoc rfl).snoc rfl
  exact (writes_return_iff_offered_le run).mpr (by simp [offered, loopbackTCPBufferSize])

theorem write_not_returns (tooLong : loopbackTCPBufferSize < data.length) :
    ¬(new.perform (.write data)).WritesReturn := by
  intro returns
  have run : Run Step new [.write data] (new.perform (.write data)) := Run.single rfl
  have invariant := invariant_of_run run
  rw [invariant.writesReturn_iff, invariant.pending_eq_nil_iff] at returns
  simp only [offered] at returns
  omega

/-- One write of a single byte more than the buffer holds never returns. -/
theorem long_write_never_returns :
    ¬∀ (events : List Call) (direction : Direction), Run Step new events direction →
      direction.delivered <+: direction.accepted ∧ direction.WritesComplete ∧
        direction.WritesReturn := by
  intro property
  rcases property _ _ (Run.single rfl) with ⟨_, _, returns⟩
  apply write_not_returns _ returns
  · exact replicate (loopbackTCPBufferSize + 1) 0
  · rw [length_replicate]
    exact Nat.lt_succ_self _

end Direction

end Gonnect.Loopback
