import Gonnect.Foundation.Run
import Gonnect.Tun.Firewall

/-!
# Reading from a joiner

`Joiner.Read` looks for a buffer that is too short before it copies any packet. If that buffer is
not the first one, it returns the number of the buffers before it and has copied nothing.
-/

namespace Gonnect.Tun

open List

/-- What `Read` receives while it waits; the nested tun of packets may have been detached. -/
inductive Arrival where
  | done
  | failed (terminal : Bool)
  | packets (packets : List (List UInt8)) (attached : Bool)

inductive JoinerReadError where
  | closed
  | smallOffset
  | shortBuffer
  | terminal
deriving DecidableEq

structure JoinerRead where
  count : ℕ
  err : Option JoinerReadError
  buffers : ReadBuffers

/-- The packets from `pendingHead` on, and what is still to arrive. -/
structure JoinerQueue where
  pending : List (List UInt8)
  arrivals : List Arrival

abbrev Delivery := Option (List UInt8 × ℤ)

structure ReadCall where
  closed : Bool
  buffers : ReadBuffers
  offset : ℤ

namespace ReadCall

variable (call : ReadCall)

/-- The two loops of `readPending`. An error is the index of the first buffer that is too short;
nothing has been copied then. -/
def copyPending : List (List UInt8) → List ℤ → List (List UInt8) →
    Except ℕ (ℕ × ReadBuffers × List (List UInt8))
  | buf :: bufs, _ :: sizes, packet :: pending =>
    if call.offset.toNat > buf.length ∨ packet.length > buf.length - call.offset.toNat then
      .error 0
    else
      match copyPending bufs sizes pending with
      | .error i => .error (i + 1)
      | .ok (n, rest, left) =>
        .ok (n + 1, ⟨copyAt buf call.offset.toNat packet :: rest.bufs, packet.length :: rest.sizes⟩,
          left)
  | bufs, sizes, pending => .ok (0, ⟨bufs, sizes⟩, pending)

def readPending (pending : List (List UInt8)) : JoinerRead × List (List UInt8) :=
  if call.closed then
    (⟨0, some .closed, call.buffers⟩, pending)
  else
    match call.copyPending call.buffers.bufs call.buffers.sizes pending with
    | .error i => (⟨i, some .shortBuffer, call.buffers⟩, pending)
    | .ok (n, buffers, left) => (⟨n, none, buffers⟩, left)

/-- The loop of `Read`; it does not return when nothing arrives any more. -/
def readLoop : List (List UInt8) → List Arrival → Option (JoinerRead × JoinerQueue)
  | pending, arrivals =>
    let (read, rest) := call.readPending pending
    if read.count > 0 ∨ read.err.isSome then
      some (read, ⟨rest, arrivals⟩)
    else
      match arrivals with
      | [] => none
      | .done :: later => some (⟨0, some .closed, call.buffers⟩, ⟨rest, later⟩)
      | .failed terminal :: later =>
        if terminal then some (⟨0, some .terminal, call.buffers⟩, ⟨rest, later⟩)
        else readLoop rest later
      | .packets packets attached :: later =>
        readLoop (if attached then rest ++ packets else rest) later

def read (queue : JoinerQueue) : Option (JoinerRead × JoinerQueue) :=
  if call.offset < joinerOffset then
    some (⟨0, some .smallOffset, call.buffers⟩, queue)
  else if call.buffers.bufs = [] ∨ call.buffers.sizes = [] then
    some (⟨0, none, call.buffers⟩, queue)
  else
    call.readLoop queue.pending queue.arrivals

def received (read : JoinerRead) : List Delivery :=
  (range read.count).map fun i => do
    let size ← read.buffers.sizes[i]?
    some (((← read.buffers.bufs[i]?).drop call.offset.toNat).take size.toNat, size)

theorem received_length (read : JoinerRead) : (call.received read).length = read.count := by
  simp [received]

def sized (packet : List UInt8) : Delivery :=
  some (packet, packet.length)

def queued (queue : JoinerQueue) : List Delivery :=
  (queue.pending ++ queue.arrivals.flatMap fun
    | .packets packets true => packets
    | _ => []).map sized

/-- One call delivers what it takes from the queue, or counts packets and takes none. -/
def Turn (read : JoinerRead) (before after : List Delivery) : Prop :=
  if read.err = some .shortBuffer then after = before else call.received read ++ after = before

/-- The packets that a call finds once some have arrived. -/
def atHand : List (List UInt8) → List Arrival → List (List UInt8)
  | [], .packets packets true :: later => atHand packets later
  | [], .packets _ false :: later => atHand [] later
  | [], .failed false :: later => atHand [] later
  | pending, _ => pending

def fits (pair : List UInt8 × List UInt8) : Bool :=
  call.offset.toNat + pair.2.length ≤ pair.1.length

/-- If a buffer is too short for its packet, then the first one is. -/
def ShortFirst (queue : JoinerQueue) : Prop :=
  let pairs := (call.buffers.bufs.take call.buffers.sizes.length).zip
    (atHand queue.pending queue.arrivals)
  call.closed = false → joinerOffset ≤ call.offset → pairs.head?.all call.fits →
    pairs.all call.fits

variable {call} {read : JoinerRead} {pending rest bufs : List (List UInt8)} {sizes : List ℤ}
  {arrivals : List Arrival} {queue next : JoinerQueue}

theorem copyPending_received {n : ℕ} {buffers : ReadBuffers}
    (copied : call.copyPending bufs sizes pending = .ok (n, buffers, rest)) :
    call.received ⟨n, none, buffers⟩ ++ rest.map sized = pending.map sized := by
  fun_induction copyPending generalizing n buffers rest with
  | case1 | case2 => cases copied
  | case3 buf bufs _ sizes packet pending fits n others left earlier ih =>
    cases copied
    have reached : call.offset.toNat ≤ buf.length := by omega
    simpa [received, sized, copyAt, reached, range_succ_eq_map, Function.comp_def] using ih earlier
  | case4 =>
    cases copied
    rfl

theorem readPending_turn (tried : call.readPending pending = (read, rest)) :
    call.Turn read (queued ⟨pending, arrivals⟩) (queued ⟨rest, arrivals⟩) := by
  rw [readPending] at tried
  split_ifs at tried with closed
  · cases tried
    rfl
  · split at tried
    · cases tried
      rfl
    · case _ n buffers left copied =>
      cases tried
      simp [Turn, queued, ← copyPending_received copied]

theorem Turn.idle {before after : List Delivery} (turn : call.Turn read before after)
    (waits : ¬(read.count > 0 ∨ read.err.isSome)) : after = before := by
  have none : read.count = 0 ∧ read.err = none := by simpa using waits
  simpa [Turn, received, none] using turn

theorem readLoop_turn (returned : call.readLoop pending arrivals = some (read, next)) :
    call.Turn read (queued ⟨pending, arrivals⟩) (queued next) := by
  fun_induction readLoop with
  | case1 _ _ _ _ tried =>
    cases returned
    exact readPending_turn tried
  | case2 => cases returned
  | case3 _ _ _ tried waits | case4 _ _ _ tried waits =>
    cases returned
    exact (readPending_turn tried).idle waits
  | case5 _ _ _ tried waits _ _ _ ih =>
    rw [← (readPending_turn tried).idle waits]
    exact ih returned
  | case6 _ _ _ tried waits _ attached _ ih =>
    rw [← (readPending_turn tried).idle waits]
    cases attached <;> simpa [queued] using ih returned

theorem read_turn (returned : call.read queue = some (read, next)) :
    call.Turn read (queued queue) (queued next) := by
  unfold ReadCall.read at returned
  split_ifs at returned
  · cases returned
    rfl
  · cases returned
    rfl
  · exact readLoop_turn returned

theorem copyPending_pairs (bufs : List (List UInt8)) (sizes : List ℤ)
    (pending : List (List UInt8)) :
    let pairs := (bufs.take sizes.length).zip pending
    ((∃ copied, call.copyPending bufs sizes pending = .ok copied) ∧ pairs.all call.fits) ∨
      ∃ i, call.copyPending bufs sizes pending = .error i ∧ ¬pairs.all call.fits ∧
        (i = 0 ↔ ¬pairs.head?.all call.fits) := by
  fun_induction copyPending with
  | case1 buf bufs size sizes packet pending short =>
    right
    simp [fits]
    omega
  | case2 buf bufs size sizes packet pending enough i failed ih =>
    have first : call.offset.toNat + packet.length ≤ buf.length := by omega
    simp_all [fits]
  | case3 buf bufs size sizes packet pending enough n others left copied ih =>
    have first : call.offset.toNat + packet.length ≤ buf.length := by omega
    simp_all [fits]
  | case4 bufs sizes pending done =>
    left
    refine ⟨⟨_, rfl⟩, ?_⟩
    rcases bufs with _ | ⟨buf, bufs⟩
    · simp
    · rcases sizes with _ | ⟨size, sizes⟩
      · simp
      · rcases pending with _ | ⟨packet, pending⟩
        · simp
        · exact (done _ _ _ _ _ _ rfl rfl rfl).elim

theorem readPending_short (isOpen : call.closed = false)
    (tried : call.readPending pending = (read, rest)) :
    let pairs := (call.buffers.bufs.take call.buffers.sizes.length).zip pending
    (read.err = some .shortBuffer → read.count = 0) ↔
      (pairs.head?.all call.fits → pairs.all call.fits) := by
  simp only [readPending, isOpen, Bool.false_eq_true, if_false] at tried
  rcases @copyPending_pairs call call.buffers.bufs call.buffers.sizes pending with
    ⟨⟨copied, all⟩, fit⟩ | ⟨i, failed, misfit, first⟩
  · rw [all] at tried
    cases tried
    simp [fit]
  · rw [failed] at tried
    cases tried
    simp only [forall_const, first, misfit, Bool.false_eq_true, imp_false]

theorem readPending_waits (isOpen : call.closed = false) (someBufs : call.buffers.bufs ≠ [])
    (someSizes : call.buffers.sizes ≠ []) (tried : call.readPending pending = (read, rest)) :
    (¬(read.count > 0 ∨ read.err.isSome) ↔ pending = []) ∧ (pending = [] → rest = []) := by
  simp only [readPending, isOpen, Bool.false_eq_true, if_false] at tried
  rcases bufs : call.buffers.bufs with _ | ⟨buf, others⟩
  · exact absurd bufs someBufs
  rcases sizes : call.buffers.sizes with _ | ⟨size, later⟩
  · exact absurd sizes someSizes
  rw [bufs, sizes] at tried
  cases pending with
  | nil =>
    cases tried
    simp
  | cons packet pending =>
    rw [copyPending] at tried
    split_ifs at tried
    · cases tried
      simp
    · cases copied : call.copyPending others later pending with
      | error i | ok triple =>
        rw [copied] at tried
        cases tried
        simp

theorem readLoop_short (isOpen : call.closed = false) (someBufs : call.buffers.bufs ≠ [])
    (someSizes : call.buffers.sizes ≠ [])
    (returned : call.readLoop pending arrivals = some (read, next)) :
    let pairs := (call.buffers.bufs.take call.buffers.sizes.length).zip (atHand pending arrivals)
    (read.err = some .shortBuffer → read.count = 0) ↔
      (pairs.head?.all call.fits → pairs.all call.fits) := by
  have empty := fun {pending read rest} =>
    @readPending_waits call read pending rest isOpen someBufs someSizes
  fun_induction readLoop with
  | case1 pending arrivals _ _ tried stops =>
    cases returned
    cases pending with
    | nil => exact absurd stops ((empty tried).1.mpr rfl)
    | cons packet pending => simpa [atHand] using readPending_short isOpen tried
  | case2 => cases returned
  | case3 _ _ _ tried waits | case4 _ _ _ tried waits =>
    cases returned
    rw [(empty tried).1.mp waits]
    simp [atHand]
  | case5 _ _ _ tried waits terminal later passed ih =>
    obtain rfl := (empty tried).1.mp waits
    obtain rfl := (empty tried).2 rfl
    rw [Bool.not_eq_true] at passed
    simpa [atHand, passed] using ih returned
  | case6 _ _ _ tried waits _ attached _ ih =>
    obtain rfl := (empty tried).1.mp waits
    obtain rfl := (empty tried).2 rfl
    cases attached <;> simpa [atHand] using ih returned

theorem read_short (returned : call.read queue = some (read, next)) :
    (read.err = some .shortBuffer → read.count = 0) ↔ call.ShortFirst queue := by
  unfold ReadCall.read at returned
  split_ifs at returned with small none
  · cases returned
    simp [ShortFirst, small.not_ge]
  · cases returned
    rcases none with none | none <;> simp [ShortFirst, none]
  · cases isOpen : call.closed with
    | true =>
      rw [readLoop, readPending, if_pos isOpen] at returned
      cases returned
      simp [ShortFirst, isOpen]
    | false =>
      have short := readLoop_short isOpen (fun bufs => none (.inl bufs))
        (fun sizes => none (.inr sizes)) returned
      simpa [ShortFirst, isOpen, le_of_not_gt small] using short

def Step (queue : JoinerQueue) (event : ReadCall × JoinerRead) (next : JoinerQueue) : Prop :=
  event.1.read queue = some (event.2, next)

def delivered (events : List (ReadCall × JoinerRead)) : List Delivery :=
  events.flatMap fun (call, read) => call.received read

theorem delivered_iff_counts {events : List (ReadCall × JoinerRead)}
    (run : Run Step queue events next) :
    delivered events ++ queued next = queued queue ↔
      ∀ event ∈ events, event.2.err = some .shortBuffer → event.2.count = 0 := by
  -- The packets never become fewer: a false count delivers again what stays in the queue.
  have longer : (queued queue).length ≤ (delivered events ++ queued next).length ∧
      (delivered events ++ queued next = queued queue ↔
        ∀ event ∈ events, event.2.err = some .shortBuffer → event.2.count = 0) := by
    induction run with
    | nil => simp [delivered]
    | @snoc events before after event _ step ih =>
      have turn := read_turn step
      unfold Turn at turn
      simp only [delivered, flatMap_append, flatMap_singleton, append_assoc, mem_append,
        mem_singleton, or_imp, forall_and, forall_eq, length_append] at ih ⊢
      split_ifs at turn with short
      · rw [turn]
        by_cases none : event.2.count = 0
        · simpa [received, none] using ih
        · refine ⟨by omega, iff_of_false (fun equal => ?_) fun counted => none (counted.2 short)⟩
          have lengths := congrArg length equal
          simp only [length_append, received_length] at lengths
          omega
      · rw [← turn] at ih
        simpa [short] using ih
  exact longer.2

/-- No packet is lost or delivered twice, byte for byte and with its size, exactly if in every
call a buffer that is too short for its packet means that the first one is. -/
theorem delivered_iff {events : List (ReadCall × JoinerRead)} (run : Run Step queue events next) :
    delivered events ++ queued next = queued queue ↔
      ∀ front call read later before after, events = front ++ (call, read) :: later →
        Run Step queue front before → call.read before = some (read, after) →
          call.ShortFirst before := by
  rw [delivered_iff_counts run]
  constructor
  · rintro counted front call read later before after rfl _ returned
    exact (read_short returned).mp (counted (call, read) (by simp))
  · rintro shortFirst ⟨call, read⟩ member
    rcases append_of_mem member with ⟨front, later, split⟩
    rcases run.reaches_event split with ⟨before, after, earlier, returned⟩
    exact (read_short returned).mpr
      (shortFirst front call read later before after split earlier returned)

theorem delivered_iff_one_buffer : ∃ events, Run Step ⟨[[1], [2]], []⟩ events ⟨[[2]], []⟩ ∧
    delivered events ++ queued ⟨[[2]], []⟩ = queued ⟨[[1], [2]], []⟩ := by
  obtain ⟨room, long⟩ : ∃ room : List UInt8, room.length = 257 := ⟨_, length_replicate (a := 0)⟩
  have run : Run Step ⟨[[1], [2]], []⟩ [(⟨false, ⟨[room], [0]⟩, 256⟩,
      ⟨1, none, ⟨[copyAt room 256 [1]], [1]⟩⟩)] ⟨[[2]], []⟩ := by
    apply Run.single
    simp [Step, ReadCall.read, readLoop, readPending, copyPending, joinerOffset, long]
  refine ⟨_, run, (delivered_iff run).mpr ?_⟩
  intro front call read later before after split _ returned
  have member : (call, read) ∈ front ++ (call, read) :: later := by simp
  rw [← split, mem_singleton] at member
  cases member
  exact (read_short returned).mp (by simp)

theorem second_buffer_short : ∃ events, Run Step ⟨[[1], [2]], []⟩ events ⟨[[1], [2]], []⟩ ∧
    delivered events ++ queued ⟨[[1], [2]], []⟩ ≠ queued ⟨[[1], [2]], []⟩ := by
  obtain ⟨room, long⟩ : ∃ room : List UInt8, room.length = 257 := ⟨_, length_replicate (a := 0)⟩
  refine ⟨[(⟨false, ⟨[room, []], [0, 0]⟩, 256⟩, ⟨1, some .shortBuffer, ⟨[room, []], [0, 0]⟩⟩)],
    .single ?_, by simp [delivered, received]⟩
  simp [Step, ReadCall.read, readLoop, readPending, copyPending, joinerOffset, long]

end ReadCall

end Gonnect.Tun
