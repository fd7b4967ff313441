import Gonnect.Firewall.Config
import Gonnect.Foundation.ExpiringCache
import Gonnect.Foundation.ExpiringSet
import Gonnect.Foundation.Run

/-!
# Packet connections behind a firewall

A packet connection of the firewall remembers the peers to which datagrams were sent, and
lets their replies pass for a time. A write checks the peer, writes to the inner connection
and then records the peer. A read waits for a datagram and looks its peer up. So a reply can
arrive when its datagram is sent but not yet recorded.
-/

namespace Gonnect.Firewall

open Netip List ExpiringSet

/-- A `net.Addr`: its text, and the endpoint that `firewallAddrPort` reads from it. -/
structure NetAddr where
  text : Text
  endpoint : Option AddrPort
deriving DecidableEq

structure FirewallPeerKey where
  addr : AddrPort
  name : Text
deriving DecidableEq

def normalizePeerAddrPort (addr : AddrPort) : AddrPort :=
  ⟨addr.addr.unmap, addr.port⟩

/-- The peer of a datagram, as a `net.Addr` that may be `nil` or as a `netip.AddrPort`. -/
inductive Peer where
  | addr (addr : Option NetAddr)
  | addrPort (endpoint : AddrPort)
deriving DecidableEq

/-- What a `firewallPacketState` knows. The rules do not change. -/
structure PacketConn where
  toLower : Text → Text
  remote : Option NetAddr
  localEndpoint : Bool
  udpText : AddrPort → Text
  blocksAddr : NetAddr → Bool
  blocksAddrPort : AddrPort → Bool
  /-- Whether the rules include a peer, whatever was sent to it. -/
  includes : Peer → Bool
  responseTTL : ℤ

def defaultFirewallResponseTTL : ℤ := 2 * 60 * 10 ^ 9

def responseSweepPeriod : ℕ := 256

namespace PacketConn

variable (conn : PacketConn)

def ttl : ℤ :=
  if conn.responseTTL ≤ 0 then defaultFirewallResponseTTL else conn.responseTTL

/-- The deadline of a record in nanoseconds; a time after the year 2262 overflows. -/
def deadline (now : ℤ) : ℤ :=
  ExpiringCache.wrap64 (now + conn.ttl)

def checkOutgoing : Peer → Bool
  | .addr addr =>
    match addr.or conn.remote with
    | none => true
    | some addr => !conn.blocksAddr addr
  | .addrPort endpoint => !endpoint.addr.isValid || !conn.blocksAddrPort endpoint

def makeFirewallPeerKey (addr : Option NetAddr) : Option FirewallPeerKey :=
  match addr with
  | none => none
  | some addr =>
    match addr.endpoint with
    | some endpoint => some ⟨normalizePeerAddrPort endpoint, []⟩
    | none =>
      let name := conn.toLower addr.text
      if name = [] then none else some ⟨⟨.zero, 0⟩, name⟩

def endpointKey (endpoint : AddrPort) : Option FirewallPeerKey :=
  if endpoint.addr.isValid then some ⟨normalizePeerAddrPort endpoint, []⟩ else none

def recordKey : Peer → Option FirewallPeerKey
  | .addr addr => conn.makeFirewallPeerKey (addr.or conn.remote)
  | .addrPort endpoint => endpointKey endpoint

def lookKey : Peer → Option FirewallPeerKey
  | .addr addr => conn.makeFirewallPeerKey addr
  | .addrPort endpoint => endpointKey endpoint

/-- `allowsIncomingAddrPort` starts again with a `net.Addr` if there is no local
endpoint. -/
def fallback : Peer → Option Peer
  | .addr _ => none
  | .addrPort endpoint =>
    if conn.localEndpoint then none
    else some (.addr (some ⟨conn.udpText endpoint,
      if endpoint.addr.isValid then some endpoint else none⟩))

end PacketConn

inductive Writer where
  | idle
  | checked (peer : Peer)
  | sent (key : FirewallPeerKey)
  /-- The clock is read, and the mutex not yet taken. -/
  | stamped (key : FirewallPeerKey) (now : ℤ)

inductive Reader where
  | idle
  /-- The inner connection has returned, perhaps with an error. -/
  | delivered (peer : Peer) (failed : Bool)
  /-- The clock is read, and the mutex not yet taken. -/
  | looking (peer : Peer) (failed : Bool) (key : FirewallPeerKey) (now : ℤ)

structure PacketState where
  clock : ℤ
  responses : ExpiringSet FirewallPeerKey
  writer : Writer
  reader : Reader

inductive PacketEvent where
  | check (peer : Peer)
  | send (peer : Peer) (sent : Bool) (time : ℤ)
  | stampRecord (time : ℤ)
  | record (key : FirewallPeerKey) (now : ℤ)
  | deliver (peer : Peer) (failed : Bool) (time : ℤ)
  | stampLook (time : ℤ)
  | retry (looked : Option (FirewallPeerKey × ℤ))
  | verdict (peer : Peer) (failed : Bool) (looked : Option (FirewallPeerKey × ℤ)) (returned : Bool)

def PacketState.start (clock : ℤ) : PacketState where
  clock := clock
  responses := .empty
  writer := .idle
  reader := .idle

/-- The steps of one writer and one reader, in any order. -/
inductive PacketStep (conn : PacketConn) : PacketState → PacketEvent → PacketState → Prop
  | check {state : PacketState} {peer : Peer} (idle : state.writer = .idle)
      (allowed : conn.checkOutgoing peer = true) :
      PacketStep conn state (.check peer) { state with writer := .checked peer }
  | send {state : PacketState} {peer : Peer} {time : ℤ} (checked : state.writer = .checked peer)
      (sent : Bool) (later : state.clock ≤ time) :
      PacketStep conn state (.send peer sent time)
        { state with
          clock := time
          writer := if sent then (conn.recordKey peer).elim .idle .sent else .idle }
  | stampRecord {state : PacketState} {key : FirewallPeerKey} {time : ℤ}
      (sent : state.writer = .sent key) (later : state.clock ≤ time) :
      PacketStep conn state (.stampRecord time)
        { state with clock := time, writer := .stamped key time }
  | record {state : PacketState} {key : FirewallPeerKey} {now : ℤ}
      (stamped : state.writer = .stamped key now) :
      PacketStep conn state (.record key now)
        { state with
          responses := state.responses.record responseSweepPeriod key (conn.deadline now) now
          writer := .idle }
  | deliver {state : PacketState} {time : ℤ} (idle : state.reader = .idle) (peer : Peer)
      (failed : Bool) (later : state.clock ≤ time) :
      PacketStep conn state (.deliver peer failed time)
        { state with clock := time, reader := .delivered peer failed }
  | stampLook {state : PacketState} {peer : Peer} {failed : Bool} {key : FirewallPeerKey} {time : ℤ}
      (delivered : state.reader = .delivered peer failed) (hasKey : conn.lookKey peer = some key)
      (later : state.clock ≤ time) :
      PacketStep conn state (.stampLook time)
        { state with clock := time, reader := .looking peer failed key time }
  | retryKeyless {state : PacketState} {peer next : Peer} {failed : Bool}
      (delivered : state.reader = .delivered peer failed) (noKey : conn.lookKey peer = none)
      (again : conn.fallback peer = some next) :
      PacketStep conn state (.retry none) { state with reader := .delivered next failed }
  | verdictKeyless {state : PacketState} {peer : Peer} {failed : Bool}
      (delivered : state.reader = .delivered peer failed) (noKey : conn.lookKey peer = none)
      (final : conn.fallback peer = none) :
      PacketStep conn state (.verdict peer failed none (conn.includes peer))
        { state with reader := .idle }
  | found {state : PacketState} {peer : Peer} {failed : Bool} {key : FirewallPeerKey} {now : ℤ}
      (looking : state.reader = .looking peer failed key now)
      (live : (state.responses.look key now).1 = true) :
      PacketStep conn state (.verdict peer failed (some (key, now)) true)
        { state with responses := (state.responses.look key now).2, reader := .idle }
  | retry {state : PacketState} {peer next : Peer} {failed : Bool} {key : FirewallPeerKey} {now : ℤ}
      (looking : state.reader = .looking peer failed key now)
      (missing : (state.responses.look key now).1 = false) (again : conn.fallback peer = some next) :
      PacketStep conn state (.retry (some (key, now)))
        { state with
          responses := (state.responses.look key now).2
          reader := .delivered next failed }
  | missed {state : PacketState} {peer : Peer} {failed : Bool} {key : FirewallPeerKey} {now : ℤ}
      (looking : state.reader = .looking peer failed key now)
      (missing : (state.responses.look key now).1 = false) (final : conn.fallback peer = none) :
      PacketStep conn state (.verdict peer failed (some (key, now)) (conn.includes peer))
        { state with responses := (state.responses.look key now).2, reader := .idle }

namespace PacketConn

variable (conn : PacketConn) (history : List PacketEvent)

def use : PacketEvent → Option (ExpiringUse FirewallPeerKey)
  | .record key now => some (.record key (conn.deadline now) now)
  | .retry looked => looked.map fun found => .look found.1 found.2
  | .verdict _ _ looked _ => looked.map fun found => .look found.1 found.2
  | _ => none

def uses : List (ExpiringUse FirewallPeerKey) :=
  history.filterMap conn.use

theorem uses_concat (event : PacketEvent) :
    conn.uses (history ++ [event]) = conn.uses history ++ (conn.use event).toList := by
  cases used : conn.use event <;> simp [uses, used]

/-- The table, and the readings of the clock that lookups have used or are still to use. -/
structure Clocked (state : PacketState) : Prop where
  table : state.responses = .replay responseSweepPeriod (conn.uses history)
  past : ∀ key now, .look key now ∈ conn.uses history → now ≤ state.clock
  reading : ∀ peer failed key now, state.reader = .looking peer failed key now →
    now ≤ state.clock ∧ ∀ other stamp, .look other stamp ∈ conn.uses history → stamp ≤ now

variable {conn}

theorem clocked_start (clock : ℤ) : conn.Clocked [] (.start clock) where
  table := rfl
  past := by simp [uses]
  reading := by simp [PacketState.start]

variable {clock : ℤ} {history : List PacketEvent} {before : PacketState} {peer : Peer}
  {failed : Bool}

variable {after : PacketState} {key : FirewallPeerKey} {now : ℤ}
  {event : PacketEvent} {state : PacketState} {past : List PacketEvent}

section

variable (clocked : conn.Clocked history before)

include clocked

theorem Clocked.unused (none : conn.use event = none)
    (table : after.responses = before.responses) (later : before.clock ≤ after.clock)
    (reading : ∀ peer failed key now, after.reader = .looking peer failed key now →
      before.reader = .looking peer failed key now ∨ now = after.clock) :
    conn.Clocked (history ++ [event]) after := by
  have same : conn.uses (history ++ [event]) = conn.uses history := by
    rw [uses_concat, none]
    simp
  have past : ∀ key now, .look key now ∈ conn.uses history → now ≤ after.clock :=
    fun key now member => Int.le_trans (clocked.past key now member) later
  refine
    { table := by rw [table, same, clocked.table]
      past := by rw [same]; exact past
      reading := ?_ }
  intro peer failed key now looking
  rw [same]
  rcases reading peer failed key now looking with unchanged | rfl
  · rcases clocked.reading peer failed key now unchanged with ⟨inPast, looks⟩
    exact ⟨Int.le_trans inPast later, looks⟩
  · exact ⟨Int.le_refl _, past⟩

theorem Clocked.looked (looking : before.reader = .looking peer failed key now)
    (looks : conn.use event = some (.look key now))
    (table : after.responses = (before.responses.look key now).2)
    (clock : after.clock = before.clock)
    (reader : ∀ peer failed key now, after.reader ≠ .looking peer failed key now) :
    conn.Clocked (history ++ [event]) after := by
  have added : conn.uses (history ++ [event]) = conn.uses history ++ [.look key now] := by
    rw [uses_concat, looks]
    rfl
  refine
    { table := by rw [table, added, replay_concat, clocked.table]; rfl
      past := ?_
      reading := fun peer failed key now isLooking =>
        absurd isLooking (reader peer failed key now) }
  intro other stamp member
  rw [added] at member
  rw [clock]
  rcases mem_append.mp member with old | new
  · exact clocked.past other stamp old
  · cases mem_singleton.mp new
    exact (clocked.reading peer failed key now looking).1

theorem Clocked.recorded :
    conn.Clocked (history ++ [.record key now]) { before with
        responses := before.responses.record responseSweepPeriod key (conn.deadline now) now
        writer := .idle } := by
  have added : conn.uses (history ++ [.record key now]) =
      conn.uses history ++ [.record key (conn.deadline now) now] := by
    rw [uses_concat]
    rfl
  have looks : ∀ other stamp, .look other stamp ∈ conn.uses (history ++ [.record key now]) →
      .look other stamp ∈ conn.uses history := by
    intro other stamp member
    rw [added] at member
    simpa using member
  refine
    { table := by rw [added, replay_concat, ← clocked.table]; rfl
      past := fun other stamp member => clocked.past other stamp (looks other stamp member)
      reading := ?_ }
  intro peer failed other stamp looking
  rcases clocked.reading peer failed other stamp looking with ⟨stampPast, earlier⟩
  exact ⟨stampPast, fun third reading member => earlier third reading (looks third reading member)⟩

end

theorem clocked_of_run (run : Run (PacketStep conn) (.start clock) history state) :
    conn.Clocked history state := by
  refine run.history_invariant (clocked_start clock) ?_
  intro history before event after clocked step
  cases step with
  | check idle allowed =>
    exact clocked.unused rfl rfl (Int.le_refl _) fun _ _ _ _ looking => .inl looking
  | send checked sent later | stampRecord sent later =>
    exact clocked.unused rfl rfl later fun _ _ _ _ looking => .inl looking
  | record stamped => exact clocked.recorded
  | deliver idle peer failed later =>
    exact clocked.unused rfl rfl later fun _ _ _ _ looking => by cases looking
  | stampLook delivered hasKey later =>
    exact clocked.unused rfl rfl later
      fun _ _ _ _ looking => by cases looking; exact .inr rfl
  | retryKeyless delivered noKey again | verdictKeyless delivered noKey final =>
    exact clocked.unused rfl rfl (Int.le_refl _) fun _ _ _ _ looking => by cases looking
  | found looking live | retry looking missing again | missed looking missing final =>
    exact clocked.looked looking rfl rfl rfl (by simp)

/-- The latest record of the peer has not expired at a reading of the clock, and it was not
swept away since. -/
def RecordedInTime (conn : PacketConn) (past : List PacketEvent) (key : FirewallPeerKey) (now : ℤ) :
    Prop :=
  ∃ earlier deadline stamp later, conn.uses past = earlier ++ .record key deadline stamp :: later ∧
    now ≤ deadline ∧ Unswept responseSweepPeriod key deadline earlier stamp later

theorem look_iff_recordedInTime (run : Run (PacketStep conn) (.start clock) past state)
    (looking : state.reader = .looking peer failed key now) :
    (state.responses.look key now).1 = true ↔ conn.RecordedInTime past key now := by
  have clocked := clocked_of_run run
  rcases clocked.reading peer failed key now looking with ⟨_, looks⟩
  rw [clocked.table]
  exact look_replay_iff_unswept _ key (looks key)

/-- A datagram passes if the rules include its peer or if its peer was recorded in time. -/
theorem verdict_returned_iff (run : Run (PacketStep conn) (.start clock) past before)
    {returned : Bool}
    (step : PacketStep conn before (.verdict peer failed (some (key, now)) returned) after) :
    returned = true ↔ conn.includes peer = true ∨ conn.RecordedInTime past key now := by
  cases step with
  | found looking live =>
    exact iff_of_true rfl (.inr ((look_iff_recordedInTime run looking).mp live))
  | missed looking missing final =>
    rw [← look_iff_recordedInTime run looking, missing]
    simp

variable (conn)

def Sent (history : List PacketEvent) (key : FirewallPeerKey) (time : ℤ) : Prop :=
  ∃ peer, .send peer true time ∈ history ∧ conn.recordKey peer = some key

/-- The datagram that the reader has got is a reply: it was delivered after a datagram to its
peer was sent, and within the time to live. -/
def TimelyReply (past : List PacketEvent) (key : FirewallPeerKey) : Prop :=
  ∃ before peer time after sentAt, past = before ++ .deliver peer false time :: after ∧
    (∀ other failed arrived, .deliver other failed arrived ∉ after) ∧ conn.Sent before key sentAt ∧
    time ≤ sentAt + conn.ttl

def RepliesReturned (events : List PacketEvent) : Prop :=
  ∀ past peer key now returned later,
    events = past ++ .verdict peer false (some (key, now)) returned :: later →
      conn.TimelyReply past key → returned = true

/-- When the reader looks up the peer of a timely reply, the rules include the peer or the
peer was recorded in time. -/
def RepliesRecorded (events : List PacketEvent) : Prop :=
  ∀ past peer key now returned later,
    events = past ++ .verdict peer false (some (key, now)) returned :: later →
      conn.TimelyReply past key → conn.includes peer = true ∨ conn.RecordedInTime past key now

end PacketConn

/-- In every run of a writer and a reader, the replies are returned exactly if their peers
were recorded before the reader looked. -/
theorem replies_returned_iff (conn : PacketConn) {clock : ℤ} {events : List PacketEvent}
    {finish : PacketState} (run : Run (PacketStep conn) (.start clock) events finish) :
    conn.RepliesReturned events ↔ conn.RepliesRecorded events := by
  have decided : ∀ past peer key now returned later,
      events = past ++ .verdict peer false (some (key, now)) returned :: later →
        (returned = true ↔ conn.includes peer = true ∨ conn.RecordedInTime past key now) := by
    intro past peer key now returned later split
    rcases run.reaches_event split with ⟨before, after, reached, step⟩
    exact PacketConn.verdict_returned_iff reached step
  constructor
  · intro returned past peer key now value later split timely
    exact (decided past peer key now value later split).mp
      (returned past peer key now value later split timely)
  · intro recorded past peer key now value later split timely
    exact (decided past peer key now value later split).mpr
      (recorded past peer key now value later split timely)

def openConn : PacketConn where
  toLower := id
  remote := none
  localEndpoint := true
  udpText _ := []
  blocksAddr _ := false
  blocksAddrPort _ := false
  includes _ := false
  responseTTL := 0

def nameServer : AddrPort :=
  ⟨.v4 0xc0000201, 53⟩

def nameServerKey : FirewallPeerKey :=
  ⟨nameServer, []⟩

def querySent : List PacketEvent :=
  [.check (.addrPort nameServer), .send (.addrPort nameServer) true 0]

def queryRecorded : List PacketEvent :=
  [.stampRecord 0, .record nameServerKey 0]

def replyRead (returned : Bool) : List PacketEvent :=
  [.deliver (.addrPort nameServer) false 0, .stampLook 0,
    .verdict (.addrPort nameServer) false (some (nameServerKey, 0)) returned]

open PacketState

theorem run_querySent :
    Run (PacketStep openConn) (.start 0) querySent
      { start 0 with writer := .sent nameServerKey } := by
  have first : PacketStep openConn (.start 0) (.check (.addrPort nameServer))
      { start 0 with writer := .checked (.addrPort nameServer) } := .check rfl rfl
  have second : PacketStep openConn
      { start 0 with writer := .checked (.addrPort nameServer) }
      (.send (.addrPort nameServer) true 0)
      { start 0 with writer := .sent nameServerKey } := .send rfl true (Int.le_refl _)
  exact Run.snoc (Run.single first) second

theorem run_queryRecorded {events : List PacketEvent} {state : PacketState}
    (run : Run (PacketStep openConn) (.start 0) events state)
    (sent : state.writer = .sent nameServerKey) (clock : state.clock = 0) :
    Run (PacketStep openConn) (.start 0) (events ++ queryRecorded) ⟨0,
      state.responses.record responseSweepPeriod nameServerKey (openConn.deadline 0) 0, .idle,
      state.reader⟩ := by
  simpa [queryRecorded] using (run.snoc (.stampRecord sent clock.le)).snoc (.record rfl)

theorem run_replyLooked {events : List PacketEvent} {state : PacketState}
    (run : Run (PacketStep openConn) (.start 0) events state) (idle : state.reader = .idle)
    (clock : state.clock = 0) :
    Run (PacketStep openConn) (.start 0)
      (events ++ [.deliver (.addrPort nameServer) false 0, .stampLook 0]) ⟨0, state.responses,
        state.writer, .looking (.addrPort nameServer) false nameServerKey 0⟩ := by
  simpa using (run.snoc (.deliver idle _ _ clock.le)).snoc (.stampLook rfl rfl le_rfl)

theorem replies_returned_recorded :
    ∃ finish, Run (PacketStep openConn) (.start 0) (querySent ++ queryRecorded ++ replyRead true)
        finish ∧ openConn.RepliesRecorded (querySent ++ queryRecorded ++ replyRead true) := by
  have looking := run_replyLooked (run_queryRecorded run_querySent rfl rfl) rfl rfl
  have run := looking.snoc (.found rfl (by decide +kernel))
  refine ⟨_, run, (replies_returned_iff openConn run).mp ?_⟩
  intro past peer key now returned later split _
  have member : .verdict peer false (some (key, now)) returned ∈
      querySent ++ queryRecorded ++ replyRead true := by
    exact split ▸ mem_append_right _ mem_cons_self
  simp only [querySent, queryRecorded, replyRead, cons_append, nil_append, mem_cons,
    reduceCtorEq, PacketEvent.verdict.injEq, not_mem_nil, false_or, or_false] at member
  exact member.2.2.2

/-- A reply that comes between the inner write and the record is discarded. -/
theorem early_reply_discarded :
    ∃ finish, Run (PacketStep openConn) (.start 0) (querySent ++ replyRead false ++ queryRecorded)
        finish ∧ ¬openConn.RepliesReturned (querySent ++ replyRead false ++ queryRecorded) := by
  have missed := (run_replyLooked run_querySent rfl rfl).snoc (.missed rfl rfl rfl)
  refine ⟨_, run_queryRecorded missed rfl rfl, ?_⟩
  intro returned
  have timely : openConn.TimelyReply
      (querySent ++ [.deliver (.addrPort nameServer) false 0, .stampLook 0]) nameServerKey := by
    refine ⟨querySent, .addrPort nameServer, 0, [.stampLook 0], 0, rfl, by simp, ?_, by decide⟩
    exact ⟨.addrPort nameServer, by simp [querySent], rfl⟩
  cases returned _ _ _ _ false queryRecorded rfl timely

end Gonnect.Firewall
