import Gonnect.Firewall.NetworkNames
import Gonnect.Foundation.ExpiringCache
import Gonnect.Foundation.ExpiringSet
import Gonnect.Foundation.Yields
import Gonnect.Tun.FirewallPacket
import Gonnect.Tun.Joiner

/-!
# The firewall of a tun

`Firewall` wraps a tun. `Read` takes outgoing packets from the inner tun, drops those that
the rules exclude, and records for every other one that packets of the reversed flow may
come in for a time. `Write` gives incoming packets to the inner tun: those that the rules
include, those with a recorded flow, and ICMP errors that quote a packet whose reversed flow
is recorded.

Expired flows are deleted by lookups, and by a sweep at every 256th record. With a clock that
does not go backwards this changes no decision: the table answers as the history of its uses
does (`hasResponse_reaches`).
-/

namespace Gonnect.Tun

open Checked Netip List Reaches ExpiringSet ExpiringCache Bool

structure FirewallWorld where
  library : Firewall.Library
  clock : ℕ → ℤ
  optimize : Firewall.Config → Firewall.Config

structure FirewallPolicy where
  rules : Firewall.Config
  responseTTL : ℤ

def FirewallPolicy.ttl (policy : FirewallPolicy) : ℤ :=
  if policy.responseTTL ≤ 0 then 2 * 60 * 10 ^ 9 else policy.responseTTL

structure FirewallState where
  config : FirewallPolicy
  responses : ExpiringSet FirewallFlow
  ticks : ℕ
  uses : List (ExpiringUse FirewallFlow)

def flowSweepPeriod : ℕ := 256

section Code

variable (world : FirewallWorld) (config : FirewallPolicy) (packet : List UInt8)
  (flow : FirewallFlow)

def optimizedPolicy : FirewallPolicy :=
  { config with rules := world.optimize config.rules }

def newFirewall : FirewallState where
  config := optimizedPolicy world config
  responses := .empty
  ticks := 0
  uses := []

def timeNow : Stateful FirewallState ℤ :=
  modifyGet fun state => (world.clock state.ticks, { state with ticks := state.ticks + 1 })

/-- The deadline is stored as `UnixNano` gives it, in 64 bits. -/
def recordResponse : Stateful FirewallState Unit := do
  let now ← timeNow world
  modify fun state =>
    let expires := wrap64 (now + state.config.ttl)
    { state with
      responses := state.responses.record flowSweepPeriod flow expires now
      uses := state.uses ++ [.record flow expires now] }

def hasResponse : Stateful FirewallState Bool := do
  let now ← timeNow world
  modifyGet fun state =>
    ((state.responses.look flow now).1, { state with
        responses := (state.responses.look flow now).2
        uses := state.uses ++ [.look flow now] })

def blocksOutgoing : Bool :=
  config.rules.blocksOutgoingIP world.library flow.proto ⟨flow.dst, UInt16.ofNat flow.dstPort⟩

def firewallTunPacket (buf : List UInt8) (size offset : ℤ) : Option (List UInt8) :=
  if size < 0 ∨ offset < 0 ∨ offset > buf.length ∨ size > buf.length - offset then none
  else some ((buf.drop offset.toNat).take size.toNat)

def passesOutgoing : Stateful FirewallState Bool := do
  match ← StateT.lift (parseFirewallPacket packet) with
  | none => pure false
  | some flow =>
    let state ← get
    if blocksOutgoing world state.config flow then
      pure false
    else do
      recordResponse world flow.reverse
      pure true

structure ReadBuffers where
  bufs : List (List UInt8)
  sizes : List ℤ

inductive FirewallError (Err : Type) where
  | inner (err : Err)
  | offset (err : JoinerError)
  | shortBuffer

variable {Err : Type}

/-- `copy(buf[offset:], packet)` for a packet that fits. -/
def copyAt (buf : List UInt8) (offset : ℕ) (packet : List UInt8) : List UInt8 :=
  buf.take offset ++ packet ++ buf.drop (offset + packet.length)

def filterOutgoingRead (offset : ℕ) : (count i kept : ℕ) → ReadBuffers →
      Stateful FirewallState (ReadBuffers × ℕ × Option (FirewallError Err))
  | 0, _, kept, buffers => pure (buffers, kept, none)
  | count + 1, i, kept, buffers => do
      let buf ← StateT.lift (index buffers.bufs i)
      let size ← StateT.lift (index buffers.sizes i)
      match firewallTunPacket buf size offset with
      | none => filterOutgoingRead offset count (i + 1) kept buffers
      | some packet =>
        let passed ← passesOutgoing world packet
        if !passed then
          filterOutgoingRead offset count (i + 1) kept buffers
        else do
          let target ← StateT.lift (index buffers.bufs kept)
          if kept ≠ i ∧ (offset > target.length ∨ packet.length > target.length - offset) then
            pure (buffers, kept, some .shortBuffer)
          else
            filterOutgoingRead offset count (i + 1) (kept + 1)
              { bufs :=
                  if kept ≠ i then buffers.bufs.set kept (copyAt target offset packet)
                  else buffers.bufs
                sizes := buffers.sizes.set kept packet.length }

structure InnerRead (Err : Type) where
  buffers : ReadBuffers
  count : ℤ
  err : Option Err

structure ReadResult (Err : Type) where
  buffers : ReadBuffers
  count : ℕ
  err : Option (FirewallError Err)

/-- The loop of `Read`; the inner tun does not return from the read after the last one. -/
def readLoop (offset : ℕ) : List (InnerRead Err) → Stateful FirewallState (Option (ReadResult Err))
  | [] => pure none
  | inner :: later => do
      let count := min (max inner.count 0).toNat
        (min inner.buffers.bufs.length inner.buffers.sizes.length)
      let (buffers, kept, filterErr) ← filterOutgoingRead world offset count 0 0 inner.buffers
      if filterErr.isSome then
        pure (some ⟨buffers, kept, filterErr⟩)
      else if kept ≠ 0 ∨ inner.err.isSome then
        pure (some ⟨buffers, kept, inner.err.map .inner⟩)
      else
        readLoop offset later

def readPackets (buffers : ReadBuffers) (offset : ℤ) (inner : List (InnerRead Err)) :
    Stateful FirewallState (Option (ReadResult Err)) :=
  if offset < 0 then pure (some ⟨buffers, 0, some (.offset .invalidOffset)⟩)
  else readLoop world offset.toNat inner

def isIPv4ICMPError (kind : UInt8) : Bool :=
  kind = 3 ∨ kind = 4 ∨ kind = 5 ∨ kind = 11 ∨ kind = 12

/-- The packet that an ICMP error quotes, as `relatedICMPResponse` finds it. -/
def embeddedPacket : Checked (Option (List UInt8)) :=
  if flow.version = 4 ∧ flow.proto = 1 then do
    let headerLen := 4 * ((← index packet 0) &&& 0x0f).toNat
    if headerLen + 8 > packet.length then
      pure none
    else do
      let kind ← index packet headerLen
      if !isIPv4ICMPError kind then
        pure none
      else do
        let embedded ← windowFrom packet (headerLen + 8)
        pure (some embedded)
  else if flow.version = 6 ∧ flow.proto = 58 then do
    match ← ipv6TransportOffset packet with
    | none => pure none
    | some (offset, _) =>
      if offset + 8 > packet.length then
        pure none
      else do
        let kind ← index packet offset
        if kind ≥ 128 then
          pure none
        else do
          let embedded ← windowFrom packet (offset + 8)
          pure (some embedded)
  else
    pure none

def relatedICMPResponse : Stateful FirewallState Bool := do
  match ← StateT.lift (embeddedPacket packet flow) with
  | none => pure false
  | some embedded =>
    match ← StateT.lift (parseFirewallPacket embedded) with
    | none => pure false
    | some original => hasResponse world original.reverse

def includesIncoming : Bool :=
  config.rules.allowsIncomingIP world.library flow.proto ⟨flow.src, UInt16.ofNat flow.srcPort⟩
    (some ⟨flow.dst, UInt16.ofNat flow.dstPort⟩)

def allowsIncoming : Stateful FirewallState Bool := do
  let responds ← hasResponse world flow
  if responds then
    pure true
  else do
    let related ← relatedICMPResponse world packet flow
    if related then
      pure true
    else do
      let state ← get
      pure (includesIncoming world state.config flow)

def acceptsIncoming (offset : ℕ) (buf : List UInt8) : Stateful FirewallState Bool := do
  let packet ← StateT.lift (windowFrom buf offset)
  match ← StateT.lift (parseFirewallPacket packet) with
  | none => pure false
  | some flow => allowsIncoming world packet flow

/-- The variables of the loop of `Write`. The packets that are allowed, and their indexes,
are collected only when one is allowed behind a denied one. -/
structure WriteLoop where
  firstDenied : Option ℕ
  allowed : Option (List (List UInt8) × List ℕ)

def WriteLoop.next (bufs : List (List UInt8)) (i : ℕ) (buf : List UInt8) (accepted : Bool)
    (loop : WriteLoop) : WriteLoop :=
  match accepted, loop.firstDenied with
  | false, none => { loop with firstDenied := some i }
  | false, some _ => loop
  | true, none => loop
  | true, some firstDenied =>
    let collected := loop.allowed.getD (bufs.take firstDenied, List.range firstDenied)
    { loop with allowed := some (collected.1 ++ [buf], collected.2 ++ [i]) }

def writeLoop (bufs : List (List UInt8)) (offset : ℕ) :
    ℕ → List (List UInt8) → WriteLoop → Stateful FirewallState WriteLoop
  | _, [], loop => pure loop
  | i, buf :: later, loop => do
      let accepted ← acceptsIncoming world offset buf
      writeLoop bufs offset (i + 1) later (loop.next bufs i buf accepted)

structure WriteResult (Err : Type) where
  forwarded : Option (List (List UInt8))
  count : ℤ
  err : Option (FirewallError Err)

def finishWrite (inner : List (List UInt8) → ℤ × Option Err) (bufs : List (List UInt8))
    (loop : WriteLoop) : Checked (WriteResult Err) :=
  match loop.firstDenied with
  | none => pure ⟨some bufs, (inner bufs).1, (inner bufs).2.map .inner⟩
  | some firstDenied =>
    match loop.allowed with
    | none =>
      if firstDenied = 0 then
        pure ⟨none, bufs.length, none⟩
      else
        let (written, err) := inner (bufs.take firstDenied)
        let count := if max written 0 ≥ firstDenied then (bufs.length : ℤ) else max written 0
        pure ⟨some (bufs.take firstDenied), count, err.map .inner⟩
    | some (allowed, indexes) =>
      let (written, err) := inner allowed
      if written ≥ allowed.length ∧ err.isNone then
        pure ⟨some allowed, bufs.length, none⟩
      else if max written 0 ≥ indexes.length then
        pure ⟨some allowed, bufs.length, err.map .inner⟩
      else do
        let i ← index indexes (max written 0).toNat
        pure ⟨some allowed, i, err.map .inner⟩

def writePackets (inner : List (List UInt8) → ℤ × Option Err) (bufs : List (List UInt8))
    (offset : ℤ) : Stateful FirewallState (WriteResult Err) :=
  match validatePacketOffset bufs offset with
  | .error err => pure ⟨none, 0, some (.offset err)⟩
  | .ok _ => do
      let loop ← writeLoop world bufs offset.toNat 0 bufs ⟨none, none⟩
      StateT.lift (finishWrite inner bufs loop)

inductive FirewallCall (Err : Type) where
  | read (buffers : ReadBuffers) (offset : ℤ) (inner : List (InnerRead Err))
  | write (inner : List (List UInt8) → ℤ × Option Err) (bufs : List (List UInt8)) (offset : ℤ)
  | setConfig (config : FirewallPolicy)

def performCall : FirewallCall Err → Stateful FirewallState Unit
  | .read buffers offset inner => do
      let _ ← readPackets world buffers offset inner
      pure ()
  | .write inner bufs offset => do
      let _ ← writePackets world inner bufs offset
      pure ()
  | .setConfig config => modify fun state => { state with config := optimizedPolicy world config }

def performCalls (calls : List (FirewallCall Err)) : Stateful FirewallState Unit :=
  calls.forM (performCall world)

structure Passes : Prop where
  parsed : parseFirewallPacket packet = .ok (some flow)
  allowed : blocksOutgoing world config flow = false

def keptFlow : Option FirewallFlow :=
  match parseFirewallPacket packet with
  | .ok (some flow) => if blocksOutgoing world config flow then none else some flow
  | _ => none

variable (state : FirewallState)

/-- The table is what its uses have made of it, and every record is one of an outgoing packet. -/
structure FirewallState.Followed : Prop where
  table : state.responses = .replay flowSweepPeriod state.uses
  past : ∀ use ∈ state.uses, use.now ≤ world.clock state.ticks
  outgoing : ∀ recorded expires now, .record recorded expires now ∈ state.uses →
    ∃ config packet flow, Passes world config packet flow ∧ recorded = flow.reverse ∧
      expires = wrap64 (now + config.ttl)

/-- The deadline that was recorded last for a flow has not passed at a reading of the clock. -/
def FirewallState.Live (flow : FirewallFlow) (reading : ℕ) : Prop :=
  ∃ expires, latest flow state.uses = some expires ∧ world.clock reading ≤ expires

end Code

variable {world : FirewallWorld} {packet : List UInt8}

theorem keptFlow_eq_some_iff {config : FirewallPolicy} {flow : FirewallFlow} :
    keptFlow world config packet = some flow ↔ Passes world config packet flow := by
  constructor
  · intro kept
    unfold keptFlow at kept
    split at kept
    · rename_i other parsed
      split_ifs at kept with blocked
      cases kept
      exact ⟨parsed, by simpa using blocked⟩
    · cases kept
  · rintro ⟨parsed, allowed⟩
    simp [keptFlow, parsed, allowed]

variable {state : FirewallState}

theorem passesOutgoing_iff {wanted : Bool → FirewallState → Prop} :
    Reaches state (passesOutgoing world packet) wanted ↔
      match keptFlow world state.config packet with
      | none => wanted false state
      | some flow => Reaches state (recordResponse world flow.reverse) fun _ => wanted true := by
  rcases parseFirewallPacket_safe packet with ⟨found, parsed⟩
  simp only [passesOutgoing, bind_iff, lift_ok parsed]
  cases found with
  | none => simp [keptFlow, parsed]
  | some flow =>
    simp only [keptFlow, parsed, bind_iff, get_iff]
    split_ifs
    · exact pure_iff
    · simp only [bind_iff, pure_iff]

section History

variable (ordered : Monotone world.clock)

theorem newFirewall_followed (config : FirewallPolicy) :
    (newFirewall world config).Followed world where
  table := rfl
  past := by simp [newFirewall]
  outgoing := by simp [newFirewall]

include ordered

section

variable (followed : state.Followed world)

include followed

theorem FirewallState.Followed.use (use : ExpiringUse FirewallFlow)
    (reading : use.now = world.clock state.ticks)
    (outgoing : ∀ recorded expires now, use = .record recorded expires now →
      ∃ config packet flow, Passes world config packet flow ∧ recorded = flow.reverse ∧
        expires = wrap64 (now + config.ttl)) :
    FirewallState.Followed world
      { state with
        responses := state.responses.after flowSweepPeriod use
        ticks := state.ticks + 1
        uses := state.uses ++ [use] } where
  table := by rw [replay_concat, ← followed.table]
  past := by
    have later : world.clock state.ticks ≤ world.clock (state.ticks + 1) :=
      ordered (Nat.le_succ state.ticks)
    intro other member
    rcases mem_append.mp member with old | new
    · exact Int.le_trans (followed.past other old) later
    · cases mem_singleton.mp new
      exact reading.trans_le later
  outgoing := by
    intro recorded expires now member
    rcases mem_append.mp member with old | new
    · exact followed.outgoing recorded expires now old
    · exact outgoing recorded expires now (mem_singleton.mp new).symm

variable {flow : FirewallFlow}

theorem recordResponse_reaches (passes : Passes world state.config packet flow) :
    Reaches state (recordResponse world flow.reverse) fun _ after =>
      after.Followed world ∧ latest flow.reverse after.uses =
        some (wrap64 (world.clock state.ticks + state.config.ttl)) := by
  simp only [recordResponse, timeNow, bind_iff, modifyGet_iff, modify_iff]
  constructor
  · refine followed.use ordered (.record _ _ _) rfl ?_
    rintro recorded expires now ⟨⟩
    exact ⟨state.config, packet, flow, passes, rfl, rfl⟩
  · simp [latest_append, latest]

theorem passesOutgoing_reaches (packet : List UInt8) :
    Reaches state (passesOutgoing world packet) fun passed after =>
      after.Followed world ∧
        ((∃ flow, Passes world state.config packet flow ∧ passed = true ∧
          latest flow.reverse after.uses =
            some (wrap64 (world.clock state.ticks + state.config.ttl))) ∨
        (¬∃ flow, Passes world state.config packet flow) ∧ passed = false ∧ after = state) := by
  rw [passesOutgoing_iff]
  cases kept : keptFlow world state.config packet with
  | none =>
    refine ⟨followed, .inr ⟨?_, rfl, rfl⟩⟩
    rintro ⟨flow, passes⟩
    cases kept.symm.trans (keptFlow_eq_some_iff.mpr passes)
  | some flow =>
    have passes := keptFlow_eq_some_iff.mp kept
    refine (recordResponse_reaches ordered followed passes).mono ?_
    rintro _ after ⟨afterFollowed, latest⟩
    exact ⟨afterFollowed, .inl ⟨flow, passes, rfl, latest⟩⟩

structure FirewallState.Looked (world : FirewallWorld) (state after : FirewallState) : Prop where
  followed : after.Followed world
  config : after.config = state.config
  recorded : ∀ flow, latest flow after.uses = latest flow state.uses

theorem hasResponse_reaches (flow : FirewallFlow) :
    Reaches state (hasResponse world flow) fun found after =>
      (found = true ↔ state.Live world flow state.ticks) ∧ state.Looked world after ∧
        after.ticks = state.ticks + 1 := by
  simp only [hasResponse, timeNow, bind_iff, modifyGet_iff]
  refine ⟨?_, ?_, trivial⟩
  · rw [followed.table]
    exact look_replay_iff _ flow followed.past
  · refine ⟨followed.use ordered (.look _ _) rfl ?_, rfl, ?_⟩
    · rintro recorded expires now ⟨⟩
    · intro other
      rw [latest_append]
      rfl

end

omit ordered

theorem FirewallState.Looked.live_iff {state after : FirewallState}
    (looked : state.Looked world after) (flow : FirewallFlow) (reading : ℕ) :
    after.Live world flow reading ↔ state.Live world flow reading := by
  unfold FirewallState.Live
  rw [looked.recorded]

theorem FirewallState.Looked.trans {first second third : FirewallState}
    (looked : first.Looked world second) (again : second.Looked world third) :
    first.Looked world third where
  followed := again.followed
  config := again.config.trans looked.config
  recorded flow := (again.recorded flow).trans (looked.recorded flow)

/-- The bytes that `relatedICMPResponse` takes for the packet that an ICMP error quotes. -/
inductive Quotes (packet : List UInt8) (flow : FirewallFlow) : List UInt8 → Prop
  | icmp (version : flow.version = 4) (isICMP : flow.proto = 1)
      (whole : 4 * (byteAt packet 0 &&& 0x0f).toNat + 8 ≤ packet.length)
      (kind : isIPv4ICMPError (byteAt packet (4 * (byteAt packet 0 &&& 0x0f).toNat)) = true) :
      Quotes packet flow (packet.drop (4 * (byteAt packet 0 &&& 0x0f).toNat + 8))
  | icmp6 {offset : ℕ} {proto : UInt8} (version : flow.version = 6) (isICMP : flow.proto = 58)
      (transport : ipv6TransportOffset packet = .ok (some (offset, proto)))
      (whole : offset + 8 ≤ packet.length) (kind : byteAt packet offset < 128) :
      Quotes packet flow (packet.drop (offset + 8))

theorem quotes_icmp_iff {packet embedded : List UInt8} (version : flow.version = 4)
    (isICMP : flow.proto = 1) :
    Quotes packet flow embedded ↔ 4 * (byteAt packet 0 &&& 0x0f).toNat + 8 ≤ packet.length ∧
      isIPv4ICMPError (byteAt packet (4 * (byteAt packet 0 &&& 0x0f).toNat)) = true ∧
      embedded = packet.drop (4 * (byteAt packet 0 &&& 0x0f).toNat + 8) := by
  constructor
  · intro quotes
    cases quotes with
    | icmp _ _ whole kind => exact ⟨whole, kind, rfl⟩
    | icmp6 six => cases version.symm.trans six
  · rintro ⟨whole, kind, rfl⟩
    exact .icmp version isICMP whole kind

theorem quotes_icmp6_iff {packet embedded : List UInt8} {found : Option (ℕ × UInt8)}
    (version : flow.version = 6) (isICMP : flow.proto = 58)
    (walked : ipv6TransportOffset packet = .ok found) :
    Quotes packet flow embedded ↔ ∃ transport ∈ found, transport.1 + 8 ≤ packet.length ∧
      byteAt packet transport.1 < 128 ∧ embedded = packet.drop (transport.1 + 8) := by
  constructor
  · intro quotes
    cases quotes with
    | icmp four => cases version.symm.trans four
    | icmp6 _ _ transport whole kind =>
      cases walked.symm.trans transport
      exact ⟨_, rfl, whole, kind, rfl⟩
  · rintro ⟨⟨offset, proto⟩, isFound, whole, kind, rfl⟩
    exact .icmp6 version isICMP (walked.trans (congrArg Except.ok isFound)) whole kind

theorem quoted_ok (offset : ℕ) (other : UInt8 → Prop) [DecidablePred other] :
    ∃ quoted, (if offset + 8 > packet.length then
        pure none
      else do
        let kind ← index packet offset
        if other kind then
          pure none
        else do
          let embedded ← windowFrom packet (offset + 8)
          pure (some embedded)) = Except.ok quoted ∧
      ∀ embedded, quoted = some embedded ↔ offset + 8 ≤ packet.length ∧
        ¬other (byteAt packet offset) ∧ embedded = packet.drop (offset + 8) := by
  split_ifs with short
  · exact ⟨none, rfl, by simp; omega⟩
  · rw [index_eq_byteAt (by omega), ok_bind]
    split_ifs with isOther
    · exact ⟨none, rfl, by simp [isOther]⟩
    · rw [windowFrom_eq_ok (by omega), ok_bind]
      exact ⟨_, rfl, by simp [isOther, not_lt.mp short, eq_comm]⟩

theorem embeddedPacket_ok (nonempty : 0 < packet.length) (flow : FirewallFlow) :
    ∃ quoted, embeddedPacket packet flow = .ok quoted ∧
      ∀ embedded, quoted = some embedded ↔ Quotes packet flow embedded := by
  unfold embeddedPacket
  split_ifs with four six
  · simp only [quotes_icmp_iff four.1 four.2, index_eq_byteAt nonempty, ok_bind]
    simpa using quoted_ok _ fun kind => !isIPv4ICMPError kind
  · rcases ipv6TransportOffset_ok packet with ⟨found, walked, inside⟩
    simp only [quotes_icmp6_iff six.1 six.2 walked, walked, ok_bind]
    rcases found with _ | ⟨offset, proto⟩
    · exact ⟨none, rfl, fun embedded => by simp⟩
    · simpa using quoted_ok offset (128 ≤ ·)
  · refine ⟨none, rfl, fun embedded => ?_⟩
    constructor
    · intro found
      cases found
    · intro quotes
      cases quotes with
      | icmp version isICMP => exact absurd ⟨version, isICMP⟩ four
      | icmp6 version isICMP => exact absurd ⟨version, isICMP⟩ six

def FirewallState.QuotesLive (world : FirewallWorld) (state : FirewallState)
    (packet : List UInt8) (flow : FirewallFlow) (reading : ℕ) : Prop :=
  ∃ embedded original, Quotes packet flow embedded ∧
    parseFirewallPacket embedded = .ok (some original) ∧
    state.Live world original.reverse reading

include ordered

theorem relatedICMPResponse_reaches (followed : state.Followed world) (nonempty : 0 < packet.length)
    (flow : FirewallFlow) :
    Reaches state (relatedICMPResponse world packet flow) fun found after =>
      (found = true ↔ state.QuotesLive world packet flow state.ticks) ∧
        state.Looked world after ∧ state.ticks ≤ after.ticks := by
  have unchanged : state.Looked world state ∧ state.ticks ≤ state.ticks :=
    ⟨⟨followed, rfl, fun _ => rfl⟩, le_rfl⟩
  rcases embeddedPacket_ok nonempty flow with ⟨quoted, found, quotes⟩
  simp only [relatedICMPResponse, bind_iff, lift_ok found]
  cases quoted with
  | none =>
    refine pure_iff.mpr ⟨iff_of_false false_ne_true ?_, unchanged⟩
    rintro ⟨embedded, original, isQuote, _, _⟩
    cases (quotes embedded).mpr isQuote
  | some embedded =>
    rcases parseFirewallPacket_safe embedded with ⟨flows, parsed⟩
    simp only [bind_iff, lift_ok parsed]
    have only : ∀ other original, Quotes packet flow other →
        parseFirewallPacket other = .ok (some original) → flows = some original := by
      intro other original isQuote isParsed
      cases (quotes other).mpr isQuote
      cases parsed.symm.trans isParsed
      rfl
    cases flows with
    | none =>
      refine pure_iff.mpr ⟨iff_of_false false_ne_true ?_, unchanged⟩
      rintro ⟨other, original, isQuote, isParsed, _⟩
      cases only other original isQuote isParsed
    | some original =>
      refine (hasResponse_reaches ordered followed original.reverse).mono ?_
      rintro responds after ⟨isLive, looked, ticks⟩
      refine ⟨isLive.trans ⟨fun live => ?_, ?_⟩, looked, ticks ▸ Nat.le_succ _⟩
      · exact ⟨embedded, original, (quotes embedded).mp rfl, parsed, live⟩
      · rintro ⟨other, quotedFlow, isQuote, isParsed, live⟩
        cases only other quotedFlow isQuote isParsed
        exact live

theorem allowsIncoming_reaches (followed : state.Followed world) (nonempty : 0 < packet.length)
    (flow : FirewallFlow) :
    Reaches state (allowsIncoming world packet flow) fun allowed after =>
      (allowed = true ↔ includesIncoming world state.config flow = true ∨
        state.Live world flow state.ticks ∨
        state.QuotesLive world packet flow (state.ticks + 1)) ∧
        state.Looked world after ∧ state.ticks ≤ after.ticks := by
  rw [allowsIncoming, bind_iff]
  refine (hasResponse_reaches ordered followed flow).mono ?_
  rintro responds middle ⟨isLive, looked, ticks⟩
  cases responds with
  | true => exact pure_iff.mpr ⟨by simp [isLive.mp rfl], looked, ticks ▸ Nat.le_succ _⟩
  | false =>
    have expired : ¬state.Live world flow state.ticks := fun live => by cases isLive.mpr live
    rw [if_neg Bool.false_ne_true, bind_iff]
    refine (relatedICMPResponse_reaches ordered looked.followed nonempty flow).mono ?_
    rintro related after ⟨isQuoted, again, later⟩
    have kept : state.Looked world after ∧ state.ticks ≤ after.ticks :=
      ⟨looked.trans again, by omega⟩
    have quoted : middle.QuotesLive world packet flow middle.ticks ↔
        state.QuotesLive world packet flow (state.ticks + 1) := by
      simp [FirewallState.QuotesLive, looked.live_iff, ticks]
    rw [quoted] at isQuoted
    cases related with
    | true => exact pure_iff.mpr ⟨by simp [isQuoted.mp rfl], kept⟩
    | false =>
      have unquoted : ¬state.QuotesLive world packet flow (state.ticks + 1) :=
        fun live => by cases isQuoted.mpr live
      rw [if_neg Bool.false_ne_true, bind_iff, get_iff, pure_iff,
        again.config, looked.config]
      exact ⟨by simp [expired, unquoted], kept⟩

omit ordered in
/-- What the firewall lets in: a packet with a flow that the rules include, that was recorded,
or for which it finds a quote of a recorded flow. -/
def FirewallState.LetsIn (world : FirewallWorld) (state : FirewallState) (packet : List UInt8) :
    Prop :=
  ∃ flow, parseFirewallPacket packet = .ok (some flow) ∧
    (includesIncoming world state.config flow = true ∨ state.Live world flow state.ticks ∨
      state.QuotesLive world packet flow (state.ticks + 1))

theorem acceptsIncoming_reaches (followed : state.Followed world) {offset : ℕ} {buf : List UInt8}
    (inside : offset ≤ buf.length) :
    Reaches state (acceptsIncoming world offset buf) fun accepted after =>
      (state.Looked world after ∧ state.ticks ≤ after.ticks) ∧
        (accepted = true ↔ state.LetsIn world (buf.drop offset)) := by
  rcases parseFirewallPacket_safe (buf.drop offset) with ⟨found, parsed⟩
  simp only [acceptsIncoming, bind_iff, lift_ok (windowFrom_eq_ok inside),
    lift_ok parsed]
  cases found with
  | none =>
    refine pure_iff.mpr
      ⟨⟨⟨followed, rfl, fun _ => rfl⟩, le_rfl⟩, iff_of_false false_ne_true ?_⟩
    rintro ⟨flow, isParsed, _⟩
    cases parsed.symm.trans isParsed
  | some flow =>
    have nonempty : 0 < (buf.drop offset).length := by
      apply length_pos_iff.mpr
      intro empty
      rw [empty] at parsed
      cases parsed
    refine (allowsIncoming_reaches ordered followed nonempty flow).mono ?_
    rintro allowed after ⟨isAllowed, looked⟩
    refine ⟨looked, isAllowed.trans ⟨fun lets => ⟨flow, parsed, lets⟩, ?_⟩⟩
    rintro ⟨other, isParsed, lets⟩
    cases parsed.symm.trans isParsed
    exact lets

end History

def acceptedPackets (bufs : List (List UInt8)) (accepted : List Bool) : List (List UInt8) :=
  ((bufs.zip accepted).filter Prod.snd).map Prod.fst

variable {front : List (List UInt8)} {accepted : List Bool}

theorem acceptedPackets_concat (length : accepted.length = front.length) (buf : List UInt8)
    (last : Bool) :
    acceptedPackets (front ++ [buf]) (accepted ++ [last]) =
      acceptedPackets front accepted ++ if last then [buf] else [] := by
  unfold acceptedPackets
  rw [zip_append length.symm]
  cases last <;> simp

variable {bufs : List (List UInt8)}

namespace WriteLoop

/-- The loop of `Write` with the tests of the packets already made. -/
def run (bufs : List (List UInt8)) : ℕ → List (List UInt8) → List Bool → WriteLoop → WriteLoop
  | i, buf :: later, accepted :: rest, loop =>
    run bufs (i + 1) later rest (loop.next bufs i buf accepted)
  | _, _, _, loop => loop

/-- The packets of `front` are sorted into the variables of the loop. -/
structure Collected (bufs front : List (List UInt8)) (accepted : List Bool) (loop : WriteLoop) :
    Prop where
  all : loop.firstDenied = none → loop.allowed = none ∧ acceptedPackets front accepted = front
  first : ∀ firstDenied, loop.firstDenied = some firstDenied → loop.allowed = none →
    acceptedPackets front accepted = bufs.take firstDenied
  allowed : ∀ packets indexes, loop.allowed = some (packets, indexes) →
    packets = acceptedPackets front accepted

variable {loop : WriteLoop}

theorem Collected.next {bufs front back : List (List UInt8)} {buf : List UInt8}
    (collected : loop.Collected bufs front accepted) (split : bufs = front ++ buf :: back)
    (length : accepted.length = front.length) (last : Bool) :
    (loop.next bufs front.length buf last).Collected bufs (front ++ [buf]) (accepted ++ [last]) := by
  rcases loop with ⟨firstDenied, allowed⟩
  have whole : bufs.take front.length = front := by
    rw [split, take_left]
  cases firstDenied with
  | none =>
    rcases collected.all rfl with ⟨rfl, every⟩
    cases last with
    | false =>
      refine ⟨nofun, ?_, nofun⟩
      rintro _ ⟨⟩ _
      simp [acceptedPackets_concat length, every, whole]
    | true =>
      refine ⟨fun _ => ⟨rfl, ?_⟩, nofun, nofun⟩
      simp [acceptedPackets_concat length, every]
  | some firstDenied =>
    cases last with
    | false =>
      refine ⟨nofun, ?_, ?_⟩
      · intro other isFirst none
        simp [acceptedPackets_concat length, collected.first other isFirst none]
      · intro packets indexes collectedPackets
        simp [acceptedPackets_concat length, collected.allowed packets indexes collectedPackets]
    | true =>
      refine ⟨nofun, nofun, ?_⟩
      rintro _ _ ⟨⟩
      rw [acceptedPackets_concat length]
      cases allowed with
      | none => simp [collected.first firstDenied rfl rfl]
      | some packets => simp [collected.allowed packets.1 packets.2 rfl]

theorem run_induction {motive : List (List UInt8) → List Bool → WriteLoop → Prop}
    (next : ∀ {front back buf accepted loop}, motive front accepted loop →
      bufs = front ++ buf :: back → accepted.length = front.length → ∀ last,
        motive (front ++ [buf]) (accepted ++ [last]) (loop.next bufs front.length buf last))
    (later : List (List UInt8)) (rest : List Bool)
    (holds : motive front accepted loop) (split : bufs = front ++ later)
    (length : accepted.length = front.length) (lengths : rest.length = later.length) :
    motive bufs (accepted ++ rest) (run bufs front.length later rest loop) := by
  induction later generalizing front accepted rest loop with
  | nil =>
    rw [length_eq_zero_iff.mp lengths, append_nil]
    rw [append_nil] at split
    subst split
    exact holds
  | cons buf later ih =>
    rcases rest with _ | ⟨last, rest⟩
    · cases lengths
    · have after := ih rest (next holds split length last)
        (by rw [split]; simp) (by simp [length]) (by simpa using lengths)
      rw [length_append, append_assoc] at after
      exact after

end WriteLoop

theorem writeLoop_eq (world : FirewallWorld) (bufs : List (List UInt8)) (offset i : ℕ)
    (later : List (List UInt8)) (loop : WriteLoop) :
    writeLoop world bufs offset i later loop =
      (later.mapM (acceptsIncoming world offset) >>= fun accepted =>
        pure (loop.run bufs i later accepted)) := by
  induction later generalizing i loop with
  | nil => rfl
  | cons buf later ih =>
    rw [writeLoop, mapM_cons, bind_assoc]
    congr 1
    funext accepted
    rw [ih, bind_assoc]
    congr 1

theorem finishWrite_ok {Err : Type} (inner : List (List UInt8) → ℤ × Option Err) {loop : WriteLoop}
    (collected : loop.Collected bufs bufs accepted) :
    ∃ result, finishWrite inner bufs loop = .ok result ∧
      result.forwarded.getD [] = acceptedPackets bufs accepted := by
  rcases loop with ⟨firstDenied, allowed⟩
  cases firstDenied with
  | none => exact ⟨_, rfl, (collected.all rfl).2.symm⟩
  | some firstDenied =>
    cases allowed with
    | none =>
      have packets := collected.first firstDenied rfl rfl
      by_cases none : firstDenied = 0
      · subst none
        exact ⟨_, rfl, by simp [packets]⟩
      · exact ⟨_, if_neg none, packets.symm⟩
    | some collectedPackets =>
      rcases collectedPackets with ⟨packets, indexes⟩
      have same := collected.allowed packets indexes rfl
      simp only [finishWrite]
      split_ifs with every written
      · exact ⟨_, rfl, same⟩
      · exact ⟨_, rfl, same⟩
      · rw [index_eq_ok (by omega), ok_bind]
        exact ⟨_, rfl, same⟩

section Runs

variable {Err : Type}

theorem inside_of_validate {offset : ℤ} {done : Unit}
    (valid : validatePacketOffset bufs offset = .ok done) :
    ∀ buf ∈ bufs, offset.toNat ≤ buf.length := by
  unfold validatePacketOffset at valid
  split_ifs at valid with negative short
  intro buf member
  have fits := short
  rw [not_eq_true, any_eq_false] at fits
  have inside := fits buf member
  simp only [decide_eq_true_eq] at inside
  omega

variable (ordered : Monotone world.clock)

include ordered

open WriteLoop

theorem writePackets_reaches (followed : state.Followed world)
    (inner : List (List UInt8) → ℤ × Option Err) (bufs : List (List UInt8)) (offset : ℤ) :
    Reaches state (writePackets world inner bufs offset) fun result after =>
      after.Followed world ∧
      (validatePacketOffset bufs offset ≠ .ok () → result.forwarded = none) ∧
      (validatePacketOffset bufs offset = .ok () →
        ∃ accepted, accepted.length = bufs.length ∧
          result.forwarded.getD [] = acceptedPackets bufs accepted ∧
          ∀ front buf back, bufs = front ++ buf :: back →
            Reaches state (front.mapM (acceptsIncoming world offset.toNat)) fun _ moment =>
              ∃ decision, accepted[front.length]? = some decision ∧
                (decision = true ↔ moment.LetsIn world (buf.drop offset.toNat))) := by
  unfold writePackets
  cases valid : validatePacketOffset bufs offset with
  | error err =>
    refine pure_iff.mpr ⟨followed, fun _ => rfl, ?_⟩
    rintro ⟨⟩
  | ok done =>
    have inside := inside_of_validate valid
    rw [writeLoop_eq, bind_assoc, bind_iff]
    refine (mapM (fun buf member state followed =>
      (acceptsIncoming_reaches ordered followed (inside buf member)).mono
        fun _ _ judged => ⟨judged.1.1.followed, judged.2⟩) followed).mono ?_
    rintro accepted after ⟨afterFollowed, length, moments⟩
    have start : Collected bufs [] [] ⟨none, none⟩ := ⟨fun _ => ⟨rfl, rfl⟩, nofun, nofun⟩
    have collected : Collected bufs bufs accepted
        (run bufs 0 bufs accepted ⟨none, none⟩) :=
      run_induction Collected.next bufs accepted start rfl rfl length
    rcases finishWrite_ok inner collected with ⟨result, finished, forwarded⟩
    rw [pure_bind, lift_ok finished]
    exact ⟨afterFollowed, fun refused => absurd rfl refused,
      fun _ => ⟨accepted, length, forwarded, moments⟩⟩

open FirewallState

theorem filterOutgoingRead_ensures (offset count i kept : ℕ) (buffers : ReadBuffers)
    (bufs : i + count ≤ buffers.bufs.length) (sizes : i + count ≤ buffers.sizes.length)
    (behind : kept ≤ i) :
    Ensures (Followed world) (filterOutgoingRead world offset count i kept buffers :
        Stateful FirewallState (ReadBuffers × ℕ × Option (FirewallError Err))) fun _ => True := by
  induction count generalizing i kept buffers with
  | zero =>
    intro state followed
    exact pure_iff.mpr ⟨followed, trivial⟩
  | succ count ih =>
    intro state followed
    have skip := ih (i + 1) kept buffers (by omega) (by omega) (by omega)
    have buf := index_eq_ok (by omega : i < buffers.bufs.length)
    have size := index_eq_ok (by omega : i < buffers.sizes.length)
    have target := index_eq_ok (by omega : kept < buffers.bufs.length)
    simp only [filterOutgoingRead, bind_iff, lift_ok buf, lift_ok size]
    split
    · exact skip state followed
    · rename_i packet _
      rw [bind_iff]
      refine (passesOutgoing_reaches ordered followed packet).mono ?_
      rintro passed after ⟨afterFollowed, _⟩
      cases passed with
      | false => exact skip after afterFollowed
      | true =>
        rw [if_neg (by simp), bind_iff, lift_ok target]
        have next : ∀ buffers : ReadBuffers, i + (count + 1) ≤ buffers.bufs.length →
            i + (count + 1) ≤ buffers.sizes.length → _ := fun buffers bufs sizes =>
          ih (i + 1) (kept + 1) buffers (by omega) (by omega) (by omega) after
            afterFollowed
        split_ifs with short moved
        · exact pure_iff.mpr ⟨afterFollowed, trivial⟩
        · exact next _ (by simpa using bufs) (by simpa using sizes)
        · exact next _ bufs (by simpa using sizes)

theorem readLoop_ensures (offset : ℕ) (inner : List (InnerRead Err)) :
    Ensures (Followed world) (readLoop world offset inner) fun _ => True := by
  induction inner with
  | nil =>
    intro state followed
    exact pure_iff.mpr ⟨followed, trivial⟩
  | cons first later ih =>
    refine Ensures.bind (filterOutgoingRead_ensures ordered offset _ 0 0 first.buffers (by omega)
      (by omega) (le_refl 0)) ?_
    rintro ⟨buffers, kept, filterErr⟩ _ state followed
    dsimp only
    split_ifs with failed returned
    · exact pure_iff.mpr ⟨followed, trivial⟩
    · exact pure_iff.mpr ⟨followed, trivial⟩
    · exact ih state followed

theorem performCall_ensures (call : FirewallCall Err) :
    Ensures (Followed world) (performCall world call) fun _ => True := by
  intro state followed
  cases call with
  | read buffers offset inner =>
    rw [performCall, bind_iff]
    have reads : Reaches state (readPackets world buffers offset inner) fun _ after =>
        after.Followed world ∧ True := by
      unfold readPackets
      split_ifs with negative
      · exact pure_iff.mpr ⟨followed, trivial⟩
      · exact readLoop_ensures ordered offset.toNat inner state followed
    exact reads.mono fun _ after kept => pure_iff.mpr kept
  | write inner bufs offset =>
    rw [performCall, bind_iff]
    refine (writePackets_reaches ordered followed inner bufs offset).mono ?_
    rintro result after ⟨afterFollowed, _⟩
    exact pure_iff.mpr ⟨afterFollowed, trivial⟩
  | setConfig config =>
    refine modify_iff.mpr ⟨?_, trivial⟩
    exact ⟨followed.table, followed.past, followed.outgoing⟩

theorem performCalls_ensures (calls : List (FirewallCall Err)) :
    Ensures (FirewallState.Followed world) (performCalls world calls) fun _ => True := by
  induction calls with
  | nil =>
    intro state followed
    exact pure_iff.mpr ⟨followed, trivial⟩
  | cons call calls ih =>
    exact Ensures.bind (performCall_ensures ordered call) fun _ _ => ih

omit ordered

variable (world packet state)

/-- The end of the IP packet. A jumbogram has the payload length zero. -/
def ipEnd (flow : FirewallFlow) : ℕ :=
  if flow.version = 4 then wordAt packet 2
  else if wordAt packet 4 = 0 then packet.length
  else 40 + wordAt packet 4

/-- The packet is an ICMP error, no later fragment, and quotes within its own end a packet whose
reversed flow was recorded. -/
def FirewallState.ReportsLive (flow : FirewallFlow) (reading : ℕ) : Prop :=
  (flow.version = 4 → wordAt packet 6 &&& 0x1fff = 0) ∧
    state.QuotesLive world (packet.take (ipEnd packet flow)) flow reading

/-- The rules include the flow, or it was recorded. -/
def FirewallState.Knows (flow : FirewallFlow) : Prop :=
  includesIncoming world state.config flow = true ∨ state.Live world flow state.ticks

/-- What is to be let in: a packet with a known flow, or an ICMP error that quotes a packet whose
reversed flow was recorded. -/
def FirewallState.Admits : Prop :=
  ∃ flow, parseFirewallPacket packet = .ok (some flow) ∧
    (state.Knows world flow ∨ state.ReportsLive world packet flow (state.ticks + 1))

/-- The bytes of a packet with an unknown flow quote something else, with those behind the end
of the IP packet or in a later fragment, than the packet itself does. -/
def FirewallState.Misreads : Prop :=
  ∃ flow, parseFirewallPacket packet = .ok (some flow) ∧ ¬state.Knows world flow ∧
    ¬(state.QuotesLive world packet flow (state.ticks + 1) ↔
      state.ReportsLive world packet flow (state.ticks + 1))

variable {world}

theorem FirewallState.letsIn_iff_admits :
    (state.LetsIn world packet ↔ state.Admits world packet) ↔ ¬state.Misreads world packet := by
  rcases parseFirewallPacket_safe packet with ⟨found, parsed⟩
  cases found with
  | none => simp [LetsIn, Admits, Misreads, parsed]
  | some flow =>
    simp only [LetsIn, Admits, Misreads, Knows, parsed, Except.ok.injEq, Option.some.injEq,
      exists_eq_left']
    tauto

end Runs

/-- After every run of calls the table is what its uses make of it, and every record is one of
an outgoing packet that the rules did not exclude. A call of `Write` then hands on exactly the
packets it accepts. A packet is rightly accepted or not exactly if it is not misread. -/
theorem forwarded_rightly_iff {Err : Type} {world : FirewallWorld} (ordered : Monotone world.clock)
    (config : FirewallPolicy) (calls : List (FirewallCall Err)) :
    Reaches (newFirewall world config) (performCalls world calls) fun _ state =>
      state.Followed world ∧
      ∀ (inner : List (List UInt8) → ℤ × Option Err) (bufs : List (List UInt8)) (offset : ℤ),
        Reaches state (writePackets world inner bufs offset) fun result _ =>
          (validatePacketOffset bufs offset ≠ .ok () → result.forwarded = none) ∧
          (validatePacketOffset bufs offset = .ok () →
            ∃ accepted, accepted.length = bufs.length ∧
              result.forwarded.getD [] = acceptedPackets bufs accepted ∧
              ∀ front buf back, bufs = front ++ buf :: back →
                Reaches state (front.mapM (acceptsIncoming world offset.toNat)) fun _ moment =>
                  ∃ decision, accepted[front.length]? = some decision ∧
                    ((decision = true ↔ moment.Admits world (buf.drop offset.toNat)) ↔
                      ¬moment.Misreads world (buf.drop offset.toNat))) := by
  refine (performCalls_ensures ordered calls _ (newFirewall_followed config)).mono ?_
  rintro _ state ⟨followed, _⟩
  refine ⟨followed, fun inner bufs offset => ?_⟩
  refine (writePackets_reaches ordered followed inner bufs offset).mono ?_
  rintro result _ ⟨_, refused, handled⟩
  refine ⟨refused, fun valid => ?_⟩
  rcases handled valid with ⟨accepted, length, forwarded, moments⟩
  refine ⟨accepted, length, forwarded, fun front buf back split => ?_⟩
  refine (moments front buf back split).mono ?_
  rintro _ moment ⟨decision, decided, letsIn⟩
  exact ⟨decision, decided, by rw [letsIn, FirewallState.letsIn_iff_admits]⟩

def stillWorld : FirewallWorld where
  library := Firewall.plainLibrary
  clock _ := 0
  optimize rules := rules

def noRules : FirewallPolicy where
  rules := ⟨[], [], none⟩
  responseTTL := 0

/-- A UDP packet from `10.0.0.1:1000` to `192.0.2.1:53`. -/
def queryPacket : List UInt8 :=
  [0x45, 0, 0, 28, 0, 0, 0, 0, 64, 17, 0, 0, 10, 0, 0, 1, 192, 0, 2, 1, 3, 232, 0, 53, 0, 8, 0, 0]

/-- A later fragment of an ICMP packet from `198.51.100.7`. Its bytes look like an error that
quotes the UDP packet. -/
def icmpFragment : List UInt8 :=
  [0x45, 0, 0, 56, 0, 0, 0, 1, 64, 1, 0, 0, 198, 51, 100, 7, 10, 0, 0, 1,
    3, 3, 0, 0, 0, 0, 0, 0] ++ queryPacket

def queryRead : FirewallCall Unit :=
  .read ⟨[queryPacket], [28]⟩ 0 [⟨⟨[queryPacket], [28]⟩, 1, none⟩]

def takesAll (bufs : List (List UInt8)) : ℤ × Option Unit :=
  (bufs.length, none)

/-- A UDP packet from `192.0.2.1:53` to `10.0.0.1:1000`. -/
def answerPacket : List UInt8 :=
  [0x45, 0, 0, 28, 0, 0, 0, 0, 64, 17, 0, 0, 192, 0, 2, 1, 10, 0, 0, 1, 0, 53, 3, 232, 0, 8, 0, 0]

/-- The answer is handed on after the query. -/
theorem forwarded_rightly_query :
    Monotone stillWorld.clock ∧
      Reaches (newFirewall stillWorld noRules) (performCalls stillWorld [queryRead]) fun _ state =>
        Reaches state (writePackets stillWorld takesAll [answerPacket] 0) fun result _ =>
          result.forwarded.getD [] = [answerPacket] := by
  have ordered : Monotone stillWorld.clock := monotone_const
  rcases forwarded_rightly_iff ordered noRules [queryRead] with ⟨_, state, ran, _, handles⟩
  cases ran
  refine ⟨ordered, _, _, rfl, (handles takesAll [answerPacket] 0).mono ?_⟩
  rintro result _ ⟨_, handled⟩
  rcases handled (by decide) with ⟨accepted, length, forwarded, moments⟩
  rcases moments [] answerPacket [] rfl with ⟨_, moment, ran, decision, decided, rightly⟩
  have live : moment.Knows stillWorld ⟨4, 17, .v4 0xc0000201, .v4 0x0a000001, 53, 1000⟩ := by
    cases ran
    exact .inr ⟨120000000000, rfl, by decide⟩
  have wellRead : ¬moment.Misreads stillWorld answerPacket := by
    rintro ⟨flow, parsed, unknown, _⟩
    cases parsed
    exact unknown live
  have isAccepted := (rightly.mpr wellRead).mpr ⟨_, rfl, .inl live⟩
  rcases length_eq_one_iff.mp length with ⟨only, rfl⟩
  cases decided
  rw [forwarded, isAccepted]
  rfl

/-- The later fragment is handed on, although no rule includes it, its flow was not recorded,
and it is no ICMP error. -/
theorem later_fragment_forwarded :
    Reaches (newFirewall stillWorld noRules) (performCalls stillWorld [queryRead]) fun _ state =>
      Reaches state (writePackets stillWorld takesAll [icmpFragment] 0) fun result _ =>
        result.forwarded = some [icmpFragment] ∧ ¬state.Admits stillWorld icmpFragment := by
  refine ⟨_, _, rfl, _, _, rfl, rfl, ?_⟩
  rintro ⟨flow, parsed, (included | ⟨expires, recorded, _⟩) | ⟨first, _⟩⟩
  · cases parsed
    exact false_ne_true included
  · cases parsed
    cases recorded
  · cases parsed
    exact absurd (first rfl) (by decide)

variable {reply : FirewallFlow} {holds : Holds}

section Families

open Firewall

variable {flow : FirewallFlow}

theorem guard_eq_some_iff {α : Type} {condition : Prop} [Decidable condition]
    {rest : Checked (Option α)} {value : α} :
    (if condition then pure none else rest) = .ok (some value) ↔
      ¬condition ∧ rest = .ok (some value) := by
  split_ifs with holds <;> simp [holds]

theorem family_of_parse (parsed : parseFirewallPacket packet = .ok (some flow)) :
    flow.version = 4 ∧ (∃ value, flow.dst = .v4 value) ∨
      flow.version = 6 ∧ ∃ value, flow.dst = .v6 value "" := by
  simp only [parseFirewallPacket, guard_eq_some_iff, bind_eq_ok_iff] at parsed
  rcases parsed with ⟨_, first, _, parsed⟩
  split_ifs at parsed
  · simp only [parseFirewallIPv4, guard_eq_some_iff, bind_eq_ok_iff] at parsed
    rcases parsed with ⟨_, _, _, _, _, _, _, _, _, _, _, _, _, _, parsed⟩
    left
    split_ifs at parsed
    · rcases of_bind parsed with ⟨_, _, parsed⟩
      rcases of_bind parsed with ⟨_, _, parsed⟩
      cases parsed
      exact ⟨rfl, _, rfl⟩
    · cases parsed
      exact ⟨rfl, _, rfl⟩
  · simp only [parseFirewallIPv6, guard_eq_some_iff, bind_eq_ok_iff] at parsed
    rcases parsed with ⟨_, _, _, _, _, _, _, _, _ | _, _, parsed⟩
    · cases parsed
    · rcases of_bind parsed with ⟨_, _, parsed⟩
      rcases of_bind parsed with ⟨_, _, parsed⟩
      cases parsed
      exact .inr ⟨rfl, _, rfl⟩
  · cases parsed

def networkRule (name : Text) : Rule where
  network := name
  hosts := []
  localHosts := []
  ports := []
  portRanges := []

def DroppedBy (world : FirewallWorld) (name : Text) (packet : List UInt8) : Prop :=
  ∀ state : FirewallState, networkRule name ∈ state.config.rules.excludeRules →
    Reaches state (passesOutgoing world packet) fun passed after => passed = false ∧ after = state

open CompiledRule

theorem droppedBy_iff (parsed : parseFirewallPacket packet = .ok (some flow)) {name : Text}
    (plain : normalizeFirewallNetwork world.library name = name) {version : UInt8}
    (positive : version ≠ 0) (family : compileFirewallIPSelector name =
      (version, anyFirewallIPProtocol, true)) :
    DroppedBy world name packet ↔ ipVersionOf (normalizeFirewallAddr flow.dst) = version := by
  have valid : (normalizeFirewallAddr flow.dst).isValid = true := by
    rw [isValid_normalizeFirewallAddr]
    rcases family_of_parse parsed with ⟨_, value, isDst⟩ | ⟨_, value, isDst⟩ <;> rw [isDst] <;> rfl
  have selects (cache : DNSCache) :
      let rule := compileFirewallRule world.library (networkRule name)
      let addr := normalizeFirewallAddr flow.dst
      (rule.ipMatches (ipVersionOf addr) flow.proto &&
        rule.portMatches (UInt16.ofNat flow.dstPort) &&
        rule.peerMatches world.library ⟨[], addr⟩ cache) = true ↔
          ipVersionOf addr = version := by
    simp [compileFirewallRule, networkRule, plain, family, positive,
      ipMatches, ipProtocolMatches,
      portMatches, peerMatches,
      compileFirewallHostSelector, eq_comm]
  constructor
  · intro dropped
    by_contra other
    have passes : keptFlow world ⟨⟨[networkRule name], [], none⟩, 0⟩ packet = some flow := by
      refine keptFlow_eq_some_iff.mpr ⟨parsed, ?_⟩
      simp [blocksOutgoing, Config.blocksOutgoingIP, matchFirewallIPRules,
        compileFirewallRules, valid, mt (selects none).mp other]
    have outcome := dropped ⟨⟨⟨[networkRule name], [], none⟩, 0⟩, .empty, 0, []⟩
      mem_cons_self
    simp only [passesOutgoing_iff, passes] at outcome
    rcases outcome with ⟨_, _, _, ⟨⟩, _⟩
  · intro same state member
    have blocked : blocksOutgoing world state.config flow = true := by
      rw [blocksOutgoing, Config.blocksOutgoingIP, matchFirewallIPRules]
      simp only [valid, Bool.true_and, any_eq_true]
      exact ⟨_, mem_map_of_mem member, (selects _).mpr same⟩
    have none : keptFlow world state.config packet = none := by
      simp [keptFlow, parsed, blocked]
    simp [passesOutgoing_iff, none]

/-- For IPv4 packets a rule for `ip4` does what it says. A rule for `ip6` lets the IPv6 packets
pass that go to an IPv4 address in IPv6 form. -/
theorem family_rule_drops_iff (parsed : parseFirewallPacket packet = .ok (some flow))
    (plain : ∀ name ∈ [bytes "ip4", bytes "ip6"],
      normalizeFirewallNetwork world.library name = name) :
    (flow.version = 4 → DroppedBy world (bytes "ip4") packet) ∧
      (flow.version = 6 → (DroppedBy world (bytes "ip6") packet ↔ is4In6 flow.dst = false)) := by
  rcases family_of_parse parsed with ⟨isFour, value, isDst⟩ | ⟨isSix, value, isDst⟩
  · refine ⟨fun _ => ?_, fun isSix => ?_⟩
    · apply (droppedBy_iff parsed (plain _ (by simp)) (by decide) rfl).mpr
      rw [isDst]
      rfl
    · cases isFour.symm.trans isSix
  · refine ⟨fun isFour => ?_, fun _ => ?_⟩
    · cases isFour.symm.trans isSix
    · rw [droppedBy_iff parsed (plain _ (by simp)) (by decide) rfl, isDst]
      simp only [normalizeFirewallAddr, Addr.unmap, is4In6]
      split_ifs with mapped
      · simp [mapped, withoutZone, ipVersionOf, Addr.is4]
      · simp [mapped, withoutZone, ipVersionOf, Addr.is4]

end Families

/-- A UDP packet from `2001:db8::1` to `::ffff:192.0.2.1`. -/
def mappedPacket : List UInt8 :=
  [0x60, 0, 0, 0, 0, 8, 17, 64, 0x20, 1, 0x0d, 0xb8, 0, 0, 0, 0, 0, 0, 0, 0, 0, 0, 0, 1,
    0, 0, 0, 0, 0, 0, 0, 0, 0, 0, 0xff, 0xff, 192, 0, 2, 1, 3, 232, 0, 53, 0, 8, 0, 0]

theorem family_rule_drops_query : DroppedBy stillWorld (bytes "ip4") queryPacket ∧
    ¬DroppedBy stillWorld (bytes "ip6") mappedPacket := by
  have part : PartOf ⟨6, 17, .v6 0x20010db8000000000000000000000001 "", .v6 0xffffc0000201 "", 1000,
      53⟩ mappedPacket .ports :=
    .over6 rfl (by decide) (by decide) (.inr rfl) rfl rfl (.transport (.ports (by decide) rfl rfl))
      nofun
  refine ⟨(family_rule_drops_iff rfl (by decide)).1 rfl, ?_⟩
  rw [(family_rule_drops_iff (part.parsed (.inr rfl)) (by decide)).2 rfl]
  decide

def noIPv6 : FirewallPolicy where
  rules := ⟨[networkRule (bytes "ip6")], [], none⟩
  responseTTL := 0

/-- An IPv6 packet that a rule against all of IPv6 lets pass. -/
theorem mapped_passes_ip6_rule :
    Reaches (newFirewall stillWorld noIPv6) (passesOutgoing stillWorld mappedPacket)
      fun passed _ => passed = true := by
  have kept : (keptFlow stillWorld noIPv6 mappedPacket).isSome = true := by decide +kernel
  rcases Option.isSome_iff_exists.mp kept with ⟨flow, isFlow⟩
  have same : (newFirewall stillWorld noIPv6).config = noIPv6 := rfl
  simp only [passesOutgoing_iff, same, isFlow]
  exact ⟨_, _, rfl, trivial⟩

end Gonnect.Tun
