import Gonnect.Sniffer.Chunks
import Gonnect.Sniffer.WellKnown
import Gonnect.Sniffer.TlsChunks

/-!
# Classifiers and their combinations

The classifiers of the package are the protocol classifiers, which look at the bytes, and
the combinators `And`, `Or`, `Not` and `Limit`. A classifier is a value that a call of
`feed` replaces: the state it reports and what it keeps between the calls.

`Ready` is the invariant of a classifier that still has `rest` of the stream before it. Only
a TLS classifier can fail to be ready: the stream must not carry a truncated ClientHello
within its limit.
-/

namespace Gonnect.Sniffer

open Checked List

def PrefixKind.maxBytes : PrefixKind → ℕ
  | .mqtt => mqttConnectMaxPrefixBytes
  | .redis => redisRESPRequestMaxPrefixBytes
  | .stun => stunHeaderBytes
  | .rdp => rdpConnectionRequestMinBytes
  | .smb => smbOverTCPRequestMinBytes
  | .ldap => ldapMessagePrefixMaxBytes
  | .cassandra => cassandraRequestHeaderBytes
  | .memcachedBinary => memcachedBinaryHeaderBytes

def PrefixKind.matchPrefix : PrefixKind → List UInt8 → Checked State
  | .mqtt => matchMQTTConnectPrefix
  | .redis => matchRedisRESPRequestPrefix
  | .stun => matchSTUNHeaderPrefix
  | .rdp => matchRDPConnectionRequestPrefix
  | .smb => matchSMBOverTCPRequestPrefix
  | .ldap => matchLDAPMessagePrefix
  | .cassandra => matchCassandraRequestHeaderPrefix
  | .memcachedBinary => matchMemcachedBinaryHeaderPrefix

def HeaderKind.size : HeaderKind → ℕ
  | .postgresql => postgresqlHeaderBytes
  | .mongoDB => mongoDBHeaderBytes
  | .proxyProtocolV2 => proxyProtocolV2HeaderBytes
  | .socks4 => socks4HeaderBytes

def HeaderKind.early : HeaderKind → List UInt8 → Checked Bool
  | .postgresql => postgresqlShortPacket
  | .mongoDB => mongoDBShortMessage
  | .proxyProtocolV2 => proxyProtocolV2BadByte
  | .socks4 => socks4BadByte

def HeaderKind.valid : HeaderKind → List UInt8 → Checked Bool
  | .postgresql => validPostgreSQLStartupHeader
  | .mongoDB => validMongoDBHeader
  | .proxyProtocolV2 => validProxyProtocolV2Header
  | .socks4 => validSOCKS4Header

def LineKind.maxBytes : LineKind → ℕ
  | .rtsp => rtspRequestLineMaxBytes
  | .sip => sipRequestLineMaxBytes
  | .memcachedASCII => memcachedASCIIRequestMaxBytes

def LineKind.valid : LineKind → List UInt8 → Checked Bool
  | .rtsp => validTextRequestLine rtspRequestMethods "RTSP/1.0"
  | .sip => validTextRequestLine sipRequestMethods "SIP/2.0"
  | .memcachedASCII => validMemcachedASCIIRequestLine

theorem PrefixKind.matchPrefix_safe (kind : PrefixKind) (data : List UInt8) :
    Safe (kind.matchPrefix data) := by
  cases kind with
  | mqtt => exact matchMQTTConnectPrefix_safe data
  | redis => exact matchRedisRESPRequestPrefix_safe data
  | stun => exact matchSTUNHeaderPrefix_safe data
  | rdp => exact matchRDPConnectionRequestPrefix_safe data
  | smb => exact matchSMBOverTCPRequestPrefix_safe data
  | ldap => exact matchLDAPMessagePrefix_safe data
  | cassandra => exact matchCassandraRequestHeaderPrefix_safe data
  | memcachedBinary => exact matchMemcachedBinaryHeaderPrefix_safe data

theorem HeaderKind.early_safe (kind : HeaderKind) (data : List UInt8) (nonempty : data ≠ []) :
    Safe (kind.early data) := by
  cases kind with
  | postgresql => exact postgresqlShortPacket_safe data
  | mongoDB => exact mongoDBShortMessage_safe data
  | proxyProtocolV2 => exact proxyProtocolV2BadByte_safe data nonempty
  | socks4 => exact socks4BadByte_safe data nonempty

theorem HeaderKind.valid_safe (kind : HeaderKind) (data : List UInt8) : Safe (kind.valid data) := by
  cases kind with
  | postgresql => exact validPostgreSQLStartupHeader_safe data
  | mongoDB => exact validMongoDBHeader_safe data
  | proxyProtocolV2 => exact validProxyProtocolV2Header_safe data
  | socks4 => exact validSOCKS4Header_safe data

theorem LineKind.valid_safe (kind : LineKind) (line : List UInt8) : Safe (kind.valid line) := by
  cases kind with
  | rtsp | sip => exact validTextRequestLine_safe _ _ line
  | memcachedASCII => exact validMemcachedASCIIRequestLine_safe line

def literalStep (want : List UInt8) (offset : ℕ) (byte : UInt8) : Checked (ℕ × State) := do
  if byte ≠ (← index want offset) then
    return (offset, .mismatch)
  if offset + 1 = want.length then
    return (offset + 1, .matched)
  return (offset + 1, .needMore)

/-- `p[:remaining]` of `limitClassifier`; a negative bound faults like one that is too large. -/
def limitChunk (limit seen : ℕ) (chunk : List UInt8) : Checked (List UInt8) :=
  if limit < seen + chunk.length then
    if limit < seen then .error .outOfRange else window chunk 0 (limit - seen)
  else
    .ok chunk

inductive Leaf where
  | literal (want : List UInt8) (offset : ℕ)
  | protocolPrefix (kind : PrefixKind) (buf : List UInt8)
  | header (kind : HeaderKind) (buf : List UInt8)
  | line (kind : LineKind) (buf : List UInt8)
  | socks5 (memory : Socks5Memory)
  | dnsOverTCP (maxMessageBytes : ℕ) (buf : List UInt8)
  | http (config : HttpConfig) (memory : HttpMemory)
  | tls (config : NormalizedTlsConfig) (memory : TlsMemory)

def Leaf.feed (library : Library) (leaf : Leaf) (chunk : List UInt8) : Checked (Leaf × State) := do
  match leaf with
  | .literal want offset =>
    if want.length = 0 then
      return (.literal want offset, .matched)
    let (offset, state) ← feedLoop (literalStep want) (fun _ => .needMore) offset chunk
    return (.literal want offset, state)
  | .protocolPrefix kind buf =>
    let (buf, state) ← feedLoop (protocolPrefixStep kind.maxBytes kind.matchPrefix)
      (boundedFinish kind.maxBytes) buf chunk
    return (.protocolPrefix kind buf, state)
  | .header kind buf =>
    let (buf, state) ← feedLoop (headerStep kind.size kind.early kind.valid)
      (fun _ => .needMore) buf chunk
    return (.header kind buf, state)
  | .line kind buf =>
    let (buf, state) ← feedLoop (crlfLineStep kind.maxBytes kind.valid)
      (boundedFinish kind.maxBytes) buf chunk
    return (.line kind buf, state)
  | .socks5 memory =>
    let (memory, state) ← feedLoop socks5Step (fun _ => .needMore) memory chunk
    return (.socks5 memory, state)
  | .dnsOverTCP maxMessageBytes buf =>
    let (buf, state) ← dnsOverTCPFeed maxMessageBytes buf chunk
    return (.dnsOverTCP maxMessageBytes buf, state)
  | .http config memory =>
    let (memory, state) ← feedLoop (httpStep library config) (fun _ => .needMore) memory chunk
    return (.http config memory, state)
  | .tls config memory =>
    let (memory, state) ← tlsFeed library config memory chunk
    return (.tls config memory, state)

/-- The stream `rest` cannot make the classifier read outside its buffers. -/
def Leaf.Ready (rest : List UInt8) : Leaf → Prop
  | .literal want offset => want.length = 0 ∨ offset < want.length
  | .dnsOverTCP maxMessageBytes buf => buf.length < 2 + maxMessageBytes
  | .tls config memory => memory.Waiting config ∧
      ¬TruncatedHello (handshakeOf ((memory.buf ++ rest).take config.maxClientHelloBytes))
  | _ => True

theorem literalStep_safe {want : List UInt8} {offset : ℕ} (inside : offset < want.length)
    (byte : UInt8) : Safe (literalStep want offset byte) := by
  apply Safe.readAt ?_
  intro expected
  apply Safe.skip
  apply Safe.skip
  exact safe_ok _

theorem literalStep_keeps {want : List UInt8} {offset next : ℕ} {byte : UInt8}
    (inside : offset < want.length) (stepped : literalStep want offset byte = .ok (next, .needMore)) :
    next < want.length := by
  unfold literalStep at stepped
  rw [index_eq_ok inside] at stepped
  simp only [ok_bind, pure_eq_ok] at stepped
  split_ifs at stepped with differs last
  · cases stepped
  · cases stepped
  · cases stepped
    omega

theorem feedLoop_safe_of_step {Memory : Type} {step : Memory → UInt8 → Checked (Memory × State)}
    {finish : Memory → State} (safeStep : ∀ memory byte, Safe (step memory byte))
    (memory : Memory) (chunk : List UInt8) : Safe (feedLoop step finish memory chunk) :=
  @feedLoop_safe _ step finish (fun _ => True) (fun memory byte _ => safeStep memory byte)
    (fun _ _ _ _ _ => trivial) chunk memory trivial

open Leaf

theorem Leaf.feed_ready (library : Library) {leaf : Leaf} {chunk rest : List UInt8}
    (ready : leaf.Ready (chunk ++ rest)) :
    ∃ next state, leaf.feed library chunk = .ok (next, state) ∧
      (state = .needMore → next.Ready rest) := by
  cases leaf with
  | literal want offset =>
    by_cases empty : want.length = 0
    · exact ⟨.literal want offset, .matched, by simp [feed, empty], by simp⟩
    · have inside : offset < want.length := ready.resolve_left empty
      rcases @feedLoop_safe _ (literalStep want) (fun _ => .needMore) (· < want.length)
        (fun _ byte fit => literalStep_safe fit byte)
        (fun _ _ _ fit stepped => literalStep_keeps fit stepped) chunk offset inside with
        ⟨⟨next, state⟩, fed⟩
      refine ⟨.literal want next, state, by simp [feed, empty, fed], ?_⟩
      rintro rfl
      exact .inr (feedLoop_keeps (fun _ _ _ fit stepped => literalStep_keeps fit stepped)
        chunk offset next inside fed)
  | protocolPrefix kind buf =>
    rcases @feedLoop_safe_of_step _ (protocolPrefixStep kind.maxBytes kind.matchPrefix)
      (boundedFinish kind.maxBytes) (protocolPrefixStep_safe kind.matchPrefix_safe) buf chunk with
      ⟨⟨next, state⟩, fed⟩
    exact ⟨.protocolPrefix kind next, state, by simp [feed, fed], fun _ => trivial⟩
  | header kind buf =>
    rcases @feedLoop_safe_of_step _ (headerStep kind.size kind.early kind.valid)
      (fun _ => .needMore) (headerStep_safe kind.early_safe kind.valid_safe) buf chunk with
      ⟨⟨next, state⟩, fed⟩
    exact ⟨.header kind next, state, by simp [feed, fed], fun _ => trivial⟩
  | line kind buf =>
    rcases @feedLoop_safe_of_step _ (crlfLineStep kind.maxBytes kind.valid)
      (boundedFinish kind.maxBytes) (crlfLineStep_safe kind.valid_safe) buf chunk with
      ⟨⟨next, state⟩, fed⟩
    exact ⟨.line kind next, state, by simp [feed, fed], fun _ => trivial⟩
  | socks5 memory =>
    rcases @feedLoop_safe_of_step _ _ (fun _ => .needMore) socks5Step_safe memory chunk with
      ⟨⟨next, state⟩, fed⟩
    exact ⟨.socks5 next, state, by simp [feed, fed], fun _ => trivial⟩
  | dnsOverTCP maxMessageBytes buf =>
    rcases dnsOverTCPFeed_safe maxMessageBytes buf chunk with ⟨⟨next, state⟩, fed⟩
    exact ⟨.dnsOverTCP maxMessageBytes next, state, by simp [feed, fed],
      (dnsOverTCPFeed_resume ready fed []).2⟩
  | http config memory =>
    rcases @feedLoop_safe_of_step _ _ (fun _ => .needMore) (httpStep_safe library config)
      memory chunk with ⟨⟨next, state⟩, fed⟩
    exact ⟨.http config next, state, by simp [feed, fed], fun _ => trivial⟩
  | tls config memory =>
    rcases ready with ⟨waiting, quiet⟩
    rw [← append_assoc] at quiet
    have now : ¬TruncatedHello
        (handshakeOf ((memory.buf ++ chunk).take config.maxClientHelloBytes)) := by
      intro truncated
      apply quiet
      rw [take_append]
      exact truncated.append library _
    rcases (tlsFeed_safe_iff library waiting chunk).mpr now with ⟨⟨next, state⟩, fed⟩
    refine ⟨.tls config next, state, by simp [feed, fed], ?_⟩
    rintro rfl
    rcases tlsFeed_waits library waiting fed with ⟨waits, buffered, _⟩
    exact ⟨waits, by rwa [buffered]⟩

/--
A classifier with the state it reports. `And` and `Or` keep the states of their
children beside them. The sizes that classifiers report are left out: no call
of `feed` reads them.
-/
inductive Classifier where
  | leaf (probe : Leaf) (state : State)
  | limit (bound seen : ℕ) (child : Classifier) (state : State)
  | and (children : List Classifier) (states : List State) (state : State)
  | or (children : List Classifier) (states : List State) (state : State)
  | not (child : Classifier) (state : State)
  | sized (child : Classifier)

namespace Classifier

mutual

/-- `Feed`: the classifier after the call and the state that the call returns. -/
def feed (library : Library) : Classifier → List UInt8 → Checked (Classifier × State)
  | .leaf probe state, chunk => do
      if state ≠ .needMore then
        return (.leaf probe state, state)
      let (probe, state) ← probe.feed library chunk
      return (.leaf probe state, state)
  | .limit bound seen child state, chunk => do
      if state ≠ .needMore then
        return (.limit bound seen child state, state)
      let part ← limitChunk bound seen chunk
      let (child, state) ← feed library child part
      let seen := seen + part.length
      if state ≠ .needMore then
        return (.limit bound seen child state, state)
      if seen = bound then
        return (.limit bound seen child .mismatch, .mismatch)
      return (.limit bound seen child .needMore, .needMore)
  | .and children states state, chunk => do
      if state ≠ .needMore then
        return (.and children states state, state)
      let (children, states, state) ← feedChildren library .mismatch .matched children states chunk
      return (.and children states state, state)
  | .or children states state, chunk => do
      if state ≠ .needMore then
        return (.or children states state, state)
      let (children, states, state) ← feedChildren library .matched .mismatch children states chunk
      return (.or children states state, state)
  | .not child state, chunk => do
      if state ≠ .needMore then
        return (.not child state, state)
      let (child, childState) ← feed library child chunk
      match childState with
      | .needMore => return (.not child .needMore, .needMore)
      | .matched => return (.not child .mismatch, .mismatch)
      | .mismatch => return (.not child .matched, .matched)
  | .sized child, chunk => do
      let (child, state) ← feed library child chunk
      return (.sized child, state)

/--
The loop of `And` and `Or` over the children that are still open. A child in the
state `stop` ends it; the result is `neutral` when every child is in that state.
-/
def feedChildren (library : Library) (stop neutral : State) :
    List Classifier → List State → List UInt8 → Checked (List Classifier × List State × State)
  | [], states, _ => return ([], states, neutral)
  | _ :: _, [], _ => .error .outOfRange
  | child :: children, childState :: states, chunk => do
      let (child, childState) ←
        (if childState = .needMore then feed library child chunk else .ok (child, childState))
      if childState = stop then
        return (child :: children, childState :: states, stop)
      let (children, states, state) ← feedChildren library stop neutral children states chunk
      if state = stop ∨ childState = neutral then
        return (child :: children, childState :: states, state)
      return (child :: children, childState :: states, .needMore)

end

mutual

def Ready (rest : List UInt8) : Classifier → Prop
  | .leaf probe state => state = .needMore → probe.Ready rest
  | .limit bound seen child state => state = .needMore → seen ≤ bound ∧ Ready rest child
  | .and children states state => state = .needMore → ReadyAll rest children states
  | .or children states state => state = .needMore → ReadyAll rest children states
  | .not child state => state = .needMore → Ready rest child
  | .sized child => Ready rest child

def ReadyAll (rest : List UInt8) : List Classifier → List State → Prop
  | [], [] => True
  | child :: children, state :: states =>
    (state = .needMore → Ready rest child) ∧ ReadyAll rest children states
  | [], _ :: _ => False
  | _ :: _, [] => False

end

theorem limitChunk_eq {bound seen : ℕ} (inside : seen ≤ bound) (chunk : List UInt8) :
    limitChunk bound seen chunk = .ok (chunk.take (bound - seen)) := by
  unfold limitChunk
  by_cases long : bound < seen + chunk.length
  · rw [if_pos long, if_neg (by omega), window_eq_ok (Nat.zero_le _) (by omega), drop_zero]
  · rw [if_neg long, take_of_length_le (by omega)]

mutual

theorem feed_ready (library : Library) {chunk rest : List UInt8} :
    ∀ classifier : Classifier, classifier.Ready (chunk ++ rest) →
      ∃ next state, classifier.feed library chunk = .ok (next, state) ∧ next.Ready rest
  | .leaf probe state, ready => by
      by_cases final : state ≠ .needMore
      · exact ⟨.leaf probe state, state, by simp [feed, final], fun more => absurd more final⟩
      · rcases Leaf.feed_ready library (ready (not_not.mp final)) with ⟨next, after, fed, kept⟩
        exact ⟨.leaf next after, after, by simp [feed, final, fed], kept⟩
  | .limit bound seen child state, ready => by
      by_cases final : state ≠ .needMore
      · exact ⟨.limit bound seen child state, state, by simp [feed, final],
          fun more => absurd more final⟩
      · rcases ready (not_not.mp final) with ⟨inside, childReady⟩
        have limited := limitChunk_eq inside chunk
        have length := length_take (i := bound - seen) (l := chunk)
        rw [← take_append_drop (bound - seen) chunk, append_assoc] at childReady
        generalize chunk.take (bound - seen) = part at limited length childReady
        rcases feed_ready library child childReady with ⟨next, after, fed, kept⟩
        by_cases settled : after ≠ .needMore
        · exact ⟨.limit bound (seen + part.length) next after, after,
            by simp [feed, final, limited, fed, settled], fun more => absurd more settled⟩
        by_cases full : seen + part.length = bound
        · exact ⟨.limit bound (seen + part.length) next .mismatch, .mismatch,
            by simp [feed, final, limited, fed, settled, full], by simp [Ready]⟩
        · rw [drop_eq_nil_of_le (by omega), nil_append] at kept
          exact ⟨.limit bound (seen + part.length) next .needMore, .needMore,
            by simp [feed, final, limited, fed, settled, full], fun _ => ⟨by omega, kept⟩⟩
  | .and children states state, ready | .or children states state, ready => by
      rw [feed]
      by_cases final : state ≠ .needMore
      · rw [if_pos final]
        exact ⟨_, _, rfl, fun more => absurd more final⟩
      · rcases feedChildren_ready library children states (ready (not_not.mp final)) with
          ⟨nextChildren, nextStates, result, fed, kept⟩
        rw [if_neg final, fed]
        exact ⟨_, _, rfl, fun more => kept (by simp [more])⟩
  | .not child state, ready => by
      by_cases final : state ≠ .needMore
      · exact ⟨.not child state, state, by simp [feed, final], fun more => absurd more final⟩
      · rcases feed_ready library child (ready (not_not.mp final)) with ⟨next, after, fed, kept⟩
        cases after with
        | needMore =>
          exact ⟨.not next .needMore, .needMore, by simp [feed, final, fed], fun _ => kept⟩
        | matched =>
          exact ⟨.not next .mismatch, .mismatch, by simp [feed, final, fed], by simp [Ready]⟩
        | mismatch =>
          exact ⟨.not next .matched, .matched, by simp [feed, final, fed], by simp [Ready]⟩
  | .sized child, ready => by
      rcases feed_ready library child ready with ⟨next, after, fed, kept⟩
      exact ⟨.sized next, after, by simp [feed, fed], kept⟩

theorem feedChildren_ready (library : Library) {stop neutral : State} {chunk rest : List UInt8} :
    ∀ (children : List Classifier) (states : List State),
      ReadyAll (chunk ++ rest) children states →
      ∃ nextChildren nextStates result,
        feedChildren library stop neutral children states chunk =
          .ok (nextChildren, nextStates, result) ∧
        (result ≠ stop → ReadyAll rest nextChildren nextStates)
  | [], [], ready => ⟨[], [], neutral, by simp [feedChildren], fun _ => by simp [ReadyAll]⟩
  | child :: children, childState :: states, ready => by
      have taken : ∃ next after,
          (if childState = .needMore then feed library child chunk else .ok (child, childState)) =
            .ok (next, after) ∧ (after = .needMore → next.Ready rest) := by
        by_cases more : childState = .needMore
        · rcases feed_ready library child (ready.1 more) with ⟨next, after, fed, kept⟩
          exact ⟨next, after, by rw [if_pos more, fed], fun _ => kept⟩
        · exact ⟨child, childState, by rw [if_neg more], fun still => absurd still more⟩
      rcases taken with ⟨next, after, fed, kept⟩
      rcases @feedChildren_ready library stop neutral chunk rest children states ready.2 with
        ⟨nextChildren, nextStates, result, restFed, restKept⟩
      by_cases stopped : after = stop
      · exact ⟨next :: children, after :: states, stop, by simp [feedChildren, fed, stopped],
          fun other => absurd rfl other⟩
      by_cases decided : result = stop ∨ after = neutral
      · refine ⟨next :: nextChildren, after :: nextStates, result, ?_, fun other =>
          ⟨kept, restKept other⟩⟩
        simp [feedChildren, fed, restFed, stopped, decided]
      · refine ⟨next :: nextChildren, after :: nextStates, .needMore, ?_,
          fun _ => ⟨kept, restKept fun equal => decided (.inl equal)⟩⟩
        simp [feedChildren, fed, restFed, stopped, decided]

end

end Classifier

end Gonnect.Sniffer
