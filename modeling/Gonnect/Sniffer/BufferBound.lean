import Gonnect.Sniffer.ChunkFree

/-!
# The reported buffer size is enough for a decision

Every classifier reports how many bytes a buffer needs for its decision. A byte loop that
leaves its result open has spent one byte of its budget for each byte it took. `And`, `Or` and
`Not` decide when their children do, and `Limit` at its bound, or before with its child. A TLS
classifier that is given a truncated ClientHello decides nothing, because the call faults.
-/

namespace Gonnect.Sniffer

open Checked List Protocol Socks5Memory HttpMemory HttpConfig Except

section Budget

variable {Memory : Type} {step : Memory → UInt8 → Checked (Memory × State)}
  {finish : Memory → State}

theorem feedLoop_open {Fit : Memory → Prop} {left : Memory → ℕ}
    (spends : ∀ memory byte next, Fit memory → step memory byte = .ok (next, .needMore) →
      Fit next ∧ left next < left memory) :
    ∀ chunk memory next, Fit memory → feedLoop step finish memory chunk = .ok (next, .needMore) →
      Fit next ∧ left next + chunk.length ≤ left memory ∧ finish next = .needMore := by
  intro chunk
  induction chunk with
  | nil =>
    intro memory next fit fed
    simp only [feedLoop, ok.injEq, Prod.mk.injEq] at fed
    rcases fed with ⟨rfl, finished⟩
    exact ⟨fit, le_refl _, finished⟩
  | cons byte rest ih =>
    intro memory next fit fed
    rcases of_bind fed with ⟨⟨middle, state⟩, stepped, continued⟩
    by_cases more : state = .needMore
    · subst more
      rcases spends memory byte middle fit stepped with ⟨middleFit, spent⟩
      rcases ih middle next middleFit continued with ⟨nextFit, total, finished⟩
      refine ⟨nextFit, ?_, finished⟩
      simp only [length_cons]
      omega
    · simp only [if_neg more, pure_eq_ok, ok.injEq, Prod.mk.injEq] at continued
      exact absurd continued.2 more

end Budget

variable {buf chunk : List UInt8} {byte : UInt8} {library : Library}
  {maxBytes : ℕ} {protocol : Protocol} {stream : List UInt8}

theorem boundedFinish_needMore (isOpen : boundedFinish maxBytes buf = .needMore) :
    buf.length ≠ maxBytes := by
  intro full
  rw [boundedFinish, if_pos full] at isOpen
  cases isOpen

theorem State.ofBool_ne_needMore (accepted : Bool) : State.ofBool accepted ≠ .needMore := by
  cases accepted <;> simp [State.ofBool]

variable {classifier : Classifier} {size : ℕ} {next : List UInt8}

theorem bounded_open {step : List UInt8 → UInt8 → Checked (List UInt8 × State)}
    (keeps : ∀ buf byte next, step buf byte = .ok (next, .needMore) →
      buf.length ≠ maxBytes ∧ next = buf ++ [byte])
    (fed : feedLoop step (boundedFinish maxBytes) [] chunk = .ok (next, .needMore)) :
    chunk.length < maxBytes := by
  have spends : ∀ buf byte next, buf.length ≤ maxBytes → step buf byte = .ok (next, .needMore) →
      next.length ≤ maxBytes ∧ maxBytes - next.length < maxBytes - buf.length := by
    intro buf byte next fits stepped
    rcases keeps buf byte next stepped with ⟨room, rfl⟩
    simp only [length_append, length_singleton]
    omega
  rcases feedLoop_open spends chunk [] next (Nat.zero_le _) fed with ⟨fits, spent, finished⟩
  have room := boundedFinish_needMore finished
  omega

theorem guard_open {Memory : Type} {condition : Prop} [Decidable condition] {memory next : Memory}
    {rest : Checked (Memory × State)}
    (opened : (if condition then pure (memory, State.mismatch) else rest) =
      .ok (next, .needMore)) : ¬condition ∧ rest = .ok (next, .needMore) := by
  split_ifs at opened with returned
  · cases opened
  · exact ⟨returned, opened⟩

theorem protocolPrefixStep_open {matchPrefix : List UInt8 → Checked State}
    (stepped : protocolPrefixStep maxBytes matchPrefix buf byte = .ok (next, .needMore)) :
    buf.length ≠ maxBytes ∧ next = buf ++ [byte] := by
  rcases guard_open stepped with ⟨full, looked⟩
  rcases of_bind looked with ⟨state, _, wrapped⟩
  cases wrapped
  exact ⟨full, rfl⟩

theorem crlfLineStep_open {valid : List UInt8 → Checked Bool} {line : List UInt8}
    (stepped : crlfLineStep maxBytes valid line byte = .ok (next, .needMore)) :
    line.length ≠ maxBytes ∧ next = line ++ [byte] := by
  rcases guard_open stepped with ⟨full, inLine⟩
  refine ⟨full, ?_⟩
  rcases of_bind inLine with ⟨carriage, _, afterCarriage⟩
  rcases guard_open afterCarriage with ⟨_, unbroken⟩
  rcases guard_open unbroken with ⟨_, printable⟩
  by_cases within : byte ≠ 10
  · rw [if_pos within] at printable
    cases printable
    rfl
  -- a full line is settled
  rw [if_neg within] at printable
  rcases guard_open printable with ⟨_, long⟩
  rcases of_bind long with ⟨last, _, ended⟩
  rcases guard_open ended with ⟨_, whole⟩
  rcases of_bind whole with ⟨content, _, looked⟩
  rcases of_bind looked with ⟨accepted, _, settled⟩
  exact absurd (Prod.mk.inj (ok.inj settled)).2 (State.ofBool_ne_needMore accepted)

theorem header_open {early valid : List UInt8 → Checked Bool} (positive : 0 < size)
    (fed : feedLoop (headerStep size early valid) (fun _ => .needMore) [] chunk =
      .ok (next, .needMore)) : chunk.length < size := by
  have spends : ∀ buf byte next, buf.length < size →
      headerStep size early valid buf byte = .ok (next, .needMore) →
        next.length < size ∧ size - next.length < size - buf.length := by
    intro buf byte next room stepped
    rw [headerStep, if_neg room.ne] at stepped
    rcases of_bind stepped with ⟨rejected, _, afterEarly⟩
    split_ifs at afterEarly with reject complete
    · cases afterEarly
    · rcases of_bind afterEarly with ⟨accepted, _, settled⟩
      exact absurd (Prod.mk.inj (ok.inj settled)).2 (State.ofBool_ne_needMore accepted)
    · cases afterEarly
      simp only [length_append, length_singleton] at complete ⊢
      omega
  rcases feedLoop_open spends chunk [] next positive fed with ⟨room, spent, _⟩
  omega

theorem literal_open {want : List UInt8} {next : ℕ} (positive : 0 < want.length)
    (fed : feedLoop (literalStep want) (fun _ => .needMore) 0 chunk = .ok (next, .needMore)) :
    chunk.length < want.length := by
  have spends : ∀ offset byte next, offset < want.length →
      literalStep want offset byte = .ok (next, .needMore) →
        next < want.length ∧ want.length - next < want.length - offset := by
    intro offset byte next inside stepped
    rw [literalStep, index_eq_ok inside] at stepped
    simp only [ok_bind, pure_eq_ok] at stepped
    split_ifs at stepped
    · cases stepped
    · cases stepped
    · cases stepped
      omega
  rcases feedLoop_open spends chunk 0 next positive fed with ⟨inside, spent, _⟩
  omega

structure Socks5Memory.Greets (memory : Socks5Memory) : Prop where
  incomplete : memory.buf.length < memory.needBytes
  counted : memory.buf.length < 2 → memory.needBytes = 2
  bounded : memory.needBytes ≤ 257

theorem Socks5Memory.Greets.grow {needBytes : ℕ} (inside : buf.length < needBytes)
    (bounded : needBytes ≤ 257) (counted : buf.length = 0 → needBytes = 2)
    (incomplete : (buf ++ [byte]).length ≠ needBytes) :
    Greets ⟨buf ++ [byte], needBytes⟩ ∧
      257 - (buf ++ [byte]).length < 257 - buf.length := by
  have longer : (buf ++ [byte]).length = buf.length + 1 := by simp
  refine ⟨⟨?_, ?_, bounded⟩, by omega⟩
  · change (buf ++ [byte]).length < needBytes
    omega
  · intro short
    change (buf ++ [byte]).length < 2 at short
    exact counted (by omega)

theorem socks5_open {next : Socks5Memory}
    (fed : feedLoop socks5Step (fun _ => .needMore) ⟨[], 2⟩ chunk = .ok (next, .needMore)) :
    chunk.length < socks5GreetingMaxBytes := by
  have spends : ∀ memory byte next, Greets memory →
      socks5Step memory byte = .ok (next, .needMore) →
        next.Greets ∧ 257 - next.buf.length < 257 - memory.buf.length := by
    rintro ⟨buf, needBytes⟩ byte next ⟨incomplete, counted, bounded⟩ stepped
    have byteBound := byte.toNat_lt
    dsimp only at incomplete counted bounded
    simp only [socks5Step, if_neg incomplete.ne] at stepped
    split at stepped
    · rename_i first
      split_ifs at stepped with other complete
      · cases stepped
      · cases stepped
      · cases stepped
        exact Greets.grow incomplete bounded (fun empty => counted (by omega)) complete
    · rename_i second
      split_ifs at stepped with none complete
      · cases stepped
      · cases stepped
      · cases stepped
        exact Greets.grow (by omega) (by omega) (by omega) complete
    · rename_i notFirst notSecond
      split_ifs at stepped with complete
      · cases stepped
      · cases stepped
        exact Greets.grow incomplete bounded (fun empty => counted (by omega)) complete
  rcases feedLoop_open spends chunk ⟨[], 2⟩ next ⟨by decide, fun _ => rfl, by decide⟩ fed with
    ⟨greets, spent, _⟩
  have incomplete := greets.incomplete
  have bounded := greets.bounded
  change _ < 257
  omega

section Request

variable {config : HttpConfig} {memory next : HttpMemory}

theorem matchRequestLine_open
    (looked : matchRequestLine library config memory = .ok (next, .needMore)) :
    config.hostname.configured ∧ next.phase = .header ∧ next.headerBytes = memory.headerBytes := by
  unfold matchRequestLine at looked
  dsimp only at looked
  split at looked
  · cases looked
  rcases guard_open looked with ⟨_, afterMethod⟩
  split at afterMethod
  · cases afterMethod
  rcases guard_open afterMethod with ⟨_, afterTarget⟩
  rcases of_bind afterTarget with ⟨_, _, readVersion⟩
  rcases guard_open readVersion with ⟨_, afterVersion⟩
  rcases of_bind afterVersion with ⟨_, _, methodRead⟩
  rcases guard_open methodRead with ⟨_, methodMatches⟩
  rcases of_bind methodMatches with ⟨_, _, urlRead⟩
  rcases guard_open urlRead with ⟨_, urlMatches⟩
  rcases of_bind urlMatches with ⟨_, _, versionRead⟩
  rcases guard_open versionRead with ⟨_, versionMatches⟩
  by_cases unconfigured : ¬config.hostname.configured
  · rw [if_pos unconfigured] at versionMatches
    cases versionMatches
  rw [if_neg unconfigured] at versionMatches
  refine ⟨not_not.mp unconfigured, ?_⟩
  split at versionMatches
  · cases versionMatches
    exact ⟨rfl, rfl⟩
  · rcases of_bind versionMatches with ⟨accepted, _, decided⟩
    split_ifs at decided
    · cases decided
    · cases decided
      exact ⟨rfl, rfl⟩

theorem matchHeaderLine_open
    (looked : matchHeaderLine library config memory = .ok (next, .needMore)) :
    next.phase = memory.phase ∧ next.headerBytes = memory.headerBytes := by
  rcases guard_open looked with ⟨_, nonempty⟩
  split at nonempty
  · cases nonempty
  rename_i name value cutName
  rcases guard_open nonempty with ⟨_, validName⟩
  by_cases other : ¬isHostField name
  · rw [if_pos other] at validName
    cases validName
    exact ⟨rfl, rfl⟩
  rw [if_neg other] at validName
  split at validName
  · cases validName
  rcases of_bind validName with ⟨accepted, _, decided⟩
  rcases guard_open decided with ⟨_, settled⟩
  cases settled

theorem headerLineEnd_open {byte : UInt8}
    (looked : headerLineEnd library config memory byte = .ok (next, .needMore)) :
    next.phase = memory.phase ∧ next.headerBytes = memory.headerBytes := by
  unfold headerLineEnd at looked
  split_ifs at looked
  · exact matchHeaderLine_open looked
  · cases looked
    exact ⟨rfl, rfl⟩

structure HttpMemory.Room (config : HttpConfig) (memory : HttpMemory) : Prop where
  line : memory.phase = .requestLine → memory.line.length < config.maxRequestLineBytes
  headers : memory.headerBytes < config.maxHeaderBytes

def HttpConfig.minSniffBufferSize (config : HttpConfig) : ℕ :=
  if config.hostname.configured then config.maxRequestLineBytes + config.maxHeaderBytes
  else config.maxRequestLineBytes

def HttpMemory.left (config : HttpConfig) (memory : HttpMemory) : ℕ :=
  match memory.phase with
  | .requestLine => config.minSniffBufferSize - memory.line.length
  | .header => config.maxHeaderBytes - memory.headerBytes

theorem httpStep_spends {byte : UInt8} (room : memory.Room config)
    (stepped : httpStep library config memory byte = .ok (next, .needMore)) :
    next.Room config ∧ next.left config < memory.left config := by
  have headers := room.headers
  unfold httpStep at stepped
  split at stepped
  · rename_i phase
    have line := room.line phase
    rcases guard_open stepped with ⟨_, inLine⟩
    rcases of_bind inLine with ⟨carriage, _, afterCarriage⟩
    rcases guard_open afterCarriage with ⟨_, unbroken⟩
    rcases guard_open unbroken with ⟨_, kept⟩
    by_cases ended : byte = 10
    · rw [if_pos ended] at kept
      rcases matchRequestLine_open kept with ⟨configured, inHeaders, sameCount⟩
      refine ⟨⟨by simp [inHeaders], by rwa [sameCount]⟩, ?_⟩
      simp only [left, inHeaders, phase, sameCount, minSniffBufferSize,
        configured, if_true]
      omega
    · rw [if_neg ended] at kept
      rcases guard_open kept with ⟨notFull, taken⟩
      cases taken
      simp only [length_append, length_singleton] at notFull
      have least : config.maxRequestLineBytes ≤ config.minSniffBufferSize := by
        unfold minSniffBufferSize
        split_ifs <;> omega
      refine ⟨⟨?_, headers⟩, ?_⟩
      · intro _
        simp only [length_append, length_singleton]
        omega
      · simp only [left, phase, length_append, length_singleton]
        omega
  · rename_i phase
    rcases guard_open stepped with ⟨_, inHeaders⟩
    rcases of_bind inHeaders with ⟨carriage, _, afterCarriage⟩
    rcases guard_open afterCarriage with ⟨_, unbroken⟩
    rcases guard_open unbroken with ⟨_, printable⟩
    rcases guard_open printable with ⟨_, kept⟩
    rcases of_bind kept with ⟨⟨after, state⟩, looked, decided⟩
    dsimp only at decided
    by_cases settled : state ≠ .needMore
    · rw [if_pos settled] at decided
      cases decided
      exact absurd rfl settled
    rw [if_neg settled] at decided
    rw [not_not.mp settled] at looked
    rcases headerLineEnd_open looked with ⟨samePhase, counted⟩
    rcases guard_open decided with ⟨notFull, taken⟩
    cases taken
    dsimp only at samePhase counted
    refine ⟨⟨fun inLine => ?_, by omega⟩, ?_⟩
    · rw [samePhase, phase] at inLine
      cases inLine
    · simp only [left, samePhase, phase, counted]
      omega

theorem http_open {chunk : List UInt8} (linePositive : 0 < config.maxRequestLineBytes)
    (headersPositive : 0 < config.maxHeaderBytes)
    (fed : feedLoop (httpStep library config) (fun _ => .needMore) {} chunk =
      .ok (next, .needMore)) : chunk.length < config.minSniffBufferSize := by
  rcases feedLoop_open (fun memory byte next room => httpStep_spends room) chunk {} next
    ⟨fun _ => linePositive, headersPositive⟩ fed with ⟨room, spent, _⟩
  have positive : 0 < next.left config := by
    have headers := room.headers
    unfold left
    split
    · rename_i phase
      have line := room.line phase
      unfold minSniffBufferSize
      split_ifs <;> omega
    · omega
  have whole : ({} : HttpMemory).left config = config.minSniffBufferSize := rfl
  omega

end Request

theorem dnsOverTCP_open {maxMessageBytes : ℕ}
    (fed : dnsOverTCPFeed maxMessageBytes [] chunk = .ok (next, .needMore)) :
    chunk.length < dnsOverTCPLengthBytes + maxMessageBytes := by
  have two : dnsOverTCPLengthBytes = 2 := rfl
  rw [dnsOverTCPFeed_eq (by simp), nil_append] at fed
  rcases looked : dnsOverTCPLook maxMessageBytes (chunk.take (2 + maxMessageBytes)) with _ | state
  · rw [looked] at fed
    cases fed
  · rw [looked] at fed
    cases fed
    have notFull := dnsOverTCPLook_needMore looked
    simp only [length_take] at notFull
    omega

def largestSize (sizes : List ℕ) : ℕ :=
  sizes.foldl (fun minSize childSize => if minSize < childSize then childSize else minSize) 0

theorem le_largestSize {sizes : List ℕ} (listed : size ∈ sizes) : size ≤ largestSize sizes := by
  have larger : (fun minSize childSize : ℕ => if minSize < childSize then childSize else minSize) =
      max := by
    funext minSize childSize
    exact (max_def_lt minSize childSize).symm
  rw [largestSize, larger, foldl_eq_foldr]
  exact le_max_of_le listed (le_refl size)

/-- A classifier that an empty call leaves open decides on every stream of the given size, if
the call returns. -/
def Classifier.DecidesWithin (library : Library) (size : ℕ) (classifier : Classifier) : Prop :=
  ∀ first, classifier.feed library [] = .ok (first, .needMore) →
    ∀ stream next state, size ≤ stream.length →
      first.feed library stream = .ok (next, state) → state ≠ .needMore

namespace Protocol

def minSniffBufferSize : Protocol → ℕ
  | .literal want => want.length
  | .ssh => (bytes "SSH-").length
  | .http2 => (bytes "PRI * HTTP/2.0\r\n\r\nSM\r\n\r\n").length
  | .amqp => largestSize [(bytes "AMQP\x00\x00\x09\x01").length,
      (bytes "AMQP\x00\x01\x00\x00").length, (bytes "AMQP\x03\x01\x00\x00").length]
  | .mqtt => mqttConnectMaxPrefixBytes
  | .postgresql => postgresqlHeaderBytes
  | .mongoDB => mongoDBHeaderBytes
  | .redis => redisRESPRequestMaxPrefixBytes
  | .proxyProtocolV1 => (bytes "PROXY ").length
  | .proxyProtocolV2 => proxyProtocolV2HeaderBytes
  | .proxyProtocol => largestSize [(bytes "PROXY ").length, proxyProtocolV2HeaderBytes]
  | .socks4 => socks4HeaderBytes
  | .socks5 => socks5GreetingMaxBytes
  | .socks => largestSize [socks4HeaderBytes, socks5GreetingMaxBytes]
  | .dnsOverTCP maxMessageBytes => dnsOverTCPLengthBytes + maxMessageBytes
  | .rtsp => rtspRequestLineMaxBytes
  | .sip => sipRequestLineMaxBytes
  | .stun => stunHeaderBytes
  | .rdp => rdpConnectionRequestMinBytes
  | .smb => smbOverTCPRequestMinBytes
  | .ldap => ldapMessagePrefixMaxBytes
  | .cassandra => cassandraRequestHeaderBytes
  | .memcachedBinary => memcachedBinaryHeaderBytes
  | .memcachedASCII => memcachedASCIIRequestMaxBytes
  | .memcached => largestSize [memcachedBinaryHeaderBytes, memcachedASCIIRequestMaxBytes]
  | .http config => config.minSniffBufferSize
  | .tls config => config.maxClientHelloBytes

def Configured (library : Library) : Protocol → Prop
  | .dnsOverTCP maxMessageBytes => ∃ limit, normalizeDNSOverTCPConfig limit = some maxMessageBytes
  | .http config => ∃ raw, config = normalizeHTTPConfig library raw
  | .tls config => ∃ raw, config = normalizeTLSConfig library raw
  | _ => True

end Protocol

namespace Classifier

variable {children : List Classifier} {child : Classifier}

theorem leaf_decides {probe : Leaf} (ready : probe.Ready [])
    (bounded : ∀ stream next, probe.feed library stream = .ok (next, .needMore) →
      stream.length < size) : (Classifier.leaf probe .needMore).DecidesWithin library size := by
  intro first empty stream next state enough fed
  rcases of_bind empty with ⟨⟨after, reached⟩, taken, wrapped⟩
  cases wrapped
  have same := Leaf.feed_resume library ready taken stream
  rw [nil_append, resume_needMore, ← leaf_reported library after, fed, reported_ok] at same
  rintro rfl
  rcases of_reported same with ⟨last, looked⟩
  have short := bounded stream last looked
  omega

theorem loop_decides {Memory : Type} {probe : Leaf} {wrap : Memory → Leaf}
    (ready : probe.Ready [])
    {loop : List UInt8 → Checked (Memory × State)} (feeds : ∀ stream, probe.feed library stream =
      (do let (memory, state) ← loop stream; return (wrap memory, state)))
    (bounded : ∀ stream next, loop stream = .ok (next, .needMore) → stream.length < size) :
    (Classifier.leaf probe .needMore).DecidesWithin library size := by
  apply leaf_decides ready
  intro stream next fed
  rcases wrap_eq_ok ((feeds stream).symm.trans fed) with ⟨memory, taken, _⟩
  exact bounded stream memory taken

theorem literal_decides (want : List UInt8) :
    (Classifier.leaf (.literal want 0) .needMore).DecidesWithin library want.length := by
  have ready := ready_literal want [] rfl
  by_cases empty : want.length = 0
  · apply leaf_decides ready
    intro stream next fed
    simp [Leaf.feed, empty] at fed
  · apply loop_decides ready
    · intro stream
      simp only [Leaf.feed, if_neg empty]
      rfl
    · exact fun _ _ => literal_open (pos_of_ne_zero empty)

theorem protocolPrefix_decides (kind : PrefixKind) :
    (newPrefix kind).DecidesWithin library kind.maxBytes :=
  loop_decides trivial (fun _ => rfl) fun _ _ => bounded_open fun _ _ _ => protocolPrefixStep_open

theorem header_decides (kind : HeaderKind) :
    (newHeader kind).DecidesWithin library kind.size :=
  loop_decides trivial (fun _ => rfl) fun _ _ => header_open (by cases kind <;> decide)

theorem line_decides (kind : LineKind) :
    (newLine kind).DecidesWithin library kind.maxBytes :=
  loop_decides trivial (fun _ => rfl) fun _ _ => bounded_open fun _ _ _ => crlfLineStep_open

theorem socks5_decides : Protocol.newSocks5.DecidesWithin library socks5GreetingMaxBytes :=
  loop_decides trivial (fun _ => rfl) fun _ _ => socks5_open

theorem http_decides (raw : RawHttpConfig) :
    (Classifier.leaf (.http (normalizeHTTPConfig library raw) {}) .needMore).DecidesWithin library
      (normalizeHTTPConfig library raw).minSniffBufferSize := by
  rcases normalizeHTTPConfig_positive library raw with ⟨linePositive, headersPositive⟩
  exact loop_decides trivial (fun _ => rfl) fun _ _ => http_open linePositive headersPositive

theorem feedChildren_decides {stop neutral : State} (neutralFinal : neutral ≠ .needMore)
    (two : ∀ state, state ≠ .needMore → state = stop ∨ state = neutral)
    (stopFinal : stop ≠ .needMore) {stream : List UInt8} (enough : size ≤ stream.length) :
    ∀ {firsts next : List Classifier} {reached states : List State} {first result : State},
      (∀ child ∈ children, child.DecidesWithin library size) →
      feedChildren library stop neutral children (children.map fun _ => .needMore) [] =
        .ok (firsts, reached, first) → first ≠ stop →
      feedChildren library stop neutral firsts reached stream = .ok (next, states, result) →
      result ≠ .needMore := by
  induction children with
  | nil =>
    intro firsts next reached states first result _ empty _ fed
    cases empty
    simp only [feedChildren, pure_eq_ok, ok.injEq, Prod.mk.injEq] at fed
    rw [← fed.2.2]
    exact neutralFinal
  | cons child children ih =>
    intro firsts next reached states first result deciding empty going fed
    simp only [map_cons, feedChildren, if_true] at empty
    rcases of_bind empty with ⟨⟨opened, state⟩, called, rest⟩
    split_ifs at rest with settled
    · cases rest
      exact absurd rfl going
    rcases of_bind rest with ⟨⟨otherFirsts, otherReached, other⟩, restCalled, shaped⟩
    have shape : firsts = opened :: otherFirsts ∧ reached = state :: otherReached ∧
        other ≠ stop := by
      split_ifs at shaped with decided <;> cases shaped
      · exact ⟨rfl, rfl, going⟩
      · exact ⟨rfl, rfl, fun equal => decided (.inl equal)⟩
    rcases shape with ⟨rfl, rfl, restGoing⟩
    simp only [feedChildren] at fed
    rcases of_bind fed with ⟨⟨after, answer⟩, taken, continued⟩
    have final : answer ≠ .needMore := by
      split_ifs at taken with isOpen
      · subst isOpen
        exact deciding child mem_cons_self opened called stream after answer enough taken
      · cases taken
        exact isOpen
    by_cases stopped : answer = stop
    · simp only [if_pos stopped, pure_eq_ok, ok.injEq, Prod.mk.injEq] at continued
      rw [← continued.2.2]
      exact stopFinal
    · rw [if_neg stopped] at continued
      rcases of_bind continued with ⟨⟨others, otherStates, total⟩, restFed, wrapped⟩
      have decided : total = stop ∨ answer = neutral :=
        .inr ((two answer final).resolve_left stopped)
      simp only [if_pos decided, pure_eq_ok, ok.injEq, Prod.mk.injEq] at wrapped
      rw [← wrapped.2.2]
      refine ih (fun other listed => ?_) restCalled restGoing restFed
      exact deciding other (mem_cons_of_mem _ listed)

variable {parts : List (Classifier × ℕ)}

section

variable (deciding : ∀ part ∈ parts, part.1.DecidesWithin library part.2)

include deciding

theorem part_decides :
    ∀ child ∈ parts.map Prod.fst,
      child.DecidesWithin library (largestSize (parts.map Prod.snd)) := by
  intro child listed
  rcases mem_map.mp listed with ⟨part, member, rfl⟩
  intro first empty stream next state enough fed
  have own := (le_largestSize (mem_map_of_mem member)).trans enough
  exact deciding part member first empty stream next state own fed

theorem logic_largest_decides :
    (newAnd (parts.map Prod.fst)).DecidesWithin library (largestSize (parts.map Prod.snd)) ∧
      (newOr (parts.map Prod.fst)).DecidesWithin library (largestSize (parts.map Prod.snd)) := by
  constructor
  all_goals
    intro first empty stream next state enough fed
    rcases of_bind empty with ⟨⟨firsts, reached, _⟩, called, shaped⟩
    cases shaped
    rcases of_bind fed with ⟨⟨others, states, result⟩, taken, wrapped⟩
    cases wrapped
    exact feedChildren_decides (by simp) (by intro state; cases state <;> simp) (by simp) enough
      (part_decides deciding) called (by simp) taken

end

theorem newNot_decides (decides : child.DecidesWithin library size) :
    (newNot child).DecidesWithin library size := by
  intro first empty stream next state enough fed
  rcases of_bind empty with ⟨⟨opened, _ | _ | _⟩, called, shaped⟩ <;> cases shaped
  rcases of_bind fed with ⟨⟨after, reached⟩, taken, wrapped⟩
  have final := decides opened called stream after reached enough taken
  cases reached with
  | needMore => exact absurd rfl final
  | matched | mismatch =>
    cases wrapped
    simp

theorem newLimit_decides {bound : ℕ} (decides : child.DecidesWithin library size) :
    (newLimit bound child).DecidesWithin library (if size < bound then size else bound) := by
  intro first empty stream next state enough fed
  simp only [newLimit, feed, ne_eq, not_true_eq_false, if_false,
    limitChunk_eq (Nat.zero_le bound), Nat.sub_zero, ok_bind, take_nil] at empty
  rcases of_bind empty with ⟨⟨opened, state⟩, called, shaped⟩
  rcases limit_shape shaped with ⟨rfl, verdict⟩
  cases state with
  | matched | mismatch => cases verdict
  | needMore =>
    simp only [feed, ne_eq, not_true_eq_false, if_false, length_nil,
      limitChunk_eq (Nat.zero_le bound), Nat.sub_zero, ok_bind, Nat.zero_add] at fed
    rcases of_bind fed with ⟨⟨after, reached⟩, taken, wrapped⟩
    rcases limit_shape wrapped with ⟨rfl, rfl⟩
    by_cases final : reached = .needMore
    · have unfinished : ¬size ≤ (stream.take bound).length := by
        intro enoughForChild
        exact decides opened called _ after reached enoughForChild taken final
      simp only [length_take] at unfinished
      have full : (stream.take bound).length = bound := by
        simp only [length_take]
        split_ifs at enough <;> omega
      simp [final, full, limitVerdict]
    · cases reached with
      | needMore => exact absurd rfl final
      | matched | mismatch => simp [limitVerdict]

end Classifier

open Classifier in
theorem Protocol.classifier_decides {library : Library} (configured : protocol.Configured library) :
    protocol.classifier.DecidesWithin library protocol.minSniffBufferSize := by
  cases protocol with
  | literal want => exact literal_decides want
  | ssh | http2 | proxyProtocolV1 => exact literal_decides _
  | mqtt => exact protocolPrefix_decides .mqtt
  | redis => exact protocolPrefix_decides .redis
  | stun => exact protocolPrefix_decides .stun
  | rdp => exact protocolPrefix_decides .rdp
  | smb => exact protocolPrefix_decides .smb
  | ldap => exact protocolPrefix_decides .ldap
  | cassandra => exact protocolPrefix_decides .cassandra
  | memcachedBinary => exact protocolPrefix_decides .memcachedBinary
  | postgresql => exact header_decides .postgresql
  | mongoDB => exact header_decides .mongoDB
  | proxyProtocolV2 => exact header_decides .proxyProtocolV2
  | socks4 => exact header_decides .socks4
  | rtsp => exact line_decides .rtsp
  | sip => exact line_decides .sip
  | memcachedASCII => exact line_decides .memcachedASCII
  | socks5 => exact socks5_decides
  | amqp =>
    exact (@logic_largest_decides library [(_, _), (_, _), (_, _)] (forall_mem_cons.mpr
      ⟨literal_decides (bytes "AMQP\x00\x00\x09\x01"), forall_mem_cons.mpr
        ⟨literal_decides (bytes "AMQP\x00\x01\x00\x00"), forall_mem_singleton.mpr
          (literal_decides (bytes "AMQP\x03\x01\x00\x00"))⟩⟩)).2
  | proxyProtocol =>
    exact (@logic_largest_decides library [(_, _), (_, _)] (forall_mem_cons.mpr
      ⟨literal_decides (bytes "PROXY "), forall_mem_singleton.mpr
        (header_decides .proxyProtocolV2)⟩)).2
  | socks =>
    exact (@logic_largest_decides library [(_, _), (_, _)] (forall_mem_cons.mpr
      ⟨header_decides .socks4, forall_mem_singleton.mpr socks5_decides⟩)).2
  | memcached =>
    exact (@logic_largest_decides library [(_, _), (_, _)] (forall_mem_cons.mpr
      ⟨protocolPrefix_decides .memcachedBinary, forall_mem_singleton.mpr
        (line_decides .memcachedASCII)⟩)).2
  | dnsOverTCP =>
    exact loop_decides (Nat.add_pos_left Nat.two_pos _) (fun _ => rfl) fun _ _ => dnsOverTCP_open
  | http config =>
    rcases configured with ⟨raw, rfl⟩
    exact http_decides raw
  | tls config =>
    have initial := TlsMemory.waiting_initial config
    exact loop_decides ⟨initial, by simpa using initial.quiet⟩ (fun _ => rfl) fun _ _ fed =>
      (tlsFeed_waits library (TlsMemory.waiting_initial config) fed).2.2

/-- What `And`, `Or`, `Not` and `Limit` make of the allowed protocol classifiers, each with
the size that `MinSniffBufferSize` reports. -/
inductive Reports (Allowed : Protocol → Prop) : Classifier → ℕ → Prop where
  | protocol (protocol : Protocol) (allowed : Allowed protocol) :
      Reports Allowed protocol.classifier protocol.minSniffBufferSize
  | and (parts : List (Classifier × ℕ)) (reports : ∀ part ∈ parts, Reports Allowed part.1 part.2) :
      Reports Allowed (.newAnd (parts.map Prod.fst)) (largestSize (parts.map Prod.snd))
  | or (parts : List (Classifier × ℕ)) (reports : ∀ part ∈ parts, Reports Allowed part.1 part.2) :
      Reports Allowed (.newOr (parts.map Prod.fst)) (largestSize (parts.map Prod.snd))
  | not (child : Classifier) (size : ℕ) (reports : Reports Allowed child size) :
      Reports Allowed (.newNot child) size
  | limit (bound : ℕ) (child : Classifier) (size : ℕ) (reports : Reports Allowed child size) :
      Reports Allowed (.newLimit bound child) (if size < bound then size else bound)

theorem Reports.assembled {Allowed : Protocol → Prop} (reports : Reports Allowed classifier size) :
    Assembled Allowed classifier := by
  induction reports with
  | protocol protocol allowed => exact .protocol protocol allowed
  | and parts _ assembled | or parts _ assembled =>
    first | apply Assembled.and | apply Assembled.or
    intro child listed
    rcases mem_map.mp listed with ⟨part, member, rfl⟩
    exact assembled part member
  | not child size _ assembled => exact .not child assembled
  | limit bound child size _ assembled => exact .limit bound child assembled

theorem Reports.decidesWithin (reports : Reports (Protocol.Configured library) classifier size) :
    classifier.DecidesWithin library size := by
  induction reports with
  | protocol protocol configured => exact protocol.classifier_decides configured
  | and parts _ decide => exact (Classifier.logic_largest_decides decide).1
  | or parts _ decide => exact (Classifier.logic_largest_decides decide).2
  | not child size _ decides => exact Classifier.newNot_decides decides
  | limit bound child size _ decides => exact Classifier.newLimit_decides decides

/-- After an empty call and the stream, in any chunks, there is a final state. -/
def Decides (library : Library) (classifier : Classifier) (stream : List UInt8) : Prop :=
  ∀ chunks : List (List UInt8), chunks.flatten = stream →
    ∃ state, classifier.stateAfter library [] chunks = .ok state ∧ state ≠ .needMore

/--
With the bytes that it reports, or more, a classifier has decided exactly when, after the
empty call, no call on a beginning of the bytes reaches a TLS classifier with a truncated
ClientHello.
-/
theorem reported_size_decides_iff (library : Library) (classifier : Classifier) (size : ℕ)
    (stream : List UInt8) (reports : Reports (Protocol.Configured library) classifier size)
    (enough : size ≤ stream.length) :
    ∃ first state, classifier.feed library [] = .ok (first, state) ∧
      (Decides library classifier stream ↔
        ∀ count, ¬first.Meets library (stream.take count)) := by
  have ready := (reports.assembled.mono fun _ _ => trivial).ready_nil
  rcases @Classifier.feed_ready library [] [] classifier ready with ⟨first, state, fed, kept⟩
  have continued (chunks : List (List UInt8)) (chunk : List UInt8) :
      classifier.stateAfter library [] (chunk :: chunks) =
        first.stateAfter library chunk chunks := by
    rw [Classifier.stateAfter, fed]
    rfl
  refine ⟨first, state, fed, ?_⟩
  constructor
  · intro decides count
    rcases decides [stream.take count, stream.drop count] (by simp) with ⟨_, answered, _⟩
    rw [continued] at answered
    rcases of_bind answered with ⟨parts, taken, _⟩
    exact (Classifier.feed_safe_iff library first kept).mp ⟨parts, taken⟩
  · intro calm
    rcases (uncuttable_iff library kept).mpr calm with ⟨last, same⟩
    rcases of_reported (same stream [] (by simp)) with ⟨next, whole⟩
    have final : last ≠ .needMore := by
      by_cases more : state = .needMore
      · subst more
        exact reports.decidesWithin first fed stream next last enough whole
      · rwa [Classifier.feed_final library fed more whole]
    rintro (_ | ⟨chunk, chunks⟩) rfl
    · refine ⟨state, by rw [Classifier.stateAfter, fed, reported_ok], ?_⟩
      rintro rfl
      have again := Classifier.feed_resume library classifier ready fed fed
      rw [resume_needMore] at again
      rcases of_reported again with ⟨_, unsettled⟩
      exact reports.decidesWithin first fed [] _ _ enough unsettled rfl
    · exact ⟨last, by rw [continued, same chunk chunks rfl], final⟩

/-- `And` with the SSH classifier before a TLS classifier decides on the bytes of `shortHello`. -/
theorem ssh_and_tls_decides :
    Decides plainLibrary (.newAnd [ssh.classifier, (tls
      (normalizeTLSConfig plainLibrary { maxClientHelloBytes := 43 })).classifier]) shortHello := by
  let tls43 := tls (normalizeTLSConfig plainLibrary { maxClientHelloBytes := 43 })
  have parts : ∀ part ∈ [(ssh.classifier, ssh.minSniffBufferSize),
      (tls43.classifier, tls43.minSniffBufferSize)],
      Reports (Protocol.Configured plainLibrary) part.1 part.2 := by
    simp only [mem_cons, not_mem_nil, or_false, forall_eq_or_imp, forall_eq]
    exact ⟨.protocol ssh trivial, .protocol tls43 ⟨_, rfl⟩⟩
  rcases reported_size_decides_iff plainLibrary _ _ shortHello (.and _ parts) (by decide) with
    ⟨first, state, fed, decides_iff⟩
  refine decides_iff.mpr ?_
  cases fed
  rintro count ⟨_, ⟨_, _, truncated⟩ | ⟨reached, ⟨_, _, truncated⟩ | ⟨_, ended⟩⟩⟩
  · exact truncated
  · cases count with
    | zero =>
      exact (TlsMemory.waiting_initial (normalizeTLSConfig plainLibrary
        { maxClientHelloBytes := 43 })).quiet truncated
    | succ count => exact reached rfl
  · exact ended

/-- A TLS classifier with a limit of 43 bytes reports 43 bytes. On the 43 bytes of `shortHello`
the call faults, and there is no state. -/
theorem short_hello_leaves_no_state :
    let protocol := tls (normalizeTLSConfig plainLibrary { maxClientHelloBytes := 43 })
    protocol.minSniffBufferSize = shortHello.length ∧
      protocol.classifier.stateAfter plainLibrary [] [shortHello] = .error .outOfRange := by
  decide +kernel

end Gonnect.Sniffer
