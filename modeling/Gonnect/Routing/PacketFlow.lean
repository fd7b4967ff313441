import Gonnect.Routing.Packet

/-!
# The two packet parsers agree

`parseIPPacket` never reads outside its buffer. When it notes that a packet names a flow,
the parser of package `sockowner` succeeds on the bytes of that packet, and the flow is the
one that the noted fields spell out.

A later fragment names no flow. `laterFragment_without_ports_iff` says when the parser
leaves its ports out, too: over IPv6 it takes the payload of the fragment for a header.
-/

namespace Gonnect.Routing

open Checked Netip List ParsedIPPacket

def value4 (addr : Addr) : BitVec 32 :=
  addr.as4.getD 0

variable (packet : ParsedIPPacket)

def ParsedIPPacket.flow : FlowTuple where
  proto := if packet.proto = 6 then .tcp else .udp
  localIP := packet.src.asSlice
  localPort := packet.srcPort
  remoteIP := packet.dst.asSlice
  remotePort := packet.dstPort

def TransportComplete (pkt : List UInt8) (proto : UInt8) (start : ℕ) : Prop :=
  proto = 6 ∧ start + 20 ≤ pkt.length ∧ 20 ≤ 4 * (byteAt pkt (start + 12) >>> 4).toNat ∧
      start + 4 * (byteAt pkt (start + 12) >>> 4).toNat ≤ pkt.length ∨
    proto = 17 ∧ start + 8 ≤ pkt.length

variable {pkt srcIP dstIP : List UInt8} {proto : UInt8}

theorem parseFlow_spec (pkt : List UInt8) (start : ℕ) (transport : proto = 6 ∨ proto = 17) :
    ∃ complete, parseFlow pkt proto start = .ok complete ∧
      (complete = true → TransportComplete pkt proto start) := by
  unfold parseFlow
  rcases transport with rfl | rfl
  · rw [if_pos rfl]
    split_ifs with short
    · exact ⟨false, rfl, by simp⟩
    · simp (disch := omega) only [index_eq_byteAt, ok_bind, pure_eq_ok]
      refine ⟨_, rfl, ?_⟩
      simp only [decide_eq_true_eq]
      rintro ⟨header, fits⟩
      exact .inl ⟨rfl, by omega, header, fits⟩
  · rw [if_neg (by decide)]
    refine ⟨_, rfl, ?_⟩
    simp only [decide_eq_true_eq]
    intro fits
    exact .inr ⟨rfl, fits⟩

/-- `parsePorts` adds the ports, and notes a flow for a complete transport header. -/
structure ParsedIPPacket.WithPorts (pkt : List UInt8) (parsed : ParsedIPPacket) : Prop where
  src : parsed.src = packet.src
  dst : parsed.dst = packet.dst
  src4 : parsed.src4 = packet.src4
  dst4 : parsed.dst4 = packet.dst4
  proto : parsed.proto = packet.proto
  total : parsed.total = packet.total
  flow : parsed.flowOK = true → TransportComplete pkt packet.proto packet.transportStart ∧
    parsed.srcPort = wordAt pkt packet.transportStart ∧
    parsed.dstPort = wordAt pkt (packet.transportStart + 2)

variable {packet} {start : ℕ}

theorem parsePorts_spec (fresh : packet.flowOK = false) (pkt : List UInt8) :
    ∃ parsed, packet.parsePorts pkt = .ok parsed ∧ packet.WithPorts pkt parsed := by
  have unchanged : packet.WithPorts pkt packet :=
    ⟨rfl, rfl, rfl, rfl, rfl, rfl, by simp [fresh]⟩
  unfold parsePorts
  split_ifs with other short
  · exact ⟨packet, rfl, unchanged⟩
  · exact ⟨packet, rfl, unchanged⟩
  · have transport : packet.proto = 6 ∨ packet.proto = 17 := by
      by_contra neither
      exact other (not_or.mp neither)
    rcases parseFlow_spec pkt packet.transportStart transport with ⟨complete, parsed, ready⟩
    simp (disch := omega) only [windowFrom_uint16, parsed, ok_bind]
    exact ⟨_, rfl, rfl, rfl, rfl, rfl, rfl, rfl, fun noted => ⟨ready noted, rfl, rfl⟩⟩

theorem parsePorts_hasPorts {parsed : ParsedIPPacket} (fresh : packet.hasPorts = false)
    (read : packet.parsePorts pkt = .ok parsed) :
    parsed.hasPorts = false ↔
      packet.proto ≠ 6 ∧ packet.proto ≠ 17 ∨ pkt.length < packet.transportStart + 4 := by
  unfold parsePorts at read
  split_ifs at read with other short
  · cases read
    exact iff_of_true fresh (.inl other)
  · cases read
    exact iff_of_true fresh (.inr short)
  · rcases of_bind read with ⟨srcPort, _, read⟩
    rcases of_bind read with ⟨dstPort, _, read⟩
    rcases of_bind read with ⟨flowOK, _, read⟩
    cases read
    exact iff_of_false (by simp) (not_or.mpr ⟨other, short⟩)

theorem transportFlow_of_complete (complete : TransportComplete pkt proto start) :
    transportFlow srcIP dstIP (pkt.drop start) proto .outgoing =
      .ok (.ok ⟨if proto = 6 then .tcp else .udp, srcIP, wordAt pkt start, dstIP,
        wordAt pkt (start + 2)⟩) := by
  have length : (pkt.drop start).length = pkt.length - start := length_drop
  unfold transportFlow parseTransportPorts
  rcases complete with ⟨rfl, header, long, fits⟩ | ⟨rfl, header⟩
  · rw [if_pos rfl, if_neg (by omega), index_eq_byteAt (by omega), ok_bind, byteAt_drop,
      if_neg (by omega), if_neg (by omega)]
    simp (disch := omega) [window_uint16, ok_bind, wordAt_drop, makeFlowTuple]
  · rw [if_neg (by decide), if_pos rfl, if_neg (by omega)]
    simp (disch := omega) only [window_uint16, ok_bind, pure_eq_ok, wordAt_drop, makeFlowTuple,
      Nat.add_zero]
    rfl

theorem beUint32_eq_ofBytes {data : List UInt8} (length : data.length = 4) :
    beUint32 data = .ok (BigEndian.ofBytes data) := by
  match data, length with
  | [first, second, third, fourth], _ =>
    simp only [beUint32, index, getElem?_cons_zero, getElem?_cons_succ, ok_bind,
      pure_eq_ok, BigEndian.ofBytes, length_cons, length_nil]
    congr 1
    omega

structure ParsedIPPacket.Determined (packet : ParsedIPPacket) (pkt : List UInt8)
    (flow : Checked (Except FlowError FlowTuple)) : Prop where
  src4 : packet.src4 = value4 packet.src
  dst4 : packet.dst4 = value4 packet.dst
  inside : packet.total ≤ pkt.length
  nonempty : 0 < packet.total
  flow : packet.flowOK = true → flow = .ok (.ok packet.flow)

theorem flowTupleFromIPv4Packet_of_complete {ihl total : ℕ}
    (header : 4 * (byteAt pkt 0 &&& 0x0f).toNat = ihl) (length : wordAt pkt 2 = total)
    (shortest : 20 ≤ ihl) (ordered : ihl ≤ total) (whole : pkt.length = total)
    (first : wordAt pkt 6 &&& 0x1fff = 0) (complete : TransportComplete pkt (byteAt pkt 9) ihl) :
    flowTupleFromIPv4Packet pkt .outgoing =
      .ok (.ok ⟨if byteAt pkt 9 = 6 then .tcp else .udp, (pkt.take 16).drop 12, wordAt pkt ihl,
        (pkt.take 20).drop 16, wordAt pkt (ihl + 2)⟩) := by
  have all : pkt.take total = pkt := take_of_length_le (by omega)
  unfold flowTupleFromIPv4Packet
  simp (disch := omega) only [if_neg, index_eq_byteAt, window_uint16, ok_bind, header, length]
  rw [window_eq_ok (Nat.zero_le _) (by omega), ok_bind, all, drop_zero,
    window_uint16 rfl (by omega), ok_bind, if_neg (by simpa using first)]
  simp (disch := omega) only [window_eq_ok, windowFrom_eq_ok, index_eq_byteAt, ok_bind]
  exact transportFlow_of_complete complete

structure ParsedIPPacket.Header4 (packet : ParsedIPPacket) (pkt : List UInt8) : Prop where
  shortest : 20 ≤ 4 * (byteAt pkt 0 &&& 0x0f).toNat
  ordered : 4 * (byteAt pkt 0 &&& 0x0f).toNat ≤ packet.total
  total : packet.total = wordAt pkt 2
  inside : packet.total ≤ pkt.length
  src : packet.src = addrFrom4 ((pkt.take 16).drop 12)
  dst : packet.dst = addrFrom4 ((pkt.take 20).drop 16)
  src4 : packet.src4 = value4 packet.src
  dst4 : packet.dst4 = value4 packet.dst
  proto : packet.proto = byteAt pkt 9
  flow : packet.flowOK = true → wordAt pkt 6 &&& 0x1fff = 0 ∧
    TransportComplete (pkt.take packet.total) packet.proto (4 * (byteAt pkt 0 &&& 0x0f).toNat) ∧
    packet.srcPort = wordAt (pkt.take packet.total) (4 * (byteAt pkt 0 &&& 0x0f).toNat) ∧
    packet.dstPort = wordAt (pkt.take packet.total) (4 * (byteAt pkt 0 &&& 0x0f).toNat + 2)

/-- A later fragment is parsed without ports. -/
def ParsedIPPacket.Ports4 (pkt : List UInt8) : Prop :=
  wordAt pkt 6 &&& 0x1fff ≠ 0 → packet.hasPorts = false

theorem length_source4 (enough : 20 ≤ pkt.length) : ((pkt.take 16).drop 12).length = 4 := by
  simp only [length_drop, length_take]
  omega

theorem length_destination4 (enough : 20 ≤ pkt.length) : ((pkt.take 20).drop 16).length = 4 := by
  simp only [length_drop, length_take]
  omega

theorem parseIPv4Packet_header (pkt : List UInt8) :
    ∃ result, parseIPv4Packet pkt = .ok result ∧ ∀ packet ∈ result,
      packet.Header4 pkt ∧ packet.Ports4 pkt := by
  unfold parseIPv4Packet
  split_ifs with short
  · exact ⟨none, rfl, by simp⟩
  simp only [index_eq_byteAt (by omega : 0 < pkt.length),
    window_uint16 rfl (by omega : 4 ≤ pkt.length), ok_bind]
  split_ifs with malformed
  · exact ⟨none, rfl, by simp⟩
  have srcLength := length_source4 (Nat.le_of_not_lt short)
  have dstLength := length_destination4 (Nat.le_of_not_lt short)
  simp only [window_eq_ok (by omega : 12 ≤ 16) (by omega : 16 ≤ pkt.length),
    window_eq_ok (by omega : 16 ≤ 20) (by omega : 20 ≤ pkt.length), ok_bind,
    beUint32_eq_ofBytes srcLength, beUint32_eq_ofBytes dstLength,
    index_eq_byteAt (by omega : 9 < pkt.length), window_uint16 rfl (by omega : 8 ≤ pkt.length)]
  split_ifs with first
  · simp (disch := omega) only [window_eq_ok, ok_bind, drop_zero]
    generalize outIs : ParsedIPPacket.mk _ _ _ _ _ _ _ _ _ _ _ = out
    rcases parsePorts_spec (by rw [← outIs] : out.flowOK = false) (pkt.take (wordAt pkt 2)) with
      ⟨parsed, read, ports⟩
    subst outIs
    simp only [read, ok_bind]
    refine ⟨some parsed, rfl, ?_⟩
    rintro _ ⟨⟩
    have total : parsed.total = wordAt pkt 2 := ports.total
    refine ⟨?_, fun later => absurd first later⟩
    refine
      { shortest := by omega
        ordered := by omega
        total := total
        inside := by omega
        src := ports.src
        dst := ports.dst
        src4 := by rw [ports.src4, ports.src]; rfl
        dst4 := by rw [ports.dst4, ports.dst]; rfl
        proto := ports.proto
        flow := ?_ }
    intro noted
    rw [total, ports.proto]
    exact ⟨first, ports.flow noted⟩
  · refine ⟨_, rfl, ?_⟩
    rintro packet ⟨⟩
    refine ⟨?_, fun _ => rfl⟩
    exact
      { shortest := by omega
        ordered := by simp only; omega
        total := rfl
        inside := by simp only; omega
        src := rfl
        dst := rfl
        src4 := rfl
        dst4 := rfl
        proto := rfl
        flow := by simp }

theorem ParsedIPPacket.Header4.determined (header : packet.Header4 pkt) :
    packet.Determined pkt (flowTupleFromIPv4Packet (pkt.take packet.total) .outgoing) := by
  have shortest := header.shortest
  have ordered := header.ordered
  have inside := header.inside
  refine ⟨header.src4, header.dst4, inside, by omega, ?_⟩
  intro noted
  rcases header.flow noted with ⟨first, complete, srcPort, dstPort⟩
  have whole := length_take_of_le inside
  have srcLength := length_source4 (by omega : 20 ≤ pkt.length)
  have dstLength := length_destination4 (by omega : 20 ≤ pkt.length)
  rw [flowTupleFromIPv4Packet_of_complete (by rw [byteAt_take (by omega)])
    ((wordAt_take (by omega)).trans header.total.symm) shortest ordered whole
    (by rw [wordAt_take (by omega)]; exact first)
    (by rw [byteAt_take (by omega), ← header.proto]; exact complete)]
  simp (disch := omega) [ParsedIPPacket.flow, header.proto, header.src, header.dst, srcPort,
    dstPort, asSlice_addrFrom4 srcLength, asSlice_addrFrom4 dstLength, byteAt_take, take_drop_take]

/-- The two tests for a fragment offset agree: one masks it, the other shifts it down. -/
theorem shiftRight_eq_zero_of_mask {word : ℕ} (bound : word < 2 ^ 16)
    (masked : word &&& 0xfff8 = 0) : word >>> 3 = 0 := by
  have inMask : ∀ position < 13, Nat.testBit 0xfff8 (3 + position) = true := by decide
  apply Nat.eq_of_testBit_eq
  intro position
  rw [Nat.testBit_shiftRight, Nat.zero_testBit]
  by_cases small : position < 13
  · have bit := congrArg (Nat.testBit · (3 + position)) masked
    simpa only [Nat.testBit_and, Nat.zero_testBit, inMask position small, Bool.and_true] using bit
  · apply Nat.testBit_lt_two_pow
    exact lt_of_lt_of_le bound (Nat.pow_le_pow_right (by decide) (by omega))

theorem flowTupleLoop_options (options : proto = 0 ∨ proto = 43 ∨ proto = 60)
    (inside : start + 2 ≤ pkt.length)
    (fits : start + 8 * ((byteAt pkt (start + 1)).toNat + 1) ≤ pkt.length) :
    flowTupleLoop pkt srcIP dstIP .outgoing proto start =
      flowTupleLoop pkt srcIP dstIP .outgoing (byteAt pkt start)
        (start + 8 * ((byteAt pkt (start + 1)).toNat + 1)) := by
  have notTransport : ¬(proto = 6 ∨ proto = 17) := by
    rcases options with rfl | rfl | rfl <;> decide
  have listed : proto = 0 ∨ proto = 43 ∨ proto = 60 ∨ proto = 135 ∨ proto = 139 ∨ proto = 140 := by
    rcases options with same | same | same <;> simp [same]
  rw [flowTupleLoop, if_neg notTransport, if_pos listed]
  simp (disch := omega) only [if_neg, index_eq_byteAt, ok_bind]

theorem flowTupleLoop_fragment (inside : start + 8 ≤ pkt.length)
    (first : wordAt pkt (start + 2) &&& 0xfff8 = 0) :
    flowTupleLoop pkt srcIP dstIP .outgoing 44 start =
      flowTupleLoop pkt srcIP dstIP .outgoing (byteAt pkt start) (start + 8) := by
  have offset := shiftRight_eq_zero_of_mask (wordAt_lt pkt (start + 2)) first
  rw [flowTupleLoop, if_neg (by decide), if_neg (by decide), if_pos rfl, if_neg (by omega),
    index_eq_byteAt (by omega), ok_bind, window_uint16 rfl (by omega), ok_bind,
    if_neg (by simpa using offset)]

theorem flowTupleLoop_authentication (inside : start + 2 ≤ pkt.length)
    (fits : start + 4 * ((byteAt pkt (start + 1)).toNat + 2) ≤ pkt.length) :
    flowTupleLoop pkt srcIP dstIP .outgoing 51 start =
      flowTupleLoop pkt srcIP dstIP .outgoing (byteAt pkt start)
        (start + 4 * ((byteAt pkt (start + 1)).toNat + 2)) := by
  rw [flowTupleLoop, if_neg (by decide), if_neg (by decide), if_neg (by decide), if_pos rfl]
  simp (disch := omega) only [if_neg, index_eq_byteAt, ok_bind]

/-- The transport header that one parser found is the one that the other parser uses. -/
def SameTransport (pkt : List UInt8) (proto : UInt8) (start : ℕ) : Option (UInt8 × ℕ × Bool) → Prop
  | some (transport, offset, true) => start ≤ offset ∧
      (TransportComplete pkt transport offset → ∀ srcIP dstIP,
        flowTupleLoop pkt srcIP dstIP .outgoing proto start =
          transportFlow srcIP dstIP (pkt.drop offset) transport .outgoing)
  | _ => True

variable {next : UInt8} {buf : List UInt8} {offset : ℤ}

theorem SameTransport.of_step {later : ℕ} {result : Option (UInt8 × ℕ × Bool)}
    (same : SameTransport pkt next later result) (forward : start ≤ later)
    (step : ∀ srcIP dstIP, flowTupleLoop pkt srcIP dstIP .outgoing proto start =
      flowTupleLoop pkt srcIP dstIP .outgoing next later) :
    SameTransport pkt proto start result := by
  match result, same with
  | none, _ | some (_, _, false), _ => trivial
  | some (transport, offset, true), ⟨ordered, agrees⟩ =>
    refine ⟨le_trans forward ordered, ?_⟩
    intro complete srcIP dstIP
    rw [step, agrees complete]

/-- Both parsers walk over the same extension headers, up to the transport header. -/
theorem skipIPv6ExtHeaders_spec (pkt : List UInt8) (proto : UInt8) (start : ℕ) :
    ∃ result, skipIPv6ExtHeaders pkt proto start = .ok result ∧
      SameTransport pkt proto start result := by
  induction measure : pkt.length - start using Nat.strong_induction_on generalizing proto start with
  | _ remaining ih =>
    have further {next : UInt8} {later : ℕ} (forward : start < later) (inside : start < pkt.length)
        (step : ∀ srcIP dstIP, flowTupleLoop pkt srcIP dstIP .outgoing proto start =
          flowTupleLoop pkt srcIP dstIP .outgoing next later) :
        ∃ result, skipIPv6ExtHeaders pkt next later = .ok result ∧
          SameTransport pkt proto start result := by
      rcases ih _ (by omega) next later rfl with ⟨result, skipped, same⟩
      exact ⟨result, skipped, same.of_step (by omega) step⟩
    unfold skipIPv6ExtHeaders
    split_ifs with options short fragment short authentication short
    · exact ⟨none, rfl, trivial⟩
    · simp (disch := omega) only [index_eq_byteAt, ok_bind]
      split_ifs with outside
      · exact ⟨none, rfl, trivial⟩
      · apply further (by omega) (by omega)
        intro srcIP dstIP
        exact flowTupleLoop_options options (by omega) (Nat.le_of_not_lt outside)
    · exact ⟨none, rfl, trivial⟩
    · subst fragment
      simp (disch := omega) only [index_eq_byteAt, window_uint16, ok_bind]
      split_ifs with later
      · exact ⟨_, rfl, trivial⟩
      · apply further (by omega) (by omega)
        intro srcIP dstIP
        exact flowTupleLoop_fragment (by omega) (not_not.mp later)
    · exact ⟨none, rfl, trivial⟩
    · subst authentication
      simp (disch := omega) only [index_eq_byteAt, ok_bind]
      split_ifs with outside
      · exact ⟨none, rfl, trivial⟩
      · apply further (by omega) (by omega)
        intro srcIP dstIP
        exact flowTupleLoop_authentication (by omega) (Nat.le_of_not_lt outside)
    · refine ⟨_, rfl, le_refl _, ?_⟩
      intro complete srcIP dstIP
      have isTransport : proto = 6 ∨ proto = 17 := by
        rcases complete with ⟨same, _⟩ | ⟨same, _⟩ <;> simp [same]
      have inside : start ≤ pkt.length := by
        rcases complete with ⟨_, fits, _⟩ | ⟨_, fits⟩ <;> omega
      rw [flowTupleLoop, if_pos isTransport, windowFrom_eq_ok inside, ok_bind]

theorem flowTupleFromIPv6Packet_eq (whole : pkt.length = 40 + wordAt pkt 4)
    (payload : 0 < wordAt pkt 4) :
    flowTupleFromIPv6Packet pkt .outgoing =
      flowTupleLoop pkt ((pkt.take 24).drop 8) ((pkt.take 40).drop 24) .outgoing
        (byteAt pkt 6) 40 := by
  have all : pkt.take (40 + wordAt pkt 4) = pkt := take_of_length_le (by omega)
  unfold flowTupleFromIPv6Packet
  simp (disch := omega) only [if_neg, window_uint16, ok_bind]
  simp (disch := omega) only [window_eq_ok, ok_bind, all, drop_zero, index_eq_byteAt]

structure ParsedIPPacket.Header6 (packet : ParsedIPPacket) (pkt : List UInt8) : Prop where
  total : packet.total = 40 + wordAt pkt 4
  inside : packet.total ≤ pkt.length
  src : packet.src = addrFrom16 ((pkt.take 24).drop 8)
  dst : packet.dst = addrFrom16 ((pkt.take 40).drop 24)
  src4 : packet.src4 = value4 packet.src
  dst4 : packet.dst4 = value4 packet.dst
  flow : packet.flowOK = true → ∃ start,
    skipIPv6ExtHeaders (pkt.take packet.total) (byteAt pkt 6) 40 =
      .ok (some (packet.proto, start, true)) ∧
    TransportComplete (pkt.take packet.total) packet.proto start ∧
    packet.srcPort = wordAt (pkt.take packet.total) start ∧
    packet.dstPort = wordAt (pkt.take packet.total) (start + 2)

/-- The ports are missing only if there is no transport header behind the other headers. -/
def ParsedIPPacket.Ports6 (pkt : List UInt8) : Prop :=
  ∀ proto start flowCandidate, skipIPv6ExtHeaders (pkt.take packet.total) (byteAt pkt 6) 40 =
      .ok (some (proto, start, flowCandidate)) →
    (packet.hasPorts = false ↔ proto ≠ 6 ∧ proto ≠ 17 ∨ packet.total < start + 4)

theorem parseIPv6Packet_header (pkt : List UInt8) :
    ∃ result, parseIPv6Packet pkt = .ok result ∧ ∀ packet ∈ result,
      packet.Header6 pkt ∧ packet.Ports6 pkt := by
  unfold parseIPv6Packet
  split_ifs with short
  · exact ⟨none, rfl, by simp⟩
  simp (disch := omega) only [window_uint16, ok_bind]
  split_ifs with outside
  · exact ⟨none, rfl, by simp⟩
  simp (disch := omega) only [window_eq_ok, index_eq_byteAt, ok_bind, drop_zero]
  generalize completeIs : pkt.take (40 + wordAt pkt 4) = complete
  rcases skipIPv6ExtHeaders_spec complete (byteAt pkt 6) 40 with ⟨result, skipped, _⟩
  simp only [skipped, ok_bind]
  match result, skipped with
  | none, _ => exact ⟨none, rfl, by simp⟩
  | some (proto, start, flowCandidate), skipped =>
    dsimp only
    generalize outIs : ParsedIPPacket.mk _ _ _ _ _ _ _ _ _ _ _ = out
    rcases parsePorts_spec (by rw [← outIs] : out.flowOK = false) complete with
      ⟨parsed, read, ports⟩
    subst outIs
    simp only [read, ok_bind]
    refine ⟨_, rfl, ?_⟩
    rintro packet ⟨⟩
    have total : parsed.total = 40 + wordAt pkt 4 := ports.total
    have header : ∀ flowOK, (flowOK = true → parsed.flowOK = true ∧ flowCandidate = true) →
        ({ parsed with flowOK := flowOK } : ParsedIPPacket).Header6 pkt := by
      intro flowOK noted
      refine
        { total := total
          inside := by simp only [total]; omega
          src := ports.src
          dst := ports.dst
          src4 := by rw [ports.src4, ports.src]; rfl
          dst4 := by rw [ports.dst4, ports.dst]; rfl
          flow := ?_ }
      intro isNoted
      rcases noted isNoted with ⟨parsedNotes, rfl⟩
      simp only [total, completeIs, ports.proto]
      exact ⟨start, skipped, ports.flow parsedNotes⟩
    have hasPorts : parsed.Ports6 pkt := by
      intro _ _ _ again
      rw [total, completeIs] at again
      cases skipped.symm.trans again
      have length : complete.length = parsed.total := by
        rw [← completeIs, length_take]
        omega
      rw [← length]
      exact parsePorts_hasPorts rfl read
    cases flowCandidate with
    | false => exact ⟨header false (by simp), hasPorts⟩
    | true => exact ⟨header parsed.flowOK fun noted => ⟨noted, rfl⟩, hasPorts⟩

theorem ParsedIPPacket.Header6.determined (header : packet.Header6 pkt) :
    packet.Determined pkt (flowTupleFromIPv6Packet (pkt.take packet.total) .outgoing) := by
  have total := header.total
  have inside := header.inside
  refine ⟨header.src4, header.dst4, inside, by omega, ?_⟩
  intro noted
  rcases header.flow noted with ⟨start, skipped, transport, srcPort, dstPort⟩
  rcases skipIPv6ExtHeaders_spec (pkt.take packet.total) (byteAt pkt 6) 40 with
    ⟨_, same, afterHeader⟩
  cases skipped.symm.trans same
  rcases afterHeader with ⟨forward, flows⟩
  have whole := length_take_of_le inside
  have payload : wordAt (pkt.take packet.total) 4 = wordAt pkt 4 := wordAt_take (by omega)
  have nonempty : 0 < wordAt (pkt.take packet.total) 4 := by
    rcases transport with ⟨_, fits, _⟩ | ⟨_, fits⟩ <;> omega
  have srcLength : ((pkt.take 24).drop 8).length = 16 := by
    simp only [length_drop, length_take]
    omega
  have dstLength : ((pkt.take 40).drop 24).length = 16 := by
    simp only [length_drop, length_take]
    omega
  rw [flowTupleFromIPv6Packet_eq (by omega) nonempty, byteAt_take (by omega), flows transport,
    transportFlow_of_complete transport]
  simp (disch := omega) [ParsedIPPacket.flow, header.src, header.dst, srcPort, dstPort,
    asSlice_addrFrom16 srcLength, asSlice_addrFrom16 dstLength, take_drop_take]

structure ParsedIPPacket.ParsedAt (packet : ParsedIPPacket) (buf : List UInt8) (offset : ℤ) :
    Prop where
  src4 : packet.src4 = value4 packet.src
  dst4 : packet.dst4 = value4 packet.dst
  forward : 0 ≤ offset
  inside : offset.toNat + packet.total ≤ buf.length
  flow : packet.flowOK = true →
    flowTupleFromOutgoingIPPacket ((buf.take (offset.toNat + packet.total)).drop offset.toNat) =
      .ok (.ok packet.flow)

def ParsedIPPacket.HeaderAt (buf : List UInt8) (offset : ℤ) : Prop :=
  0 ≤ offset ∧ offset.toNat < buf.length ∧
    let pkt := buf.drop offset.toNat
    (byteAt pkt 0 >>> 4 = 4 ∧ packet.Header4 pkt ∧ packet.Ports4 pkt ∨
      byteAt pkt 0 >>> 4 = 6 ∧ packet.Header6 pkt ∧ packet.Ports6 pkt)

theorem parseIPPacket_header (buf : List UInt8) (offset : ℤ) :
    ∃ result, parseIPPacket buf offset = .ok result ∧
      ∀ packet ∈ result, packet.HeaderAt buf offset := by
  unfold parseIPPacket
  split_ifs with outside
  · exact ⟨none, rfl, by simp⟩
  have inside : offset.toNat < buf.length := by omega
  have length : (buf.drop offset.toNat).length = buf.length - offset.toNat := length_drop
  simp (disch := omega) only [windowFrom_eq_ok, ok_bind, index_eq_byteAt]
  split_ifs with four six
  · rcases parseIPv4Packet_header (buf.drop offset.toNat) with ⟨result, parsed, headers⟩
    refine ⟨result, parsed, fun packet found => ?_⟩
    exact ⟨by omega, inside, .inl ⟨four, headers packet found⟩⟩
  · rcases parseIPv6Packet_header (buf.drop offset.toNat) with ⟨result, parsed, headers⟩
    refine ⟨result, parsed, fun packet found => ?_⟩
    exact ⟨by omega, inside, .inr ⟨six, headers packet found⟩⟩
  · exact ⟨none, rfl, by simp⟩

theorem header_of_parse (parsed : parseIPPacket buf offset = .ok (some packet)) :
    packet.HeaderAt buf offset := by
  rcases parseIPPacket_header buf offset with ⟨result, computed, headers⟩
  cases computed.symm.trans parsed
  exact headers packet rfl

theorem ParsedIPPacket.HeaderAt.parsedAt (header : packet.HeaderAt buf offset) :
    packet.ParsedAt buf offset := by
  rcases header with ⟨forward, inside, versions⟩
  have length : (buf.drop offset.toNat).length = buf.length - offset.toNat := length_drop
  -- The version nibble leads both parsers to the same family.
  have version : 0 < packet.total → packet.total ≤ (buf.drop offset.toNat).length →
      flowTupleFromOutgoingIPPacket ((buf.drop offset.toNat).take packet.total) =
        if byteAt (buf.drop offset.toNat) 0 >>> 4 = 4 then
          flowTupleFromIPv4Packet ((buf.drop offset.toNat).take packet.total) .outgoing
        else if byteAt (buf.drop offset.toNat) 0 >>> 4 = 6 then
          flowTupleFromIPv6Packet ((buf.drop offset.toNat).take packet.total) .outgoing
        else .ok (.error .notIPPacket) := by
    intro nonempty fits
    have shorter := length_take_of_le fits
    unfold flowTupleFromOutgoingIPPacket flowTupleFromIPPacket
    rw [if_neg (by omega), index_eq_byteAt (by omega), ok_bind, byteAt_take nonempty]
    rfl
  rcases versions with ⟨four, header, _⟩ | ⟨six, header, _⟩
  all_goals
    rcases header.determined with ⟨src4, dst4, fits, nonempty, flow⟩
    refine ⟨src4, dst4, forward, by omega, fun noted => ?_⟩
    rw [← take_drop, version nonempty fits]
  · rw [if_pos four, flow noted]
  · rw [if_neg (by rw [six]; decide), if_pos six, flow noted]

theorem parseIPPacket_spec (buf : List UInt8) (offset : ℤ) :
    ∃ result, parseIPPacket buf offset = .ok result ∧
      ∀ packet ∈ result, packet.ParsedAt buf offset := by
  rcases parseIPPacket_header buf offset with ⟨result, parsed, headers⟩
  exact ⟨result, parsed, fun packet found => (headers packet found).parsedAt⟩

theorem skipIPv6ExtHeaders_options (options : proto = 0 ∨ proto = 43 ∨ proto = 60)
    (fits : start + 8 * ((byteAt pkt (start + 1)).toNat + 1) ≤ pkt.length) :
    skipIPv6ExtHeaders pkt proto start = skipIPv6ExtHeaders pkt (byteAt pkt start)
      (start + 8 * ((byteAt pkt (start + 1)).toNat + 1)) := by
  rw [skipIPv6ExtHeaders, if_pos options]
  simp (disch := omega) only [if_neg, index_eq_byteAt, ok_bind]

theorem skipIPv6ExtHeaders_fragment (inside : start + 8 ≤ pkt.length) :
    skipIPv6ExtHeaders pkt 44 start = if wordAt pkt (start + 2) &&& 0xfff8 ≠ 0 then
        .ok (some (byteAt pkt start, start + 8, false))
      else
        skipIPv6ExtHeaders pkt (byteAt pkt start) (start + 8) := by
  rw [skipIPv6ExtHeaders, if_neg (by decide), if_pos rfl, if_neg (by omega),
    index_eq_byteAt (by omega), ok_bind, window_uint16 rfl (by omega), ok_bind]
  rfl

theorem skipIPv6ExtHeaders_authentication
    (fits : start + 4 * ((byteAt pkt (start + 1)).toNat + 2) ≤ pkt.length) :
    skipIPv6ExtHeaders pkt 51 start = skipIPv6ExtHeaders pkt (byteAt pkt start)
      (start + 4 * ((byteAt pkt (start + 1)).toNat + 2)) := by
  rw [skipIPv6ExtHeaders, if_neg (by decide), if_neg (by decide), if_pos rfl]
  simp (disch := omega) only [if_neg, index_eq_byteAt, ok_bind]

/-- The extension headers from an offset on lead to the header of a later fragment, before
a payload of protocol `next`. -/
inductive LeadsToFragment (pkt : List UInt8) (next : UInt8) (payload : ℕ) : UInt8 → ℕ → Prop
  | later {start : ℕ} (fits : start + 8 ≤ pkt.length)
      (offset : wordAt pkt (start + 2) &&& 0xfff8 ≠ 0) (isNext : next = byteAt pkt start)
      (isPayload : payload = start + 8) : LeadsToFragment pkt next payload 44 start
  | first {start : ℕ} (fits : start + 8 ≤ pkt.length)
      (offset : wordAt pkt (start + 2) &&& 0xfff8 = 0)
      (rest : LeadsToFragment pkt next payload (byteAt pkt start) (start + 8)) :
      LeadsToFragment pkt next payload 44 start
  | options {proto : UInt8} {start : ℕ} (known : proto = 0 ∨ proto = 43 ∨ proto = 60)
      (fits : start + 8 * ((byteAt pkt (start + 1)).toNat + 1) ≤ pkt.length)
      (rest : LeadsToFragment pkt next payload (byteAt pkt start)
        (start + 8 * ((byteAt pkt (start + 1)).toNat + 1))) :
      LeadsToFragment pkt next payload proto start
  | authentication {start : ℕ}
      (fits : start + 4 * ((byteAt pkt (start + 1)).toNat + 2) ≤ pkt.length)
      (rest : LeadsToFragment pkt next payload (byteAt pkt start)
        (start + 4 * ((byteAt pkt (start + 1)).toNat + 2))) :
      LeadsToFragment pkt next payload 51 start

/-- A packet with a nonzero fragment offset, and what is known about its payload: over IPv6
the protocol of the payload and where it starts. -/
inductive LaterFragment (pkt : List UInt8) : Option (UInt8 × ℕ) → Prop
  | over4 (version : byteAt pkt 0 >>> 4 = 4) (offset : wordAt pkt 6 &&& 0x1fff ≠ 0) :
      LaterFragment pkt none
  | over6 {next : UInt8} {payload : ℕ} (version : byteAt pkt 0 >>> 4 = 6)
      (headers : LeadsToFragment (pkt.take (40 + wordAt pkt 4)) next payload (byteAt pkt 6) 40) :
      LaterFragment pkt (some (next, payload))

theorem skipIPv6ExtHeaders_later {payload : ℕ}
    (headers : LeadsToFragment pkt next payload proto start) :
    skipIPv6ExtHeaders pkt proto start = .ok (some (next, payload, false)) := by
  induction headers with
  | later fits offset isNext isPayload =>
    rw [skipIPv6ExtHeaders_fragment fits, if_pos offset, isNext, isPayload]
  | first fits offset _ ih =>
    rw [skipIPv6ExtHeaders_fragment fits, if_neg (by simpa using offset)]
    exact ih
  | options known fits _ ih =>
    rw [skipIPv6ExtHeaders_options known fits]
    exact ih
  | authentication fits _ ih =>
    rw [skipIPv6ExtHeaders_authentication fits]
    exact ih

/-- The parser leaves out the ports of a later fragment, unless over IPv6 the payload of the
fragment is TCP or UDP and at least four bytes long: then it takes them from the payload. -/
theorem laterFragment_without_ports_iff {buf : List UInt8} {offset : ℤ} {packet : ParsedIPPacket}
    {known : Option (UInt8 × ℕ)} (later : LaterFragment (buf.drop offset.toNat) known)
    (parsed : parseIPPacket buf offset = .ok (some packet)) :
    packet.hasPorts = false ↔ ∀ next payload, known = some (next, payload) →
      next ≠ 6 ∧ next ≠ 17 ∨ 40 + wordAt (buf.drop offset.toNat) 4 < payload + 4 := by
  rcases header_of_parse parsed with ⟨_, _, ⟨version, _, ports⟩ | ⟨version, header, ports⟩⟩
  · cases later with
    | over4 _ offset => exact iff_of_true (ports offset) nofun
    | over6 other => cases other.symm.trans version
  · cases later with
    | over4 other => cases other.symm.trans version
    | over6 _ headers =>
      rw [← header.total] at headers ⊢
      rw [ports _ _ _ (skipIPv6ExtHeaders_later headers)]
      constructor
      · rintro hidden _ _ ⟨⟩
        exact hidden
      · intro hidden
        exact hidden _ _ rfl

def laterFragmentPacket4 : List UInt8 :=
  [0x45, 0, 0, 24, 0, 0, 0, 1, 64, 17] ++ replicate 10 0 ++ [0, 53, 1, 187]

def shortFragmentPacket : List UInt8 :=
  [0x60, 0, 0, 0, 0, 11, 44, 64] ++ replicate 32 0 ++ [17, 0, 0, 8, 0, 0, 0, 0, 0, 53, 1]

theorem laterFragment_without_ports_short :
    (∃ packet, parseIPPacket laterFragmentPacket4 0 = .ok (some packet) ∧
      packet.hasPorts = false) ∧
    ∃ packet, parseIPPacket shortFragmentPacket 0 = .ok (some packet) ∧
      packet.hasPorts = false := by
  have parses (buf : List UInt8) (isSome : (parseIPPacket buf 0).toOption.any Option.isSome) :
      ∃ packet, parseIPPacket buf 0 = .ok (some packet) := by
    rcases exists_of_any isSome with ⟨_ | packet, parsed, isSome⟩
    · cases isSome
    · exact ⟨packet, parsed⟩
  rcases parses laterFragmentPacket4 (by decide +kernel) with ⟨packet4, parsed4⟩
  rcases parses shortFragmentPacket (by decide +kernel) with ⟨packet6, parsed6⟩
  refine ⟨⟨packet4, parsed4, (laterFragment_without_ports_iff (.over4 ?_ ?_) parsed4).mpr nofun⟩,
    packet6, parsed6, (laterFragment_without_ports_iff
      (.over6 ?_ (.later ?_ ?_ rfl rfl)) parsed6).mpr ?_⟩
  iterate 5 decide
  rintro _ _ ⟨⟩
  exact .inr (by decide)

/-- The last fragment of a UDP packet over IPv6, with a payload of four bytes. -/
def laterFragmentPacket : List UInt8 :=
  [0x60, 0, 0, 0, 0, 12, 44, 64] ++ replicate 32 0 ++ [17, 0, 0, 8, 0, 0, 0, 0, 0, 53, 1, 187]

theorem laterFragment_with_ports : ∃ packet known,
    LaterFragment laterFragmentPacket known ∧
      parseIPPacket laterFragmentPacket 0 = .ok (some packet) ∧
      packet.hasPorts = true ∧ packet.srcPort = 53 ∧ packet.dstPort = 443 := by
  have later : LaterFragment laterFragmentPacket (some (17, 48)) :=
    .over6 (by decide) (.later (by decide) (by decide) (by decide) rfl)
  have ports : (parseIPPacket laterFragmentPacket 0).toOption.any (Option.any fun packet =>
      packet.hasPorts && packet.srcPort == 53 && packet.dstPort == 443) := by decide +kernel
  rcases exists_of_any ports with ⟨_ | packet, parsed, ports⟩
  · cases ports
  · simp only [Option.any_some, Bool.and_eq_true, beq_iff_eq] at ports
    exact ⟨packet, _, later, parsed, ports.1.1, ports.1.2, ports.2⟩

end Gonnect.Routing
