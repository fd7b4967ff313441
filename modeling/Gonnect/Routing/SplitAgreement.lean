import Gonnect.Net.IP
import Gonnect.Routing.MethodPrograms
import Gonnect.Routing.SplitRouting

/-!
# Split routing and UDP routing agree

A program may be given both to a split router, which reads the bytes of a packet, and to a
router configuration, whose `RouteUDP` is told the network and the two endpoints. The two
interpreters test the same flow in different representations: addresses as parsed words and
masks, or as `net.UDPAddr` values with a text and a `netip.Addr`. Their tests give the same
truth for related endpoints (`SameEndpoint`).
-/

namespace Gonnect.Routing

open Checked StraightLine Netip List Option RouterCfg SplitRouter Net BigEndian AddrCache BitVec
  ParsedIPPacket Addr

def hexDigit (value : UInt8) : UInt8 :=
  if value < 10 then UInt8.ofNat '0'.toNat + value else UInt8.ofNat 'a'.toNat + (value - 10)

def hexString (data : List UInt8) : Text :=
  data.flatMap fun byte : UInt8 => [hexDigit (byte >>> 4), hexDigit (byte &&& 0x0f)]

def ipString (addrString : Addr → Text) (ip : Net.IP) : Text :=
  if ip.length = 0 then
    bytes "<nil>"
  else if ip.length ≠ 4 ∧ ip.length ≠ 16 then
    bytes "?" ++ hexString ip
  else
    match to4 ip with
    | some ip4 => addrString (addrFrom4 ip4)
    | none => addrString (addrFrom16 ip)

def addrFromIP (ip : Net.IP) : Addr :=
  if ip.length = 4 then
    (addrFrom4 ip).unmap
  else if ip.length = 16 then
    (addrFrom16 ip).unmap
  else
    .zero

/-- What `addrCache` reads from a `*net.UDPAddr`. -/
def udpAddrInput (addrString : Addr → Text) (ip : Net.IP) (port : ℕ) : AddrInput where
  host := ipString addrString ip
  ip := addrFromIP ip
  port _ := port

variable {ip : Net.IP} {start : ℕ}

section

variable (length : ip.length = 16)

include length

theorem ofBytes_sixteen :
    ofBytes ip =
        ofBytes (ip.take 12) * 2 ^ 32 + ofBytes (ip.drop 12) ∧
      ofBytes (ip.drop 12) < 2 ^ 32 := by
  have lastLength : (ip.drop 12).length = 4 := by
    rw [length_drop, length]
  constructor
  · conv_lhs => rw [← take_append_drop 12 ip, ofBytes_append, lastLength]
    rfl
  · have bound := ofBytes_lt (ip.drop 12)
    rw [lastLength] at bound
    exact bound

theorem addrFrom16_high_iff :
    BitVec.ofNat 128 (ofBytes ip) >>> 32 = 0xffff#128 ↔
      ip.take 12 = v4InV6Prefix := by
  have firstLength : (ip.take 12).length = v4InV6Prefix.length := by
    rw [length_take, length]
    rfl
  have prefixValue : ofBytes v4InV6Prefix = 0xffff := rfl
  rcases ofBytes_sixteen length with ⟨value, small⟩
  rw [← toNat_inj, toNat_ushiftRight, toNat_ofNat_ofBytes (by omega), value,
    Nat.shiftRight_eq_div_pow]
  change (_ * 2 ^ 32 + _) / 2 ^ 32 = 0xffff ↔ _
  constructor
  · intro high
    apply ofBytes_injective firstLength
    omega
  · intro mapped
    rw [mapped, prefixValue]
    omega

theorem unmap_addrFrom16_of_mapped
    (mapped : ip.take 12 = v4InV6Prefix) : (addrFrom16 ip).unmap = addrFrom4 (ip.drop 12) := by
  rcases ofBytes_sixteen length with ⟨value, small⟩
  have low : (BitVec.ofNat 128 (ofBytes ip)).truncate 32 =
      BitVec.ofNat 32 (ofBytes (ip.drop 12)) := by
    apply eq_of_toNat_eq
    rw [BitVec.toNat_setWidth, toNat_ofNat_ofBytes (by omega), value, BitVec.toNat_ofNat]
    omega
  rw [addrFrom16, unmap, if_pos ((addrFrom16_high_iff length).mpr mapped), low, addrFrom4]

theorem unmap_addrFrom16_of_not_mapped
    (notMapped : ip.take 12 ≠ v4InV6Prefix) : (addrFrom16 ip).unmap = addrFrom16 ip := by
  rw [addrFrom16, unmap, if_neg (mt (addrFrom16_high_iff length).mp notMapped)]

end

theorem addrFromIP_eq (ip : Net.IP) :
    addrFromIP ip = match to4 ip with
      | some ip4 => addrFrom4 ip4
      | none => if ip.length = 16 then addrFrom16 ip else .zero := by
  by_cases four : ip.length = 4
  · simp [addrFromIP, to4, four, addrFrom4, unmap]
  · by_cases sixteen : ip.length = 16
    · by_cases mapped : ip.take 12 = v4InV6Prefix
      · simp [addrFromIP, to4, sixteen, mapped, unmap_addrFrom16_of_mapped]
      · simp [addrFromIP, to4, sixteen, mapped, unmap_addrFrom16_of_not_mapped]
    · simp [addrFromIP, to4, four, sixteen]

variable (addrString : Addr → Text)

theorem ipString_eq (length : ip.length = 4 ∨ ip.length = 16) :
    ipString addrString ip = addrString (addrFromIP ip) := by
  have wellSized : ¬(ip.length ≠ 4 ∧ ip.length ≠ 16) := by omega
  rw [ipString, if_neg (by omega), if_neg wellSized, addrFromIP_eq]
  cases short : to4 ip with
  | some ip4 => rfl
  | none =>
    have sixteen : ip.length = 16 := by
      rcases length with four | sixteen
      · rw [to4, if_pos four] at short
        cases short
      · exact sixteen
    rw [if_pos sixteen]

theorem udpAddrInput_congr {left right : Net.IP} (equal : Net.ipEqual left right = true)
    (port : ℕ) :
    udpAddrInput addrString left port = udpAddrInput addrString right port := by
  have same : left = right ∨
      (left.length = 4 ∨ left.length = 16) ∧ (right.length = 4 ∨ right.length = 16) ∧
        to4 left = to4 right ∧ (to4 left).isSome := by
    unfold ipEqual at equal
    split_ifs at equal with sameLength leftShort rightShort
    · exact .inl (of_decide_eq_true equal)
    · rcases leftShort with ⟨four, sixteen⟩
      rcases of_decide_eq_true equal with ⟨mapped, rest⟩
      refine .inr ⟨.inl four, .inr sixteen, ?_⟩
      simp [to4, sixteen, mapped, rest]
    · rcases rightShort with ⟨sixteen, four⟩
      rcases of_decide_eq_true equal with ⟨mapped, rest⟩
      refine .inr ⟨.inr sixteen, .inl four, ?_⟩
      simp [to4, four, sixteen, mapped, rest]
  rcases same with rfl | ⟨leftLength, rightLength, same, short⟩
  · rfl
  · rcases isSome_iff_exists.mp short with ⟨ip4, found⟩
    have sameAddr : addrFromIP left = addrFromIP right := by
      rw [addrFromIP_eq, addrFromIP_eq, ← same, found]
    rw [udpAddrInput, udpAddrInput, ipString_eq addrString leftLength,
      ipString_eq addrString rightLength, sameAddr]

/-- The extension headers from an offset on lead to a UDP header. A fragment header is that of
a packet in one piece. A split router walks over them unless one is a Mobility, HIP or Shim6
header. -/
inductive LeadsToUDP (pkt : List UInt8) : Bool → UInt8 → ℕ → ℕ → Prop
  | udp (start : ℕ) : LeadsToUDP pkt true 17 start start
  | options {walked : Bool} {proto : UInt8} {start transport : ℕ}
      (known : proto = 0 ∨ proto = 43 ∨ proto = 60)
      (fits : start + 8 * ((byteAt pkt (start + 1)).toNat + 1) ≤ pkt.length)
      (rest : LeadsToUDP pkt walked (byteAt pkt start)
        (start + 8 * ((byteAt pkt (start + 1)).toNat + 1)) transport) :
      LeadsToUDP pkt walked proto start transport
  | mobility {walked : Bool} {proto : UInt8} {start transport : ℕ}
      (known : proto = 135 ∨ proto = 139 ∨ proto = 140)
      (fits : start + 8 * ((byteAt pkt (start + 1)).toNat + 1) ≤ pkt.length)
      (rest : LeadsToUDP pkt walked (byteAt pkt start)
        (start + 8 * ((byteAt pkt (start + 1)).toNat + 1)) transport) :
      LeadsToUDP pkt false proto start transport
  | fragment {walked : Bool} {start transport : ℕ} (fits : start + 8 ≤ pkt.length)
      (whole : wordAt pkt (start + 2) &&& 0xfff9 = 0)
      (rest : LeadsToUDP pkt walked (byteAt pkt start) (start + 8) transport) :
      LeadsToUDP pkt walked 44 start transport
  | authentication {walked : Bool} {start transport : ℕ}
      (fits : start + 4 * ((byteAt pkt (start + 1)).toNat + 2) ≤ pkt.length)
      (rest : LeadsToUDP pkt walked (byteAt pkt start)
        (start + 4 * ((byteAt pkt (start + 1)).toNat + 2)) transport) :
      LeadsToUDP pkt walked 51 start transport

/-- An IPv4 packet that is not fragmented and has a UDP header at `start`. -/
structure UdpOver4 (pkt : List UInt8) (start : ℕ) : Prop where
  version : byteAt pkt 0 >>> 4 = 4
  header : start = 4 * (byteAt pkt 0 &&& 0x0f).toNat
  shortest : 20 ≤ start
  transport : start + 8 ≤ wordAt pkt 2
  inside : wordAt pkt 2 ≤ pkt.length
  unfragmented : wordAt pkt 6 &&& 0x3fff = 0
  protocol : byteAt pkt 9 = 17

structure UdpOver6 (pkt : List UInt8) (walked : Bool) (start : ℕ) : Prop where
  version : byteAt pkt 0 >>> 4 = 6
  inside : 40 + wordAt pkt 4 ≤ pkt.length
  headers : LeadsToUDP (pkt.take (40 + wordAt pkt 4)) walked (byteAt pkt 6) 40 start
  transport : start + 8 ≤ 40 + wordAt pkt 4

structure UdpFlow where
  network : Text
  src : IP
  srcPort : ℕ
  dst : IP
  dstPort : ℕ

inductive UdpPacket (pkt : List UInt8) : Bool → UdpFlow → Prop
  | over4 {start : ℕ} (datagram : UdpOver4 pkt start) :
      UdpPacket pkt true ⟨bytes "udp4", (pkt.take 16).drop 12, wordAt pkt start,
        (pkt.take 20).drop 16,
        wordAt pkt (start + 2)⟩
  | over6 {walked : Bool} {start : ℕ} (datagram : UdpOver6 pkt walked start) :
      UdpPacket pkt walked ⟨bytes "udp6", (pkt.take 24).drop 8, wordAt pkt start,
        (pkt.take 40).drop 24,
        wordAt pkt (start + 2)⟩

variable {pkt : List UInt8} {α : Type}

theorem parsePorts_udp {packet : ParsedIPPacket} (udp : packet.proto = 17)
    (fits : packet.transportStart + 8 ≤ pkt.length) :
    packet.parsePorts pkt = .ok { packet with
      srcPort := wordAt pkt packet.transportStart
      dstPort := wordAt pkt (packet.transportStart + 2)
      hasPorts := true
      flowOK := true } := by
  have known : ¬(packet.proto ≠ 6 ∧ packet.proto ≠ 17) := fun unknown => unknown.2 udp
  rw [parsePorts, if_neg known, if_neg (by omega), windowFrom_uint16 (by omega),
    ok_bind, windowFrom_uint16 (by omega), ok_bind, udp, parseFlow,
    if_neg (by decide), pure_eq_ok, ok_bind, pure_eq_ok, decide_eq_true fits]

/-- The packet shows its UDP ports, or neither ports nor the protocol. -/
structure ParsedIPPacket.Shows (packet : ParsedIPPacket) (walked : Bool) (srcPort dstPort : ℕ) :
    Prop where
  udp : (packet.proto == 17) = walked
  notTCP : (packet.proto == 6) = false
  known : packet.hasPorts = walked
  ports : walked = true → packet.srcPort = srcPort ∧ packet.dstPort = dstPort

theorem parseIPv4Packet_udp (datagram : UdpOver4 pkt start) :
    ∃ packet, parseIPv4Packet pkt = .ok (some packet) ∧
      packet.Shows true (wordAt pkt start) (wordAt pkt (start + 2)) := by
  rcases datagram with ⟨_, header, shortest, transport, inside, unfragmented, protocol⟩
  have first : wordAt pkt 6 &&& 0x1fff = 0 := by
    have smaller : (0x1fff : ℕ) = 0x3fff &&& 0x1fff := by decide
    rw [smaller, ← Nat.and_assoc, unfragmented, Nat.zero_and]
  have complete := length_take_of_le inside
  have srcLength := length_source4 (by omega : 20 ≤ pkt.length)
  have dstLength := length_destination4 (by omega : 20 ≤ pkt.length)
  unfold parseIPv4Packet
  simp (disch := omega) only [if_neg, index_eq_byteAt, window_uint16, ok_bind, ← header]
  simp (disch := omega) only [if_pos first, window_eq_ok, beUint32_eq_ofBytes srcLength,
    beUint32_eq_ofBytes dstLength, ok_bind, drop_zero]
  rw [parsePorts_udp protocol (by dsimp only; omega), ok_bind, pure_eq_ok]
  refine ⟨_, rfl, by simp [protocol], by simp [protocol], rfl, fun _ => ⟨?_, ?_⟩⟩
  · exact wordAt_take (by dsimp only; omega)
  · exact wordAt_take (by dsimp only; omega)

theorem skipIPv6ExtHeaders_udp {walked : Bool} {proto : UInt8} {transport : ℕ}
    (headers : LeadsToUDP pkt walked proto start transport) :
    ∃ next reached, skipIPv6ExtHeaders pkt proto start = .ok (some (next, reached, true)) ∧
      if walked then next = 17 ∧ reached = transport else next ≠ 6 ∧ next ≠ 17 := by
  induction headers with
  | udp start =>
    refine ⟨17, start, ?_, rfl, rfl⟩
    rw [skipIPv6ExtHeaders, if_neg (by decide), if_neg (by decide), if_neg (by decide), pure_eq_ok]
  | options known fits _ ih =>
    rw [skipIPv6ExtHeaders_options known fits]
    exact ih
  | @mobility _ proto start _ known fits _ _ =>
    refine ⟨proto, start, ?_, ?_⟩
    · rw [skipIPv6ExtHeaders]
      rcases known with rfl | rfl | rfl <;> rfl
    · rcases known with rfl | rfl | rfl <;> simp
  | @fragment _ start _ fits whole _ ih =>
    have first : wordAt pkt (start + 2) &&& 0xfff8 = 0 := by
      have smaller : (0xfff8 : ℕ) = 0xfff9 &&& 0xfff8 := by decide
      rw [smaller, ← Nat.and_assoc, whole, Nat.zero_and]
    rw [skipIPv6ExtHeaders_fragment fits, if_neg (by simpa using first)]
    exact ih
  | authentication fits _ ih =>
    rw [skipIPv6ExtHeaders_authentication fits]
    exact ih

theorem parseIPv6Packet_udp {walked : Bool} (datagram : UdpOver6 pkt walked start) :
    ∃ packet, parseIPv6Packet pkt = .ok (some packet) ∧
      packet.Shows walked (wordAt pkt start) (wordAt pkt (start + 2)) := by
  rcases datagram with ⟨_, inside, headers, transport⟩
  have complete := length_take_of_le inside
  rcases skipIPv6ExtHeaders_udp headers with ⟨next, reached, skipped, shown⟩
  unfold parseIPv6Packet
  simp (disch := omega) only [if_neg, window_uint16, ok_bind]
  simp (disch := omega) only [window_eq_ok, index_eq_byteAt, ok_bind, drop_zero, skipped]
  cases walked with
  | true =>
    rcases shown with ⟨rfl, rfl⟩
    rw [parsePorts_udp rfl (by dsimp only; omega), ok_bind, pure_eq_ok]
    refine ⟨_, rfl, rfl, rfl, rfl, fun _ => ⟨?_, ?_⟩⟩
    · exact wordAt_take (by dsimp only; omega)
    · exact wordAt_take (by dsimp only; omega)
  | false =>
    have unknown : next ≠ 6 ∧ next ≠ 17 := shown
    rw [parsePorts, if_pos unknown, pure_eq_ok, ok_bind, pure_eq_ok]
    refine ⟨_, rfl, ?_, ?_, rfl, fun seen => absurd seen (by decide)⟩
    · exact beq_eq_false_iff_ne.mpr unknown.2
    · exact beq_eq_false_iff_ne.mpr unknown.1

def Unmapped (ip : Net.IP) : Prop :=
  ip.take 12 ≠ v4InV6Prefix

instance : DecidablePred Unmapped := fun ip =>
  inferInstanceAs (Decidable (ip.take 12 ≠ v4InV6Prefix))

structure ParsedIPPacket.OfFlow (packet : ParsedIPPacket) (walked : Bool) (flow : UdpFlow) :
    Prop where
  shown : packet.Shows walked flow.srcPort flow.dstPort
  bounds : flow.srcPort < 2 ^ 16 ∧ flow.dstPort < 2 ^ 16
  lengths : (flow.src.length = 4 ∨ flow.src.length = 16) ∧
    (flow.dst.length = 4 ∨ flow.dst.length = 16)
  src : packet.src = addrFromIP flow.src
  dst : packet.dst = addrFromIP flow.dst
  src4 : packet.src4 = value4 packet.src
  dst4 : packet.dst4 = value4 packet.dst
  network : (flow.network = bytes "udp4" ∧ packet.src.is4 = true ∧ packet.dst.is4 = true) ∨
    (flow.network = bytes "udp6" ∧ packet.src.is6 = true ∧ packet.dst.is6 = true)

theorem addrFromIP_four (four : ip.length = 4) : addrFromIP ip = addrFrom4 ip := by
  rw [addrFromIP, if_pos four, addrFrom4, unmap]
  simp

theorem addrFromIP_sixteen (sixteen : ip.length = 16) (unmapped : Unmapped ip) :
    addrFromIP ip = addrFrom16 ip := by
  rw [addrFromIP, if_neg (by omega), if_pos sixteen,
    unmap_addrFrom16_of_not_mapped sixteen unmapped]

variable {walked : Bool} {flow : UdpFlow} {Rule : Type} {rules : SplitBytecodeRules Rule}
  {router : SplitRouter}
  {state : SplitState} {cfg : RouterCfg}

theorem parseIPPacket_udp {buf : List UInt8} {offset : ℤ} (inside : 0 ≤ offset)
    (datagram : UdpPacket (buf.drop offset.toNat) walked flow) (srcUnmapped : Unmapped flow.src)
    (dstUnmapped : Unmapped flow.dst) :
    ∃ packet, parseIPPacket buf offset = .ok (some packet) ∧ packet.OfFlow walked flow := by
  have length : (buf.drop offset.toNat).length = buf.length - offset.toNat := length_drop
  cases datagram with
  | @over4 start datagram =>
    rcases parseIPv4Packet_udp datagram with ⟨packet, parsed, ports⟩
    rcases parseIPv4Packet_header (buf.drop offset.toNat) with ⟨_, same, headers⟩
    cases parsed.symm.trans same
    have header := (headers packet rfl).1
    rcases datagram with ⟨version, _, _, transport, whole, _, _⟩
    have srcLength := length_source4 (by omega : 20 ≤ (buf.drop offset.toNat).length)
    have dstLength := length_destination4 (by omega : 20 ≤ (buf.drop offset.toNat).length)
    refine ⟨packet, ?_, ?_⟩
    · rw [parseIPPacket, if_neg (by omega), windowFrom_eq_ok (by omega), ok_bind,
        index_eq_byteAt (by omega), ok_bind]
      rw [version, if_pos rfl, parsed]
    · exact
        { shown := ports
          bounds := ⟨wordAt_lt _ _, wordAt_lt _ _⟩
          lengths := ⟨.inl srcLength, .inl dstLength⟩
          src := header.src.trans (addrFromIP_four srcLength).symm
          dst := header.dst.trans (addrFromIP_four dstLength).symm
          src4 := header.src4
          dst4 := header.dst4
          network := .inl ⟨rfl, by rw [header.src]; rfl, by rw [header.dst]; rfl⟩ }
  | @over6 _ start datagram =>
    rcases parseIPv6Packet_udp datagram with ⟨packet, parsed, ports⟩
    rcases parseIPv6Packet_header (buf.drop offset.toNat) with ⟨_, same, headers⟩
    cases parsed.symm.trans same
    have header := (headers packet rfl).1
    rcases datagram with ⟨version, whole, _, _⟩
    have srcLength : (((buf.drop offset.toNat).take 24).drop 8).length = 16 := by
      rw [length_drop, length_take]
      omega
    have dstLength : (((buf.drop offset.toNat).take 40).drop 24).length = 16 := by
      rw [length_drop, length_take]
      omega
    refine ⟨packet, ?_, ?_⟩
    · rw [parseIPPacket, if_neg (by omega), windowFrom_eq_ok (by omega), ok_bind,
        index_eq_byteAt (by omega), ok_bind]
      rw [version, if_neg (by decide), if_pos rfl, parsed]
    · exact
        { shown := ports
          bounds := ⟨wordAt_lt _ _, wordAt_lt _ _⟩
          lengths := ⟨.inr srcLength, .inr dstLength⟩
          src := header.src.trans (addrFromIP_sixteen srcLength srcUnmapped).symm
          dst := header.dst.trans (addrFromIP_sixteen dstLength dstUnmapped).symm
          src4 := header.src4
          dst4 := header.dst4
          network := .inr ⟨rfl, by rw [header.src]; rfl, by rw [header.dst]; rfl⟩ }

/-- An endpoint of a call without names, and the same endpoint in a packet. -/
structure SameEndpoint (addrString : Addr → Text) (cache : AddrCache) (addr : Addr) (port : ℕ) :
    Prop where
  host : cache.host = addrString addr
  ip : cache.ip = addr
  noNames : cache.reverseStorage = none
  port : ∀ network, cache.port network = port

theorem sameEndpoint_udpAddr (length : ip.length = 4 ∨ ip.length = 16) (port : ℕ) (reverse : Bool) :
    SameEndpoint addrString (newAddrCache (udpAddrInput addrString ip port) none reverse)
      (addrFromIP ip) port where
  host := ipString_eq addrString length
  ip := rfl
  noNames := by cases reverse <;> rfl
  port _ := rfl

theorem compileSplitIPv4Subnet_contains (subnet : IPv4Subnet) (addr : BitVec 32) :
    (compileSplitIPv4Subnet subnet).contains addr = subnet.contains addr := by
  unfold compileSplitIPv4Subnet IPv4Subnet.contains
  split_ifs with all
  · simp [SplitIPv4Subnet.contains]
  · rfl

namespace SameEndpoint

variable {addrString} {cache : AddrCache} {addr : Addr} {port : ℕ}

section

variable (same : SameEndpoint addrString cache addr port)

include same

theorem reverseDNSNames_eq : cache.reverseDNSNames = [] := by
  rw [reverseDNSNames, same.noNames]

theorem matchString_eq : cache.matchString = fun want => addrString addr == want := by
  funext want
  rw [matchString, same.reverseDNSNames_eq, same.host, any_nil, Bool.or_false]

theorem matchRegexp_eq : cache.matchRegexp = fun regexp => regexp (addrString addr) := by
  funext regexp
  rw [matchRegexp, same.reverseDNSNames_eq, same.host, any_nil, Bool.or_false]

theorem matchIPv4_eq : cache.matchIPv4 = fun want => value4 addr == want && addr.is4 := by
  funext want
  rw [matchIPv4, same.ip]
  cases addr <;> simp [as4, is4, value4]

theorem inIPv4Subnet_eq :
    cache.inIPv4Subnet =
      fun subnet => addr.is4 && (compileSplitIPv4Subnet subnet).contains (value4 addr) := by
  funext subnet
  rw [inIPv4Subnet, same.ip, compileSplitIPv4Subnet_contains]
  cases addr <;> simp [as4, is4, value4]

theorem ipv6_beq {want : Addr} (isIPv6 : want.is6 = true) :
    (cache.ipv6 == want) = (addr == want) := by
  rw [ipv6, same.ip]
  cases addr with
  | v6 value zone | zero => rfl
  | v4 value =>
    cases want with
    | v6 value zone => rfl
    | _ => cases isIPv6

theorem contains_ipv6 {subnet : Netip.Prefix} (isIPv6 : subnet.addr.is6 = true) :
    subnet.contains cache.ipv6 = subnet.contains addr := by
  rw [ipv6, same.ip]
  cases addr with
  | v6 value zone | zero => rfl
  | v4 value =>
    rcases subnet with ⟨base, length, fits⟩
    cases base with
    | v6 base zone => cases length <;> rfl
    | _ => cases isIPv6

theorem isFQDN_eq (valid : addr.isValid = true) : cache.isFQDN = false := by
  rw [isFQDN, same.ip, valid, Bool.not_true, Bool.and_false]

theorem testPort_eq (bound : port < 2 ^ 16) (param : ℕ) (network : Text) :
    testPort param (cache.port network) = (param == port) := by
  rw [testPort, same.port, bytecodeParamInt, if_neg (by decide)]
  split_ifs with large
  · exact (beq_eq_false_iff_ne.mpr (by omega)).symm
  · simp [eq_comm]

end

end SameEndpoint

theorem testEntry_eq_any (table : List α) (param : ℕ) (test : α → Bool) :
    testEntry table param test = .ok (table[param]?.any test) := by
  cases found : table[param]? with
  | some entry => rw [testEntry_of_getElem? found, any_some]
  | none =>
    have outside := getElem?_eq_none_iff.mp found
    have refused : bytecodeParamIndex param table.length = none := by
      unfold bytecodeParamIndex
      split_ifs <;> rfl
    rw [testEntry, refused, any_none]

structure Tables.OnlyIPv6 (tables : Tables) : Prop where
  addrs : ∀ addr ∈ tables.ipv6Addrs, addr.is6 = true
  subnets : ∀ subnet ∈ tables.ipv6Subnets, subnet.addr.is6 = true

theorem RawTables.validate_onlyIPv6 {raw : RawTables} {tables : Tables}
    (validated : raw.validate = .ok tables) : tables.OnlyIPv6 := by
  rw [RawTables.validate] at validated
  split at validated
  · cases validated
  · rcases of_bind validated with ⟨_, checked, same⟩
    cases same
    unfold validateTables at checked
    split at checked
    · cases checked
    · split at checked
      · cases checked
      · rename_i addrs
        split at checked
        · cases checked
        · rename_i subnets
          refine ⟨firstFailure_eq_none addrs, ?_⟩
          intro subnet member
          exact (Bool.and_eq_true_iff.mp (firstFailure_eq_none subnets subnet member)).2

theorem any_guarded (guard : Bool) (test : α → Bool) (entry : Option α) :
    (entry.any fun value => guard && test value) = (guard && entry.any test) := by
  cases entry <;> simp

theorem any_congr_of_mem {table : List α} {test other : α → Bool}
    (same : ∀ entry ∈ table, test entry = other entry) (param : ℕ) :
    table[param]?.any test = table[param]?.any other := by
  cases found : table[param]? with
  | none => rfl
  | some entry => exact same entry (mem_of_getElem? found)

def Op.readsTransport : Op → Bool
  | .udp | .port | .lport => true
  | _ => false

/-- The predicates as a packet shows them: without a transport header, those on it are false. -/
def shownTruth (walked : Bool) (truth : Op → ℕ → Bool) (op : Op) (param : ℕ) : Bool :=
  (walked || !op.readsTransport) && truth op param

/-- A call of `RouteUDP` and the evaluation of a packet that are about the same flow. -/
structure SameFlow (ctx : SplitContext) (ev : Eval) (walked : Bool) (srcPort dstPort : ℕ) :
    Prop where
  noNames : ctx.names = none
  shown : ctx.packet.Shows walked srcPort dstPort
  bounds : srcPort < 2 ^ 16 ∧ dstPort < 2 ^ 16
  src4 : ctx.packet.src4 = value4 ctx.packet.src
  dst4 : ctx.packet.dst4 = value4 ctx.packet.dst
  src : SameEndpoint ctx.world.addrString ev.laddr ctx.packet.src srcPort
  dst : SameEndpoint ctx.world.addrString ev.raddr ctx.packet.dst dstPort
  network : (ev.network = bytes "udp4" ∧ ctx.packet.src.is4 = true ∧ ctx.packet.dst.is4 = true) ∨
    (ev.network = bytes "udp6" ∧ ctx.packet.src.is6 = true ∧ ctx.packet.dst.is6 = true)
  tables : ctx.router.tables.OnlyIPv6
  subnets : ctx.router.splitSubnets = ctx.router.tables.ipv4Subnets.map compileSplitIPv4Subnet

namespace SameFlow

variable {ctx : SplitContext} {ev : Eval} {srcPort dstPort : ℕ}

section

variable (same : SameFlow ctx ev walked srcPort dstPort)

include same

theorem valid : ctx.packet.src.isValid = true ∧ ctx.packet.dst.isValid = true := by
  have known : ∀ {addr : Addr}, addr.is4 = true ∨ addr.is6 = true → addr.isValid = true := by
    intro addr version
    cases addr <;> first | rfl | simp [is4, is6] at version
  rcases same.network with ⟨_, src, dst⟩ | ⟨_, src, dst⟩
  · exact ⟨known (.inl src), known (.inl dst)⟩
  · exact ⟨known (.inr src), known (.inr dst)⟩

theorem networks :
    ev.isNet4 = ctx.packet.src.is4 ∧ ev.isNet6 = ctx.packet.src.is6 ∧
      isUDPNet ev.network = true ∧ isTCPNet ev.network = false := by
  rcases same.network with ⟨network, src, _⟩ | ⟨network, src, _⟩
  all_goals
    simp only [Eval.isNet4, Eval.isNet6, network]
    cases addr : ctx.packet.src <;> rw [addr] at src <;> first | exact ⟨rfl, rfl, rfl, rfl⟩ |
      cases src

variable (endpoint : Endpoint)

open SplitContext

theorem stringHolds_eq :
    ctx.stringHolds endpoint =
      fun want => ctx.world.addrString (ctx.packet.addr endpoint) == want := by
  funext want
  simp [stringHolds, namesOf, same.noNames]

theorem regexpHolds_eq :
    ctx.regexpHolds endpoint =
      fun regexp => regexp (ctx.world.addrString (ctx.packet.addr endpoint)) := by
  funext regexp
  simp [regexpHolds, namesOf, same.noNames]

theorem subnets_any (param : ℕ) (value : BitVec 32) :
    (ctx.router.splitSubnets[param]?.any fun subnet => subnet.contains value) =
      ctx.router.tables.ipv4Subnets[param]?.any fun subnet =>
        (compileSplitIPv4Subnet subnet).contains value := by
  rw [same.subnets, getElem?_map, Option.any_map]

theorem truth_eq {op : Op} {param : ℕ} (accepted : SplitRouter.Accepts ctx.router.tables op param)
    (alsoAccepted : RouterCfg.Accepts op param) :
    shownTruth walked (truth ctx.router.tables ev) op param = ctx.testHolds op param := by
  rcases same.networks with ⟨net4, net6, udp, tcp⟩
  have addrs := fun want member => same.tables.addrs want member
  have subnets := fun subnet member => same.tables.subnets subnet member
  cases op <;>
    try simp only [shownTruth, Op.readsTransport, Bool.not_false, Bool.not_true, Bool.or_true,
      Bool.or_false, Bool.true_and, truth, Tables.predicate, testHolds, testEntry_eq_any]
  case net4 => exact net4
  case net6 => exact net6
  case udp =>
    simp only [udp, same.shown.udp]
    exact Bool.and_true walked
  case tcp =>
    simp only [tcp, same.shown.notTCP]
  case fqdn => exact same.dst.isFQDN_eq same.valid.2
  case lfqdn => exact same.src.isFQDN_eq same.valid.1
  case addrS | addrRe | addr4 =>
    simp [same.dst.matchString_eq, same.stringHolds_eq, same.dst.matchRegexp_eq,
      same.regexpHolds_eq, same.dst.matchIPv4_eq, same.dst4, addr]
  case laddrS | laddrRe | laddr4 =>
    simp [same.src.matchString_eq, same.stringHolds_eq, same.src.matchRegexp_eq,
      same.regexpHolds_eq, same.src.matchIPv4_eq, same.src4, addr]
  case snet4 =>
    simp [same.dst.inIPv4Subnet_eq, any_guarded, same.dst4, same.subnets_any]
  case lsnet4 =>
    simp [same.src.inIPv4Subnet_eq, any_guarded, same.src4, same.subnets_any]
  case addr6 =>
    exact any_congr_of_mem (fun want member => same.dst.ipv6_beq (addrs want member)) param
  case laddr6 =>
    exact any_congr_of_mem (fun want member => same.src.ipv6_beq (addrs want member)) param
  case snet6 =>
    exact any_congr_of_mem (fun net member => same.dst.contains_ipv6 (subnets net member)) param
  case lsnet6 =>
    exact any_congr_of_mem (fun net member => same.src.contains_ipv6 (subnets net member)) param
  case port | lport =>
    simp only [same.shown.known, same.dst.testPort_eq same.bounds.2,
      same.src.testPort_eq same.bounds.1]
    cases walked with
    | false => rfl
    | true =>
      rcases same.shown.ports rfl with ⟨srcPort, dstPort⟩
      simp [srcPort, dstPort]
  case dial | listen | lookup => exact absurd accepted.notMethod (by decide)
  case rule => exact absurd rfl alsoAccepted.1

theorem command_eq {instr : Instr} {op : Op} (known : instr.op = some op)
    (accepted : SplitRouter.Accepts ctx.router.tables op instr.param)
    (alsoAccepted : RouterCfg.Accepts op instr.param) :
    ctx.reading.command instr =
      instr.command (shownTruth walked (truth ctx.router.tables ev)) result := by
  rcases instr with ⟨_, param⟩
  cases known
  cases logic : op.isLogic with
  | true => rcases Op.isLogic_cases logic with rfl | rfl | rfl | rfl | rfl <;> rfl
  | false =>
    cases terminalOp : op.isTerminal with
    | true =>
      cases op with
      | drop => rfl
      | slot =>
        have small := accepted.slot rfl
        have inRange : bytecodeParamInt param routerSlots = some param := by
          rw [bytecodeParamInt, if_neg (by omega), if_neg (by simpa using small)]
        change BoolStack.Cmd.halt param =
          .halt ((bytecodeParamInt param routerSlots).getD 0)
        rw [inRange, getD_some]
      | intercept | route => exact absurd accepted.notSniffer (by decide)
      | backend => exact absurd accepted.notDNS (by decide)
      | _ => exact absurd terminalOp (by decide)
    | false =>
      have pushes : ctx.reading.command ⟨some op, param⟩ = .push (ctx.testHolds op param) := by
        cases op <;> first
          | rfl
          | exact absurd logic (by decide)
          | exact absurd terminalOp (by decide)
      rw [pushes, Instr.command]
      dsimp only
      rw [Op.stackCommand_predicate terminalOp logic,
        same.truth_eq accepted alsoAccepted]

end

end SameFlow

theorem newBytecodeSplitRouter_parts
    (built : newBytecodeSplitRouter rules = .ok (.ok (router, state))) :
    rules.tables.validate = .ok router.tables ∧
      router.splitSubnets = router.tables.ipv4Subnets.map compileSplitIPv4Subnet ∧
      decode rules.route = .ok router.routeProgram := by
  unfold newBytecodeSplitRouter at built
  split at built
  · cases built
  · rename_i tables buildMatcher accepted
    rcases of_bind built with ⟨stringOps, _, built⟩
    rcases of_bind built with ⟨⟨program, depth⟩, compiled, built⟩
    rcases of_bind built with ⟨conds, _, built⟩
    rcases of_bind compiled with ⟨_, decoded, same⟩
    cases same
    split at built
    · cases built
    · cases built
      refine ⟨?_, rfl, decoded⟩
      unfold validate at accepted
      split at accepted
      · cases accepted
      · rcases of_bind accepted with ⟨_, validated, accepted⟩
        rcases of_bind accepted with ⟨_, _, accepted⟩
        cases accepted
        exact validated

/-- The slot that a program selects when its predicates read as given. -/
def selected (program : List Instr) (truth : Op → ℕ → Bool) : ℕ :=
  (BoolStack.run (program.map (Instr.command truth result)) []).getD 0

theorem RouterCfg.select_routeUDP {rules : BytecodeRules}
    (configured : newBytecodeRouterCfg rules = .ok cfg) {program : List Instr}
    (decoded : decode cfg.routeUDP = .ok program) (network : Text) (laddr raddr : AddrInput) :
    (∀ instr ∈ program, ∃ op, instr.op = some op ∧ Accepts op instr.param) ∧
      ∃ stringOps, cfg.select (.routeUDP network laddr raddr) none =
        .ok (selected program (truth cfg.tables (eval .dial network laddr raddr none stringOps))) := by
  rcases newBytecodeRouterCfg_ok configured with ⟨_, _, valid⟩
  rcases valid .routeUDP with ⟨name, hasLAddr, lookup, valid⟩
  rcases validateBytecode_ok (mapError_eq_ok_iff.mp valid) with ⟨last, valid⟩
  have sound : ∀ pc op param, validateOp cfg.tables name hasLAddr lookup pc op param = .ok () →
      Accepts op param := fun _ _ _ => validateOp_sound
  rcases bytecodeAddrStringOps_ok valid with ⟨stringOps, marked⟩
  constructor
  · rcases validateLoop_decodes sound valid with ⟨same, decodedAgain, checks⟩
    cases decoded.symm.trans decodedAgain
    intro instr member
    rcases checks.forall_mem instr member with ⟨_, _, op, known, accepted, _⟩
    exact ⟨op, known, accepted⟩
  · refine ⟨stringOps, ?_⟩
    change exec cfg.tables cfg.routeUDP .dial network laddr raddr none = _
    have marked' : bytecodeAddrStringOps cfg.routeUDP = .ok stringOps := marked
    rw [exec, marked', ok_bind]
    exact (interprets cfg.tables _).exec 0 sound valid decoded

theorem slotOf_eq_selected (built : newBytecodeSplitRouter rules = .ok (.ok (router, state)))
    {routerRules : BytecodeRules} (configured : newBytecodeRouterCfg routerRules = .ok cfg)
    (sameTables : routerRules.tables = rules.tables) (sameCode : routerRules.routeUDP = rules.route)
    (world : SplitWorld) {call : SplitCall} (noNames : call.names = none) (inside : 0 ≤ call.offset)
    (datagram : UdpPacket (call.buf.drop call.offset.toNat) walked flow)
    (srcUnmapped : Unmapped flow.src) (dstUnmapped : Unmapped flow.dst) :
    let laddr := udpAddrInput world.addrString flow.src flow.srcPort
    let raddr := udpAddrInput world.addrString flow.dst flow.dstPort
    ∃ stringOps,
      let truths := truth cfg.tables (eval .dial flow.network laddr raddr none stringOps)
      cfg.select (.routeUDP flow.network laddr raddr) none =
        .ok (selected router.routeProgram truths) ∧
      router.slotOf world call = selected router.routeProgram (shownTruth walked truths) := by
  rcases newBytecodeSplitRouter_parts built with ⟨validated, subnets, decoded⟩
  rcases newBytecodeRouterCfg_ok configured with ⟨alsoValidated, ofRules, _⟩
  have tables : cfg.tables = router.tables := by
    rw [sameTables, validated] at alsoValidated
    exact (Except.ok.inj alsoValidated).symm
  have code : cfg.routeUDP = rules.route := by
    rw [ofRules, ← sameCode]
  rcases parseIPPacket_udp inside datagram srcUnmapped dstUnmapped with ⟨packet, parsed, ofFlow⟩
  rcases select_routeUDP configured (code.symm ▸ decoded) flow.network
    (udpAddrInput world.addrString flow.src flow.srcPort)
    (udpAddrInput world.addrString flow.dst flow.dstPort) with ⟨alsoAccepted, stringOps, selects⟩
  have sameFlow : SameFlow (router.context world call packet)
      (eval .dial flow.network (udpAddrInput world.addrString flow.src flow.srcPort)
        (udpAddrInput world.addrString flow.dst flow.dstPort) none stringOps) walked
      flow.srcPort flow.dstPort :=
    { noNames := noNames
      shown := ofFlow.shown
      bounds := ofFlow.bounds
      src4 := ofFlow.src4
      dst4 := ofFlow.dst4
      src := by
        change SameEndpoint _ _ packet.src flow.srcPort
        rw [ofFlow.src]
        exact sameEndpoint_udpAddr world.addrString ofFlow.lengths.1 _ _
      dst := by
        change SameEndpoint _ _ packet.dst flow.dstPort
        rw [ofFlow.dst]
        exact sameEndpoint_udpAddr world.addrString ofFlow.lengths.2 _ _
      network := ofFlow.network
      tables := RawTables.validate_onlyIPv6 validated
      subnets := subnets }
  rcases newBytecodeSplitRouter_spec built with ⟨constructed, _⟩
  rcases constructed.validated with ⟨last, checks⟩
  have sameProgram : router.routeProgram.map (router.context world call packet).reading.command =
      router.routeProgram.map (Instr.command (shownTruth walked (truth cfg.tables
        (eval .dial flow.network (udpAddrInput world.addrString flow.src flow.srcPort)
          (udpAddrInput world.addrString flow.dst flow.dstPort) none stringOps)))
        result) := by
    refine map_congr_left fun instr member => ?_
    rcases checks.forall_mem instr member with ⟨_, _, op, known, accepted, _⟩
    rcases alsoAccepted instr member with ⟨_, same, routerAccepts⟩
    cases known.symm.trans same
    rw [tables]
    exact sameFlow.command_eq known accepted routerAccepts
  refine ⟨stringOps, selects, ?_⟩
  rw [selected, ← sameProgram, slotOf, parsed]
  rfl

theorem shownTruth_true (truth : Op → ℕ → Bool) : shownTruth true truth = truth := rfl

/-- A split router and `RouteUDP` with the same tables and the same program, and without a DNS
cache, select the same slot for a UDP packet exactly when the split router walks over all the
extension headers of the packet or the slot of the program does not depend on the
predicates about UDP and ports. The packet may follow any other packets, so the caches of
the split router do not matter. -/
theorem splitRoute_eq_routeUDP_iff {Rule : Type} {rules : SplitBytecodeRules Rule}
    {router : SplitRouter} {state : SplitState}
    (built : newBytecodeSplitRouter rules = .ok (.ok (router, state)))
    {routerRules : BytecodeRules} {cfg : RouterCfg}
    (configured : newBytecodeRouterCfg routerRules = .ok cfg)
    (sameTables : routerRules.tables = rules.tables) (sameCode : routerRules.routeUDP = rules.route)
    (world : SplitWorld) {earlier : List SplitCall} {call : SplitCall}
    (noNames : ∀ other ∈ earlier ++ [call], other.names = none) {walked : Bool} {flow : UdpFlow}
    (inside : 0 ≤ call.offset)
    (datagram : UdpPacket (call.buf.drop call.offset.toNat) walked flow)
    (srcUnmapped : Unmapped flow.src) (dstUnmapped : Unmapped flow.dst) {srcIP dstIP : IP}
    (isSource : ipEqual srcIP flow.src = true)
    (isDestination : ipEqual dstIP flow.dst = true) :
    let laddr := udpAddrInput world.addrString srcIP flow.srcPort
    let raddr := udpAddrInput world.addrString dstIP flow.dstPort
    ∃ slots slot after program stringOps,
      let truths := truth cfg.tables (eval .dial flow.network laddr raddr none stringOps)
      (router.routeAll world (earlier ++ [call])).run state = .ok (slots ++ [slot], after) ∧
      decode rules.route = .ok program ∧
      cfg.select (.routeUDP flow.network laddr raddr) none = .ok (selected program truths) ∧
      (cfg.select (.routeUDP flow.network laddr raddr) none = .ok slot ↔
        walked = true ∨
          selected program (shownTruth false truths) = selected program truths) := by
  rcases newBytecodeSplitRouter_spec built with ⟨constructed, keeps⟩
  rcases Yields.mapM (fun other member => route_yields constructed world
    (noNames other member)) state (keeps _) with ⟨_, after, ran, _, rfl⟩
  rcases newBytecodeSplitRouter_parts built with ⟨_, _, decoded⟩
  dsimp only
  rw [udpAddrInput_congr _ isSource, udpAddrInput_congr _ isDestination]
  rcases slotOf_eq_selected built configured sameTables sameCode world
    (noNames call (by simp)) inside datagram srcUnmapped dstUnmapped with
    ⟨stringOps, selects, slot⟩
  refine ⟨earlier.map (router.slotOf world), router.slotOf world call, after, router.routeProgram,
    stringOps, ?_, decoded, selects, ?_⟩
  · rw [routeAll, ran, map_append, map_singleton]
  · rw [selects, slot, Except.ok.injEq, eq_comm]
    cases walked with
    | true => simp [shownTruth_true]
    | false => simp

/-- Slot 3 for what goes to port 53 of 10.0.0.0/8. -/
def nameServerCode : List UInt8 :=
  [Op.snet4.toByte, 0, 0, Op.port.toByte, 53, 0, Op.and.toByte, Op.slot.toByte, 3]

def nameServerTables : RawTables :=
  ⟨[], [], [], [⟨0x0a000000, 8⟩], [], []⟩

def nameServerSplitRules : SplitBytecodeRules Unit where
  system := some fun _ => .ok none
  rules := []
  ruleCacheTTL := 10
  ruleCacheMaxEntries := 0
  routeCacheTTL := 10
  routeCacheMaxEntries := 0
  tables := nameServerTables
  route := nameServerCode

def nameServerRules : BytecodeRules :=
  ⟨nameServerTables, [], [], [], nameServerCode, []⟩

def nameServerWorld : SplitWorld where
  clock _ := 0
  ruleOrder _ := default
  routeOrder _ := default
  addrString _ := []

/-- A query from 10.0.0.1:4660 to 10.0.0.2:53, two bytes into the buffer. -/
def nameServerCall : SplitCall where
  buf := [0, 0] ++ [0x45, 0, 0, 28, 0, 0, 0, 0, 64, 17, 0, 0, 10, 0, 0, 1, 10, 0, 0, 2] ++
    [0x12, 0x34, 0, 53, 0, 8, 0, 0]
  offset := 2
  native := false
  names := none

theorem nameServer_built :
    (∃ router state, newBytecodeSplitRouter nameServerSplitRules = .ok (.ok (router, state))) ∧
      ∃ cfg, newBytecodeRouterCfg nameServerRules = .ok cfg ∧
        cfg.select (.routeUDP (bytes "udp4") (udpAddrInput nameServerWorld.addrString
            [10, 0, 0, 1] 4660) (udpAddrInput nameServerWorld.addrString [10, 0, 0, 2] 53)) none =
          .ok 3 := by
  constructor
  · have computed : (newBytecodeSplitRouter nameServerSplitRules).toOption.any fun built =>
        built.toOption.any fun _ => true := by decide +kernel
    rcases exists_built computed with ⟨router, state, built, _⟩
    exact ⟨router, state, built⟩
  · have computed : (newBytecodeRouterCfg nameServerRules).toOption.any fun cfg =>
        cfg.select (.routeUDP (bytes "udp4") (udpAddrInput nameServerWorld.addrString
            [10, 0, 0, 1] 4660) (udpAddrInput nameServerWorld.addrString [10, 0, 0, 2] 53)) none ==
              .ok 3 := by decide +kernel
    rcases exists_of_any computed with ⟨cfg, built, computed⟩
    exact ⟨cfg, built, by simpa using computed⟩

/-- Both select slot 3 for the query, also when it comes again. -/
theorem splitRoute_nameServer :
    ∃ router state slots after,
      newBytecodeSplitRouter nameServerSplitRules = .ok (.ok (router, state)) ∧
      (router.routeAll nameServerWorld [nameServerCall, nameServerCall]).run state =
        .ok (slots ++ [3], after) := by
  rcases nameServer_built with ⟨⟨router, state, built⟩, cfg, configured, selects⟩
  have header : UdpOver4 (nameServerCall.buf.drop nameServerCall.offset.toNat) 20 :=
    ⟨by decide, by decide, by decide, by decide, by decide, by decide, by decide⟩
  have datagram : UdpPacket (nameServerCall.buf.drop nameServerCall.offset.toNat) true
      ⟨bytes "udp4", [10, 0, 0, 1], 4660, [10, 0, 0, 2], 53⟩ := .over4 header
  have noNames : ∀ other ∈ [nameServerCall] ++ [nameServerCall], other.names = none := by decide
  rcases splitRoute_eq_routeUDP_iff built configured rfl rfl nameServerWorld noNames (by decide)
      datagram (by decide) (by decide) (by decide : ipEqual [10, 0, 0, 1] [10, 0, 0, 1] = true)
      (by decide : ipEqual [10, 0, 0, 2] [10, 0, 0, 2] = true) with
    ⟨slots, slot, after, _, _, ran, _, _, same⟩
  cases selects.symm.trans (same.mpr (.inl rfl))
  exact ⟨router, state, slots, after, built, ran⟩

/-- `UDP / SLOT 3`. -/
def anyUDPCode : List UInt8 :=
  [Op.udp.toByte, Op.slot.toByte, 3]

def source6 : IP :=
  List.replicate 15 0 ++ [1]

def destination6 : IP :=
  List.replicate 15 0 ++ [2]

/-- A query from [::1]:4660 to [::2]:53 behind a Mobility header. -/
def mobilityCall : SplitCall where
  buf := [0x60, 0, 0, 0, 0, 16, 135, 64] ++ source6 ++ destination6 ++
    [17, 0, 0, 0, 0, 0, 0, 0] ++ [0x12, 0x34, 0, 53, 0, 8, 0, 0]
  offset := 0
  native := false
  names := none

/-- The split router does not find the UDP header behind the Mobility header. -/
theorem mobility_hides_udp :
    UdpPacket mobilityCall.buf false ⟨bytes "udp6", source6, 4660, destination6, 53⟩ ∧
    ((newBytecodeSplitRouter { nameServerSplitRules with route := anyUDPCode }).toOption.any
      fun built => built.toOption.any fun made =>
        ((made.1.routeAll nameServerWorld [mobilityCall]).run made.2).toOption.any fun answers =>
          answers.1 == [0]) = true ∧
    ((newBytecodeRouterCfg { nameServerRules with routeUDP := anyUDPCode }).toOption.any fun cfg =>
      cfg.select (.routeUDP (bytes "udp6") (udpAddrInput nameServerWorld.addrString source6 4660)
        (udpAddrInput nameServerWorld.addrString destination6 53)) none == .ok 3) = true := by
  have headers : LeadsToUDP (mobilityCall.buf.take (40 + wordAt mobilityCall.buf 4)) false
      (byteAt mobilityCall.buf 6) 40 48 := .mobility (.inl rfl) (by decide) (.udp 48)
  have datagram : UdpOver6 mobilityCall.buf false 48 :=
    ⟨by decide, by decide, headers, by decide⟩
  exact ⟨.over6 datagram, by decide +kernel, by decide +kernel⟩

end Gonnect.Routing
