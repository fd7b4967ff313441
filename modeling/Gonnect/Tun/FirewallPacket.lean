import Gonnect.Routing.PacketFlow

/-!
# The packets of the TUN firewall

The firewall reads the flow of a packet with a parser of its own: `parseFirewallPacket`
accepts more than the parsers of split routing, because a flow without ports is a flow
here. Where the parser of the split router notes a flow, the three parsers agree on it.
-/

namespace Gonnect.Tun

open Checked Netip Routing List

structure FirewallFlow where
  version : UInt8
  proto : UInt8
  src : Addr
  dst : Addr
  srcPort : ℕ
  dstPort : ℕ
deriving DecidableEq

namespace FirewallFlow

def reverse (flow : FirewallFlow) : FirewallFlow where
  version := flow.version
  proto := flow.proto
  src := flow.dst
  dst := flow.src
  srcPort := flow.dstPort
  dstPort := flow.srcPort

end FirewallFlow

def firewallTransportPorts (proto : UInt8) (payload : List UInt8) : Checked (ℕ × ℕ) :=
  if (proto ≠ 6 ∧ proto ≠ 17) ∨ payload.length < 4 then
    pure (0, 0)
  else do
    let srcPort ← window payload 0 2 >>= beUint16
    let dstPort ← window payload 2 4 >>= beUint16
    pure (srcPort, dstPort)

section

variable (packet : List UInt8)

def parseFirewallIPv4 : Checked (Option FirewallFlow) :=
  if packet.length < 20 then
    pure none
  else do
    let headerLen := 4 * ((← index packet 0) &&& 0x0f).toNat
    let totalLen ← window packet 2 4 >>= beUint16
    if headerLen < 20 ∨ headerLen > packet.length ∨ totalLen < headerLen ∨
        totalLen > packet.length then
      pure none
    else do
      let src ← window packet 12 16
      let dst ← window packet 16 20
      let proto ← index packet 9
      let fragment ← window packet 6 8 >>= beUint16
      let flow : FirewallFlow :=
        { version := 4
          proto := proto
          src := (addrFrom4 src).unmap
          dst := (addrFrom4 dst).unmap
          srcPort := 0
          dstPort := 0 }
      if fragment &&& 0x1fff = 0 then do
        let payload ← window packet headerLen totalLen
        let (srcPort, dstPort) ← firewallTransportPorts proto payload
        pure (some { flow with srcPort, dstPort })
      else
        pure (some flow)

/-- The loop of `ipv6TransportOffset`: where the transport header starts, and its protocol. -/
def ipv6TransportLoop (packet : List UInt8) (next : UInt8) (offset : ℕ) :
    Checked (Option (ℕ × UInt8)) :=
  if next = 0 ∨ next = 43 ∨ next = 60 then
    if offset + 2 > packet.length then
      pure none
    else do
      let length := 8 * ((← index packet (offset + 1)).toNat + 1)
      if length < 8 ∨ offset + length > packet.length then
        pure none
      else do
        let next ← index packet offset
        ipv6TransportLoop packet next (offset + length)
  else if next = 44 then
    if offset + 8 > packet.length then
      pure none
    else do
      let fragment ← window packet (offset + 2) (offset + 4) >>= beUint16
      let next ← index packet offset
      if fragment >>> 3 ≠ 0 then
        pure (some (packet.length, next))
      else
        ipv6TransportLoop packet next (offset + 8)
  else if next = 51 then
    if offset + 2 > packet.length then
      pure none
    else do
      let length := 4 * ((← index packet (offset + 1)).toNat + 2)
      if length < 8 ∨ offset + length > packet.length then
        pure none
      else do
        let next ← index packet offset
        ipv6TransportLoop packet next (offset + length)
  else
    pure (if offset ≤ packet.length then some (offset, next) else none)
termination_by packet.length - offset

def ipv6TransportOffset : Checked (Option (ℕ × UInt8)) :=
  if packet.length < 40 then
    pure none
  else do
    let next ← index packet 6
    ipv6TransportLoop packet next 40

def parseFirewallIPv6 : Checked (Option FirewallFlow) :=
  if packet.length < 40 then
    pure none
  else do
    let payloadLen ← window packet 4 6 >>= beUint16
    if payloadLen ≠ 0 ∧ 40 + payloadLen > packet.length then
      pure none
    else do
      let src ← window packet 8 24
      let dst ← window packet 24 40
      match ← ipv6TransportOffset packet with
      | none => pure none
      | some (offset, proto) => do
          let payload ← windowFrom packet offset
          let (srcPort, dstPort) ← firewallTransportPorts proto payload
          pure (some
            { version := 6
              proto := proto
              src := addrFrom16 src
              dst := addrFrom16 dst
              srcPort := srcPort
              dstPort := dstPort })

def parseFirewallPacket : Checked (Option FirewallFlow) :=
  if packet.length = 0 then
    pure none
  else do
    let version := (← index packet 0) >>> 4
    if version = 4 then
      parseFirewallIPv4 packet
    else if version = 6 then
      parseFirewallIPv6 packet
    else
      pure none

theorem firewallTransportPorts_safe (proto : UInt8) (payload : List UInt8) :
    Safe (firewallTransportPorts proto payload) := by
  apply Safe.guard
  intro present
  rw [window_uint16 rfl (by omega), window_uint16 rfl (by omega)]
  exact safe_ok _

include packet

theorem ipv6TransportLoop_ok (next : UInt8) (offset : ℕ) :
    ∃ found, ipv6TransportLoop packet next offset = .ok found ∧
      ∀ start proto, found = some (start, proto) → start ≤ packet.length := by
  have nothing : ∃ found, (pure none : Checked (Option (ℕ × UInt8))) = .ok found ∧
      ∀ start proto, found = some (start, proto) → start ≤ packet.length :=
    ⟨none, rfl, fun _ _ absent => by cases absent⟩
  induction measure : packet.length - offset using Nat.strong_induction_on
    generalizing next offset with
  | _ remaining ih =>
    have further : ∀ later header, offset < later → offset < packet.length →
        ∃ found, ipv6TransportLoop packet header later = .ok found ∧
          ∀ start proto, found = some (start, proto) → start ≤ packet.length := by
      intro later header forward inside
      exact ih _ (by omega) header later rfl
    unfold ipv6TransportLoop
    split_ifs with options short fragment short authentication short inside
    · exact nothing
    · simp (disch := omega) only [index_eq_byteAt, ok_bind]
      split_ifs
      · exact nothing
      · exact further _ _ (by omega) (by omega)
    · exact nothing
    · simp (disch := omega) only [index_eq_byteAt, window_uint16, ok_bind]
      split_ifs
      · refine ⟨_, rfl, ?_⟩
        rintro start proto ⟨⟩
        exact le_refl _
      · exact further _ _ (by omega) (by omega)
    · exact nothing
    · simp (disch := omega) only [index_eq_byteAt, ok_bind]
      split_ifs
      · exact nothing
      · exact further _ _ (by omega) (by omega)
    · refine ⟨_, rfl, ?_⟩
      rintro start proto ⟨⟩
      exact inside
    · exact nothing

theorem ipv6TransportOffset_ok :
    ∃ found, ipv6TransportOffset packet = .ok found ∧
      ∀ start proto, found = some (start, proto) → start ≤ packet.length := by
  unfold ipv6TransportOffset
  split_ifs with short
  · exact ⟨none, rfl, fun _ _ absent => by cases absent⟩
  · rw [index_eq_byteAt (by omega), ok_bind]
    exact ipv6TransportLoop_ok _ _ _

theorem parseFirewallIPv4_safe : Safe (parseFirewallIPv4 packet) := by
  apply Safe.guard
  intro enough
  rw [index_eq_byteAt (by omega), ok_bind, window_uint16 rfl (by omega), ok_bind]
  apply Safe.guard
  intro lengths
  simp only [not_or, not_lt] at lengths
  simp (disch := omega) only [index_eq_byteAt, window_uint16, ok_bind]
  simp (disch := omega) only [window_eq_ok, ok_bind]
  apply Safe.ite
  · intro _
    exact Safe.map (firewallTransportPorts_safe _ _)
  · intro _
    exact safe_ok _

theorem parseFirewallIPv6_safe : Safe (parseFirewallIPv6 packet) := by
  rcases ipv6TransportOffset_ok packet with ⟨found, walked, inside⟩
  apply Safe.guard
  intro enough
  rw [window_uint16 rfl (by omega), ok_bind]
  apply Safe.skip
  simp (disch := omega) only [window_eq_ok, ok_bind, walked]
  rcases found with _ | ⟨start, proto⟩
  · exact safe_ok _
  · apply Safe.readFrom ?_ (inside start proto rfl)
    intro payload _
    exact Safe.map (firewallTransportPorts_safe _ _)

theorem parseFirewallPacket_safe : Safe (parseFirewallPacket packet) := by
  apply Safe.guard
  intro nonempty
  apply Safe.readAt ?_
  intro first
  apply Safe.ite
  · intro _
    exact parseFirewallIPv4_safe packet
  · intro _
    apply Safe.ite
    · intro _
      exact parseFirewallIPv6_safe packet
    · intro _
      exact safe_ok _

end

variable {pkt : List UInt8} {packet : ParsedIPPacket}

theorem firewallTransportPorts_eq {proto : UInt8} {start : ℕ} (transport : proto = 6 ∨ proto = 17)
    (inside : start + 4 ≤ pkt.length) :
    firewallTransportPorts proto (pkt.drop start) =
      .ok (wordAt pkt start, wordAt pkt (start + 2)) := by
  have length : (pkt.drop start).length = pkt.length - start := length_drop
  have present : ¬((proto ≠ 6 ∧ proto ≠ 17) ∨ (pkt.drop start).length < 4) := by
    rw [not_or]
    exact ⟨by tauto, by omega⟩
  rw [firewallTransportPorts, if_neg present]
  simp (disch := omega) [window_uint16, ok_bind, wordAt_drop]

/-- What a packet holds of the transport header: the ports, only the number of a protocol (a
later fragment holds that of what was fragmented), or nothing. -/
inductive Holds where
  | ports
  | portless (next : UInt8)
  | nothing

def Holds.read (flow : FirewallFlow) : Holds → Option FirewallFlow
  | .ports => some flow
  | .portless next => some { flow with proto := next, srcPort := 0, dstPort := 0 }
  | .nothing => none

section Parts

variable (flow : FirewallFlow) (packet : List UInt8)

inductive TransportAt (start : ℕ) : Holds → Prop
  | ports (inside : start + 4 ≤ packet.length) (srcPort : wordAt packet start = flow.srcPort)
      (dstPort : wordAt packet (start + 2) = flow.dstPort) : TransportAt start .ports
  | cut (inside : start ≤ packet.length) (short : packet.length < start + 4) :
      TransportAt start (.portless flow.proto)

def extensionLength (next : UInt8) (start : ℕ) : ℕ :=
  if next = 44 then 8
  else if next = 51 then 4 * ((byteAt packet (start + 1)).toNat + 2)
  else 8 * ((byteAt packet (start + 1)).toNat + 1)

/-- The headers of an IPv6 packet from an offset on lead to the transport header, to that of a
later fragment, or out of the packet. -/
inductive LeadsTo : Holds → UInt8 → ℕ → Prop
  | transport {start : ℕ} {holds : Holds} (here : TransportAt flow packet start holds) :
      LeadsTo holds flow.proto start
  | later {start : ℕ} (fits : start + 8 ≤ packet.length)
      (offset : wordAt packet (start + 2) >>> 3 ≠ 0) :
      LeadsTo (.portless (byteAt packet start)) 44 start
  | extension {next : UInt8} {start : ℕ} {holds : Holds}
      (known : next ∈ [0, 43, 44, 51, 60])
      (first : next = 44 → wordAt packet (start + 2) >>> 3 = 0)
      (fits : start + extensionLength packet next start ≤ packet.length)
      (rest : LeadsTo holds (byteAt packet start) (start + extensionLength packet next start)) :
      LeadsTo holds next start
  | cut {next : UInt8} {start : ℕ} (known : next ∈ [0, 43, 44, 51, 60])
      (short : packet.length < start + extensionLength packet next start) :
      LeadsTo .nothing next start

/-- A packet of a flow, whole or a fragment, by its bytes. -/
inductive PartOf (holds : Holds) : Prop
  | over4 (version : flow.version = 4) (four : byteAt packet 0 >>> 4 = 4)
      (shortest : 20 ≤ 4 * (byteAt packet 0 &&& 0x0f).toNat)
      (ordered : 4 * (byteAt packet 0 &&& 0x0f).toNat ≤ packet.length)
      (whole : wordAt packet 2 = packet.length) (proto : byteAt packet 9 = flow.proto)
      (src : flow.src = addrFrom4 ((packet.take 16).drop 12))
      (dst : flow.dst = addrFrom4 ((packet.take 20).drop 16))
      (payload : if wordAt packet 6 &&& 0x1fff = 0 then
        TransportAt flow packet (4 * (byteAt packet 0 &&& 0x0f).toNat) holds
        else holds = .portless flow.proto)
  | over6 (version : flow.version = 6) (six : byteAt packet 0 >>> 4 = 6)
      (fixed : 40 ≤ packet.length)
      (whole : wordAt packet 4 = 0 ∨ 40 + wordAt packet 4 = packet.length)
      (src : flow.src = addrFrom16 ((packet.take 24).drop 8))
      (dst : flow.dst = addrFrom16 ((packet.take 40).drop 24))
      (payload : LeadsTo flow packet holds (byteAt packet 6) 40) (other : holds ≠ .portless 58)

def Finds (found : Checked (Option (ℕ × UInt8))) : Option FirewallFlow → Prop
  | none => found = .ok none
  | some read => ∃ offset ≤ packet.length, found = .ok (some (offset, read.proto)) ∧
      firewallTransportPorts read.proto (packet.drop offset) = .ok (read.srcPort, read.dstPort)

variable {flow packet} {holds : Holds} {next : UInt8} {start : ℕ}

theorem TransportAt.reads (transport : flow.proto = 6 ∨ flow.proto = 17)
    (here : TransportAt flow packet start holds) :
    ∃ read, holds.read flow = some read ∧ read.proto = flow.proto ∧
      firewallTransportPorts flow.proto (packet.drop start) =
        .ok (read.srcPort, read.dstPort) := by
  cases here with
  | ports inside srcPort dstPort =>
    refine ⟨flow, rfl, rfl, ?_⟩
    rw [firewallTransportPorts_eq transport inside, srcPort, dstPort]
  | cut inside short =>
    exact ⟨_, rfl, rfl, if_pos (.inr (by rw [length_drop]; omega))⟩

theorem ipv6TransportLoop_extension (known : next ∈ [0, 43, 44, 51, 60])
    (first : next = 44 → start + 8 ≤ packet.length → wordAt packet (start + 2) >>> 3 = 0) :
    ipv6TransportLoop packet next start =
      if packet.length < start + extensionLength packet next start then .ok none
      else ipv6TransportLoop packet (byteAt packet start)
        (start + extensionLength packet next start) := by
  have walks : ∀ length : UInt8 → ℕ, (∀ byte, 8 ≤ length byte) →
      (if start + 2 > packet.length then pure none else do
        let count := length (← index packet (start + 1))
        if count < 8 ∨ start + count > packet.length then pure none else do
          let next ← index packet start
          ipv6TransportLoop packet next (start + count)) =
      if packet.length < start + length (byteAt packet (start + 1)) then .ok none
      else ipv6TransportLoop packet (byteAt packet start)
        (start + length (byteAt packet (start + 1))) := by
    intro length least
    have enough := least (byteAt packet (start + 1))
    by_cases short : start + 2 > packet.length
    · rw [if_pos short, if_pos (by omega)]
      rfl
    · rw [if_neg short, index_eq_byteAt (by omega), ok_bind]
      by_cases long : packet.length < start + length (byteAt packet (start + 1))
      · rw [if_pos (.inr long), if_pos long]
        rfl
      · rw [if_neg (by omega), index_eq_byteAt (by omega), ok_bind, if_neg long]
  rw [ipv6TransportLoop]
  simp only [mem_cons, not_mem_nil, or_false] at known
  rcases known with rfl | rfl | rfl | rfl | rfl
  · exact walks (fun byte => 8 * (byte.toNat + 1)) fun byte => by omega
  · exact walks (fun byte => 8 * (byte.toNat + 1)) fun byte => by omega
  · rw [if_neg (by decide), if_pos rfl]
    change _ = if packet.length < start + 8 then _ else ipv6TransportLoop packet _ (start + 8)
    split_ifs with short
    · rfl
    · rw [window_uint16 rfl (by omega), ok_bind, index_eq_byteAt (by omega), ok_bind,
        if_neg (not_not.mpr (first rfl (by omega)))]
  · exact walks (fun byte => 4 * (byte.toNat + 2)) fun byte => by omega
  · exact walks (fun byte => 8 * (byte.toNat + 1)) fun byte => by omega

theorem LeadsTo.finds (transport : flow.proto = 6 ∨ flow.proto = 17)
    (leads : LeadsTo flow packet holds next start) :
    Finds packet (ipv6TransportLoop packet next start) (holds.read flow) := by
  induction leads with
  | @transport start _ here =>
    have inside : start ≤ packet.length := by
      cases here <;> omega
    rcases here.reads transport with ⟨read, isRead, same, ports⟩
    rw [isRead]
    refine ⟨start, inside, ?_, same ▸ ports⟩
    rw [same, ipv6TransportLoop]
    rcases transport with proto | proto <;> simp [proto, inside]
  | later fits offset =>
    refine ⟨packet.length, le_rfl, ?_, by simp [firewallTransportPorts]⟩
    rw [ipv6TransportLoop, if_neg (by decide), if_pos rfl, if_neg (by omega),
      window_uint16 rfl (by omega), ok_bind, index_eq_byteAt (by omega), ok_bind, if_pos offset]
    rfl
  | extension known first fits _ ih =>
    rw [ipv6TransportLoop_extension known fun fragment _ => first fragment, if_neg (by omega)]
    exact ih
  | cut known short =>
    rw [ipv6TransportLoop_extension known, if_pos short]
    · rfl
    · rintro rfl fits
      exact absurd short (Nat.not_lt.mpr fits)

theorem Holds.read_eq {read : FirewallFlow} (isRead : holds.read flow = some read) :
    read = ⟨flow.version, read.proto, flow.src, flow.dst, read.srcPort, read.dstPort⟩ := by
  cases holds <;> cases isRead <;> rfl

theorem PartOf.parsed (transport : flow.proto = 6 ∨ flow.proto = 17)
    (part : PartOf flow packet holds) : parseFirewallPacket packet = .ok (holds.read flow) := by
  cases part with
  | over4 version four shortest ordered whole proto src dst payload =>
    rw [parseFirewallPacket, if_neg (by omega), index_eq_byteAt (by omega), ok_bind, if_pos four,
      parseFirewallIPv4]
    simp (disch := omega) only [if_neg, index_eq_byteAt, window_uint16, ok_bind, whole, proto]
    simp (disch := omega) only [window_eq_ok, ok_bind, take_length]
    split_ifs at payload ⊢ with first
    · rcases payload.reads transport with ⟨read, isRead, same, ports⟩
      rw [ports, ok_bind, isRead, Holds.read_eq isRead, same, version, src, dst]
      rfl
    · rw [payload, Holds.read, version, src, dst]
      rfl
  | over6 version six fixed whole src dst payload _ =>
    have found := payload.finds transport
    rw [parseFirewallPacket, if_neg (by omega), index_eq_byteAt (by omega), ok_bind,
      if_neg (by simp [six]), if_pos six, parseFirewallIPv6]
    simp (disch := omega) only [if_neg, window_uint16, ok_bind, ipv6TransportOffset, index_eq_byteAt]
    simp (disch := omega) only [window_eq_ok, ok_bind]
    cases isRead : holds.read flow with
    | none =>
      rw [isRead] at found
      rw [found]
      rfl
    | some read =>
      rw [isRead] at found
      rcases found with ⟨offset, inside, found, ports⟩
      rw [found, ok_bind]
      dsimp only
      rw [windowFrom_eq_ok inside, ok_bind, ports, ok_bind, Holds.read_eq isRead, version, src, dst]
      rfl

theorem LeadsTo.of_skip {offset : ℕ} (here : TransportAt flow packet offset holds) (next : UInt8)
    (start : ℕ)
    (skipped : skipIPv6ExtHeaders packet next start = .ok (some (flow.proto, offset, true))) :
    LeadsTo flow packet holds next start := by
  induction measure : packet.length - start using Nat.strong_induction_on
    generalizing next start with
  | _ remaining ih =>
    have further (known : next ∈ [0, 43, 44, 51, 60])
        (first : next = 44 → wordAt packet (start + 2) >>> 3 = 0)
        (fits : start + extensionLength packet next start ≤ packet.length)
        (rest : skipIPv6ExtHeaders packet (byteAt packet start)
          (start + extensionLength packet next start) = .ok (some (flow.proto, offset, true))) :
        LeadsTo flow packet holds next start := by
      have forward : 0 < extensionLength packet next start := by
        unfold extensionLength
        split_ifs <;> omega
      exact .extension known first fits (ih _ (by omega) _ _ rest rfl)
    unfold skipIPv6ExtHeaders at skipped
    split_ifs at skipped with options short fragment short authentication short
    · cases skipped
    · simp (disch := omega) only [index_eq_byteAt, ok_bind] at skipped
      split_ifs at skipped with outside
      · cases skipped
      · rcases options with rfl | rfl | rfl
        all_goals exact further (by simp) (by simp) (Nat.le_of_not_lt outside) skipped
    · cases skipped
    · simp (disch := omega) only [index_eq_byteAt, window_uint16, ok_bind] at skipped
      split_ifs at skipped with later
      · simp at skipped
      · have first := shiftRight_eq_zero_of_mask (wordAt_lt packet (start + 2)) (not_not.mp later)
        subst fragment
        exact further (by simp) (fun _ => first) (Nat.le_of_not_lt short) skipped
    · cases skipped
    · simp (disch := omega) only [index_eq_byteAt, ok_bind] at skipped
      split_ifs at skipped with outside
      · cases skipped
      · subst authentication
        exact further (by simp) (by simp) (Nat.le_of_not_lt outside) skipped
    · cases skipped
      exact .transport here

end Parts

def ofParsed (version : UInt8) (packet : ParsedIPPacket) : FirewallFlow where
  version := version
  proto := packet.proto
  src := packet.src
  dst := packet.dst
  srcPort := packet.srcPort
  dstPort := packet.dstPort

theorem TransportAt.of_complete {flow : FirewallFlow} {start : ℕ}
    (complete : TransportComplete pkt flow.proto start) (srcPort : flow.srcPort = wordAt pkt start)
    (dstPort : flow.dstPort = wordAt pkt (start + 2)) : TransportAt flow pkt start .ports := by
  refine .ports ?_ srcPort.symm dstPort.symm
  rcases complete with ⟨_, fits, _⟩ | ⟨_, fits⟩ <;> omega

theorem partOf_of_header4 (four : byteAt pkt 0 >>> 4 = 4) (header : packet.Header4 pkt)
    (noted : packet.flowOK = true) :
    PartOf (ofParsed 4 packet) (pkt.take packet.total) .ports := by
  have shortest := header.shortest
  have ordered := header.ordered
  have whole := length_take_of_le header.inside
  rcases header.flow noted with ⟨first, complete, srcPort, dstPort⟩
  have zero : byteAt (pkt.take packet.total) 0 = byteAt pkt 0 := byteAt_take (by omega)
  have fragment : wordAt (pkt.take packet.total) 6 &&& 0x1fff = 0 := by
    rw [wordAt_take (by omega)]
    exact first
  refine .over4 rfl (zero ▸ four) (zero ▸ shortest) (by rwa [zero, whole]) ?_ ?_ ?_ ?_ ?_
  · rw [wordAt_take (by omega), whole, header.total]
  · exact (byteAt_take (by omega)).trans header.proto.symm
  · rw [take_take, min_eq_left (by omega)]
    exact header.src
  · rw [take_take, min_eq_left (by omega)]
    exact header.dst
  · rw [if_pos fragment, zero]
    exact .of_complete complete srcPort dstPort

theorem partOf_of_header6 (six : byteAt pkt 0 >>> 4 = 6) (header : packet.Header6 pkt)
    (noted : packet.flowOK = true) :
    PartOf (ofParsed 6 packet) (pkt.take packet.total) .ports := by
  have total := header.total
  have whole := length_take_of_le header.inside
  rcases header.flow noted with ⟨start, skipped, complete, srcPort, dstPort⟩
  refine .over6 rfl ?_ (by omega) (.inr ?_) ?_ ?_ ?_ nofun
  · rwa [byteAt_take (by omega)]
  · rw [wordAt_take (by omega), whole, total]
  · rw [take_take, min_eq_left (by omega)]
    exact header.src
  · rw [take_take, min_eq_left (by omega)]
    exact header.dst
  · rw [byteAt_take (by omega)]
    exact .of_skip (.of_complete complete srcPort dstPort) _ _ skipped

variable {buf : List UInt8} {offset : ℤ}

theorem transport_of_flowOK (parsed : parseIPPacket buf offset = .ok (some packet))
    (noted : packet.flowOK = true) : packet.proto = 6 ∨ packet.proto = 17 := by
  rcases header_of_parse parsed with ⟨_, _, ⟨_, header, _⟩ | ⟨_, header, _⟩⟩
  · rcases header.flow noted with ⟨_, ⟨tcp, _⟩ | ⟨udp, _⟩, _⟩
    · exact .inl tcp
    · exact .inr udp
  · rcases header.flow noted with ⟨_, _, ⟨tcp, _⟩ | ⟨udp, _⟩, _⟩
    · exact .inl tcp
    · exact .inr udp

theorem parseFirewallPacket_of_parse (parsed : parseIPPacket buf offset = .ok (some packet))
    (noted : packet.flowOK = true) :
    ∃ version, parseFirewallPacket ((buf.drop offset.toNat).take packet.total) =
      .ok (some (ofParsed version packet)) := by
  have transport := transport_of_flowOK parsed noted
  rcases header_of_parse parsed with ⟨_, _, ⟨four, header, _⟩ | ⟨six, header, _⟩⟩
  · exact ⟨4, (partOf_of_header4 four header noted).parsed transport⟩
  · exact ⟨6, (partOf_of_header6 six header noted).parsed transport⟩

/-- When the parser of the split router notes a flow, the parser of package `sockowner` and
the parser of the firewall succeed on the bytes of the packet, with the same protocol,
addresses and ports. -/
theorem packet_parsers_agree {buf : List UInt8} {offset : ℤ} {packet : ParsedIPPacket}
    (parsed : parseIPPacket buf offset = .ok (some packet)) (noted : packet.flowOK = true) :
    let bytes := (buf.drop offset.toNat).take packet.total
    ∃ tuple flow, flowTupleFromOutgoingIPPacket bytes = .ok (.ok tuple) ∧
      parseFirewallPacket bytes = .ok (some flow) ∧
      (packet.proto = 6 ∧ tuple.proto = .tcp ∨ packet.proto = 17 ∧ tuple.proto = .udp) ∧
      (tuple.localIP = packet.src.asSlice ∧ tuple.localPort = packet.srcPort) ∧
      (tuple.remoteIP = packet.dst.asSlice ∧ tuple.remotePort = packet.dstPort) ∧
      flow.proto = packet.proto ∧
      (flow.src = packet.src ∧ flow.srcPort = packet.srcPort) ∧
      (flow.dst = packet.dst ∧ flow.dstPort = packet.dstPort) := by
  have tuple := (header_of_parse parsed).parsedAt.flow noted
  rw [← take_drop] at tuple
  rcases parseFirewallPacket_of_parse parsed noted with ⟨version, read⟩
  refine ⟨packet.flow, ofParsed version packet, tuple, read, ?_, ⟨rfl, rfl⟩, ⟨rfl, rfl⟩, rfl,
    ⟨rfl, rfl⟩, rfl, rfl⟩
  rcases transport_of_flowOK parsed noted with tcp | udp
  · exact .inl ⟨tcp, by simp [ParsedIPPacket.flow, tcp]⟩
  · exact .inr ⟨udp, by simp [ParsedIPPacket.flow, udp]⟩

/-- A UDP datagram from 10.0.0.1:4660 to 10.0.0.2:53, two bytes into the buffer. -/
def datagramBuffer : List UInt8 :=
  [0, 0] ++ [0x45, 0, 0, 28, 0, 0, 0, 0, 64, 17, 0, 0, 10, 0, 0, 1, 10, 0, 0, 2] ++
    [0x12, 0x34, 0, 53, 0, 8, 0, 0]

theorem packet_parsers_agree_datagram :
    ∃ flow, parseFirewallPacket ((datagramBuffer.drop 2).take 28) = .ok (some flow) ∧
      flow.dstPort = 53 := by
  have parsed : parseIPPacket datagramBuffer 2 =
      .ok (some ⟨.v4 0x0a000001, .v4 0x0a000002, 0x0a000001, 0x0a000002, 17, 28, 4660, 53, true,
        true, 20⟩) := by
    decide +kernel
  rcases packet_parsers_agree parsed rfl with ⟨_, flow, _, read, _, _, _, _, _, _, dstPort⟩
  exact ⟨flow, read, dstPort⟩

end Gonnect.Tun
