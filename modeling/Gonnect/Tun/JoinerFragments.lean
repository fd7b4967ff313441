import Gonnect.Tun.JoinerShared

/-!
# Later fragments at the joiner

A fragment that is not the first one has no transport header, so without a fragment route
the joiner should fall back to addresses. For such a fragment `joinerInboundFlowKey` goes on
to read the payload as an ICMP error, and the packet quoted there can name a flow.
-/

namespace Gonnect.Tun

open Checked Option RoutingStats RouteTable

/-- The payload of the packet reads as an ICMP error about a packet of the flow. -/
def JoinerPacket.QuotesFlow (packet : JoinerPacket) (key : FlowKey) : Prop :=
  (packet.protocol = joinerProtocolICMPv4 ∨ packet.protocol = joinerProtocolICMPv6) ∧
  packet.transportOffset + 8 ≤ packet.data.length ∧
  joinerICMPErrorType packet.protocol (byteAt packet.data packet.transportOffset) ∧
  ∃ quoted,
    parseJoinerPacket (packet.data.drop (packet.transportOffset + 8)) 0 = some quoted ∧
    joinerReverseFlowKey quoted = some key

variable {packet : JoinerPacket}

theorem joinerDirectFlowKey_later (later : packet.fragmentOffset ≠ 0) :
    joinerDirectFlowKey packet = none := by
  exact if_pos later

theorem joinerInboundFlowKey_later_iff {key : FlowKey} (later : packet.fragmentOffset ≠ 0) :
    joinerInboundFlowKey packet = some key ↔ packet.QuotesFlow key := by
  simp only [joinerInboundFlowKey, joinerDirectFlowKey_later later, JoinerPacket.QuotesFlow]
  by_cases icmp : packet.protocol = joinerProtocolICMPv4 ∨ packet.protocol = joinerProtocolICMPv6
  · rw [if_neg (by tauto)]
    by_cases short : packet.transportOffset + 8 > packet.data.length
    · rw [if_pos short]
      refine iff_of_false nofun ?_
      rintro ⟨-, long, -⟩
      omega
    · rw [if_neg short]
      by_cases error :
          joinerICMPErrorType packet.protocol (byteAt packet.data packet.transportOffset)
      · rw [if_neg (not_not.mpr error)]
        cases quoted : parseJoinerPacket (packet.data.drop (packet.transportOffset + 8)) 0 with
        | none => simp
        | some quoted => simp [icmp, error, Nat.le_of_not_lt short]
      · rw [if_pos error]
        refine iff_of_false nofun ?_
        rintro ⟨-, -, reported, -⟩
        exact error reported
  · rw [if_pos (by tauto)]
    refine iff_of_false nofun ?_
    rintro ⟨protocol, -⟩
    exact icmp protocol

section Routing

variable {Tun : Type} [DecidableEq Tun]

namespace Joiner

/-- What is left without a fragment route: the learned address, the default tun, a drop. The
counters move, and nothing else does. -/
def fallBack (joiner : Joiner Tun) (buf : List UInt8) (offset : ℕ) :
    Option (Nested Tun) × Joiner Tun :=
  let counted (count : RoutingStats → RoutingStats) : Joiner Tun :=
    { joiner with table := { joiner.table with routeStats := count joiner.table.routeStats } }
  match joiner.frame.addressRoute (parseJoinerPacket buf offset) buf offset with
  | some owner => (some owner, counted addAddressFallback)
  | none =>
    match joiner.frame.defaultTun with
    | some owner => (some owner, counted addDefaultFallback)
    | none => (none, counted addDroppedFallback)

omit [DecidableEq Tun] in
theorem fallBack_flowRoutes (joiner : Joiner Tun) (buf : List UInt8) (offset : ℕ) :
    (joiner.fallBack buf offset).2.table.routeStats.flowRoutes =
      joiner.table.routeStats.flowRoutes := by
  unfold fallBack
  split
  · rfl
  · split <;> rfl

omit [DecidableEq Tun] in
theorem rememberInboundFragment_later (table : RouteTable FlowKey FragmentKey (Nested Tun))
    {buf : List UInt8} {offset : ℕ} (owner : Option (Nested Tun)) (now : ℕ)
    (later : ∀ packet, parseJoinerPacket buf offset = some packet → packet.fragmentOffset ≠ 0) :
    table.rememberInboundFragment ((parseJoinerPacket buf offset).getD {}) owner now = table := by
  cases owner with
  | none => rfl
  | some owner =>
    refine if_pos ?_
    cases parsed : parseJoinerPacket buf offset with
    | none => exact .inl (by simp)
    | some packet => exact .inr (.inl (later packet parsed))

variable (joiner : Joiner Tun) {buf : List UInt8} {offset : ℕ} (now : ℕ)

section

variable (later : ∀ packet, parseJoinerPacket buf offset = some packet → packet.fragmentOffset ≠ 0)

include later

omit [DecidableEq Tun] in
theorem flowRoute_eq_none_iff :
    joiner.table.flowRoute (parseJoinerPacket buf offset) = none ↔
      ∀ packet, parseJoinerPacket buf offset = some packet → ∀ key, packet.QuotesFlow key →
        joiner.table.flows.lookup key = none := by
  cases parsed : parseJoinerPacket buf offset with
  | none => simp [flowRoute]
  | some packet =>
    simp only [Option.some.injEq, forall_eq', flowRoute, bind_some,
      ← joinerInboundFlowKey_later_iff (later packet parsed)]
    cases joinerInboundFlowKey packet <;> simp

variable (noFragment : joiner.table.fragmentRoute (parseJoinerPacket buf offset) = none)

include noFragment

omit [DecidableEq Tun] in
theorem routeSharedAddress_without_routes
    (noFlow : joiner.table.flowRoute (parseJoinerPacket buf offset) = none) :
    joiner.routeSharedAddress buf offset now = joiner.fallBack buf offset := by
  simp only [routeSharedAddress, fallBack, noFragment, noFlow]
  cases joiner.frame.addressRoute (parseJoinerPacket buf offset) buf offset with
  | some owner => simp only [rememberInboundFragment_later _ _ now later]
  | none =>
    cases joiner.frame.defaultTun with
    | some owner => simp only [rememberInboundFragment_later _ _ now later]
    | none => simp only

theorem routeSharedAddress_by_flow {route : Ref}
    (flow : joiner.table.flowRoute (parseJoinerPacket buf offset) = some route) :
    (joiner.routeSharedAddress buf offset now).2.table.routeStats.flowRoutes =
      joiner.table.routeStats.flowRoutes + 1 := by
  simp only [routeSharedAddress, noFragment, flow, rememberInboundFragment_later _ _ now later]
  rw [touched_eq]
  rfl

end

/-- In shared-address mode, a later fragment without a fragment route falls back to the
learned addresses exactly when its payload does not read as an ICMP error about a flow of
the table. -/
theorem later_fragment_falls_back_iff (shared : joiner.frame.flowRouting = true)
    (later : ∀ packet, parseJoinerPacket buf offset = some packet → packet.fragmentOffset ≠ 0)
    (noFragment : joiner.table.fragmentRoute (parseJoinerPacket buf offset) = none) :
    joiner.route buf offset now = joiner.fallBack buf offset ↔
      ∀ packet, parseJoinerPacket buf offset = some packet → ∀ key, packet.QuotesFlow key →
        joiner.table.flows.lookup key = none := by
  have routed : joiner.route buf offset now = joiner.routeSharedAddress buf offset now :=
    if_pos shared
  rw [← flowRoute_eq_none_iff joiner later, routed]
  refine ⟨fun fallen => ?_, routeSharedAddress_without_routes joiner now later noFragment⟩
  cases flow : joiner.table.flowRoute (parseJoinerPacket buf offset) with
  | none => rfl
  | some route =>
    -- a flow route moves a counter that the fallback leaves alone
    have moved := routeSharedAddress_by_flow joiner now later noFragment flow
    rw [fallen, fallBack_flowRoutes] at moved
    omega

end Joiner

end Routing

/-- A later fragment of an ICMP message, from a host nobody knows to another one. Its payload
is arbitrary data that starts like an ICMP error. -/
def icmpLaterFragment : List UInt8 :=
  [0x45, 0, 0, 56, 0, 9, 0, 5, 64, 1, 0, 0, 10, 0, 0, 7, 10, 0, 0, 8,
    3, 0, 0, 0, 0, 0, 0, 0] ++ udpPacket 1 2 10 20 0

/-- A joiner whose only secondary tun has sent one datagram. -/
def learnedJoiner : Joiner ℕ :=
  ((Joiner.new ⟨true, 0, 0⟩ true).run
    [.attachSecondary (some 0), .learn [udpPacket 1 2 10 20 0] ⟨0, 0⟩ 5]).2

theorem later_fragment_falls_back_once :
    (learnedJoiner.route (udpPacket 1 2 10 20 9) 0 6).1 = none ∧
    learnedJoiner.route (udpPacket 1 2 10 20 9) 0 6 =
      learnedJoiner.fallBack (udpPacket 1 2 10 20 9) 0 := by
  have later : ∀ packet, parseJoinerPacket (udpPacket 1 2 10 20 9) 0 = some packet →
      packet.fragmentOffset ≠ 0 := by
    have offset : ((parseJoinerPacket (udpPacket 1 2 10 20 9) 0).map (·.fragmentOffset)) =
        some 2304 := by decide +kernel
    intro packet parsed
    simp only [parsed, map_some, Option.some.injEq] at offset
    omega
  refine ⟨by decide +kernel, (Joiner.later_fragment_falls_back_iff learnedJoiner 6
    (by decide +kernel) later (by decide +kernel)).mpr ?_⟩
  intro packet parsed key quotes
  have protocol : ((parseJoinerPacket (udpPacket 1 2 10 20 9) 0).map (·.protocol)) =
      some 17 := by decide +kernel
  simp only [parsed, map_some, Option.some.injEq] at protocol
  rcases quotes with ⟨icmp, -⟩
  simp [protocol, joinerProtocolICMPv4, joinerProtocolICMPv6] at icmp

/-- The fragment is delivered to the tun whose flow its payload happens to quote, and the
flow is refreshed; by its addresses it would have been dropped. -/
theorem later_fragment_takes_flow :
    (parseJoinerPacket icmpLaterFragment 0).map (·.fragmentOffset) = some 5 ∧
    learnedJoiner.table.fragmentRoute (parseJoinerPacket icmpLaterFragment 0) = none ∧
    (learnedJoiner.fallBack icmpLaterFragment 0).1 = none ∧
    (learnedJoiner.route icmpLaterFragment 0 6).1 = some ⟨0, 0⟩ ∧
    (learnedJoiner.route icmpLaterFragment 0 6).2.table.routeStats.flowRoutes = 1 := by
  decide +kernel

end Gonnect.Tun
