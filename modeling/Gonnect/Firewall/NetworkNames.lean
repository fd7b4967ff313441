import Gonnect.Firewall.Config
import Gonnect.Net.IP

/-!
# Network names against packet selectors

The same policy decides about calls of a `Network`, which carry a name such as `tcp` or
`tcp6`, and about packets of a tunnel, which carry a protocol number and an address. A rule
for `tcp4` or `ip4` is compared with the name of the call and not with its address, so it
matches the packets of a `tcp` call to an IPv4 address but not the call.
-/

namespace Gonnect.Firewall

open Netip List Function

inductive Transport where
  | tcp
  | udp
deriving DecidableEq, Repr

def Transport.name : Transport → Text
  | .tcp => bytes "tcp"
  | .udp => bytes "udp"

def Transport.protocol : Transport → UInt8
  | .tcp => 6
  | .udp => 17

def familyDigit : Net.Family → Text
  | .v4 => bytes "4"
  | .v6 => bytes "6"

variable (transport : Transport) (addr : Addr)

def networkName (named : Option Net.Family) : Text :=
  transport.name ++ (named.map familyDigit).getD []

def policyNames : List Text :=
  [[], bytes "ip", bytes "ip4", bytes "ip6", bytes "tcp", bytes "tcp4", bytes "tcp6", bytes "udp",
    bytes "udp4", bytes "udp6"]

def FamilyFree (name : Text) : Prop :=
  name = [] ∨ name = bytes "ip" ∨ name = transport.name

def FamilyBound (family : Net.Family) (name : Text) : Prop :=
  name = bytes "ip" ++ familyDigit family ∨ name = transport.name ++ familyDigit family

instance (transport : Transport) (name : Text) : Decidable (FamilyFree transport name) :=
  inferInstanceAs (Decidable (_ ∨ _))

instance (transport : Transport) (family : Net.Family) (name : Text) :
    Decidable (FamilyBound transport family name) :=
  inferInstanceAs (Decidable (_ ∨ _))

def familyOf : Net.Family :=
  if (normalizeFirewallAddr addr).is4 then .v4 else .v6

theorem isValid_normalizeFirewallAddr : (normalizeFirewallAddr addr).isValid = addr.isValid := by
  rcases addr with _ | value | ⟨value, zone⟩
  · rfl
  · rfl
  · simp only [normalizeFirewallAddr, Addr.unmap]
    split_ifs <;> rfl

theorem firewallNetworkMatches_iff {name : Text} (known : name ∈ policyNames)
    (transport : Transport) (named : Option Net.Family) :
    firewallNetworkMatches name (networkName transport named) = true ↔
      FamilyFree transport name ∨ ∃ family ∈ named, FamilyBound transport family name := by
  have table : ∀ name ∈ policyNames,
      firewallNetworkMatches name (networkName transport named) = true ↔
        FamilyFree transport name ∨
          (named.any fun family => decide (FamilyBound transport family name)) = true := by
    rcases named with _ | family
    · cases transport <;> decide
    · cases transport <;> cases family <;> decide
  rw [table name known]
  cases named <;> simp

theorem ipMatches_congr {left right : CompiledRule} (version : left.ipVersion = right.ipVersion)
    (protocol : left.ipProtocol = right.ipProtocol) (known : left.matchesIP = right.matchesIP)
    (packetVersion packetProtocol : UInt8) :
    left.ipMatches packetVersion packetProtocol = right.ipMatches packetVersion packetProtocol := by
  simp [CompiledRule.ipMatches, CompiledRule.ipProtocolMatches, version, protocol, known]

def bareRule (name : Text) : CompiledRule :=
  let (ipVersion, ipProtocol, matchesIP) := compileFirewallIPSelector name
  { network := name, ipVersion, ipProtocol, matchesIP, peer := ⟨true, [], [], []⟩,
    localHost := ⟨true, [], [], []⟩, ports := [], ranges := [] }

theorem ipMatches_iff (library : Library) {rule : Rule}
    (known : normalizeFirewallNetwork library rule.network ∈ policyNames)
    (transport : Transport) (addr : Addr) :
    (compileFirewallRule library rule).ipMatches (ipVersionOf (normalizeFirewallAddr addr))
        transport.protocol = true ↔
      FamilyFree transport (normalizeFirewallNetwork library rule.network) ∨
        FamilyBound transport (familyOf addr) (normalizeFirewallNetwork library rule.network) := by
  have table : ∀ family : Net.Family, ∀ name ∈ policyNames,
      (bareRule name).ipMatches (match family with | .v4 => 4 | .v6 => 6) transport.protocol = true ↔
        FamilyFree transport name ∨ FamilyBound transport family name := by
    intro family
    cases transport <;> cases family <;> decide
  rw [← table (familyOf addr) _ known]
  have version : ipVersionOf (normalizeFirewallAddr addr) =
      match familyOf addr with | .v4 => 4 | .v6 => 6 := by
    simp only [ipVersionOf, familyOf]
    split_ifs <;> rfl
  rw [version, ipMatches_congr rfl rfl rfl]
  rfl

section Policy

variable (library : Library) (config : Config) (address : AddrPort)

def Selects (rule : Rule) : Prop :=
  (compileFirewallRule library rule).portMatches address.port = true ∧
    (compileFirewallRule library rule).peerMatches library
      ⟨[], normalizeFirewallAddr address.addr⟩ config.dnsCache = true

def Denied (names : Text → Prop) : Prop :=
  ∃ rule ∈ config.excludeRules, Selects library config address rule ∧
    names (normalizeFirewallNetwork library rule.network)

section

variable (known : ∀ rule ∈ config.excludeRules,
  normalizeFirewallNetwork library rule.network ∈ policyNames)

include known

theorem blocksOutgoingAddrPort_iff
    {network : Text} {transport : Transport} {named : Option Net.Family}
    (called : normalizeFirewallNetwork library network = networkName transport named) :
    config.blocksOutgoingAddrPort library network address = true ↔
      Denied library config address (FamilyFree transport) ∨
        ∃ family ∈ named, Denied library config address (FamilyBound transport family) := by
  simp only [Config.blocksOutgoingAddrPort, matchFirewallAddrRules, compileFirewallRules,
    any_map, any_eq_true, comp_apply, Bool.and_eq_true, called]
  constructor
  · rintro ⟨rule, member, ⟨network, port⟩, peer⟩
    rcases (firewallNetworkMatches_iff (known rule member) transport named).mp network with
      free | ⟨family, isNamed, bound⟩
    · exact .inl ⟨rule, member, ⟨port, peer⟩, free⟩
    · exact .inr ⟨family, isNamed, rule, member, ⟨port, peer⟩, bound⟩
  · rintro (⟨rule, member, ⟨port, peer⟩, free⟩ |
      ⟨family, isNamed, rule, member, ⟨port, peer⟩, bound⟩)
    · exact ⟨rule, member, ⟨(firewallNetworkMatches_iff (known rule member) transport named).mpr
        (.inl free), port⟩, peer⟩
    · exact ⟨rule, member, ⟨(firewallNetworkMatches_iff (known rule member) transport named).mpr
        (.inr ⟨family, isNamed, bound⟩), port⟩, peer⟩

theorem blocksOutgoingIP_iff (valid : address.addr.isValid = true) (transport : Transport) :
    config.blocksOutgoingIP library transport.protocol address = true ↔
      Denied library config address (FamilyFree transport) ∨
        Denied library config address (FamilyBound transport (familyOf address.addr)) := by
  have stillValid : (normalizeFirewallAddr address.addr).isValid = true := by
    rw [isValid_normalizeFirewallAddr, valid]
  simp only [Config.blocksOutgoingIP, matchFirewallIPRules, compileFirewallRules, stillValid,
    Bool.true_and, any_map, any_eq_true, comp_apply, Bool.and_eq_true]
  constructor
  · rintro ⟨rule, member, ⟨network, port⟩, peer⟩
    rcases (ipMatches_iff library (known rule member) transport address.addr).mp network with
      free | bound
    · exact .inl ⟨rule, member, ⟨port, peer⟩, free⟩
    · exact .inr ⟨rule, member, ⟨port, peer⟩, bound⟩
  · rintro (⟨rule, member, ⟨port, peer⟩, free⟩ | ⟨rule, member, ⟨port, peer⟩, bound⟩)
    · exact ⟨rule, member, ⟨(ipMatches_iff library (known rule member) transport address.addr).mpr
        (.inl free), port⟩, peer⟩
    · exact ⟨rule, member, ⟨(ipMatches_iff library (known rule member) transport address.addr).mpr
        (.inr bound), port⟩, peer⟩

/--
Both decisions are the same exactly when the call names the family of the address, or a
rule for both families denies the endpoint, or rules for the named family and for the
family of the address deny it alike.
-/
theorem blocksOutgoing_alike_iff
    (valid : address.addr.isValid = true) {network : Text} (transport : Transport)
    (named : Option Net.Family)
    (called : normalizeFirewallNetwork library network = networkName transport named) :
    config.blocksOutgoingAddrPort library network address =
        config.blocksOutgoingIP library transport.protocol address ↔
      named = some (familyOf address.addr) ∨
      Denied library config address (FamilyFree transport) ∨
      ((∃ family ∈ named, Denied library config address (FamilyBound transport family)) ↔
        Denied library config address (FamilyBound transport (familyOf address.addr))) := by
  rw [Bool.eq_iff_iff, blocksOutgoingAddrPort_iff library config address known called,
    blocksOutgoingIP_iff library config address known valid]
  constructor
  · intro alike
    by_cases free : Denied library config address (FamilyFree transport)
    · exact .inr (.inl free)
    · rw [or_iff_right free, or_iff_right free] at alike
      exact .inr (.inr alike)
  · rintro (rfl | free | alike)
    · simp
    · exact iff_of_true (.inl free) (.inl free)
    · rw [alike]

end

end Policy

def plainLibrary : Library where
  toLower text := text
  trimSpace text := text
  parseAddr _ := none
  parsePrefix _ := none
  pathMatch pattern name := some (pattern == name)

def noTCP4 : Config where
  excludeRules := [⟨bytes "tcp4", [], [], [], []⟩]
  includeRules := []
  dnsCache := none

def webEndpoint : AddrPort :=
  ⟨.v4 0xc0000201#32, 80⟩

theorem blocksOutgoing_alike_tcp4 :
    noTCP4.blocksOutgoingAddrPort plainLibrary (bytes "tcp4") webEndpoint =
      noTCP4.blocksOutgoingIP plainLibrary 6 webEndpoint :=
  (blocksOutgoing_alike_iff plainLibrary noTCP4 webEndpoint (by decide) rfl .tcp (some .v4)
    rfl).mpr (.inl rfl)

/-- The packet of a `tcp` call is denied, the call itself is not. -/
theorem tcp_call_passes_tcp4_rule :
    noTCP4.blocksOutgoingAddrPort plainLibrary (bytes "tcp") webEndpoint = false ∧
      noTCP4.blocksOutgoingIP plainLibrary 6 webEndpoint = true := by
  decide

end Gonnect.Firewall
