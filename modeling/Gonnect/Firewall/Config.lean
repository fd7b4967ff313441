import Gonnect.Foundation.Text
import Gonnect.Net.Addr
import Mathlib.Data.List.DropRight

/-!
# Firewall policies

A policy is a list of rules that deny outgoing traffic and a list of rules that allow
incoming traffic. The rules are compiled once: hosts are sorted into addresses, prefixes and
name patterns, and the network name becomes a version and a protocol.

The text matcher gets a network name and a host, the address matcher a network name and an
address, and the packet matcher the protocol number of an IP packet and an address.
-/

namespace Gonnect.Firewall

open Netip

structure Library where
  toLower : Text → Text
  trimSpace : Text → Text
  parseAddr : Text → Option Addr
  parsePrefix : Text → Option Prefix
  /-- `path.Match`, with nothing for a malformed pattern -/
  pathMatch : Text → Text → Option Bool

structure PortRange where
  first : UInt16
  last : UInt16
deriving DecidableEq, Repr

structure Rule where
  network : Text
  hosts : List Text
  localHosts : List Text
  ports : List UInt16
  portRanges : List PortRange
deriving DecidableEq, Repr

/-- `FirewallDNSCache.ReverseDNSNames` at the time of a decision, if there is a cache. -/
abbrev DNSCache := Option (Addr → List Text)

structure Config where
  excludeRules : List Rule
  includeRules : List Rule
  dnsCache : DNSCache

structure HostSelector where
  any : Bool
  hosts : List Text
  addrs : List Addr
  prefixes : List Prefix

structure CompiledRule where
  network : Text
  ipVersion : UInt8
  ipProtocol : UInt16
  matchesIP : Bool
  peer : HostSelector
  localHost : HostSelector
  ports : List UInt16
  ranges : List PortRange

def anyFirewallIPProtocol : UInt16 := 256

def icmpFirewallIPProtocol : UInt16 := 257

variable (text : Text) (addr : Addr) (subnet : Netip.Prefix)

def trimBrackets : Text :=
  (text.dropWhile fun byte => byte == 91 || byte == 93).rdropWhile
    fun byte => byte == 91 || byte == 93

def cutZone : Text :=
  text.takeWhile (· != 37)

/-- `netip.PrefixFrom` for an address without a zone. -/
def prefixFrom (bits : ℕ) : Netip.Prefix :=
  if fits : addr.isValid ∧ addr.zone = "" ∧ bits ≤ addr.bitLen then
    { addr := addr, length := some bits, fits := by simpa using fits }
  else
    { addr := addr, length := none, fits := by simp }

def maskAddr (bits : ℕ) : Addr → Addr
  | .zero => .zero
  | .v4 value => .v4 (value >>> (32 - bits) <<< (32 - bits))
  | .v6 value zone => .v6 (value >>> (128 - bits) <<< (128 - bits)) zone

def masked : Netip.Prefix :=
  match subnet.length with
  | none => subnet
  | some bits => prefixFrom (maskAddr bits subnet.addr) bits

def is4In6 : Addr → Bool
  | .v6 value _ => value >>> 32 = 0xffff#128
  | _ => false

def canonicalFirewallPrefix : Netip.Prefix :=
  match subnet.length with
  | none => masked subnet
  | some bits =>
    if is4In6 subnet.addr ∧ 96 ≤ bits then
      masked (prefixFrom subnet.addr.unmap (bits - 96))
    else
      masked (prefixFrom subnet.addr bits)

def withoutZone : Addr → Addr
  | .v6 value _ => .v6 value ""
  | addr => addr

def normalizeFirewallAddr : Addr :=
  withoutZone addr.unmap

structure Host where
  name : Text
  addr : Addr

def firewallHostMayBeAddr (host : Text) : Bool :=
  host.contains 58 || (!host.isEmpty && host.all fun byte => byte == 46 || 48 ≤ byte && byte ≤ 57)

section Library

variable (library : Library) (text network : Text)

/-- `trimDot` of the repository: white space and all final dots. -/
def trimDot : Text :=
  (library.trimSpace text).rdropWhile (· == 46)

def parseFirewallHost (host : Text) : Host :=
  let normalized := cutZone (trimDot library (library.toLower (trimBrackets host)))
  if firewallHostMayBeAddr normalized then
    match library.parseAddr normalized with
    | some addr => ⟨[], normalizeFirewallAddr addr⟩
    | none => ⟨normalized, .zero⟩
  else
    ⟨normalized, .zero⟩

def addHost (compiled : HostSelector) (raw : Text) : HostSelector :=
  let host := trimDot library (library.toLower raw)
  if host = bytes "*" then
    { compiled with any := true }
  else
    match library.parseAddr (cutZone (trimBrackets host)) with
    | some addr => { compiled with addrs := compiled.addrs ++ [normalizeFirewallAddr addr] }
    | none =>
      match library.parsePrefix host with
      | some subnet =>
        { compiled with prefixes := compiled.prefixes ++ [canonicalFirewallPrefix subnet] }
      | none =>
        if host = [] then compiled else { compiled with hosts := compiled.hosts ++ [host] }

def compileFirewallHostSelector (hosts : List Text) : HostSelector :=
  hosts.foldl (addHost library) ⟨hosts.isEmpty, [], [], []⟩

def parseUint8 : Option UInt16 :=
  if text.isEmpty ∨ ¬text.all fun byte => 48 ≤ byte && byte ≤ 57 then
    none
  else
    let value := text.foldl (fun value byte => 10 * value + (byte.toNat - 48)) 0
    if value < 256 then some (UInt16.ofNat value) else none

/-- `strings.TrimPrefix` for a text that has the prefix. -/
def afterText (front text : Text) : Option Text :=
  if front.isPrefixOf text then some (text.drop front.length) else none

/-- The part of `compileFirewallIPSelector` for names with a protocol number. -/
def compileNumberedProtocol : UInt8 × UInt16 × Bool :=
  let numbered : Option (UInt8 × Text) :=
    match afterText (bytes "ip:") network with
    | some protocolText => some (0, protocolText)
    | none =>
      match afterText (bytes "ip4:") network with
      | some protocolText => some (4, protocolText)
      | none => (afterText (bytes "ip6:") network).map fun protocolText => (6, protocolText)
  match numbered with
  | none => (0, 0, false)
  | some (version, protocolText) =>
    match parseUint8 protocolText with
    | none => (0, 0, false)
    | some protocol => (version, protocol, true)

def compileFirewallIPSelector : UInt8 × UInt16 × Bool :=
  if network = [] ∨ network = bytes "*" ∨ network = bytes "ip" then
    (0, anyFirewallIPProtocol, true)
  else if network = bytes "ip4" then (4, anyFirewallIPProtocol, true)
  else if network = bytes "ip6" then (6, anyFirewallIPProtocol, true)
  else if network = bytes "tcp" then (0, 6, true)
  else if network = bytes "tcp4" then (4, 6, true)
  else if network = bytes "tcp6" then (6, 6, true)
  else if network = bytes "udp" then (0, 17, true)
  else if network = bytes "udp4" then (4, 17, true)
  else if network = bytes "udp6" then (6, 17, true)
  else if network = bytes "icmp" then (0, icmpFirewallIPProtocol, true)
  else if network = bytes "icmp4" then (4, 1, true)
  else if network = bytes "icmp6" then (6, 58, true)
  else compileNumberedProtocol network

def normalizeFirewallNetwork : Text :=
  library.toLower (library.trimSpace network)

def compileFirewallRule (rule : Rule) : CompiledRule :=
  let network := normalizeFirewallNetwork library rule.network
  let (ipVersion, ipProtocol, matchesIP) := compileFirewallIPSelector network
  { network, ipVersion, ipProtocol, matchesIP
    peer := compileFirewallHostSelector library rule.hosts
    localHost := compileFirewallHostSelector library rule.localHosts
    ports := rule.ports
    ranges := rule.portRanges }

def compileFirewallRules (rules : List Rule) : List CompiledRule :=
  rules.map (compileFirewallRule library)

namespace HostSelector

variable (selector : HostSelector)

def nameMatches (name : Text) : Bool :=
  let name := trimDot library (library.toLower name)
  name ≠ [] && selector.hosts.any fun pattern => (library.pathMatch pattern name).getD false

def addrMatches (addr : Addr) : Bool :=
  selector.addrs.any (· = addr) || selector.prefixes.any fun subnet => subnet.contains addr

def matchesHost (host : Host) (dnsCache : DNSCache) : Bool :=
  if host.addr.isValid then
    selector.addrMatches host.addr ||
      ((dnsCache.map fun names => names host.addr).getD []).any (selector.nameMatches library)
  else
    selector.nameMatches library host.name

end HostSelector

end Library

namespace CompiledRule

variable (rule : CompiledRule)

def portMatches (port : UInt16) : Bool :=
  (rule.ports.isEmpty && rule.ranges.isEmpty) || rule.ports.any (· = port) ||
    rule.ranges.any fun candidate =>
      let first := min candidate.first candidate.last
      let last := max candidate.first candidate.last
      first ≤ port && port ≤ last

def ipProtocolMatches (version protocol : UInt8) : Bool :=
  if rule.ipProtocol = anyFirewallIPProtocol then true
  else if rule.ipProtocol = icmpFirewallIPProtocol then
    version = 4 && protocol = 1 || version = 6 && protocol = 58
  else rule.ipProtocol = protocol.toUInt16

end CompiledRule

def firewallIPNetwork (network : Text) : Bool :=
  network = bytes "ip4" || network = bytes "ip6" ||
    [bytes "tcp", bytes "udp", bytes "icmp", bytes "ip:", bytes "ip4:", bytes "ip6:"].any
      fun front => front.isPrefixOf network

def firewallNetworkMatches (rule network : Text) : Bool :=
  if rule = [] ∨ rule = bytes "*" ∨ rule = network then true
  else if rule = bytes "ip" then firewallIPNetwork network
  else if rule = bytes "ip4" then
    network = bytes "tcp4" || network = bytes "udp4" || network = bytes "icmp4" ||
      (bytes "ip4:").isPrefixOf network
  else if rule = bytes "ip6" then
    network = bytes "tcp6" || network = bytes "udp6" || network = bytes "icmp6" ||
      (bytes "ip6:").isPrefixOf network
  else if rule = bytes "tcp" then network = bytes "tcp4" || network = bytes "tcp6"
  else if rule = bytes "udp" then network = bytes "udp4" || network = bytes "udp6"
  else if rule = bytes "icmp" then network = bytes "icmp4" || network = bytes "icmp6"
  else
    match afterText (bytes "ip:") rule with
    | some protocol => network = bytes "ip4:" ++ protocol || network = bytes "ip6:" ++ protocol
    | none => false

def ipVersionOf : UInt8 :=
  if addr.is4 then 4 else 6

structure AddrPort where
  addr : Addr
  port : UInt16
deriving DecidableEq

section Matching

variable (library : Library)

def CompiledRule.peerMatches (rule : CompiledRule) (peer : Host) (dnsCache : DNSCache) : Bool :=
  rule.peer.any || rule.peer.matchesHost library peer dnsCache

/-- The local part of a rule, which only matches a known local host. -/
def CompiledRule.localMatches (rule : CompiledRule) (localHost : Option Host)
    (dnsCache : DNSCache) : Bool :=
  rule.localHost.any ||
    (localHost.map fun host => rule.localHost.matchesHost library host dnsCache).getD false

variable (rules : List CompiledRule)

def matchFirewallRules (network host : Text) (port : UInt16) (dnsCache : DNSCache) : Bool :=
  let network := normalizeFirewallNetwork library network
  rules.any fun rule => firewallNetworkMatches rule.network network && rule.portMatches port &&
    rule.peerMatches library (parseFirewallHost library host) dnsCache

def matchFirewallAddrRules (network : Text) (addr : Addr) (port : UInt16) (dnsCache : DNSCache) :
    Bool :=
  let network := normalizeFirewallNetwork library network
  rules.any fun rule => firewallNetworkMatches rule.network network && rule.portMatches port &&
    rule.peerMatches library ⟨[], normalizeFirewallAddr addr⟩ dnsCache

def CompiledRule.ipMatches (rule : CompiledRule) (version protocol : UInt8) : Bool :=
  rule.matchesIP && (rule.ipVersion = 0 || rule.ipVersion = version) &&
    rule.ipProtocolMatches version protocol

def matchFirewallIPRules (protocol : UInt8) (address : AddrPort) (dnsCache : DNSCache) : Bool :=
  let addr := normalizeFirewallAddr address.addr
  addr.isValid && rules.any fun rule =>
    rule.ipMatches (ipVersionOf addr) protocol && rule.portMatches address.port &&
      rule.peerMatches library ⟨[], addr⟩ dnsCache

def matchIncomingFirewallRules (network peerHost : Text) (localHost : Option Text) (port : UInt16)
    (dnsCache : DNSCache) : Bool :=
  let network := normalizeFirewallNetwork library network
  rules.any fun rule => firewallNetworkMatches rule.network network && rule.portMatches port &&
    rule.localMatches library (localHost.map (parseFirewallHost library)) dnsCache &&
    rule.peerMatches library (parseFirewallHost library peerHost) dnsCache

def matchIncomingFirewallAddrRules (network : Text) (peer : Addr) (localAddr : Option Addr)
    (port : UInt16) (dnsCache : DNSCache) : Bool :=
  let network := normalizeFirewallNetwork library network
  rules.any fun rule => firewallNetworkMatches rule.network network && rule.portMatches port &&
    rule.localMatches library (localAddr.map fun addr => ⟨[], normalizeFirewallAddr addr⟩)
      dnsCache &&
    rule.peerMatches library ⟨[], normalizeFirewallAddr peer⟩ dnsCache

def matchIncomingFirewallIPRules (protocol : UInt8) (peer : AddrPort)
    (localAddress : Option AddrPort) (dnsCache : DNSCache) : Bool :=
  let peerAddr := normalizeFirewallAddr peer.addr
  let localAddr := localAddress.map fun address => normalizeFirewallAddr address.addr
  let port := (localAddress.map AddrPort.port).getD peer.port
  let version := ipVersionOf (localAddr.getD peerAddr)
  peerAddr.isValid && localAddr.all Addr.isValid && rules.any fun rule =>
    rule.ipMatches version protocol && rule.portMatches port &&
      rule.localMatches library (localAddr.map fun addr => ⟨[], addr⟩) dnsCache &&
      rule.peerMatches library ⟨[], peerAddr⟩ dnsCache

namespace Config

variable (config : Config)

def blocksOutgoingAddrPort (network : Text) (address : AddrPort) : Bool :=
  matchFirewallAddrRules library (compileFirewallRules library config.excludeRules) network
    address.addr address.port config.dnsCache

def blocksOutgoingIP (protocol : UInt8) (address : AddrPort) : Bool :=
  matchFirewallIPRules library (compileFirewallRules library config.excludeRules) protocol address
    config.dnsCache

def allowsIncomingIP (protocol : UInt8) (address : AddrPort) (localAddress : Option AddrPort) :
    Bool :=
  matchIncomingFirewallIPRules library (compileFirewallRules library config.includeRules) protocol
    address localAddress config.dnsCache

end Config

end Matching

end Gonnect.Firewall
