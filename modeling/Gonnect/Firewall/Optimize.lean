import Gonnect.Firewall.NetworkNames
import Mathlib.Tactic.FinCases

/-!
# Canonical selectors of rules

Before the rules of a policy are compiled, ports and port ranges may be sorted and merged, and a
rule dropped where another one matches all that it matches. Merged ports match as before, and a
network name that subsumes another one matches at least as much.
-/

namespace Gonnect.Firewall

open List CompiledRule PortRange

section Ports

variable (ports : List UInt16) (ranges : List PortRange)

def portIntervals : List PortRange :=
  ports.map (fun port => ⟨port, port⟩) ++
    ranges.map fun interval =>
      if interval.last < interval.first then ⟨interval.last, interval.first⟩ else interval

def rangeLess (left right : PortRange) : Bool :=
  if left.first = right.first then left.last < right.last else left.first < right.first

def PortRange.widened (last interval : PortRange) : PortRange :=
  if interval.last > last.last then { last with last := interval.last } else last

/-- The loop over the sorted intervals, with the last one that is merged so far. -/
def mergeIntervals (last : PortRange) : List PortRange → List PortRange
  | [] => [last]
  | interval :: later =>
    let adjacent := last.last ≠ 65535 ∧ interval.first = last.last + 1
    if interval.first ≤ last.last ∨ adjacent then mergeIntervals (last.widened interval) later
    else last :: mergeIntervals interval later

def mergedPorts : List PortRange :=
  match (portIntervals ports ranges).mergeSort fun left right => !rangeLess right left with
  | [] => []
  | first :: later => mergeIntervals first later

def splitIntervals (intervals : List PortRange) : List UInt16 × List PortRange :=
  ((intervals.filter fun interval => interval.first = interval.last).map first,
    intervals.filter fun interval => interval.first ≠ interval.last)

def canonicalFirewallPorts : List UInt16 × List PortRange :=
  splitIntervals (mergedPorts ports ranges)

variable {ports ranges} {last interval : PortRange} {later intervals : List PortRange}

def PortRange.Has (interval : PortRange) (port : UInt16) : Prop :=
  interval.first ≤ port ∧ port ≤ interval.last

def Ordered (intervals : List PortRange) : Prop :=
  ∀ interval ∈ intervals, interval.first ≤ interval.last

def Apart (intervals : List PortRange) : Prop :=
  intervals.Pairwise fun left right => left.last < right.first ∧ right.first ≠ left.last + 1

theorem widened_spec (ordered : last.first ≤ last.last) (next : last.first ≤ interval.first)
    (near : interval.first ≤ last.last ∨ last.last ≠ 65535 ∧ interval.first = last.last + 1) :
    (last.widened interval).first = last.first ∧
      (last.widened interval).first ≤ (last.widened interval).last ∧
      ∀ port, (last.widened interval).Has port ↔ last.Has port ∨ interval.Has port := by
  unfold widened Has
  grind

theorem mergeIntervals_spec (ordered : Ordered (last :: later))
    (sorted : (last :: later).Pairwise fun left right => left.first ≤ right.first) :
    Ordered (mergeIntervals last later) ∧ Apart (mergeIntervals last later) ∧
      (∀ interval ∈ mergeIntervals last later, last.first ≤ interval.first) ∧
      ∀ port, (∃ interval ∈ mergeIntervals last later, interval.Has port) ↔
        ∃ interval ∈ last :: later, interval.Has port := by
  induction later generalizing last with
  | nil => simpa [mergeIntervals, Apart] using ordered
  | cons interval later ih =>
    rcases forall_mem_cons.mp ordered with ⟨lastOrdered, nextOrdered⟩
    rcases pairwise_cons.mp sorted with ⟨behind, laterSorted⟩
    rcases forall_mem_cons.mp behind with ⟨next, behind⟩
    simp only [mergeIntervals]
    split_ifs with near
    · rcases widened_spec lastOrdered next near with ⟨start, wide, has⟩
      rcases ih (forall_mem_cons.mpr ⟨wide, (forall_mem_cons.mp nextOrdered).2⟩)
        (pairwise_cons.mpr ⟨start ▸ behind, laterSorted.tail⟩) with
        ⟨isOrdered, apart, starts, covers⟩
      refine ⟨isOrdered, apart, start ▸ starts, fun port => ?_⟩
      simp [covers, has, or_assoc]
    · rcases ih nextOrdered laterSorted with ⟨isOrdered, apart, starts, covers⟩
      have beyond : ∀ other ∈ mergeIntervals interval later, last.first ≤ other.first ∧
          last.last < other.first ∧ other.first ≠ last.last + 1 := by
        intro other member
        have start := starts other member
        clear ih
        grind
      refine ⟨forall_mem_cons.mpr ⟨lastOrdered, isOrdered⟩,
        pairwise_cons.mpr ⟨fun other member => (beyond other member).2, apart⟩,
        forall_mem_cons.mpr ⟨UInt16.le_refl _, fun other member => (beyond other member).1⟩,
        fun port => ?_⟩
      rw [exists_mem_cons_iff, exists_mem_cons_iff, covers]

theorem portMatches_iff (rule : CompiledRule) (port : UInt16) :
    rule.portMatches port = true ↔ (rule.ports = [] ∧ rule.ranges = []) ∨
      ∃ interval ∈ portIntervals rule.ports rule.ranges, interval.Has port := by
  have inOrder (interval : PortRange) : (if interval.last < interval.first then
      ⟨interval.last, interval.first⟩ else interval : PortRange).Has port ↔
        min interval.first interval.last ≤ port ∧ port ≤ max interval.first interval.last := by
    simp only [Has, min, max]
    grind
  have one (value : UInt16) : (⟨value, value⟩ : PortRange).Has port ↔ value = port := by
    grind [Has]
  simp [portMatches, portIntervals, or_and_right, exists_or, inOrder, one, or_assoc]

theorem portIntervals_eq_nil : portIntervals ports ranges = [] ↔ ports = [] ∧ ranges = [] := by
  simp [portIntervals]

theorem mergedPorts_spec (ports : List UInt16) (ranges : List PortRange) :
    Ordered (mergedPorts ports ranges) ∧ Apart (mergedPorts ports ranges) ∧
      (mergedPorts ports ranges = [] ↔ portIntervals ports ranges = []) ∧
      ∀ port, (∃ interval ∈ mergedPorts ports ranges, interval.Has port) ↔
        ∃ interval ∈ portIntervals ports ranges, interval.Has port := by
  have perm := (portIntervals ports ranges).mergeSort_perm fun left right => !rangeLess right left
  have sorted := @List.pairwise_mergeSort _ (fun left right => !rangeLess right left)
    (by grind [rangeLess]) (by grind [rangeLess]) (portIntervals ports ranges)
  have ordered : Ordered (portIntervals ports ranges) := by
    grind [portIntervals, Ordered]
  unfold mergedPorts
  cases isSorted : (portIntervals ports ranges).mergeSort fun left right =>
    !rangeLess right left with
  | nil =>
    rw [isSorted] at perm
    simp [← perm.nil_eq, Apart, Ordered]
  | cons first later =>
    rw [isSorted] at perm sorted
    have isFirst := perm.subset mem_cons_self
    rcases mergeIntervals_spec (fun interval member => ordered interval (perm.subset member))
      (sorted.imp (by grind [rangeLess])) with ⟨isOrdered, apart, -, covers⟩
    rcases (covers first.first).mpr ⟨first, mem_cons_self, UInt16.le_refl _,
      ordered first isFirst⟩ with ⟨interval, member, -⟩
    refine ⟨isOrdered, apart,
      iff_of_false (ne_nil_of_mem member) (ne_nil_of_mem isFirst), ?_⟩
    simp [covers, perm.mem_iff]

theorem mem_portIntervals_split (ordered : Ordered intervals) (interval : PortRange) :
    interval ∈ portIntervals (splitIntervals intervals).1 (splitIntervals intervals).2 ↔
      interval ∈ intervals := by
  simp only [portIntervals, splitIntervals, mem_append, mem_map, mem_filter]
  grind [cases PortRange, Ordered]

/--
The canonical ports match as the given ones. They come from intervals that are sorted, disjoint
and not adjacent, and there are none of them only where none were given.
-/
theorem canonicalFirewallPorts_alike (ports : List UInt16) (ranges : List PortRange)
    (rule : CompiledRule) :
    let canonical := canonicalFirewallPorts ports ranges
    (∀ port, { rule with ports := canonical.1, ranges := canonical.2 }.portMatches port =
      { rule with ports, ranges }.portMatches port) ∧
    (canonical = ([], []) ↔ ports = [] ∧ ranges = []) ∧
    ∃ intervals, canonical = splitIntervals intervals ∧ Ordered intervals ∧ Apart intervals := by
  rcases mergedPorts_spec ports ranges with ⟨ordered, apart, empty, covers⟩
  have found := mem_portIntervals_split ordered
  have none : canonicalFirewallPorts ports ranges = ([], []) ↔ ports = [] ∧ ranges = [] := by
    rw [← portIntervals_eq_nil, ← empty, Prod.ext_iff, ← portIntervals_eq_nil]
    simp [eq_nil_iff_forall_not_mem, canonicalFirewallPorts, found]
  refine ⟨fun port => ?_, none, _, rfl, ordered, apart⟩
  rw [Bool.eq_iff_iff, portMatches_iff, portMatches_iff, ← Prod.mk_inj, none, ← covers]
  simp only [canonicalFirewallPorts, found]

end Ports

section Merging

/-- The case of `mergeFirewallRules` for rules that differ in their ports only. -/
def mergePorts (a b : Rule) : Rule :=
  if a.ports = [] ∧ a.portRanges = [] ∨ b.ports = [] ∧ b.portRanges = [] then
    { a with ports := [], portRanges := [] }
  else
    let merged := canonicalFirewallPorts (a.ports ++ b.ports) (a.portRanges ++ b.portRanges)
    { a with ports := merged.1, portRanges := merged.2 }

variable (library : Library) {a b : Rule}

theorem portMatches_mergePorts (port : UInt16) :
    (compileFirewallRule library (mergePorts a b)).portMatches port =
      ((compileFirewallRule library a).portMatches port ||
        (compileFirewallRule library b).portMatches port) := by
  rw [Bool.eq_iff_iff, Bool.or_eq_true, portMatches_iff, portMatches_iff, portMatches_iff]
  simp only [compileFirewallRule, mergePorts]
  split_ifs with unlimited
  · rcases unlimited with unlimited | unlimited <;> simp [unlimited]
  · rcases mergedPorts_spec (a.ports ++ b.ports) (a.portRanges ++ b.portRanges) with
      ⟨ordered, -, empty, covers⟩
    rw [← portIntervals_eq_nil, eq_nil_iff_forall_not_mem]
    simp only [canonicalFirewallPorts, mem_portIntervals_split ordered, covers]
    rw [← eq_nil_iff_forall_not_mem, empty, portIntervals_eq_nil]
    simp only [portIntervals, map_append, mem_append, append_eq_nil_iff] at unlimited ⊢
    grind

/-- Two rules that differ in their ports only may be merged, wherever they stand among the others:
all matchers answer as before. -/
theorem mergePorts_alike (front middle back : List Rule) (a : Rule) (ports : List UInt16)
    (ranges : List PortRange) :
    let b := { a with ports := ports, portRanges := ranges }
    let before := compileFirewallRules library (front ++ a :: middle ++ b :: back)
    let after := compileFirewallRules library (front ++ mergePorts a b :: middle ++ back)
    matchFirewallRules library after = matchFirewallRules library before ∧
      matchFirewallAddrRules library after = matchFirewallAddrRules library before ∧
      matchFirewallIPRules library after = matchFirewallIPRules library before ∧
      matchIncomingFirewallRules library after = matchIncomingFirewallRules library before ∧
      matchIncomingFirewallAddrRules library after =
        matchIncomingFirewallAddrRules library before ∧
      matchIncomingFirewallIPRules library after = matchIncomingFirewallIPRules library before := by
  intro b before after
  have joined := @portMatches_mergePorts library a b
  have merged : ∃ ports ranges, mergePorts a b = { a with ports := ports, portRanges := ranges } := by
    unfold mergePorts
    split_ifs
    · exact ⟨_, _, rfl⟩
    · exact ⟨_, _, rfl⟩
  rcases merged with ⟨mergedPorts, mergedRanges, merged⟩
  have others (ports : List UInt16) (ranges : List PortRange) :
      let rule := compileFirewallRule library { a with ports := ports, portRanges := ranges }
      let own := compileFirewallRule library a
      rule.network = own.network ∧ rule.ipMatches = own.ipMatches ∧
        rule.peerMatches library = own.peerMatches library ∧
        rule.localMatches library = own.localMatches library :=
    ⟨rfl, rfl, rfl, rfl⟩
  simp only [merged] at joined
  refine ⟨?_, ?_, ?_, ?_, ?_, ?_⟩
  all_goals
    repeat' apply funext; intro
    simp only [before, after, merged, b, matchFirewallRules, matchFirewallAddrRules,
      matchFirewallIPRules, matchIncomingFirewallRules, matchIncomingFirewallAddrRules,
      matchIncomingFirewallIPRules, compileFirewallRules, map_append, map_cons, any_append,
        any_cons,
      joined, others]
    grind

end Merging

section Networks

variable {general special network : Text}

def firewallRuleNetworkIsIP (network : Text) : Bool :=
  [bytes "ip", bytes "ip4", bytes "ip6", bytes "tcp", bytes "tcp4", bytes "tcp6", bytes "udp",
    bytes "udp4", bytes "udp6", bytes "icmp", bytes "icmp4", bytes "icmp6"].contains network ||
    [bytes "ip:", bytes "ip4:", bytes "ip6:"].any fun front => front.isPrefixOf network

def firewallNetworkSubsumes (a b : Text) : Bool :=
  if a = b ∨ a = [] then true
  else if b = [] then false
  else if a = bytes "ip" then firewallRuleNetworkIsIP b
  else if a = bytes "ip4" then
    b = bytes "tcp4" || b = bytes "udp4" || b = bytes "icmp4" || (bytes "ip4:").isPrefixOf b
  else if a = bytes "ip6" then
    b = bytes "tcp6" || b = bytes "udp6" || b = bytes "icmp6" || (bytes "ip6:").isPrefixOf b
  else if a = bytes "tcp" then b = bytes "tcp4" || b = bytes "tcp6"
  else if a = bytes "udp" then b = bytes "udp4" || b = bytes "udp6"
  else if a = bytes "icmp" then b = bytes "icmp4" || b = bytes "icmp6"
  else
    match afterText (bytes "ip:") a with
    | some protocol => b = bytes "ip4:" ++ protocol || b = bytes "ip6:" ++ protocol
    | none => false

/-- Names of one family, which match no other name. -/
def OneFamily (name : Text) : Prop :=
  name ∈ [bytes "tcp4", bytes "tcp6", bytes "udp4", bytes "udp6", bytes "icmp4", bytes "icmp6"] ∨
    bytes "ip4:" <+: name ∨ bytes "ip6:" <+: name

/-- Names that leave something open which the second one fixes. -/
def Finer (general special : Text) : Prop :=
  (general, special) ∈ [(bytes "ip4", bytes "tcp4"), (bytes "ip4", bytes "udp4"),
    (bytes "ip4", bytes "icmp4"), (bytes "ip6", bytes "tcp6"), (bytes "ip6", bytes "udp6"),
    (bytes "ip6", bytes "icmp6"), (bytes "tcp", bytes "tcp4"), (bytes "tcp", bytes "tcp6"),
    (bytes "udp", bytes "udp4"), (bytes "udp", bytes "udp6"), (bytes "icmp", bytes "icmp4"),
    (bytes "icmp", bytes "icmp6")] ∨
  general = bytes "ip4" ∧ bytes "ip4:" <+: special ∨
  general = bytes "ip6" ∧ bytes "ip6:" <+: special ∨
  ∃ protocol, bytes "ip:" ++ protocol = general ∧
    (special = bytes "ip4:" ++ protocol ∨ special = bytes "ip6:" ++ protocol)

theorem afterText_eq_some {front text rest : Text} :
    afterText front text = some rest ↔ front ++ rest = text := by
  unfold afterText
  grind [ isPrefixOf_iff_prefix, List.IsPrefix]

theorem matches_cases (matched : firewallNetworkMatches general special = true) :
    general ∈ [[], bytes "*", bytes "ip"] ∨ general = special ∨ OneFamily special := by
  unfold firewallNetworkMatches at matched
  unfold OneFamily
  grind

theorem subsumes_cases (subsumes : firewallNetworkSubsumes general special = true) :
    general = special ∨ general = [] ∨
      general = bytes "ip" ∧ firewallRuleNetworkIsIP special = true ∨
      OneFamily special ∧ firewallNetworkMatches general special = true ∧ Finer general special := by
  unfold firewallNetworkSubsumes at subsumes
  simp only [firewallNetworkMatches, OneFamily, Finer, mem_cons, Prod.mk.injEq]
  split_ifs at subsumes <;> grind [afterText_eq_some]

theorem OneFamily.isIP (one : OneFamily network) : firewallIPNetwork network = true := by
  rcases one with listed | ⟨protocol, rfl⟩ | ⟨protocol, rfl⟩
  · fin_cases listed <;> decide
  · simp +decide [firewallIPNetwork]
  · simp +decide [firewallIPNetwork]

theorem OneFamily.eq (one : OneFamily special)
    (matched : firewallNetworkMatches special network = true) : special = network := by
  rcases one with listed | ⟨protocol, rfl⟩ | ⟨protocol, rfl⟩
  · fin_cases listed <;> simpa +decide [firewallNetworkMatches, afterText] using matched
  · simpa +decide [firewallNetworkMatches, afterText, bytes] using matched
  · simpa +decide [firewallNetworkMatches, afterText, bytes] using matched

theorem ip_matches (isIP : firewallRuleNetworkIsIP special = true)
    (matched : firewallNetworkMatches special network = true) :
    firewallNetworkMatches (bytes "ip") network = true := by
  have isName : special = bytes "ip" ∨ firewallIPNetwork special = true := by
    simp only [firewallRuleNetworkIsIP, Bool.or_eq_true, contains_iff_mem] at isIP
    rcases isIP with listed | numbered
    · fin_cases listed <;> decide
    · simp +decide [firewallIPNetwork] at numbered ⊢
      grind
  rcases matches_cases matched with listed | rfl | one
  · fin_cases listed
    · cases isIP
    · cases isIP
    · exact matched
  · rcases isName with rfl | isName
    · exact matched
    · simp [firewallNetworkMatches, isName]
  · simp [firewallNetworkMatches, one.isIP]

theorem Finer.ipMatches (finer : Finer general special) {version protocol : UInt8}
    (matched : (bareRule special).ipMatches version protocol = true) :
    (bareRule general).ipMatches version protocol = true := by
  have icmp4 (same : 1 = protocol.toUInt16) : 1 = protocol := UInt8.toUInt16_inj.mp same
  have icmp6 (same : 58 = protocol.toUInt16) : 58 = protocol := UInt8.toUInt16_inj.mp same
  rcases finer with paired | ⟨rfl, number, rfl⟩ | ⟨rfl, number, rfl⟩ | ⟨number, rfl, rfl | rfl⟩
  · fin_cases paired <;> simp +decide [bareRule, compileFirewallIPSelector, ipMatches,
      ipProtocolMatches] at matched ⊢ <;> grind
  all_goals
    simp +decide [bareRule, compileFirewallIPSelector, compileNumberedProtocol, afterText, bytes,
      ipMatches, ipProtocolMatches] at matched ⊢
    cases selected : parseUint8 number <;> simp [selected] at matched ⊢
    first
    | exact matched.1
    | exact matched.2

/-- A name that subsumes another one matches each network and each packet that the other matches. -/
theorem firewallNetworkSubsumes_matches
    (subsumes : firewallNetworkSubsumes general special = true) :
    (∀ network, firewallNetworkMatches special network = true →
      firewallNetworkMatches general network = true) ∧
    ∀ version protocol, (bareRule special).ipMatches version protocol = true →
      (bareRule general).ipMatches version protocol = true := by
  rcases subsumes_cases subsumes with rfl | rfl | ⟨rfl, isIP⟩ | ⟨one, matched, finer⟩
  · exact ⟨fun _ => id, fun _ _ => id⟩
  · exact ⟨fun _ _ => rfl, fun _ _ _ => rfl⟩
  · exact ⟨fun network => ip_matches isIP, fun _ _ _ => rfl⟩
  · refine ⟨fun network isMatched => ?_, fun _ _ => finer.ipMatches⟩
    rwa [← one.eq isMatched]

theorem tcp_subsumes_tcp6 :
    firewallNetworkMatches (bytes "tcp") (bytes "tcp6") = true ∧
      (bareRule (bytes "tcp")).ipMatches 6 6 = true :=
  have subsumes := @firewallNetworkSubsumes_matches (bytes "tcp") (bytes "tcp6") (by decide)
  ⟨subsumes.1 (bytes "tcp6") (by decide), subsumes.2 6 6 (by decide)⟩

end Networks

end Gonnect.Firewall
