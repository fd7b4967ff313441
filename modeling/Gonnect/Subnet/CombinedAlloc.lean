import Gonnect.Subnet.Pool

/-!
# The combined allocator

`CombinedAllocator` hands out subnets and single addresses from an optional IPv4 and an
optional IPv6 parent. Its subnet search begins at a random candidate and wraps around once.
Addresses come from pool subnets, which the allocator reserves for itself and gives back
when they are empty. A call comes with the answers of the random source and the two filters.

`Invariant` ties the state to the ledger of the callers: the count of a block in the table
of reservations is its count in the ledger, plus one when it is a pool of the allocator.
-/

namespace Gonnect.Subnet

open BigEndian Net

structure CombinedAllocator where
  parents : Family → Option OwnedParent
  reservedIPs : IPTable
  reservedSubnets : SubnetTable
  bannedIPs : IPTable
  bannedSubnets : SubnetTable
  poolSubnets : Family → List PoolSubnet
  poolPrefix4 : ℤ
  poolPrefix6 : ℤ

structure CombinedConfig where
  ipv4 : Option IPNet
  ipv6 : Option IPNet
  poolPrefix4 : ℤ
  poolPrefix6 : ℤ
  bannedIPs : List IP
  bannedSubnets : List (Option IPNet)

def CombinedConfig.parent (config : CombinedConfig) : Family → Option IPNet
  | .v4 => config.ipv4
  | .v6 => config.ipv6

structure Choices where
  draw : ℕ
  ipFilter : Option IPFilter
  subnetFilter : Option SubnetFilter

namespace CombinedAllocator

def addParent (network : Option IPNet) (wantBits : Family) : Option OwnedParent :=
  (ownParent network).filter (·.bits = wantBits)

def banIP (banned : IPTable) (ip : IP) : IPTable :=
  match normalizeAnyIP ip with
  | some reserved => banned.insert (ipReservationKey reserved) ⟨reserved, 1, Nat.one_pos⟩
  | none => banned

def banSubnet (banned : SubnetTable) (subnet : Option IPNet) : SubnetTable :=
  match normalizeSubnet subnet with
  | some reserved => banned.insert reserved.key ⟨reserved, 1, Nat.one_pos⟩
  | none => banned

def newCombinedAllocator (config : CombinedConfig) : CombinedAllocator where
  parents := fun family => addParent (config.parent family) family
  reservedIPs := ∅
  reservedSubnets := ∅
  bannedIPs := config.bannedIPs.foldl banIP ∅
  bannedSubnets := config.bannedSubnets.foldl banSubnet ∅
  poolSubnets := fun _ => []
  poolPrefix4 := config.poolPrefix4
  poolPrefix6 := config.poolPrefix6

def subnetIntervals (table : SubnetTable) (bits : Family) : List Interval :=
  (table.items.filter (·.bits = bits)).map ReservedSubnet.interval

def ipIntervals (table : IPTable) (bits : Family) : List Interval :=
  (table.items.filter (·.bits = bits)).map fun reserved => ⟨reserved.value, reserved.value⟩

variable (allocator : CombinedAllocator) (bits : Family)

def sortedSubnetBlockers (parent : OwnedParent) : List Interval :=
  sortBlockers ((subnetIntervals allocator.reservedSubnets bits ++
    subnetIntervals allocator.bannedSubnets bits ++ ipIntervals allocator.reservedIPs bits ++
    ipIntervals allocator.bannedIPs bits).filter (meetsParent parent))

def randomBigInt (draw limit : ℕ) : ℕ :=
  draw % limit

def search (parent : OwnedParent) (prefixLen : ℕ) (blockers : List Interval)
    (filter : Option SubnetFilter) (firstCandidateStart : ℕ) (wrapped : Bool)
    (candidateStart attempts : ℕ) : Option ℕ :=
  let size := subnetSize parent.bits prefixLen
  if parent.stop < subnetEnd candidateStart size then
    if wrapped then
      none
    else
      search parent prefixLen blockers filter firstCandidateStart true parent.start attempts
  else if wrapped ∧ firstCandidateStart ≤ candidateStart then
    none
  else
    match Interval.firstOverlap (.block candidateStart size) blockers with
    | some blocker =>
      search parent prefixLen blockers filter firstCandidateStart wrapped
        (nextStart candidateStart size blocker) attempts
    | none =>
      match filter with
      | none => some candidateStart
      | some accepts =>
        if accepts attempts (candidateNetwork candidateStart parent.bits prefixLen) then
          some candidateStart
        else if maxFilteredAllocationAttempts ≤ attempts + 1 then
          none
        else
          search parent prefixLen blockers filter firstCandidateStart wrapped
            (candidateStart + size) (attempts + 1)
termination_by (if wrapped then 0 else parent.stop + 2) + (parent.stop + 1 - candidateStart)
decreasing_by
  · simp_all only [if_true, Bool.false_eq_true, if_false]
    omega
  · have positive := subnetSize_pos parent.bits prefixLen
    have above := @lt_nextStart candidateStart _ positive blocker
    simp only [subnetEnd] at *
    omega
  · have positive := subnetSize_pos parent.bits prefixLen
    simp only [subnetEnd] at *
    omega

def allocSubnet (prefixLen : ℤ) (choices : Choices) : Option IPNet × CombinedAllocator :=
  match allocator.parents bits with
  | none => (none, allocator)
  | some parent =>
    if prefixLen < 0 ∨ (bits.bits : ℤ) < prefixLen then
      (none, allocator)
    else
      let (parentPrefix, parentBits) := maskSize parent.network.mask
      if parentBits ≠ bits.bits ∨ prefixLen < parentPrefix then
        (none, allocator)
      else
        let size := subnetSize bits prefixLen.toNat
        let subnetCount := (parent.stop - parent.start + 1) / size
        if subnetCount ≤ 0 then
          (none, allocator)
        else
          let first := parent.start + randomBigInt choices.draw subnetCount * size
          match search parent prefixLen.toNat (allocator.sortedSubnetBlockers bits parent)
            choices.subnetFilter first false first 0 with
          | none => (none, allocator)
          | some start =>
            let network := candidateNetwork start bits prefixLen.toNat
            (some network, { allocator with
                reservedSubnets := reserve (some network) allocator.reservedSubnets })

def reserveSubnet (subnet : Option IPNet) : CombinedAllocator :=
  { allocator with reservedSubnets := reserve subnet allocator.reservedSubnets }

def removePoolSubnet (pools : List PoolSubnet) (normalized : ReservedSubnet) : List PoolSubnet :=
  pools.eraseP fun pool =>
    pool.prefixLen = normalized.prefixLen ∧ ipEqual pool.network.ip normalized.network.ip

def setFamily (pools : Family → List PoolSubnet) (bits : Family) (members : List PoolSubnet) :
    Family → List PoolSubnet :=
  fun family => if family = bits then members else pools family

def setPools (pools : List PoolSubnet) : CombinedAllocator :=
  { allocator with poolSubnets := setFamily allocator.poolSubnets bits pools }

def freeSubnet (subnet : Option IPNet) : CombinedAllocator :=
  match normalizeSubnet subnet with
  | none => allocator
  | some normalized =>
    let (reservedSubnets, last) := allocator.reservedSubnets.release normalized.key
    let allocator := { allocator with reservedSubnets := reservedSubnets }
    if last then
      allocator.setPools normalized.bits
        (removePoolSubnet (allocator.poolSubnets normalized.bits) normalized)
    else
      allocator

def freeAllSubnets : CombinedAllocator :=
  { allocator with reservedSubnets := ∅, poolSubnets := fun _ => [] }

def reserveIP (ip : IP) : CombinedAllocator :=
  match normalizeAnyIP ip with
  | none => allocator
  | some normalized =>
    { allocator with
      reservedIPs := allocator.reservedIPs.retain (ipReservationKey normalized) normalized }

def poolSubnetHasReservedIP (reservedIPs : IPTable) (pool : PoolSubnet) : Bool :=
  reservedIPs.items.any fun reserved =>
    reserved.bits = pool.bits ∧ contains pool.network reserved.ip

def prunePool (state : List PoolSubnet × SubnetTable) (index : ℕ) : List PoolSubnet × SubnetTable :=
  match state.1[index]? with
  | none => state
  | some pool =>
    (state.1.eraseIdx index, match normalizeSubnet (some pool.network) with
      | some normalized => (state.2.release normalized.key).1
      | none => state.2)

def pruneEmptyPoolSubnets : CombinedAllocator :=
  let pools := allocator.poolSubnets bits
  let empty := (List.range pools.length).filter fun index =>
    (pools[index]?).all fun pool => !poolSubnetHasReservedIP allocator.reservedIPs pool
  if empty.length ≤ 1 then
    allocator
  else
    let (pools, reservedSubnets) :=
      (empty.drop 1).reverse.foldl prunePool (pools, allocator.reservedSubnets)
    { allocator with reservedSubnets := reservedSubnets }.setPools bits pools

def freeIP (ip : IP) : CombinedAllocator :=
  match normalizeAnyIP ip with
  | none => allocator
  | some normalized =>
    { allocator with
      reservedIPs := (allocator.reservedIPs.release (ipReservationKey normalized)).1
    }.pruneEmptyPoolSubnets normalized.bits

def freeAllIP : CombinedAllocator :=
  ({ allocator with reservedIPs := ∅ }.pruneEmptyPoolSubnets .v4).pruneEmptyPoolSubnets .v6

structure PoolsAttempt where
  result : Option (IP × IPNet)
  attempts : ℕ
  reserved : IPTable
  pools : List PoolSubnet

def allocIPFromPool (filter : Option IPFilter) (banned : IPTable) :
    List PoolSubnet → ℕ → IPTable → PoolsAttempt
  | [], attempts, reserved => ⟨none, attempts, reserved, []⟩
  | pool :: rest, attempts, reserved =>
    let tried := tryAllocFromPoolSubnet filter banned pool attempts reserved
    match tried.ip with
    | some ip => ⟨some (ip, pool.network), tried.attempts, tried.reserved, tried.pool :: rest⟩
    | none =>
      if maxFilteredAllocationAttempts ≤ tried.attempts then
        ⟨none, tried.attempts, tried.reserved, tried.pool :: rest⟩
      else
        let others := allocIPFromPool filter banned rest tried.attempts tried.reserved
        { others with pools := tried.pool :: others.pools }

def poolPrefix : Family → ℤ
  | .v4 => allocator.poolPrefix4
  | .v6 => allocator.poolPrefix6

def growPool (choices : Choices) (attempts : ℕ) : Option (IP × IPNet) × CombinedAllocator :=
  match allocator.allocSubnet bits (allocator.poolPrefix bits) choices with
  | (none, allocator) => (none, allocator)
  | (some network, allocator) =>
    match newCombinedPoolSubnet network with
    | none =>
      match normalizeSubnet (some network) with
      | none => (none, allocator)
      | some normalized =>
        (none, { allocator with
            reservedSubnets := (allocator.reservedSubnets.release normalized.key).1 })
    | some pool =>
      let tried := tryAllocFromPoolSubnet choices.ipFilter allocator.bannedIPs pool attempts
        allocator.reservedIPs
      (tried.ip.map fun ip => (ip, pool.network),
        { allocator with reservedIPs := tried.reserved }.setPools bits
          (allocator.poolSubnets bits ++ [tried.pool]))

def allocIP (choices : Choices) : Option (IP × IPNet) × CombinedAllocator :=
  match allocator.parents bits with
  | none => (none, allocator)
  | some _ =>
    let tried := allocIPFromPool choices.ipFilter allocator.bannedIPs
      (allocator.poolSubnets bits) 0 allocator.reservedIPs
    let allocator := { allocator with reservedIPs := tried.reserved }.setPools bits tried.pools
    if tried.result.isSome ∨ maxFilteredAllocationAttempts ≤ tried.attempts then
      (tried.result, allocator)
    else
      allocator.growPool bits choices tried.attempts

inductive Call where
  | reserveSubnet (subnet : Option IPNet)
  | allocSubnet (family : Family) (prefixLen : ℤ)
  | freeSubnet (subnet : Option IPNet)
  | freeAllSubnets
  | reserveIP (ip : IP)
  | allocIP (family : Family)
  | freeIP (ip : IP)
  | freeAllIP

structure Event where
  call : Call
  choices : Choices
  subnet : Option IPNet
  ip : Option (IP × IPNet)

def perform (choices : Choices) : Call → (Option IPNet × Option (IP × IPNet)) × CombinedAllocator
  | .reserveSubnet subnet => ((none, none), allocator.reserveSubnet subnet)
  | .allocSubnet family prefixLen =>
    let (subnet, after) := allocator.allocSubnet family prefixLen choices
    ((subnet, none), after)
  | .freeSubnet subnet => ((none, none), allocator.freeSubnet subnet)
  | .freeAllSubnets => ((none, none), allocator.freeAllSubnets)
  | .reserveIP ip => ((none, none), allocator.reserveIP ip)
  | .allocIP family =>
    let (ip, after) := allocator.allocIP family choices
    ((none, ip), after)
  | .freeIP ip => ((none, none), allocator.freeIP ip)
  | .freeAllIP => ((none, none), allocator.freeAllIP)

def Step (before : CombinedAllocator) (event : Event) (after : CombinedAllocator) : Prop :=
  before.perform event.choices event.call = ((event.subnet, event.ip), after)

theorem step_allocIP (family : Family) (choices : Choices) :
    Step allocator ⟨.allocIP family, choices, none, (allocator.allocIP family choices).1⟩
      (allocator.allocIP family choices).2 :=
  rfl

structure Ledger where
  subnets : Cidr → ℕ
  ips : Cidr → ℕ

namespace Ledger

def empty : Ledger where
  subnets := fun _ => 0
  ips := fun _ => 0

variable (ledger : Ledger) (history : List Event)

def addSubnet (subnet : Option IPNet) : Ledger :=
  { ledger with subnets := fun cidr => ledger.subnets cidr + if Denotes subnet cidr then 1 else 0 }

def addIP (ip : IP) : Ledger :=
  { ledger with ips := fun host => ledger.ips host + if DenotesIP ip host then 1 else 0 }

def record (event : Event) : Ledger :=
  match event.call with
  | .reserveSubnet subnet => ledger.addSubnet subnet
  | .allocSubnet _ _ => ledger.addSubnet event.subnet
  | .freeSubnet subnet =>
    { ledger with
      subnets := fun cidr => ledger.subnets cidr - if Denotes subnet cidr then 1 else 0 }
  | .freeAllSubnets => { ledger with subnets := fun _ => 0 }
  | .reserveIP ip => ledger.addIP ip
  | .allocIP _ =>
    match event.ip with
    | some (ip, _) => ledger.addIP ip
    | none => ledger
  | .freeIP ip =>
    { ledger with ips := fun host => ledger.ips host - if DenotesIP ip host then 1 else 0 }
  | .freeAllIP => { ledger with ips := fun _ => 0 }

def ofHistory : Ledger :=
  history.foldl record empty

theorem ofHistory_snoc (event : Event) :
    ofHistory (history ++ [event]) = (ofHistory history).record event := by
  simp [ofHistory]

end Ledger

variable (config : CombinedConfig)

/-- The reservations count what the callers hold and the pools of the allocator. -/
structure SubnetPart (counts : Cidr → ℕ) (reserved : SubnetTable)
    (pools : Family → List PoolSubnet) : Prop where
  sound : reserved.Sound
  counted : ∀ cidr, reserved.count cidr.key =
    counts cidr + (pools cidr.family).countP (·.key = cidr.key)
  represented : ∀ family, ∀ pool ∈ pools family, ∃ cidr, pool.Represents cidr ∧
    cidr.family = family ∧ ∃ outer, Denotes (config.parent family) outer ∧ cidr.Inside outer
  apart : ∀ family, (pools family).Pairwise
    fun left right => ¬left.interval.Overlaps right.interval

structure IPPart (counts : Cidr → ℕ) (reserved : IPTable) : Prop where
  sound : reserved.Sound
  counted : ∀ host, reserved.count host.key = counts host

structure BanPart (bannedSubnets : SubnetTable) (bannedIPs : IPTable) : Prop where
  subnetsSound : bannedSubnets.Sound
  ipsSound : bannedIPs.Sound
  subnets : ∀ cidr, 0 < bannedSubnets.count cidr.key ↔
    ∃ subnet ∈ config.bannedSubnets, Denotes subnet cidr
  ips : ∀ host, 0 < bannedIPs.count host.key ↔ ∃ ip ∈ config.bannedIPs, DenotesIP ip host

structure Invariant (ledger : Ledger) (allocator : CombinedAllocator) : Prop where
  parents : ∀ family, allocator.parents family = addParent (config.parent family) family
  subnets : SubnetPart config ledger.subnets allocator.reservedSubnets allocator.poolSubnets
  ips : IPPart ledger.ips allocator.reservedIPs
  bans : BanPart config allocator.bannedSubnets allocator.bannedIPs

def Blocked (cidr : Cidr) : Prop :=
  0 < allocator.reservedSubnets.count cidr.key ∨ 0 < allocator.bannedSubnets.count cidr.key ∨
    0 < allocator.reservedIPs.count cidr.key ∨ 0 < allocator.bannedIPs.count cidr.key

end CombinedAllocator

end Gonnect.Subnet
