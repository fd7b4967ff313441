import Gonnect.Subnet.CombinedComplete

/-!
# The two families of the combined allocator

The allocator tells the families apart by the number of bits. A block of an IPv6 parent is
compared with the IPv6 reservations only, even if it consists of IPv4-mapped addresses, and
an IPv4 block is not compared with a reserved IPv6 subnet that holds its mapped addresses.
-/

namespace Gonnect.Subnet.CombinedAllocator

open BigEndian Net List Option PoolSubnet

variable (config : CombinedConfig) (ledger : Ledger) (allocator : CombinedAllocator)
  (family : Family) (prefixLen : ℤ)

/-- What an allocation has to avoid, in the terms of the callers. -/
def Taken (other : Cidr) : Prop :=
  0 < ledger.subnets other ∨ (∃ pool ∈ allocator.poolSubnets other.family, pool.key = other.key) ∨
    (∃ subnet ∈ config.bannedSubnets, Denotes subnet other) ∨
    0 < ledger.ips other ∨ ∃ ip ∈ config.bannedIPs, DenotesIP ip other

/-- A block of the parent with the length that overlaps nothing that is taken. -/
structure Vacant (cidr : Cidr) : Prop where
  length : (cidr.prefixLen : ℤ) = prefixLen
  inside : ∃ outer, Denotes (config.parent family) outer ∧ outer.family = family ∧ cidr.Inside outer
  free : ∀ other, Taken config ledger allocator other → ¬cidr.Overlaps other

/-- A block that overlaps nothing of its own family overlaps nothing at all. -/
def FamiliesApart : Prop :=
  ∀ outer cidr : Cidr, Denotes (config.parent family) outer → outer.family = family →
    cidr.Inside outer → (cidr.prefixLen : ℤ) = prefixLen →
    (∀ other, Taken config ledger allocator other → other.family = family →
      ¬cidr.Overlaps other) →
    ∀ other, Taken config ledger allocator other → ¬cidr.Overlaps other

structure Safe : Prop where
  subnets : ∀ family prefixLen choices subnet,
    (allocator.allocSubnet family prefixLen choices).1 = some subnet →
      ∃ cidr : Cidr, subnet = cidr.toIPNet ∧ Vacant config ledger allocator family prefixLen cidr
  ips : ∀ family choices ip network, (allocator.allocIP family choices).1 = some (ip, network) →
    ∃ host, DenotesIP ip host ∧
      SafeIP config ledger (allocator.allocIP family choices).2 family network host
  pools : (allocator.poolSubnets .v4 ++ allocator.poolSubnets .v6).Pairwise fun left right =>
    ¬(Cidr.embed left.bits left.interval).Overlaps (Cidr.embed right.bits right.interval)
  counted : ∀ family, ∀ pool ∈ allocator.poolSubnets family,
    0 < allocator.reservedSubnets.count pool.key

/-- The condition holds in every state that the run of these calls goes through. -/
def Along (history : List Event) (condition : Ledger → CombinedAllocator → Prop) : Prop :=
  ∀ front rest state, front ++ rest = history →
    Run Step (newCombinedAllocator config) front state → condition (.ofHistory front) state

def AlwaysApart (history : List Event) : Prop :=
  Along config history fun ledger allocator =>
    ∀ family prefixLen, FamiliesApart config ledger allocator family prefixLen

variable {config ledger allocator family prefixLen} {before after : CombinedAllocator} {cidr : Cidr}
  {history : List Event}

theorem Invariant.blocked_iff (invariant : Invariant config ledger allocator) (other : Cidr) :
    allocator.Blocked other ↔ Taken config ledger allocator other := by
  rw [Blocked, invariant.subnets.counted, invariant.bans.subnets, invariant.ips.counted,
    invariant.bans.ips, Nat.add_pos_iff_pos_or_pos, countP_pos_iff]
  simp only [Taken, decide_eq_true_eq]
  exact or_assoc

section

variable (invariant : Invariant config ledger allocator)

include invariant

theorem Invariant.suitable_vacant (apart : FamiliesApart config ledger allocator family prefixLen)
    (suitable : Suitable config allocator family prefixLen cidr) :
    Vacant config ledger allocator family prefixLen cidr := by
  have own := suitable.sameFamily
  rcases suitable with ⟨outer, denotes, outerFamily, length, inside, free⟩
  refine ⟨length, ⟨outer, denotes, outerFamily, inside⟩,
    apart outer cidr denotes outerFamily inside length fun other taken same => ?_⟩
  have sameFamily := own.trans same.symm
  rw [Cidr.overlaps_iff sameFamily]
  exact free other ((invariant.blocked_iff other).mpr taken) sameFamily

theorem Invariant.allocSubnet_vacant {choices : Choices} {subnet : IPNet}
    (apart : FamiliesApart config ledger allocator family prefixLen)
    (returned : (allocator.allocSubnet family prefixLen choices).1 = some subnet) :
    ∃ cidr : Cidr, subnet = cidr.toIPNet ∧
      Vacant config ledger allocator family prefixLen cidr := by
  rcases invariant.allocSubnet_spec family prefixLen choices with
    nothing | ⟨outer, cidr, denotes, outerFamily, grants, granted⟩
  · rw [nothing] at returned
    cases returned
  · rw [granted] at returned
    cases returned
    exact ⟨cidr, rfl, invariant.suitable_vacant apart ⟨outer, denotes, outerFamily, grants⟩⟩

theorem Invariant.familiesApart_of_vacant
    (vacant : ∀ draw subnet,
      (allocator.allocSubnet family prefixLen ⟨draw, none, none⟩).1 = some subnet →
        ∃ cidr : Cidr, subnet = cidr.toIPNet ∧
          Vacant config ledger allocator family prefixLen cidr) :
    FamiliesApart config ledger allocator family prefixLen := by
  intro outer cidr denotes outerFamily inside length own other taken
  have suitable : Suitable config allocator family prefixLen cidr := by
    refine ⟨outer, denotes, outerFamily, length, inside, fun other blocked same => ?_⟩
    rw [← Cidr.overlaps_iff same]
    exact own other ((invariant.blocked_iff other).mp blocked)
      (same.symm.trans (inside.1.trans outerFamily))
  rcases invariant.allocSubnet_picks suitable with ⟨draw, picked⟩
  rcases vacant draw _ picked with ⟨granted, same, isVacant⟩
  cases (denotes_toIPNet granted).unique (same ▸ denotes_toIPNet cidr)
  exact isVacant.free other taken

end

def CrossApart (allocator : CombinedAllocator) : Prop :=
  ∀ left ∈ allocator.poolSubnets .v4, ∀ right ∈ allocator.poolSubnets .v6,
    ¬(Cidr.embed .v4 left.interval).Overlaps (Cidr.embed .v6 right.interval)

theorem CrossApart.step (cross : before.CrossApart) (invariant : Invariant config ledger before)
    (apart : ∀ family prefixLen, FamiliesApart config ledger before family prefixLen)
    (pools : PoolsFrom config before after) : after.CrossApart := by
  -- a suitable block against a pool that exists
  have newOld : ∀ {family other : Family} {prefixLen : ℤ} {cidr : Cidr},
      Suitable config before family prefixLen cidr → ∀ pool ∈ before.poolSubnets other,
      ¬(Cidr.embed family cidr.interval).Overlaps (Cidr.embed other pool.interval) := by
    intro family other prefixLen cidr suitable pool member
    rcases invariant.subnets.represented other pool member with ⟨block, represents, rfl, _⟩
    have taken : Taken config ledger before block := .inr (.inl ⟨pool, member, represents.key⟩)
    rw [represents.interval, ← suitable.sameFamily]
    exact (invariant.suitable_vacant (apart _ _) suitable).free block taken
  intro left leftMember right rightMember overlap
  rcases pools.pools with ⟨grown, from_⟩
  rcases from_ .v4 left leftMember with oldLeft | ⟨same, _, _, suitable, interval⟩
  · rcases mem_map.mp oldLeft with ⟨earlier, member, equal⟩
    rw [← equal] at overlap
    rcases from_ .v6 right rightMember with oldRight | ⟨_, _, _, suitable, interval⟩
    · rcases mem_map.mp oldRight with ⟨other, otherMember, otherEqual⟩
      rw [← otherEqual] at overlap
      exact cross earlier member other otherMember overlap
    · rw [interval] at overlap
      exact newOld suitable earlier member overlap.symm
  · rcases from_ .v6 right rightMember with oldRight | ⟨other, _⟩
    · rcases mem_map.mp oldRight with ⟨earlier, member, equal⟩
      rw [interval, ← equal] at overlap
      exact newOld suitable earlier member overlap
    · cases same.trans other.symm

theorem AlwaysApart.front {front rest : List Event} (apart : AlwaysApart config (front ++ rest)) :
    AlwaysApart config front := by
  intro earlier between state split
  exact apart earlier (between ++ rest) state (by rw [← split, append_assoc])

theorem crossApart_of_run (run : Run Step (newCombinedAllocator config) history allocator)
    (apart : AlwaysApart config history) : allocator.CrossApart := by
  induction run with
  | nil =>
    intro left member
    cases member
  | snoc earlier taken ih =>
    have invariant := invariant_of_run earlier
    exact (ih apart.front).step invariant (apart _ _ _ rfl earlier)
      (poolsFrom_step invariant taken)

theorem pools_pairwise (invariant : Invariant config ledger allocator)
    (cross : allocator.CrossApart) :
    (allocator.poolSubnets .v4 ++ allocator.poolSubnets .v6).Pairwise fun left right =>
      ¬(Cidr.embed left.bits left.interval).Overlaps
        (Cidr.embed right.bits right.interval) := by
  have bits : ∀ family, ∀ pool ∈ allocator.poolSubnets family, pool.bits = family := by
    intro family pool member
    rcases invariant.subnets.represented family pool member with ⟨cidr, represents, rfl, _⟩
    exact represents.bits
  have within : ∀ family, (allocator.poolSubnets family).Pairwise fun left right =>
      ¬(Cidr.embed left.bits left.interval).Overlaps
        (Cidr.embed right.bits right.interval) := by
    intro family
    refine (invariant.subnets.apart family).imp_of_mem fun leftMember rightMember apart => ?_
    rwa [bits family _ leftMember, bits family _ rightMember, Cidr.embed_overlaps]
  refine pairwise_append.mpr ⟨within .v4, within .v6, fun left leftMember right rightMember => ?_⟩
  rw [bits _ _ leftMember, bits _ _ rightMember]
  exact cross left leftMember right rightMember

/-- In every state of a run, allocations are safe and the pools are apart, exactly if in every
state a block that overlaps nothing of its own family overlaps nothing at all. -/
theorem allocations_safe_iff (config : CombinedConfig) (history : List Event) :
    Along config history (Safe config) ↔ AlwaysApart config history := by
  constructor
  · intro safe front rest state split run family prefixLen
    apply (invariant_of_run run).familiesApart_of_vacant
    exact fun draw => (safe front rest state split run).subnets family prefixLen _
  · rintro apart front rest state rfl run
    have invariant := invariant_of_run run
    exact ⟨fun family prefixLen _ _ =>
        invariant.allocSubnet_vacant (apart front rest state rfl run family prefixLen),
      fun _ _ _ _ => invariant.safeIP,
      pools_pairwise invariant (crossApart_of_run run apart.front),
      fun _ _ => invariant.subnets.pool_counted⟩

def mappedConfig : CombinedConfig :=
  ⟨none, some ⟨[0, 0, 0, 0, 0, 0, 0, 0, 0, 0, 255, 255, 10, 0, 0, 0], cidrMask 120 .v6⟩, 24, 124,
    [], []⟩

/-- The address `::ffff:10.0.0.5` is reserved in the parent `::ffff:10.0.0.0/120`, and the whole
parent is allocated nevertheless. -/
theorem mapped_address_allocated :
    let event : Event := ⟨.reserveIP [0, 0, 0, 0, 0, 0, 0, 0, 0, 0, 255, 255, 10, 0, 0, 5],
      ⟨0, none, none⟩, none, none⟩
    ∃ allocator host, ∃ cidr : Cidr, Run Step (newCombinedAllocator mappedConfig) [event] allocator ∧
      (allocator.allocSubnet .v6 120 ⟨0, none, none⟩).1 = some cidr.toIPNet ∧
      0 < (Ledger.ofHistory [event]).ips host ∧ cidr.Overlaps host := by
  intro event
  exact ⟨_, hostCidr .v4 0x0a000005 (by decide),
    ⟨.v6, 120, 0xffff0a000000, by decide, by decide, by decide⟩,
    Run.single (rfl : Step _ event _), by decide +kernel, by decide +kernel, by decide +kernel⟩

/-- After every run: from every start of the scan an allocation without a filter returns a
vacant block if there is one, and nothing otherwise, exactly if a block that overlaps nothing of
its own family overlaps nothing at all. -/
theorem allocSubnet_found_iff {config : CombinedConfig} {history : List Event}
    {allocator : CombinedAllocator}
    (run : Run Step (newCombinedAllocator config) history allocator) (family : Family)
    (prefixLen : ℤ) :
    (∀ choices : Choices, choices.subnetFilter = none →
      ((∃ cidr, Vacant config (.ofHistory history) allocator family prefixLen cidr) →
        (allocator.allocSubnet family prefixLen choices).1.isSome) ∧
      ∀ subnet, (allocator.allocSubnet family prefixLen choices).1 = some subnet →
        ∃ cidr : Cidr, subnet = cidr.toIPNet ∧
          Vacant config (.ofHistory history) allocator family prefixLen cidr) ↔
    FamiliesApart config (.ofHistory history) allocator family prefixLen := by
  have invariant := invariant_of_run run
  constructor
  · intro found
    exact invariant.familiesApart_of_vacant fun draw => (found ⟨draw, none, none⟩ rfl).2
  · intro apart choices unfiltered
    refine ⟨?_, fun _ => invariant.allocSubnet_vacant apart⟩
    rintro ⟨cidr, length, ⟨outer, denotes, outerFamily, inside⟩, free⟩
    refine invariant.allocSubnet_complete denotes outerFamily
      ⟨length, inside, fun other blocked same => ?_⟩ unfiltered
    rw [← Cidr.overlaps_iff same]
    exact free other ((invariant.blocked_iff other).mp blocked)

/-- With the lower half of `10.0.0.0/24` reserved, a block of four is found. -/
theorem allocSubnet_found_upper :
    let event : Event := ⟨.reserveSubnet (some ⟨[10, 0, 0, 0], [255, 255, 255, 128]⟩),
      ⟨0, none, none⟩, none, none⟩
    let allocator := ((newCombinedAllocator smallConfig).perform event.choices event.call).2
    ∃ cidr : Cidr, (allocator.allocSubnet .v4 30 ⟨9, none, none⟩).1 = some cidr.toIPNet ∧
      Vacant smallConfig (.ofHistory [event]) allocator .v4 30 cidr := by
  intro event allocator
  have run : Run Step (newCombinedAllocator smallConfig) [event] allocator :=
    Run.single (rfl : Step _ event _)
  have apart : FamiliesApart smallConfig (.ofHistory [event]) allocator .v4 30 := by
    intro outer cidr _ _ _ _ own other taken
    refine own other taken ?_
    have active : 0 < 0 + if Denotes (some ⟨[10, 0, 0, 0], [255, 255, 255, 128]⟩) other
        then 1 else 0 := by
      rcases taken with active | ⟨_, none, _⟩ | ⟨_, none, _⟩ | none | ⟨_, none, _⟩
      · exact active
      all_goals cases none
    split_ifs at active with denotes
    · cases family : other.family with
      | v4 => rfl
      | v6 =>
        rw [Denotes, family] at denotes
        cases (Prod.ext_iff.mp denotes.1).2
    · cases active
  have found : (allocator.allocSubnet .v4 30 ⟨9, none, none⟩).1 =
      some ⟨[10, 0, 0, 128], [255, 255, 255, 252]⟩ := by
    decide +kernel
  rcases ((allocSubnet_found_iff run .v4 30).mpr apart ⟨9, none, none⟩ rfl).2 _ found with
    ⟨cidr, same, vacant⟩
  exact ⟨cidr, same ▸ found, vacant⟩

/-- The IPv6 network `::ffff:10.0.0.0/120` is reserved, and `10.0.0.0/24` is allocated. -/
theorem mapped_subnet_allocated :
    let mapped : IPNet :=
      ⟨[0, 0, 0, 0, 0, 0, 0, 0, 0, 0, 255, 255, 10, 0, 0, 0], cidrMask 120 .v6⟩
    ∃ history allocator other, ∃ cidr : Cidr,
      Run Step (newCombinedAllocator smallConfig) history allocator ∧
      (allocator.allocSubnet .v4 24 ⟨0, none, none⟩).1 = some cidr.toIPNet ∧
      Denotes (some mapped) other ∧ allocator.Blocked other ∧ cidr.Overlaps other := by
  intro mapped
  exact ⟨_, _, ⟨.v6, 120, 0xffff0a000000, by decide, by decide, by decide⟩,
    ⟨.v4, 24, 0x0a000000, by decide, by decide, by decide⟩,
    Run.single (rfl : Step _ ⟨.reserveSubnet (some mapped), ⟨0, none, none⟩, none, none⟩ _),
    by decide +kernel, by decide +kernel, .inl (by decide +kernel), by decide +kernel⟩

end Gonnect.Subnet.CombinedAllocator
