import Gonnect.Subnet.CombinedSafety
import Gonnect.Subnet.PoolScan

/-!
# Runs of the combined allocator

The address operations and the constructor keep their parts of the invariant, and with
them every step of a run keeps the whole invariant. `allocations_safe_and_pools_apart`
then states what a caller relies on.
-/

namespace Gonnect.Subnet.CombinedAllocator

open BigEndian Net List Option PoolSubnet RefTable

variable {config : CombinedConfig} {counts : Cidr → ℕ} {cidr : Cidr} {ledger : Ledger}
  {allocator : CombinedAllocator}

theorem allocIPFromPool_picked {filter : Option IPFilter} {banned reserved : IPTable}
    {pools : List PoolSubnet} {attempts : ℕ}
    (represented : ∀ pool ∈ pools, ∃ cidr, pool.Represents cidr)
    (more : attempts < maxFilteredAllocationAttempts) :
    ((allocIPFromPool filter banned pools attempts reserved).result.map Prod.fst,
        (allocIPFromPool filter banned pools attempts reserved).attempts) =
      Scan.pick (grantedAt filter banned reserved) maxFilteredAllocationAttempts
        (pools.flatMap visited) attempts := by
  induction pools generalizing attempts with
  | nil => rfl
  | cons pool rest ih =>
    rcases represented pool mem_cons_self with ⟨cidr, represents⟩
    have scanned := @tryAllocFromPoolSubnet_picked pool cidr filter banned reserved attempts more
      represents
    rcases tryAllocFromPoolSubnet_spec filter banned reserved attempts represents with
      ⟨_, _, outcome⟩
    rw [flatMap_cons, Scan.pick_append, ← scanned]
    rcases outcome with ⟨nothing, same⟩ | ⟨ip, found, _⟩
    · simp only [allocIPFromPool, nothing]
      split_ifs with spent
      · rw [Scan.pick_spent spent]
        rfl
      · rw [same]
        exact ih (fun other member => represented other (by simp [member]))
          (Nat.lt_of_not_le spent)
    · simp [allocIPFromPool, found]

theorem SubnetPart.grow {reserved : SubnetTable} {pools : Family → List PoolSubnet}
    (part : SubnetPart config counts reserved pools) {pool : PoolSubnet} {outer : Cidr}
    (represents : pool.Represents cidr) (parent : Denotes (config.parent cidr.family) outer)
    (inside : cidr.Inside outer)
    (free : ∀ other : Cidr, 0 < reserved.count other.key → cidr.Disjoint other) :
    SubnetPart config counts (Subnet.reserve (some cidr.toIPNet) reserved)
      (setFamily pools cidr.family (pools cidr.family ++ [pool])) := by
  refine ⟨reserve_sound part.sound _, ?_, ?_, ?_⟩
  · intro other
    rw [count_reserve, part.counted]
    simp only [(denotes_toIPNet cidr).iff_eq]
    by_cases sameFamily : other.family = cidr.family
    · simp only [setFamily, sameFamily, if_true, countP_append, countP_singleton,
        represents.key, decide_eq_true_eq, Cidr.key_inj]
      omega
    · have different : ¬cidr = other := by
        rintro rfl
        exact sameFamily rfl
      simp only [setFamily, if_neg sameFamily, if_neg different]
      omega
  · intro family member isMember
    by_cases same : family = cidr.family
    · subst same
      simp only [setFamily, if_true, mem_append, mem_singleton] at isMember
      rcases isMember with old | rfl
      · exact part.represented _ member old
      · exact ⟨cidr, represents, rfl, outer, parent, inside⟩
    · simp only [setFamily, if_neg same] at isMember
      exact part.represented family member isMember
  · intro family
    by_cases same : family = cidr.family
    · subst same
      simp only [setFamily, if_true]
      rw [pairwise_append]
      refine ⟨part.apart _, pairwise_singleton _ _, ?_⟩
      intro old oldMember new newMember overlap
      rw [mem_singleton] at newMember
      subst newMember
      rcases part.represented _ old oldMember with ⟨block, oldRepresents, blockFamily, _⟩
      have counted := part.pool_counted oldMember
      rw [oldRepresents.key] at counted
      rw [oldRepresents.interval, represents.interval] at overlap
      exact free block counted blockFamily.symm overlap.symm
    · simpa only [setFamily, if_neg same] using part.apart family

theorem allocIPFromPool_spec (filter : Option IPFilter) (banned : IPTable) {good : Cidr → Prop}
    {pools : List PoolSubnet} (attempts : ℕ) (reserved : IPTable)
    (represented : ∀ pool ∈ pools, ∃ cidr, pool.Represents cidr ∧ good cidr) :
    let tried := allocIPFromPool filter banned pools attempts reserved
    (∀ pool ∈ tried.pools, ∃ cidr, pool.Represents cidr ∧ good cidr) ∧
      tried.pools.map key = pools.map key ∧
      tried.pools.map interval = pools.map interval ∧
      (tried.result = none ∧ tried.reserved = reserved ∨
        ∃ ip pool cidr, tried.result = some (ip, pool.network) ∧ pool ∈ tried.pools ∧
          pool.Represents cidr ∧ good cidr ∧ HandsOut banned reserved cidr ip tried.reserved) := by
  induction pools generalizing attempts reserved with
  | nil => exact ⟨by simp [allocIPFromPool], rfl, rfl, .inl ⟨rfl, rfl⟩⟩
  | cons pool rest ih =>
    rcases represented pool mem_cons_self with ⟨cidr, represents, isGood⟩
    have restRepresented : ∀ other ∈ rest, ∃ cidr, other.Represents cidr ∧ good cidr := by
      intro other member
      exact represented other (mem_cons_of_mem _ member)
    rcases tryAllocFromPoolSubnet_spec filter banned reserved attempts represents with
      ⟨kept, network, outcome⟩
    have sameKey := kept.key.trans represents.key.symm
    have sameInterval := kept.interval.trans represents.interval.symm
    rcases outcome with ⟨nothing, same⟩ | ⟨ip, found, handsOut⟩
    · by_cases spent : maxFilteredAllocationAttempts ≤
          (tryAllocFromPoolSubnet filter banned pool attempts reserved).attempts
      · simp only [allocIPFromPool, nothing, if_pos spent, map_cons, sameKey, sameInterval,
          mem_cons, forall_eq_or_imp]
        exact ⟨⟨⟨cidr, kept, isGood⟩, restRepresented⟩, trivial, trivial, .inl ⟨trivial, same⟩⟩
      · rcases ih (tryAllocFromPoolSubnet filter banned pool attempts reserved).attempts
          (tryAllocFromPoolSubnet filter banned pool attempts reserved).reserved
          restRepresented with ⟨all, keys, intervals, restOutcome⟩
        simp only [allocIPFromPool, nothing, if_neg spent, map_cons, sameKey, sameInterval,
          mem_cons, forall_eq_or_imp, keys, intervals]
        refine ⟨⟨⟨cidr, kept, isGood⟩, all⟩, trivial, trivial, ?_⟩
        rcases restOutcome with ⟨none, unchanged⟩ |
          ⟨ip, other, block, result, member, rep, restGood,
          handsOut⟩
        · exact .inl ⟨none, unchanged.trans same⟩
        · rw [same] at handsOut
          exact .inr ⟨ip, other, block, result, .inr member, rep, restGood, by
            rw [same]; exact handsOut⟩
    · simp only [allocIPFromPool, found, map_cons, sameKey, sameInterval,
        mem_cons, forall_eq_or_imp]
      refine ⟨⟨⟨cidr, kept, isGood⟩, restRepresented⟩, trivial, trivial, .inr ?_⟩
      exact ⟨ip, _, cidr, by rw [network], .inl rfl, kept, isGood, handsOut⟩

variable {ip : IP} {host : Cidr} {family : Family} {choices : Choices}

theorem denotesIP_key_iff (denotes : DenotesIP ip host) (other : Cidr) :
    DenotesIP ip other ↔ other.key = host.key := by
  constructor
  · intro same
    rw [same.unique denotes]
  · intro keys
    rw [Cidr.key_injective keys]
    exact denotes

theorem IPPart.reserve (part : IPPart counts allocator.reservedIPs) (ip : IP) :
    IPPart (fun host => counts host + if DenotesIP ip host then 1 else 0)
      (allocator.reserveIP ip).reservedIPs := by
  cases normal : normalizeAnyIP ip with
  | none =>
    simpa [reserveIP, normal, normalizeAnyIP_none normal] using part
  | some normalized =>
    rcases normalizeAnyIP_some normal with ⟨host, denotes, represents⟩
    simp only [reserveIP, normal]
    refine ⟨RefTable.All.retain part.sound ⟨host, represents.key, represents⟩, ?_⟩
    intro other
    rw [count_retain, represents.key]
    simp only [denotesIP_key_iff denotes]
    split_ifs with same
    · rw [Cidr.key_injective same, part.counted]
    · rw [part.counted, add_zero]

theorem IPPart.release {reserved : IPTable} (part : IPPart counts reserved)
    {normalized : ReservedIP} (normal : normalizeAnyIP ip = some normalized) :
    IPPart (fun host => counts host - if DenotesIP ip host then 1 else 0)
      (reserved.release (ipReservationKey normalized)).1 := by
  rcases normalizeAnyIP_some normal with ⟨host, denotes, represents⟩
  refine ⟨RefTable.All.release part.sound _, ?_⟩
  intro other
  rw [count_release, represents.key]
  simp only [denotesIP_key_iff denotes]
  split_ifs with same
  · rw [Cidr.key_injective same, part.counted]
  · rw [part.counted, Nat.sub_zero]

theorem IPPart.handOut {banned reserved reserved' : IPTable} (part : IPPart counts reserved)
    (handsOut : HandsOut banned reserved cidr ip reserved') :
    IPPart (fun host => counts host + if DenotesIP ip host then 1 else 0) reserved' := by
  rcases handsOut with ⟨host, item, denotes, _, _, _, unused, _, represents, rfl⟩
  refine ⟨RefTable.All.insert part.sound ⟨host, rfl, represents⟩, ?_⟩
  intro other
  rw [RefTable.count_insert]
  simp only [denotesIP_key_iff denotes]
  split_ifs with same
  · rw [← part.counted, same, unused]
  · rw [part.counted, add_zero]

/-- What one ban does to its table: nothing, or the block that it means is counted once. -/
def Bans {α β : Type} (ban : RefTable SubnetKey α → β → RefTable SubnetKey α)
    (Stands : α → Cidr → Prop) (Means : β → Cidr → Prop) : Prop :=
  ∀ table entry, ban table entry = table ∧ (∀ cidr, ¬Means entry cidr) ∨
    ∃ item cidr, ban table entry = table.insert cidr.key ⟨item, 1, Nat.one_pos⟩ ∧
      Stands item cidr ∧ ∀ other, Means entry other ↔ other = cidr

theorem Bans.foldl {α β : Type} {ban : RefTable SubnetKey α → β → RefTable SubnetKey α}
    {Stands : α → Cidr → Prop} {Means : β → Cidr → Prop} (bans : Bans ban Stands Means)
    (entries : List β) {banned : RefTable SubnetKey α}
    (sound : banned.All fun key item => ∃ cidr : Cidr, key = cidr.key ∧ Stands item cidr) :
    (entries.foldl ban banned).All
        (fun key item => ∃ cidr : Cidr, key = cidr.key ∧ Stands item cidr) ∧
      ∀ cidr : Cidr, 0 < (entries.foldl ban banned).count cidr.key ↔
        0 < banned.count cidr.key ∨ ∃ entry ∈ entries, Means entry cidr := by
  induction entries generalizing banned with
  | nil => exact ⟨sound, fun cidr => by simp⟩
  | cons entry rest ih =>
    simp only [foldl_cons, exists_mem_cons_iff]
    rcases bans banned entry with ⟨same, nothing⟩ | ⟨item, block, inserted, stands, only⟩
    · rw [same]
      simpa [nothing] using ih sound
    · rw [inserted]
      have next := @RefTable.All.insert _ _ _ _ _ _ sound ⟨item, 1, Nat.one_pos⟩
        ⟨block, rfl, stands⟩
      rcases ih next with ⟨finalSound, finalCount⟩
      refine ⟨finalSound, fun cidr => ?_⟩
      rw [finalCount, RefTable.count_insert, only]
      split_ifs with same
      · simp [Cidr.key_injective same]
      · have other : cidr ≠ block := fun equal => same (congrArg Cidr.key equal)
        simp [other]

theorem bans_banSubnet : Bans banSubnet ReservedSubnet.Represents Denotes := by
  intro table subnet
  unfold banSubnet
  cases normal : normalizeSubnet subnet with
  | none => exact .inl ⟨rfl, normalizeSubnet_none normal⟩
  | some normalized =>
    rcases normalizeSubnet_some normal with ⟨cidr, denotes, represents⟩
    exact .inr ⟨normalized, cidr, by simp [represents.key], represents,
      fun other => ⟨fun same => same.unique denotes, fun same => same ▸ denotes⟩⟩

theorem bans_banIP : Bans banIP ReservedIP.Represents DenotesIP := by
  intro table ip
  unfold banIP
  cases normal : normalizeAnyIP ip with
  | none => exact .inl ⟨rfl, normalizeAnyIP_none normal⟩
  | some normalized =>
    rcases normalizeAnyIP_some normal with ⟨host, denotes, represents⟩
    exact .inr ⟨normalized, host, by simp [represents.key], represents,
      fun other => ⟨fun same => same.unique denotes, fun same => same ▸ denotes⟩⟩

theorem invariant_new (config : CombinedConfig) :
    Invariant config .empty (newCombinedAllocator config) := by
  rcases bans_banSubnet.foldl config.bannedSubnets sound_empty with ⟨subnetsSound, subnets⟩
  rcases bans_banIP.foldl config.bannedIPs (all_empty _) with ⟨ipsSound, ips⟩
  refine ⟨fun _ => rfl, ⟨sound_empty, ?_, ?_, ?_⟩, ⟨all_empty _, ?_⟩,
    ⟨subnetsSound, ipsSound, ?_, ?_⟩⟩
  · intro cidr
    simp [newCombinedAllocator, Ledger.empty]
  · intro family pool member
    simp [newCombinedAllocator] at member
  · intro family
    exact Pairwise.nil
  · intro host
    exact count_empty host.key
  · intro cidr
    simpa [newCombinedAllocator] using subnets cidr
  · intro host
    simpa [newCombinedAllocator] using ips host

structure AllocatedIP (config : CombinedConfig) (banned reserved : IPTable)
    (after : CombinedAllocator) (family : Family) (ip : IP) (network : IPNet) : Prop where
  fromPool : ∃ pool ∈ after.poolSubnets family, pool.network = network ∧
    ∃ cidr outer, pool.Represents cidr ∧ cidr.family = family ∧
      Denotes (config.parent family) outer ∧ cidr.Inside outer ∧
      HandsOut banned reserved cidr ip after.reservedIPs

section

variable (invariant : Invariant config ledger allocator)

include invariant

theorem Invariant.tryPools (family : Family) (filter : Option IPFilter) :
    let tried := allocIPFromPool filter allocator.bannedIPs (allocator.poolSubnets family) 0
      allocator.reservedIPs
    let after := { allocator with reservedIPs := tried.reserved }.setPools family tried.pools
    tried.result = none ∧ Invariant config ledger after ∧
        after.reservedIPs = allocator.reservedIPs ∨
      ∃ ip network, tried.result = some (ip, network) ∧
        Invariant config (ledger.addIP ip) after ∧
        AllocatedIP config allocator.bannedIPs allocator.reservedIPs after family ip network := by
  intro tried after
  rcases allocIPFromPool_spec filter allocator.bannedIPs 0 allocator.reservedIPs
    (invariant.subnets.represented family) with ⟨represented, keys, intervals, outcome⟩
  have subnets : SubnetPart config ledger.subnets allocator.reservedSubnets
      (setFamily allocator.poolSubnets family tried.pools) := by
    apply invariant.subnets.samePools
    · intro other
      by_cases same : other = family
      · simp only [setFamily, same]
        exact keys
      · simp [setFamily, if_neg same]
    · intro other
      by_cases same : other = family
      · simp only [setFamily, same]
        exact intervals
      · simp [setFamily, if_neg same]
    · intro other pool member
      by_cases same : other = family
      · subst same
        simp only [setFamily, if_true] at member
        exact represented pool member
      · simp only [setFamily, if_neg same] at member
        exact invariant.subnets.represented other pool member
  rcases outcome with ⟨nothing, unchanged⟩ | ⟨ip, pool, cidr, result, member, represents, good,
    handsOut⟩
  · left
    refine ⟨nothing, ⟨invariant.parents, subnets, ?_, invariant.bans⟩, unchanged⟩
    have ips := invariant.ips
    rw [← unchanged] at ips
    exact ips
  · right
    rcases good with ⟨cidrFamily, outer, parent, inside⟩
    refine ⟨ip, pool.network, result, ⟨invariant.parents, subnets, ?_, invariant.bans⟩, ?_⟩
    · exact invariant.ips.handOut handsOut
    · refine ⟨pool, ?_, rfl, cidr, outer, represents, cidrFamily, parent, inside, handsOut⟩
      simp only [after, setPools, setFamily, if_true]
      exact member

theorem growPool_spec (family : Family) (choices : Choices) (attempts : ℕ) :
    (allocator.growPool family choices attempts).1 = none ∧
        Invariant config ledger (allocator.growPool family choices attempts).2 ∨
      ∃ ip network, (allocator.growPool family choices attempts).1 = some (ip, network) ∧
        Invariant config (ledger.addIP ip) (allocator.growPool family choices attempts).2 ∧
        AllocatedIP config allocator.bannedIPs allocator.reservedIPs
          (allocator.growPool family choices attempts).2 family ip network := by
  rcases invariant.allocSubnet_spec family (allocator.poolPrefix family) choices with
    nothing | ⟨outer, cidr, parent, outerFamily, grants, granted⟩
  · left
    simpa [growPool, nothing] using invariant
  · have cidrFamily : cidr.family = family := grants.inside.1.trans outerFamily
    subst cidrFamily
    rcases newCombinedPoolSubnet_spec cidr with ⟨pool, created, represents⟩
    rcases tryAllocFromPoolSubnet_spec choices.ipFilter allocator.bannedIPs allocator.reservedIPs
      attempts represents with ⟨kept, network, outcome⟩
    have subnets := invariant.subnets.grow kept parent grants.inside
      (fun other active => grants.free other (.inl active))
    simp only [growPool, granted, created]
    rcases outcome with ⟨nothing, unchanged⟩ | ⟨ip, found, handsOut⟩
    · left
      simp only [reserveSubnet, nothing, map_none, unchanged, true_and]
      exact ⟨invariant.parents, subnets, invariant.ips, invariant.bans⟩
    · right
      simp only [reserveSubnet, found, map_some]
      refine ⟨ip, pool.network, rfl,
        ⟨invariant.parents, subnets, invariant.ips.handOut handsOut, invariant.bans⟩, ?_⟩
      refine ⟨(tryAllocFromPoolSubnet choices.ipFilter allocator.bannedIPs pool attempts
        allocator.reservedIPs).pool, ?_, network, cidr, outer, kept, rfl, parent, grants.inside,
        handsOut⟩
      simp [setPools, setFamily]

theorem allocIP_spec (family : Family) (choices : Choices) :
    (allocator.allocIP family choices).1 = none ∧
        Invariant config ledger (allocator.allocIP family choices).2 ∨
      ∃ ip network, (allocator.allocIP family choices).1 = some (ip, network) ∧
        Invariant config (ledger.addIP ip) (allocator.allocIP family choices).2 ∧
        AllocatedIP config allocator.bannedIPs allocator.reservedIPs
          (allocator.allocIP family choices).2 family ip network := by
  cases own : allocator.parents family with
  | none =>
    left
    simpa [allocIP, own] using invariant
  | some owned =>
    rcases invariant.tryPools family choices.ipFilter with ⟨nothing, after, unchanged⟩ |
      ⟨ip, network, result, after, allocated⟩
    · simp only [allocIP, own, nothing, isSome_none, Bool.false_eq_true, false_or]
      split_ifs with spent
      · exact .inl ⟨rfl, after⟩
      · have grown := growPool_spec after family choices
          (allocIPFromPool choices.ipFilter allocator.bannedIPs (allocator.poolSubnets family) 0
            allocator.reservedIPs).attempts
        rw [unchanged] at grown
        exact grown
    · right
      simp only [allocIP, own, result, isSome_some, true_or, if_true]
      exact ⟨ip, network, rfl, after, allocated⟩

theorem Invariant.withSubnets {after : CombinedAllocator}
    (subnets : SubnetPart config counts after.reservedSubnets after.poolSubnets)
    (rest : after.parents = allocator.parents ∧ after.reservedIPs = allocator.reservedIPs ∧
      after.bannedIPs = allocator.bannedIPs ∧ after.bannedSubnets = allocator.bannedSubnets) :
    Invariant config { ledger with subnets := counts } after := by
  rcases rest with ⟨parents, ips, bannedIPs, bannedSubnets⟩
  exact ⟨parents ▸ invariant.parents, subnets, ips ▸ invariant.ips,
    bannedIPs ▸ bannedSubnets ▸ invariant.bans⟩

theorem Invariant.pruneEmpty (bits : Family) :
    Invariant config ledger (allocator.pruneEmptyPoolSubnets bits) := by
  apply invariant.withSubnets (invariant.subnets.pruneEmpty bits)
  simp only [pruneEmptyPoolSubnets]
  split_ifs
  · exact ⟨rfl, rfl, rfl, rfl⟩
  · exact ⟨rfl, rfl, rfl, rfl⟩

theorem Invariant.freeSubnet (subnet : Option IPNet) :
    Invariant config
      { ledger with
        subnets := fun cidr => ledger.subnets cidr - if Denotes subnet cidr then 1 else 0 }
      (allocator.freeSubnet subnet) := by
  apply invariant.withSubnets (invariant.subnets.free subnet)
  simp only [CombinedAllocator.freeSubnet]
  split
  · exact ⟨rfl, rfl, rfl, rfl⟩
  · split_ifs
    · exact ⟨rfl, rfl, rfl, rfl⟩
    · exact ⟨rfl, rfl, rfl, rfl⟩

end

theorem invariant_step {before after : CombinedAllocator} {event : Event}
    (invariant : Invariant config ledger before) (taken : Step before event after) :
    Invariant config (ledger.record event) after := by
  rcases event with ⟨call, choices, subnetResult, ipResult⟩
  rw [Step] at taken
  cases call with
  | reserveSubnet subnet =>
    cases taken
    exact ⟨invariant.parents, invariant.subnets.reserve subnet, invariant.ips, invariant.bans⟩
  | allocSubnet family prefixLen =>
    rcases invariant.allocSubnet_spec family prefixLen choices with
      nothing | ⟨outer, cidr, _, _, _, granted⟩
    · simp only [perform, nothing] at taken
      cases taken
      have same : ledger.record ⟨.allocSubnet family prefixLen, choices, none, none⟩ = ledger := by
        simp [Ledger.record, Ledger.addSubnet, Denotes]
      rw [same]
      exact invariant
    · simp only [perform, granted] at taken
      cases taken
      exact ⟨invariant.parents, invariant.subnets.reserve _, invariant.ips, invariant.bans⟩
  | freeSubnet subnet =>
    cases taken
    exact invariant.freeSubnet subnet
  | freeAllSubnets =>
    cases taken
    refine ⟨invariant.parents, ⟨sound_empty, ?_, ?_, ?_⟩, invariant.ips, invariant.bans⟩
    · intro cidr
      simp [freeAllSubnets, Ledger.record]
    · intro family pool member
      simp [freeAllSubnets] at member
    · intro family
      exact Pairwise.nil
  | reserveIP ip =>
    cases taken
    have ips := invariant.ips.reserve ip
    cases normal : normalizeAnyIP ip with
    | none | some normalized =>
      simp only [reserveIP, normal] at ips ⊢
      exact ⟨invariant.parents, invariant.subnets, ips, invariant.bans⟩
  | allocIP family =>
    have taken : (((none, (before.allocIP family choices).1),
        (before.allocIP family choices).2) : (Option IPNet × Option (IP × IPNet)) ×
          CombinedAllocator) = ((subnetResult, ipResult), after) := taken
    rw [Prod.mk.injEq, Prod.mk.injEq] at taken
    rcases taken with ⟨⟨_, result⟩, rfl⟩
    rcases allocIP_spec invariant family choices with ⟨nothing, kept⟩ |
      ⟨ip, network, found, kept, _⟩
    · rw [nothing] at result
      subst result
      exact kept
    · rw [found] at result
      subst result
      exact kept
  | freeIP ip =>
    cases taken
    cases normal : normalizeAnyIP ip with
    | none =>
      simpa [freeIP, normal, Ledger.record, normalizeAnyIP_none normal] using invariant
    | some normalized =>
      simp only [freeIP, normal]
      apply Invariant.pruneEmpty
      exact ⟨invariant.parents, invariant.subnets, invariant.ips.release normal, invariant.bans⟩
  | freeAllIP =>
    cases taken
    apply Invariant.pruneEmpty
    apply Invariant.pruneEmpty
    refine ⟨invariant.parents, invariant.subnets, ⟨all_empty _, ?_⟩, invariant.bans⟩
    intro host
    exact count_empty host.key

theorem invariant_of_run {history : List Event}
    (run : Run Step (newCombinedAllocator config) history allocator) :
    Invariant config (Ledger.ofHistory history) allocator := by
  apply run.history_invariant
  · exact invariant_new config
  intro history before event after invariant taken
  rw [Ledger.ofHistory_snoc]
  exact invariant_step invariant taken

structure SafeIP (config : CombinedConfig) (ledger : Ledger) (after : CombinedAllocator)
    (family : Family) (network : IPNet) (host : Cidr) : Prop where
  sameFamily : host.family = family
  inside : ∃ outer, Denotes (config.parent family) outer ∧ outer.Contains host
  unused : ledger.ips host = 0
  allowed : ∀ ip ∈ config.bannedIPs, ¬DenotesIP ip host
  interior : ∃ pool ∈ after.poolSubnets family, pool.network = network ∧
    ofBytes pool.first < host.start ∧ host.start < ofBytes pool.last

theorem Invariant.safeIP (invariant : Invariant config ledger allocator) {network : IPNet}
    (returned : (allocator.allocIP family choices).1 = some (ip, network)) :
    ∃ host, DenotesIP ip host ∧
      SafeIP config ledger (allocator.allocIP family choices).2 family network host := by
  rcases allocIP_spec invariant family choices with ⟨nothing, _⟩ |
    ⟨found, pooled, result, _, ⟨allocated⟩⟩
  · rw [nothing] at returned
    cases returned
  · rw [result] at returned
    cases returned
    rcases allocated with ⟨pool, member, networkEq, cidr, outer, represents, rfl, parent, inside,
      host, item, denotes, hostFamily, above, below, unused, allowed, _, _⟩
    refine ⟨host, denotes, hostFamily, ⟨outer, parent, ?_⟩, ?_, ?_,
      ⟨pool, member, networkEq, ?_, ?_⟩⟩
    · rcases inside with ⟨sameFamily, starts, ends⟩
      exact ⟨sameFamily.symm.trans hostFamily.symm, by omega, by omega⟩
    · rw [← invariant.ips.counted]
      exact unused
    · intro banned bannedMember bannedDenotes
      have counted := (invariant.bans.ips host).mpr ⟨banned, bannedMember, bannedDenotes⟩
      omega
    · rw [represents.firstValue]
      exact above
    · rw [represents.lastValue]
      exact below

end Gonnect.Subnet.CombinedAllocator
