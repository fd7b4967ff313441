import Gonnect.Subnet.CombinedAlloc

/-!
# Safety of the combined allocator

Every operation keeps `Invariant`. A candidate that is free of the sorted blockers is disjoint
from everything the tables hold. A usable address lies strictly inside its pool and is looked
up in both tables before it is handed out. Growing, freeing and pruning add or remove one pool
and one reference at a time.
-/

namespace Gonnect.Subnet.CombinedAllocator

open BigEndian Net List PoolSubnet RefTable
open SubnetAllocator (aligned_nextStart exists_block meets_of_overlaps start_aligned)

variable {filter : Option SubnetFilter} {network : Option IPNet} {owned : OwnedParent}
  {normalized : ReservedSubnet}

theorem search_some {parent : OwnedParent}
    {prefixLen firstCandidateStart candidateStart attempts start : ℕ} {wrapped : Bool}
    {blockers : List Interval}
    (sorted : blockers.Pairwise (fun left right => left.first ≤ right.first))
    (parentAligned : subnetSize parent.bits prefixLen ∣ parent.start)
    (aligned : subnetSize parent.bits prefixLen ∣ candidateStart)
    (above : parent.start ≤ candidateStart)
    (found : search parent prefixLen blockers filter firstCandidateStart wrapped candidateStart
      attempts = some start) :
    parent.start ≤ start ∧ subnetSize parent.bits prefixLen ∣ start ∧
      subnetEnd start (subnetSize parent.bits prefixLen) ≤ parent.stop ∧
      ∀ blocker ∈ blockers, ¬blocker.Overlaps (.block start (subnetSize parent.bits prefixLen)) := by
  fun_induction search parent prefixLen blockers filter firstCandidateStart wrapped candidateStart
    attempts with
  | case1 | case3 => simp at found
  | case2 _ _ _ _ _ _ ih => exact ih parentAligned le_rfl found
  | case4 wrapped candidateStart attempts size inRange more blocker overlapped ih =>
    rcases Interval.firstOverlap_some overlapped with ⟨_, overlap⟩
    have moved := @lt_nextStart candidateStart _ (subnetSize_pos parent.bits prefixLen) blocker
    exact ih (aligned_nextStart overlap) (above.trans moved.le) found
  | case5 wrapped candidateStart attempts size inRange more free
  | case6 wrapped candidateStart attempts size inRange more free =>
    cases found
    exact ⟨above, aligned, Nat.le_of_not_lt inRange, Interval.firstOverlap_none sorted free⟩
  | case7 => simp at found
  | case8 wrapped candidateStart attempts size inRange more free accepts given _ _ ih =>
    subst given
    apply ih ((Nat.dvd_add_right aligned).mpr dvd_rfl) _ found
    omega

theorem IPTable.Sound.mem_items {reserved : IPTable} (sound : reserved.Sound) (family : Family)
    (interval : Interval) :
    (∃ item ∈ reserved.items, item.bits = family ∧ ⟨item.value, item.value⟩ = interval) ↔
      ∃ host : Cidr, 0 < reserved.count host.key ∧ host.family = family ∧
        host.interval = interval := by
  have hostInterval : ∀ {item : ReservedIP} {host : Cidr}, item.Represents host →
      host.interval = ⟨item.value, item.value⟩ := by
    intro item host represents
    simp [Cidr.interval, Interval.block, Cidr.size, subnetSize, represents.full, represents.value]
  constructor
  · rintro ⟨item, member, rfl, rfl⟩
    rcases mem_items_iff.mp member with ⟨key, entry, found, rfl⟩
    rcases sound key entry found with ⟨host, rfl, represents⟩
    exact ⟨host, count_pos_iff.mpr ⟨entry, found⟩, represents.bits.symm,
      hostInterval represents⟩
  · rintro ⟨host, active, rfl, rfl⟩
    rcases count_pos_iff.mp active with ⟨entry, found⟩
    rcases sound _ _ found with ⟨other, keys, represents⟩
    rw [← Cidr.key_injective keys] at represents
    exact ⟨entry.item, mem_items_iff.mpr ⟨_, entry, found, rfl⟩, represents.bits,
      (hostInterval represents).symm⟩

structure TablesSound (allocator : CombinedAllocator) : Prop where
  subnets : allocator.reservedSubnets.Sound
  ips : allocator.reservedIPs.Sound
  bannedSubnets : allocator.bannedSubnets.Sound
  bannedIPs : allocator.bannedIPs.Sound

variable {config : CombinedConfig} {allocator : CombinedAllocator} {reserved : SubnetTable}
  {family : Family} {pool : PoolSubnet} {cidr : Cidr} {counts : Cidr → ℕ}
  {pools : Family → List PoolSubnet}

theorem Invariant.tablesSound {ledger : Ledger} (invariant : Invariant config ledger allocator) :
    allocator.TablesSound :=
  ⟨invariant.subnets.sound, invariant.ips.sound, invariant.bans.subnetsSound,
    invariant.bans.ipsSound⟩

theorem mem_sortedSubnetBlockers (sound : allocator.TablesSound) (bits : Family)
    (parent : OwnedParent) (interval : Interval) :
    interval ∈ allocator.sortedSubnetBlockers bits parent ↔ meetsParent parent interval = true ∧
      ∃ cidr, allocator.Blocked cidr ∧ cidr.family = bits ∧ cidr.interval = interval := by
  have subnets := sound.subnets.mem_items bits interval
  have ips := IPTable.Sound.mem_items sound.ips bits interval
  have bannedSubnets := sound.bannedSubnets.mem_items bits interval
  have bannedIPs := IPTable.Sound.mem_items sound.bannedIPs bits interval
  simp only [sortedSubnetBlockers, mem_sortBlockers, mem_filter, mem_append,
    subnetIntervals, ipIntervals, mem_map, decide_eq_true_eq, and_assoc]
  rw [subnets, ips, bannedSubnets, bannedIPs, and_comm]
  simp [Blocked, or_and_right, exists_or, or_assoc]

structure Grants (allocator : CombinedAllocator) (outer : Cidr) (prefixLen : ℤ) (cidr : Cidr) :
    Prop where
  prefixLen : (cidr.prefixLen : ℤ) = prefixLen
  inside : cidr.Inside outer
  free : ∀ other, allocator.Blocked other → cidr.Disjoint other

theorem addParent_some (found : addParent network family = some owned) :
    ∃ outer, Denotes network outer ∧ owned.Represents outer ∧ outer.family = family := by
  rcases Option.filter_eq_some_iff.mp found with ⟨own, bits⟩
  rcases ownParent_some own with ⟨outer, denotes, represents⟩
  refine ⟨outer, denotes, represents, ?_⟩
  rw [← represents.bits]
  simpa using bits

theorem addParent_ne_none {outer : Cidr} (denotes : Denotes network outer) :
    addParent network outer.family ≠ none := by
  intro missing
  cases found : ownParent network with
  | none => exact ownParent_none found outer denotes
  | some owned =>
    rcases ownParent_some found with ⟨other, otherDenotes, represents⟩
    rw [otherDenotes.unique denotes] at represents
    simp [addParent, found, represents.bits] at missing

theorem parents_of_pool {ledger : Ledger} (invariant : Invariant config ledger allocator)
    {pool : PoolSubnet} (member : pool ∈ allocator.poolSubnets family) :
    allocator.parents family ≠ none := by
  rcases invariant.subnets.represented family pool member with
    ⟨cidr, _, rfl, outer, denotes, inside⟩
  have present := addParent_ne_none denotes
  rw [← inside.1] at present
  rwa [invariant.parents]

theorem search_grants (sound : allocator.TablesSound) {outer : Cidr}
    (represents : owned.Represents outer) {prefixLen index start : ℕ}
    (longer : outer.prefixLen ≤ prefixLen) (bound : prefixLen ≤ outer.family.bits)
    (found : search owned prefixLen (allocator.sortedSubnetBlockers outer.family owned) filter
      (owned.start + index * subnetSize outer.family prefixLen) false
      (owned.start + index * subnetSize outer.family prefixLen) 0 = some start) :
    ∃ cidr : Cidr, candidateNetwork start outer.family prefixLen = cidr.toIPNet ∧
      allocator.Grants outer prefixLen cidr := by
  have parentAligned := start_aligned represents longer
  have aligned : subnetSize owned.bits prefixLen ∣
      owned.start + index * subnetSize outer.family prefixLen := by
    rw [represents.bits] at parentAligned ⊢
    exact Nat.dvd_add parentAligned (Nat.dvd_mul_left _ _)
  rcases search_some (sortBlockers_sorted _) parentAligned aligned (Nat.le_add_right _ _) found with
    ⟨above, startAligned, ends, free⟩
  rcases exists_block represents bound above startAligned ends with
    ⟨cidr, network, _, length, inside, interval⟩
  rw [represents.bits] at network
  refine ⟨cidr, network, by rw [length], inside, ?_⟩
  intro other blocked sameFamily overlap
  apply free other.interval _
  · rw [← interval]
    exact overlap.symm
  · exact (mem_sortedSubnetBlockers sound outer.family owned other.interval).mpr
      ⟨meets_of_overlaps represents inside overlap, other, blocked,
        sameFamily.symm.trans inside.1, rfl⟩

theorem Invariant.allocSubnet_spec {ledger : Ledger} (invariant : Invariant config ledger allocator)
    (family : Family) (prefixLen : ℤ) (choices : Choices) :
    allocator.allocSubnet family prefixLen choices = (none, allocator) ∨
      ∃ outer cidr, Denotes (config.parent family) outer ∧ outer.family = family ∧
        allocator.Grants outer prefixLen cidr ∧
        allocator.allocSubnet family prefixLen choices =
          (some cidr.toIPNet, allocator.reserveSubnet (some cidr.toIPNet)) := by
  cases own : allocator.parents family with
  | none =>
    left
    simp [allocSubnet, own]
  | some owned =>
    rcases addParent_some ((invariant.parents family).symm.trans own) with
      ⟨outer, denotes, represents, rfl⟩
    simp only [allocSubnet, own, represents.mask]
    by_cases outOfRange : prefixLen < 0 ∨ (outer.family.bits : ℤ) < prefixLen
    · exact .inl (if_pos outOfRange)
    · rw [if_neg outOfRange]
      by_cases shorter : outer.family.bits ≠ outer.family.bits ∨ prefixLen < outer.prefixLen
      · exact .inl (if_pos shorter)
      · rw [if_neg shorter]
        split_ifs with noRoom
        · exact .inl rfl
        · split
          · exact .inl rfl
          · rename_i start found
            have natural : ((prefixLen.toNat : ℕ) : ℤ) = prefixLen := by omega
            have longer : outer.prefixLen ≤ prefixLen.toNat := by omega
            have bound : prefixLen.toNat ≤ outer.family.bits := by omega
            rcases search_grants invariant.tablesSound represents longer bound found with
              ⟨cidr, network, grants⟩
            rw [natural] at grants
            right
            refine ⟨outer, cidr, denotes, rfl, grants, ?_⟩
            rw [network]
            rfl

theorem interval_overlaps_self (cidr : Cidr) : cidr.interval.Overlaps cidr.interval := by
  have positive := cidr.size_pos
  simp only [Interval.Overlaps, Cidr.interval, Interval.block]
  omega

section

variable (part : SubnetPart config counts reserved pools)

include part

theorem SubnetPart.countP_le_one (family : Family) (cidr : Cidr) :
    (pools family).countP (·.key = cidr.key) ≤ 1 := by
  have represented := part.represented family
  have apart := part.apart family
  generalize pools family = members at represented apart ⊢
  induction members with
  | nil => simp
  | cons pool rest ih =>
    rw [pairwise_cons] at apart
    have restBound := ih (fun other member => represented other (mem_cons_of_mem _ member))
      apart.2
    rw [countP_cons]
    split_ifs with same
    · have none : rest.countP (·.key = cidr.key) = 0 := by
        rw [countP_eq_zero]
        intro other member otherSame
        rcases represented pool mem_cons_self with ⟨block, represents, _⟩
        rcases represented other (mem_cons_of_mem _ member) with ⟨otherBlock, otherRep, _⟩
        apply apart.1 other member
        rw [represents.interval, otherRep.interval]
        have equal : block = otherBlock := by
          apply Cidr.key_injective
          rw [← represents.key, ← otherRep.key]
          exact (of_decide_eq_true same).trans (of_decide_eq_true otherSame).symm
        rw [equal]
        exact interval_overlaps_self otherBlock
      omega
    · omega

theorem SubnetPart.pool_counted (member : pool ∈ pools family) : 0 < reserved.count pool.key := by
  rcases part.represented family pool member with ⟨cidr, represents, rfl, _⟩
  rw [represents.key, part.counted cidr]
  have positive : 0 < (pools cidr.family).countP (·.key = cidr.key) := by
    rw [countP_pos_iff]
    exact ⟨pool, member, decide_eq_true represents.key⟩
  omega

theorem SubnetPart.reserve (subnet : Option IPNet) :
    SubnetPart config (fun cidr => counts cidr + if Denotes subnet cidr then 1 else 0)
      (reserve subnet reserved) pools := by
  refine ⟨reserve_sound part.sound subnet, ?_, part.represented, part.apart⟩
  intro cidr
  rw [count_reserve, part.counted]
  omega

theorem SubnetPart.samePools {pools' : Family → List PoolSubnet}
    (keys : ∀ family, (pools' family).map key = (pools family).map key)
    (intervals : ∀ family, (pools' family).map interval = (pools family).map interval)
    (represented : ∀ family, ∀ pool ∈ pools' family, ∃ cidr, pool.Represents cidr ∧
      cidr.family = family ∧ ∃ outer, Denotes (config.parent family) outer ∧ cidr.Inside outer) :
    SubnetPart config counts reserved pools' := by
  refine ⟨part.sound, ?_, represented, ?_⟩
  · intro cidr
    have sameCount : ∀ list : List PoolSubnet, list.countP (·.key = cidr.key) =
        (list.map key).countP (· = cidr.key) := by
      intro list
      rw [countP_map]
      rfl
    rw [part.counted, sameCount, sameCount, keys]
  · intro family
    have apart := part.apart family
    rw [← pairwise_map (f := interval)
      (R := fun left right => ¬left.Overlaps right)] at apart ⊢
    rw [intervals]
    exact apart

end

theorem countP_eraseIdx {pools : List PoolSubnet} {index : ℕ} (found : pools[index]? = some pool)
    (key : SubnetKey) :
    pools.countP (·.key = key) =
      (pools.eraseIdx index).countP (·.key = key) + if pool.key = key then 1 else 0 := by
  rcases List.getElem?_eq_some_iff.mp found with ⟨bound, rfl⟩
  rw [← (getElem_cons_eraseIdx_perm bound).countP_eq, countP_cons]
  simp

theorem setFamily_self (pools : Family → List PoolSubnet) (family : Family) :
    setFamily pools family (pools family) = pools := by
  funext other
  by_cases same : other = family
  · simp [setFamily, same]
  · simp [setFamily, same]

theorem setFamily_sublist {members fewer : List PoolSubnet} (sublist : fewer <+ members)
    (other : Family) : setFamily pools family fewer other <+ setFamily pools family members other := by
  unfold setFamily
  split_ifs
  · exact sublist
  · exact .refl _

theorem SubnetPart.prunePool {members : List PoolSubnet}
    (part : SubnetPart config counts reserved (setFamily pools family members)) (index : ℕ) :
    SubnetPart config counts (prunePool (members, reserved) index).2
      (setFamily pools family (prunePool (members, reserved) index).1) := by
  cases found : members[index]? with
  | none => simpa [CombinedAllocator.prunePool, found] using part
  | some pool =>
    have own : setFamily pools family members family = members := if_pos rfl
    have member : pool ∈ setFamily pools family members family := by
      rw [own]
      exact mem_of_getElem? found
    rcases part.represented family pool member with ⟨block, represents, blockFamily, _⟩
    cases normal : normalizeSubnet (some pool.network) with
    | none => exact absurd (pool_denotes represents) (normalizeSubnet_none normal block)
    | some normalized =>
      simp only [CombinedAllocator.prunePool, found, normal]
      refine ⟨release_sound part.sound _, ?_, ?_, ?_⟩
      · intro cidr
        have counted := part.counted cidr
        rw [count_release_of_represents reserved normal]
        have denotes_iff : Denotes (some pool.network) cidr ↔ pool.key = cidr.key := by
          rw [represents.key, Cidr.key_inj, (pool_denotes represents).iff_eq]
        by_cases sameFamily : cidr.family = family
        · have split := countP_eraseIdx found cidr.key
          simp only [setFamily, sameFamily, if_true] at counted ⊢
          simp only [denotes_iff]
          split_ifs at split ⊢ <;> omega
        · have different : ¬pool.key = cidr.key := by
            intro keys
            rw [represents.key] at keys
            apply sameFamily
            rw [← Cidr.key_injective keys, blockFamily]
          simp only [setFamily, if_neg sameFamily] at counted ⊢
          simp only [denotes_iff, if_neg different]
          omega
      · intro other survivor survives
        apply part.represented other survivor
        exact (setFamily_sublist (eraseIdx_sublist _ _) other).subset survives
      · intro other
        exact (part.apart other).sublist (setFamily_sublist (eraseIdx_sublist _ _) other)

theorem SubnetPart.prunePools (indices : List ℕ) {state : List PoolSubnet × SubnetTable}
    (part : SubnetPart config counts state.2 (setFamily pools family state.1)) :
    SubnetPart config counts (indices.foldl CombinedAllocator.prunePool state).2
      (setFamily pools family (indices.foldl CombinedAllocator.prunePool state).1) := by
  induction indices generalizing state with
  | nil => exact part
  | cons index rest ih =>
    apply ih
    exact part.prunePool index

theorem SubnetPart.pruneEmpty (bits : Family)
    (part : SubnetPart config counts allocator.reservedSubnets allocator.poolSubnets) :
    SubnetPart config counts (allocator.pruneEmptyPoolSubnets bits).reservedSubnets
      (allocator.pruneEmptyPoolSubnets bits).poolSubnets := by
  simp only [pruneEmptyPoolSubnets]
  split_ifs
  · exact part
  · apply SubnetPart.prunePools
    rw [setFamily_self]
    exact part

theorem removal_iff {block : Cidr} (pooled : pool.Represents block)
    (reserved : normalized.Represents cidr) (sameFamily : block.family = cidr.family) :
    (pool.prefixLen = normalized.prefixLen ∧ ipEqual pool.network.ip normalized.network.ip) ↔
      pool.key = cidr.key := by
  have lengths : pool.network.ip.length = normalized.network.ip.length := by
    rw [pooled.length, reserved.length, sameFamily]
  rw [← reserved.key]
  simp only [ipEqual, if_pos lengths, key, ReservedSubnet.key, subnetMapKey,
    SubnetKey.mk.injEq, decide_eq_true_eq]
  constructor
  · rintro ⟨prefixLen, ip⟩
    exact ⟨by rw [pooled.bits, reserved.bits, sameFamily], prefixLen, ip⟩
  · rintro ⟨_, prefixLen, ip⟩
    exact ⟨prefixLen, ip⟩

theorem countP_removePoolSubnet {pools : List PoolSubnet} (reserved : normalized.Represents cidr)
    (represented : ∀ pool ∈ pools, ∃ block : Cidr, pool.Represents block ∧
      block.family = cidr.family) (key : SubnetKey) :
    (removePoolSubnet pools normalized).countP (·.key = key) =
      pools.countP (·.key = key) - if cidr.key = key then 1 else 0 := by
  induction pools with
  | nil => simp [removePoolSubnet]
  | cons pool rest ih =>
    rcases represented pool mem_cons_self with ⟨block, represents, sameFamily⟩
    have removed := removal_iff represents reserved sameFamily
    have tail := ih (fun other member => represented other (mem_cons_of_mem _ member))
    by_cases same : pool.key = cidr.key
    · have condition := removed.mpr same
      rw [removePoolSubnet, eraseP_cons_of_pos (by simpa using condition), countP_cons,
        same]
      simp
    · have condition := removed.not.mpr same
      rw [removePoolSubnet, eraseP_cons_of_neg (by simpa using condition), countP_cons,
        countP_cons]
      rw [removePoolSubnet] at tail
      rw [tail]
      by_cases keys : cidr.key = key
      · have other : ¬pool.key = key := by rwa [← keys]
        simp [keys, other]
      · simp [keys]

theorem SubnetPart.free
    (part : SubnetPart config counts allocator.reservedSubnets allocator.poolSubnets)
    (subnet : Option IPNet) :
    SubnetPart config (fun cidr => counts cidr - if Denotes subnet cidr then 1 else 0)
      (allocator.freeSubnet subnet).reservedSubnets (allocator.freeSubnet subnet).poolSubnets := by
  cases normal : normalizeSubnet subnet with
  | none =>
    have nothing : ∀ cidr, ¬Denotes subnet cidr := normalizeSubnet_none normal
    simpa [freeSubnet, normal, nothing] using part
  | some normalized =>
    rcases normalizeSubnet_some normal with ⟨block, denotes, represents⟩
    have atMostOne := part.countP_le_one block.family block
    have blockCount := part.counted block
    have lastIff := release_last allocator.reservedSubnets normalized.key
    rw [represents.key, blockCount] at lastIff
    cases last : (allocator.reservedSubnets.release normalized.key).2 with
    | false =>
      have notLast : ¬counts block +
          (allocator.poolSubnets block.family).countP (·.key = block.key) = 1 := by
        intro single
        have isLast := lastIff.mpr single
        rw [represents.key, isLast] at last
        cases last
      simp only [freeSubnet, normal, last, Bool.false_eq_true, if_false]
      refine ⟨release_sound part.sound _, ?_, part.represented, part.apart⟩
      intro cidr
      rw [count_release_of_represents _ normal, part.counted]
      simp only [denotes.iff_eq]
      split_ifs with same
      · subst same
        omega
      · omega
    | true =>
      rw [represents.key] at last
      have single := lastIff.mp last
      simp only [freeSubnet, normal, represents.key, last, if_true, setPools, represents.bits]
      have fewer (family : Family) := @setFamily_sublist block.family allocator.poolSubnets
        (allocator.poolSubnets block.family) (removePoolSubnet _ normalized) eraseP_sublist family
      simp only [setFamily_self] at fewer
      refine ⟨release_sound part.sound _, ?_, ?_, ?_⟩
      · intro cidr
        have released := count_release_of_represents allocator.reservedSubnets normal cidr
        rw [represents.key] at released
        rw [released, part.counted]
        simp only [denotes.iff_eq]
        by_cases sameFamily : cidr.family = block.family
        · have removed := countP_removePoolSubnet represents (fun pool member => by
            rcases part.represented block.family pool member with ⟨found, rep, fam, _⟩
            exact ⟨found, rep, fam⟩) cidr.key
          simp only [setFamily, sameFamily, if_true, removed, Cidr.key_inj]
          split_ifs with same
          · subst same
            omega
          · omega
        · have different : ¬block = cidr := by
            rintro rfl
            exact sameFamily rfl
          simp only [setFamily, if_neg sameFamily, if_neg different]
          omega
      · intro family pool member
        exact part.represented family pool ((fewer family).subset member)
      · intro family
        exact (part.apart family).sublist (fewer family)

end Gonnect.Subnet.CombinedAllocator
