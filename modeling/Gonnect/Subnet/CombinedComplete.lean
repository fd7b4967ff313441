import Gonnect.Subnet.CombinedRuns

/-!
# When the combined allocator finds an address

`AllocIP` tries the candidates of the pools one after another and examines at most a
thousand of them. When all of them are taken and the budget is not spent, it adds a
pool.

The subnet search begins at a random candidate, and wraps around.
-/

namespace Gonnect.Subnet.CombinedAllocator

open BigEndian Net List Option RefTable PoolSubnet

theorem allocIPFromPool_unfiltered {banned reserved : IPTable} {family : Family}
    {pools : List PoolSubnet}
    (represented : ∀ pool ∈ pools, ∃ cidr, pool.Represents cidr ∧ cidr.family = family ∧
      cidr.Plain) :
    let tried := allocIPFromPool none banned pools 0 reserved
    (tried.result.isSome ↔ ∃ value ∈
        (pools.flatMap candidates).take maxFilteredAllocationAttempts,
        unused banned reserved family value = true) ∧
      (tried.result = none → tried.attempts =
        min (pools.flatMap candidates).length maxFilteredAllocationAttempts) := by
  have picked := @allocIPFromPool_picked none banned reserved pools 0
    (fun pool member => (represented pool member).imp fun _ => And.left) (by decide)
  have normal : ∀ ip ∈ pools.flatMap visited,
      normalizeAnyIP ip = some ⟨ip, family, ofBytes ip⟩ := by
    intro ip member
    rcases mem_flatMap.mp member with ⟨pool, poolMember, inPool⟩
    rcases represented pool poolMember with ⟨cidr, represents, rfl, _⟩
    exact visited_normal represents inPool
  have same : ((pools.flatMap visited).map ofBytes).take maxFilteredAllocationAttempts =
      (pools.flatMap candidates).take maxFilteredAllocationAttempts := by
    clear picked normal
    induction pools with
    | nil => rfl
    | cons pool rest ih =>
      rcases represented pool mem_cons_self with ⟨cidr, represents, _, plain⟩
      simp only [flatMap_cons, map_append]
      exact Scan.take_append_congr (represents.visited_values plain)
        (ih fun other member => represented other (mem_cons_of_mem _ member))
  rcases @pick_values banned reserved _ _ _ normal same 0 with ⟨found, counted⟩
  simp only [← picked, isSome_map, Nat.sub_zero, Nat.zero_add, map_eq_none_iff]
    at found counted
  exact ⟨found, counted⟩

variable {allocator before : CombinedAllocator} {outer cidr : Cidr} {prefixLen : ℤ}
  {config : CombinedConfig} {ledger : Ledger} {pool : PoolSubnet} {attempts : ℕ}

theorem search_none {parent : OwnedParent}
    {prefixLen firstCandidateStart candidateStart other : ℕ} {wrapped : Bool}
    {blockers : List Interval} {filter : Option SubnetFilter}
    (unfiltered : filter = none)
    (ended : search parent prefixLen blockers filter firstCandidateStart wrapped candidateStart
      attempts = none) (otherAligned : subnetSize parent.bits prefixLen ∣ other)
    (otherInRange : subnetEnd other (subnetSize parent.bits prefixLen) ≤ parent.stop)
    (remaining : candidateStart ≤ other ∧ (wrapped = true → other < firstCandidateStart) ∨
      wrapped = false ∧ parent.start ≤ other ∧ other < firstCandidateStart) :
    ∃ blocker ∈ blockers, blocker.Overlaps (.block other (subnetSize parent.bits prefixLen)) := by
  have positive := subnetSize_pos parent.bits prefixLen
  fun_induction search parent prefixLen blockers filter firstCandidateStart wrapped candidateStart
    attempts with
  | case1 candidateStart attempts size outOfRange =>
    simp only [subnetEnd] at outOfRange otherInRange
    rcases remaining with ⟨above, _⟩ | ⟨notWrapped, _⟩
    · omega
    · cases notWrapped
  | case2 wrapped candidateStart attempts size outOfRange notWrapped ih =>
    simp only [subnetEnd] at outOfRange otherInRange
    apply ih ended
    rcases remaining with ⟨above, _⟩ | ⟨_, first, before⟩
    · omega
    · exact .inl ⟨first, fun _ => before⟩
  | case3 wrapped candidateStart attempts size inRange around =>
    rcases remaining with ⟨above, before⟩ | ⟨notWrapped, _⟩
    · have := before around.1
      omega
    · rw [around.1] at notWrapped
      cases notWrapped
  | case4 wrapped candidateStart attempts size inRange more blocker overlapped ih =>
    rcases Interval.firstOverlap_some overlapped with ⟨member, overlap⟩
    rcases remaining with ⟨above, before⟩ | later
    · by_cases passed : other < nextStart candidateStart size blocker
      · rw [nextStart_of_overlaps overlap] at passed
        exact ⟨blocker, member,
          Interval.overlaps_of_lt_alignUp positive overlap otherAligned above passed⟩
      · exact ih ended (.inl ⟨Nat.le_of_not_lt passed, before⟩)
    · exact ih ended (.inr later)
  | case5 => cases ended
  | case6 _ _ _ _ _ _ _ _ given | case7 _ _ _ _ _ _ _ _ given | case8 _ _ _ _ _ _ _ _ given =>
    simp [given] at unfiltered

variable {family : Family} {choices : Choices}

section

variable (invariant : Invariant config ledger allocator)
  (denotes : Denotes (config.parent family) outer) (outerFamily : outer.family = family)
  (grants : allocator.Grants outer prefixLen cidr)

include invariant denotes outerFamily grants

/-- The parent that a granted block lies in is searched from an aligned start. -/
theorem Invariant.allocSubnet_search :
    ∃ owned, owned.Represents outer ∧ 0 < (owned.stop - owned.start + 1) / cidr.size ∧
      ∀ choices : Choices, (allocator.allocSubnet family prefixLen choices).1 =
        let first := owned.start + randomBigInt choices.draw
          ((owned.stop - owned.start + 1) / cidr.size) * cidr.size
        (search owned cidr.prefixLen (allocator.sortedSubnetBlockers family owned)
          choices.subnetFilter first false first 0).map
            (candidateNetwork · family cidr.prefixLen) := by
  subst outerFamily
  have parents := invariant.parents outer.family
  cases own : addParent (config.parent outer.family) outer.family with
  | none => exact absurd own (addParent_ne_none denotes)
  | some owned =>
    rcases addParent_some own with ⟨other, otherDenotes, represents, otherFamily⟩
    rw [otherDenotes.unique denotes] at represents
    rcases grants with ⟨rfl, ⟨family, starts, ends⟩, _⟩
    have size : subnetSize outer.family cidr.prefixLen = cidr.size := by rw [Cidr.size, family]
    have positive := cidr.size_pos
    have lastEq : cidr.interval.last = cidr.start + cidr.size - 1 := rfl
    have longer := Cidr.Inside.prefixLen_le ⟨family, starts, ends⟩
    have bound : cidr.prefixLen ≤ outer.family.bits := by
      rw [← family]
      exact cidr.prefixLen_le
    have room : 0 < (owned.stop - owned.start + 1) / cidr.size := by
      apply Nat.div_pos _ positive
      rw [represents.start, represents.stop]
      omega
    have allowed : ¬((cidr.prefixLen : ℤ) < 0 ∨ (outer.family.bits : ℤ) < cidr.prefixLen) := by
      omega
    have longEnough : ¬(outer.family.bits ≠ outer.family.bits ∨
        (cidr.prefixLen : ℤ) < outer.prefixLen) := by
      omega
    refine ⟨owned, represents, room, fun choices => ?_⟩
    simp only [allocSubnet, parents.trans own, represents.mask, if_neg allowed, if_neg longEnough,
      Int.toNat_natCast, size, if_neg (not_le.mpr room)]
    generalize search _ _ _ _ _ _ _ _ = searched
    cases searched with
    | none | some start => rfl

theorem Invariant.allocSubnet_complete (unfiltered : choices.subnetFilter = none) :
    (allocator.allocSubnet family prefixLen choices).1.isSome := by
  rcases invariant.allocSubnet_search denotes outerFamily grants with
    ⟨owned, represents, _, searches⟩
  rw [searches]
  subst outerFamily
  rcases grants with ⟨rfl, ⟨family, starts, ends⟩, free⟩
  dsimp only
  generalize first : owned.start + randomBigInt choices.draw
    ((owned.stop - owned.start + 1) / cidr.size) * cidr.size = start
  cases searched : search owned cidr.prefixLen
      (allocator.sortedSubnetBlockers outer.family owned) choices.subnetFilter start false
      start 0 with
  | some found => rfl
  | none =>
    -- the block itself would have been a blocked candidate
    have ownSize : subnetSize owned.bits cidr.prefixLen = cidr.size := by
      rw [represents.bits, Cidr.size, family]
    have remaining : start ≤ cidr.start ∧ (false = true → cidr.start < start) ∨
        false = false ∧ owned.start ≤ cidr.start ∧ cidr.start < start := by
      rw [represents.start]
      by_cases later : start ≤ cidr.start
      · exact .inl ⟨later, by simp⟩
      · exact .inr ⟨rfl, starts, Nat.lt_of_not_le later⟩
    rcases search_none unfiltered searched (by rw [ownSize]; exact cidr.aligned)
      (by rw [ownSize, represents.stop]; exact ends) remaining with
      ⟨blocker, member, overlap⟩
    rcases (mem_sortedSubnetBlockers invariant.tablesSound _ _ _).mp member with
      ⟨_, blocked, isBlocked, blockedFamily, rfl⟩
    rw [ownSize] at overlap
    exact absurd overlap.symm (free blocked isBlocked (family.trans blockedFamily.symm))

end

def Suitable (config : CombinedConfig) (allocator : CombinedAllocator) (family : Family)
    (prefixLen : ℤ) (cidr : Cidr) : Prop :=
  ∃ outer, Denotes (config.parent family) outer ∧ outer.family = family ∧
    allocator.Grants outer prefixLen cidr

/-- The scan may start at every suitable block, and then it returns the block. -/
theorem Invariant.allocSubnet_picks (invariant : Invariant config ledger allocator)
    (suitable : Suitable config allocator family prefixLen cidr) :
    ∃ draw, (allocator.allocSubnet family prefixLen ⟨draw, none, none⟩).1 =
      some cidr.toIPNet := by
  rcases suitable with ⟨outer, denotes, outerFamily, grants⟩
  rcases invariant.allocSubnet_search denotes outerFamily grants with
    ⟨owned, represents, room, searches⟩
  subst outerFamily
  rcases grants with ⟨rfl, inside, free⟩
  have ownSize : subnetSize owned.bits cidr.prefixLen = cidr.size := by
    rw [represents.bits, Cidr.size, inside.1]
  have parentAligned := SubnetAllocator.start_aligned represents inside.prefixLen_le
  rw [ownSize] at parentAligned
  rcases inside with ⟨family, starts, ends⟩
  rw [← represents.start] at starts
  rw [← represents.stop] at ends
  have positive := cidr.size_pos
  have lastEq : cidr.interval.last = cidr.start + cidr.size - 1 := rfl
  rcases Nat.dvd_sub cidr.aligned parentAligned with ⟨index, offset⟩
  change cidr.start - owned.start = cidr.size * index at offset
  have first : owned.start + index * cidr.size = cidr.start := by
    rw [mul_comm]
    omega
  have below : index < (owned.stop - owned.start + 1) / cidr.size := by
    apply (Nat.le_div_iff_mul_le positive).mpr
    rw [Nat.succ_mul]
    omega
  have unblocked : Interval.firstOverlap (.block cidr.start cidr.size)
      (allocator.sortedSubnetBlockers outer.family owned) = none := by
    cases overlapped : Interval.firstOverlap (.block cidr.start cidr.size)
        (allocator.sortedSubnetBlockers outer.family owned) with
    | none => rfl
    | some blocker =>
      rcases Interval.firstOverlap_some overlapped with ⟨member, overlap⟩
      rcases (mem_sortedSubnetBlockers invariant.tablesSound _ _ _).mp member with
        ⟨_, blocked, isBlocked, blockedFamily, rfl⟩
      exact absurd overlap.symm (free blocked isBlocked (family.trans blockedFamily.symm))
  refine ⟨index, ?_⟩
  rw [searches]
  simp only [randomBigInt, Nat.mod_eq_of_lt below, first]
  rw [search]
  simp only [ownSize, subnetEnd, unblocked]
  rw [if_neg (by omega), if_neg (by simp), map_some, candidateNetwork, Cidr.toIPNet, family]

variable (allocator)

def PoolsAllowed : Prop :=
  ∀ family, ∀ pool ∈ allocator.poolSubnets family, ∀ banned : Cidr, banned.family = family →
    0 < allocator.bannedSubnets.count banned.key → ¬banned.interval.Overlaps pool.interval

/-- The pools behind a step are old ones, and in one family suitable blocks as well. -/
structure PoolsFrom (config : CombinedConfig) (before after : CombinedAllocator) : Prop where
  banned : after.bannedSubnets = before.bannedSubnets
  pools : ∃ grown, ∀ family, ∀ pool ∈ after.poolSubnets family,
    pool.interval ∈ (before.poolSubnets family).map interval ∨
      family = grown ∧ ∃ prefixLen cidr, Suitable config before family prefixLen cidr ∧
        pool.interval = cidr.interval

variable {after : CombinedAllocator} {value : ℕ}

theorem Suitable.sameFamily (suitable : Suitable config allocator family prefixLen cidr) :
    cidr.family = family := by
  rcases suitable with ⟨outer, _, outerFamily, grants⟩
  exact grants.inside.1.trans outerFamily

theorem PoolsFrom.of_old (banned : after.bannedSubnets = before.bannedSubnets)
    (old : ∀ family, (after.poolSubnets family).map interval ⊆
      (before.poolSubnets family).map interval) : PoolsFrom config before after :=
  ⟨banned, .v4, fun family _ member => .inl (old family (mem_map_of_mem member))⟩

theorem PoolsFrom.of_subset (banned : after.bannedSubnets = before.bannedSubnets)
    (fewer : ∀ family, after.poolSubnets family ⊆ before.poolSubnets family) :
    PoolsFrom config before after :=
  of_old banned fun family => map_subset _ (fewer family)

theorem PoolsFrom.refl : PoolsFrom config allocator allocator :=
  of_subset rfl fun _ _ member => member

theorem PoolsAllowed.step (allowed : before.PoolsAllowed) (pools : PoolsFrom config before after) :
    after.PoolsAllowed := by
  intro family pool member banned sameFamily active overlap
  rw [pools.banned] at active
  rcases pools.pools with ⟨_, from_⟩
  rcases from_ family pool member with old | ⟨_, _, cidr, suitable, interval⟩
  · rcases mem_map.mp old with ⟨earlier, earlierMember, same⟩
    rw [← same] at overlap
    exact allowed family earlier earlierMember banned sameFamily active overlap
  · rw [interval] at overlap
    have cidrFamily := suitable.sameFamily
    rcases suitable with ⟨_, _, _, grants⟩
    exact grants.free banned (.inr (.inl active)) (cidrFamily.trans sameFamily.symm) overlap.symm

theorem prunePools_subset (indices : List ℕ) (state : List PoolSubnet × SubnetTable) :
    (indices.foldl prunePool state).1 ⊆ state.1 := by
  induction indices generalizing state with
  | nil => exact fun _ member => member
  | cons index rest ih =>
    apply Subset.trans (ih _)
    rw [prunePool]
    split
    · exact fun _ member => member
    · exact (eraseIdx_sublist _ _).subset

theorem pruneEmpty_poolsFrom (bits : Family) :
    (allocator.pruneEmptyPoolSubnets bits).bannedSubnets = allocator.bannedSubnets ∧
      ∀ family, (allocator.pruneEmptyPoolSubnets bits).poolSubnets family ⊆
        allocator.poolSubnets family := by
  simp only [pruneEmptyPoolSubnets]
  split_ifs
  · exact ⟨rfl, fun _ _ member => member⟩
  · refine ⟨rfl, ?_⟩
    intro family
    by_cases same : family = bits
    · subst same
      simp only [setPools, setFamily, if_true]
      exact prunePools_subset _ _
    · simp only [setPools, setFamily, if_neg same]
      exact fun _ member => member

open PoolsFrom

theorem freeSubnet_poolsFrom (subnet : Option IPNet) :
    PoolsFrom config allocator (allocator.freeSubnet subnet) := by
  rw [freeSubnet]
  split
  · exact refl allocator
  · dsimp only
    split_ifs
    · apply of_subset
      · rfl
      · intro family
        simp only [setPools, setFamily]
        split_ifs with same
        · subst same
          exact eraseP_subset
        · exact fun _ member => member
    · exact of_subset rfl fun _ _ member => member

variable {allocator}

section

variable (invariant : Invariant config ledger allocator)

include invariant

theorem growPool_poolsFrom (family : Family) (choices : Choices) (attempts : ℕ) :
    PoolsFrom config allocator (allocator.growPool family choices attempts).2 := by
  rcases invariant.allocSubnet_spec family (allocator.poolPrefix family) choices with
    nothing | ⟨outer, cidr, denotes, outerFamily, grants, granted⟩
  · simpa [growPool, nothing] using refl allocator
  · rcases newCombinedPoolSubnet_spec cidr with ⟨pool, created, represents⟩
    rcases tryAllocFromPoolSubnet_spec choices.ipFilter allocator.bannedIPs allocator.reservedIPs
      attempts represents with ⟨kept, _, _⟩
    simp only [growPool, granted, created]
    refine ⟨rfl, family, ?_⟩
    intro other member inPools
    by_cases same : other = family
    · subst same
      simp only [setPools, setFamily, if_true, mem_append, mem_singleton] at inPools
      rcases inPools with old | rfl
      · exact .inl (mem_map_of_mem old)
      · exact .inr ⟨rfl, _, cidr, ⟨outer, denotes, outerFamily, grants⟩, kept.interval⟩
    · simp only [setPools, setFamily, if_neg same] at inPools
      exact .inl (mem_map_of_mem inPools)

theorem tryPools_intervals (family : Family) (filter : Option IPFilter) (other : Family) :
    let tried := allocIPFromPool filter allocator.bannedIPs (allocator.poolSubnets family) 0
      allocator.reservedIPs
    (setFamily allocator.poolSubnets family tried.pools other).map interval =
      (allocator.poolSubnets other).map interval := by
  intro tried
  rcases allocIPFromPool_spec filter allocator.bannedIPs 0 allocator.reservedIPs
    (invariant.subnets.represented family) with ⟨_, _, intervals, _⟩
  rw [setFamily]
  split_ifs with same
  · rw [same]
    exact intervals
  · rfl

theorem allocIP_poolsFrom (family : Family) (choices : Choices) :
    PoolsFrom config allocator (allocator.allocIP family choices).2 := by
  cases own : allocator.parents family with
  | none => simpa [CombinedAllocator.allocIP, own] using refl allocator
  | some owned =>
    have intervals := tryPools_intervals invariant family choices.ipFilter
    rcases invariant.tryPools family choices.ipFilter with ⟨nothing, kept, unchanged⟩ |
      ⟨ip, network, result, _⟩
    · simp only [CombinedAllocator.allocIP, own]
      split_ifs
      · exact of_old rfl fun other _ member => intervals other ▸ member
      · -- a failed try changes no table, so that the same blocks are suitable
        rcases growPool_poolsFrom kept family choices (allocIPFromPool choices.ipFilter
          allocator.bannedIPs (allocator.poolSubnets family) 0 allocator.reservedIPs).attempts
          with ⟨banned, grown, pools⟩
        refine ⟨banned, grown, fun other pool member => ?_⟩
        rcases pools other pool member with old | ⟨same, length, cidr, suitable, interval⟩
        · exact .inl (intervals other ▸ old)
        · refine .inr ⟨same, length, cidr, ?_, interval⟩
          rcases suitable with ⟨outer, denotes, outerFamily, prefixLen, inside, free⟩
          refine ⟨outer, denotes, outerFamily, prefixLen, inside, fun taken blocked => ?_⟩
          apply free taken
          rw [Blocked, unchanged]
          exact blocked
    · simp only [CombinedAllocator.allocIP, own, result, isSome_some, true_or, if_true]
      exact of_old rfl fun other _ member => intervals other ▸ member

end

theorem poolsFrom_step {event : Event} (invariant : Invariant config ledger before)
    (taken : Step before event after) : PoolsFrom config before after := by
  rcases event with ⟨call, choices, subnetResult, ipResult⟩
  rw [Step] at taken
  cases call with
  | reserveSubnet subnet =>
    cases taken
    exact of_subset rfl fun _ _ member => member
  | allocSubnet family prefixLen =>
    rcases invariant.allocSubnet_spec family prefixLen choices with
      nothing | ⟨_, _, _, _, _, granted⟩
    · simp only [perform, nothing] at taken
      cases taken
      exact refl before
    · simp only [perform, granted] at taken
      cases taken
      exact of_subset rfl fun _ _ member => member
  | freeSubnet subnet =>
    cases taken
    exact freeSubnet_poolsFrom before subnet
  | freeAllSubnets =>
    cases taken
    exact of_subset rfl fun _ => nil_subset _
  | reserveIP ip =>
    cases taken
    cases normal : normalizeAnyIP ip with
    | none => simpa only [reserveIP, normal] using refl before
    | some normalized =>
      simp only [reserveIP, normal]
      exact of_subset rfl fun _ _ member => member
  | allocIP family =>
    have after : (before.allocIP family choices).2 = after := congrArg Prod.snd taken
    rw [← after]
    exact allocIP_poolsFrom invariant family choices
  | freeIP ip =>
    cases taken
    cases normal : normalizeAnyIP ip with
    | none => simpa only [freeIP, normal] using refl before
    | some normalized =>
      simp only [freeIP, normal]
      rcases pruneEmpty_poolsFrom { before with
        reservedIPs := (before.reservedIPs.release (ipReservationKey normalized)).1 }
        normalized.bits with ⟨banned, fewer⟩
      exact of_subset banned fewer
  | freeAllIP =>
    cases taken
    rcases pruneEmpty_poolsFrom { before with reservedIPs := ∅ } .v4 with ⟨banned, fewer⟩
    rcases pruneEmpty_poolsFrom ({ before with reservedIPs := ∅ }.pruneEmptyPoolSubnets .v4)
      .v6 with ⟨bannedAgain, fewerAgain⟩
    exact of_subset (bannedAgain.trans banned)
      fun family => Subset.trans (fewerAgain family) (fewer family)

variable {history : List Event}

theorem poolsAllowed_of_run (run : Run Step (newCombinedAllocator config) history allocator) :
    allocator.PoolsAllowed := by
  induction run with
  | nil =>
    intro family pool member
    cases member
  | snoc earlier taken ih => exact ih.step (poolsFrom_step (invariant_of_run earlier) taken)

def candidates (allocator : CombinedAllocator) (family : Family) : List ℕ :=
  (allocator.poolSubnets family).flatMap PoolSubnet.candidates

structure FreeAddress (allocator : CombinedAllocator) (family : Family) (value : ℕ) : Prop where
  unused : unused allocator.bannedIPs allocator.reservedIPs family value = true
  allowed : ∀ banned : Cidr, banned.family = family →
    0 < allocator.bannedSubnets.count banned.key →
      ¬(banned.start ≤ value ∧ value ≤ banned.interval.last)

/-- The parent has a free block of the size of a pool with a free address inside. -/
def RoomForPool (config : CombinedConfig) (allocator : CombinedAllocator) (family : Family) :
    Prop :=
  ∃ outer cidr, Denotes (config.parent family) outer ∧ outer.family = family ∧
    allocator.Grants outer (allocator.poolPrefix family) cidr ∧
    ∃ value, cidr.start < value ∧ value < cidr.interval.last ∧
      allocator.FreeAddress family value

theorem Cidr.Plain.inside {inner : Cidr} (plain : outer.Plain) (inside : inner.Inside outer) :
    inner.Plain := by
  rcases inside with ⟨family, starts, ends⟩
  intro six
  have outside := plain (family ▸ six)
  omega

theorem Grants.freeAddress (grants : allocator.Grants outer prefixLen cidr)
    (first : cidr.start ≤ value) (last : value ≤ cidr.interval.last) :
    allocator.FreeAddress cidr.family value := by
  have bound : value < 2 ^ cidr.family.bits := last.trans_lt cidr.last_lt
  let host := hostCidr cidr.family value bound
  have hostOverlaps : cidr.interval.Overlaps host.interval := by
    have hostLast : host.interval.last = value := by
      simp [host, hostCidr, Cidr.interval, Interval.block, Cidr.size, subnetSize]
    exact ⟨by rw [hostLast]; exact first, last⟩
  have apart : ¬allocator.Blocked host := fun blocked => grants.free host blocked rfl hostOverlaps
  have key : hostKey cidr.family value = host.key := rfl
  constructor
  · rw [Subnet.unused, decide_eq_true_eq, key]
    simp only [Blocked, not_or, not_lt, Nat.le_zero] at apart
    exact ⟨apart.2.2.1, apart.2.2.2⟩
  · rintro banned sameFamily active ⟨starts, ends⟩
    apply grants.free banned (.inr (.inl active)) sameFamily.symm
    have cidrFirst : cidr.interval.first = cidr.start := rfl
    have bannedFirst : banned.interval.first = banned.start := rfl
    exact ⟨by omega, by omega⟩

theorem mem_candidates (represents : pool.Represents cidr) (member : value ∈ pool.candidates) :
    cidr.start < value ∧ value < cidr.interval.last := by
  simp only [PoolSubnet.candidates, represents.firstValue, represents.lastValue, mem_append,
    mem_range'_1] at member
  split_ifs at member with usable
  · rcases isUsable_spec represents represents.nextShort usable with ⟨_, above, below⟩
    omega
  · omega

theorem candidates_ne_nil (represents : pool.Represents cidr) (above : cidr.start < value)
    (below : value < cidr.interval.last) : pool.candidates ≠ [] := by
  intro empty
  have lengths := congrArg List.length empty
  simp only [PoolSubnet.candidates, represents.firstValue, represents.lastValue,
    length_append, length_range', length_nil] at lengths
  split_ifs at lengths with usable
  · rcases PoolSubnet.isUsable_spec represents represents.nextShort usable with ⟨_, _, _⟩
    omega
  · omega

theorem Grants.newPool (grants : allocator.Grants outer prefixLen cidr) (plain : outer.Plain)
    (represents : pool.Represents cidr) (more : attempts < maxFilteredAllocationAttempts) :
    (tryAllocFromPoolSubnet none allocator.bannedIPs pool attempts
        allocator.reservedIPs).ip.isSome ↔
      ∃ value, cidr.start < value ∧ value < cidr.interval.last := by
  rw [tryAllocFromPoolSubnet_found_iff represents (Cidr.Plain.inside plain grants.inside) more]
  constructor
  · rintro ⟨value, member, _⟩
    exact ⟨value, mem_candidates represents (mem_of_mem_take member)⟩
  · rintro ⟨value, above, below⟩
    rcases order : pool.candidates with _ | ⟨first, rest⟩
    · exact absurd order (candidates_ne_nil represents above below)
    · have firstMember : first ∈ pool.candidates := by rw [order]; exact mem_cons_self
      rcases mem_candidates represents firstMember with ⟨firstAbove, firstBelow⟩
      refine ⟨first, ?_, (grants.freeAddress firstAbove.le firstBelow.le).unused⟩
      have left : maxFilteredAllocationAttempts - attempts =
          maxFilteredAllocationAttempts - attempts - 1 + 1 := by omega
      rw [left, take_succ_cons]
      exact mem_cons_self

theorem growPool_isSome_iff (invariant : Invariant config ledger allocator)
    (plain : ∀ outer, Denotes (config.parent family) outer → outer.family = family → outer.Plain)
    (ipFilter : choices.ipFilter = none) (subnetFilter : choices.subnetFilter = none)
    (more : attempts < maxFilteredAllocationAttempts) :
    (allocator.growPool family choices attempts).1.isSome ↔
      RoomForPool config allocator family := by
  rcases invariant.allocSubnet_spec family (allocator.poolPrefix family) choices with
    nothing | ⟨outer, cidr, parent, outerFamily, grants, granted⟩
  · simp only [growPool, nothing, isSome_none, Bool.false_eq_true, false_iff]
    rintro ⟨outer, cidr, parent, outerFamily, grants, _⟩
    have found := invariant.allocSubnet_complete parent outerFamily grants subnetFilter
    rw [nothing] at found
    cases found
  · rcases newCombinedPoolSubnet_spec cidr with ⟨pool, created, represents⟩
    have newPool := grants.newPool (plain outer parent outerFamily) represents more
    simp only [growPool, granted, created, isSome_map, ipFilter]
    refine newPool.trans ⟨?_, ?_⟩
    · rintro ⟨value, above, below⟩
      have free := grants.freeAddress above.le below.le
      rw [grants.inside.1, outerFamily] at free
      exact ⟨outer, cidr, parent, outerFamily, grants, value, above, below, free⟩
    · rintro ⟨other, room, otherParent, otherFamily, roomGrants, value, above, below, _⟩
      -- every block of the pool size has as many addresses
      have samePrefix : room.prefixLen = cidr.prefixLen := by
        have := roomGrants.prefixLen.trans grants.prefixLen.symm
        omega
      have sameSize : room.size = cidr.size := by
        rw [Cidr.size, Cidr.size, samePrefix, roomGrants.inside.1, grants.inside.1, outerFamily,
          otherFamily]
      refine ⟨cidr.start + 1, by omega, ?_⟩
      have roomLast : room.interval.last = room.start + room.size - 1 := rfl
      have cidrLast : cidr.interval.last = cidr.start + cidr.size - 1 := rfl
      omega

theorem roomForPool_setPools (config : CombinedConfig) (allocator : CombinedAllocator)
    (family : Family) (pools : List PoolSubnet) :
    RoomForPool config (allocator.setPools family pools) family ↔
      RoomForPool config allocator family := by
  have poolPrefix : (allocator.setPools family pools).poolPrefix family =
      allocator.poolPrefix family := by
    cases family <;> rfl
  constructor
  all_goals
    rintro ⟨outer, cidr, parent, outerFamily, ⟨length, inside, apart⟩, value, above, below, free⟩
    refine ⟨outer, cidr, parent, outerFamily, ⟨?_, inside, apart⟩, value, above, below,
      free.unused, free.allowed⟩
    rw [length, poolPrefix]

section

variable (invariant : Invariant config ledger allocator)
  (plain : ∀ outer, Denotes (config.parent family) outer → outer.family = family → outer.Plain)

include invariant plain

theorem represented_plain : ∀ pool ∈ allocator.poolSubnets family, ∃ cidr, pool.Represents cidr ∧
    cidr.family = family ∧ cidr.Plain := by
  intro pool member
  rcases invariant.subnets.represented family pool member with
    ⟨cidr, represents, cidrFamily, outer, denotes, inside⟩
  have outerPlain := plain outer denotes (inside.1.symm.trans cidrFamily)
  exact ⟨cidr, represents, cidrFamily, Cidr.Plain.inside outerPlain inside⟩

theorem unused_candidate_iff (allowed : allocator.PoolsAllowed) :
    (∃ value ∈ (allocator.candidates family).take maxFilteredAllocationAttempts,
        unused allocator.bannedIPs allocator.reservedIPs family value = true) ↔
      ∃ value ∈ (allocator.candidates family).take maxFilteredAllocationAttempts,
        allocator.FreeAddress family value := by
  constructor
  · rintro ⟨value, member, isUnused⟩
    refine ⟨value, member, isUnused, ?_⟩
    rcases mem_flatMap.mp (mem_of_mem_take member) with ⟨pool, poolMember, inPool⟩
    rcases represented_plain invariant plain pool poolMember with ⟨cidr, represents, _, _⟩
    rcases mem_candidates represents inPool with ⟨above, below⟩
    rintro banned sameFamily active ⟨starts, ends⟩
    apply allowed family pool poolMember banned sameFamily active
    rw [represents.interval]
    exact ⟨starts.trans below.le, above.le.trans ends⟩
  · rintro ⟨value, member, isFree⟩
    exact ⟨value, member, isFree.unused⟩

/-- The existing pools come first, and a new one only with the rest of the budget. -/
theorem Invariant.allocIP_isSome_iff (allowed : allocator.PoolsAllowed)
    (ipFilter : choices.ipFilter = none) (subnetFilter : choices.subnetFilter = none) :
    (allocator.allocIP family choices).1.isSome ↔
      (∃ value ∈ (allocator.candidates family).take maxFilteredAllocationAttempts,
        allocator.FreeAddress family value) ∨
      (allocator.candidates family).length < maxFilteredAllocationAttempts ∧
        RoomForPool config allocator family := by
  cases own : allocator.parents family with
  | none =>
    have missing : ∀ outer, Denotes (config.parent family) outer → outer.family ≠ family := by
      rintro outer denotes rfl
      exact addParent_ne_none denotes ((invariant.parents outer.family).symm.trans own)
    have noPools : allocator.poolSubnets family = [] :=
      eq_nil_iff_forall_not_mem.mpr fun _ member => parents_of_pool invariant member own
    simp only [allocIP, own, candidates, noPools, flatMap_nil, take_nil,
      not_mem_nil, false_and, exists_false, false_or, isSome_none,
      Bool.false_eq_true, false_iff, not_and]
    rintro _ ⟨outer, _, denotes, outerFamily, _⟩
    exact missing outer denotes outerFamily
  | some owned =>
    rcases @allocIPFromPool_unfiltered allocator.bannedIPs allocator.reservedIPs family
      (allocator.poolSubnets family) (represented_plain invariant plain) with ⟨found, counted⟩
    rw [← unused_candidate_iff invariant plain allowed, candidates, ← found]
    rcases invariant.tryPools family none with ⟨nothing, kept, sameIPs⟩ | ⟨ip, network, result, _⟩
    · have attempts := counted nothing
      simp only [allocIP, own, ipFilter, nothing, isSome_none, Bool.false_eq_true, false_or]
      split_ifs with spent
      · refine iff_of_false (by simp) ?_
        rintro ⟨short, _⟩
        omega
      · have below := Nat.lt_of_not_le spent
        have short : ((allocator.poolSubnets family).flatMap PoolSubnet.candidates).length <
            maxFilteredAllocationAttempts := by omega
        have sameTables : { allocator with reservedIPs := (allocIPFromPool none
            allocator.bannedIPs (allocator.poolSubnets family) 0 allocator.reservedIPs).reserved }
            = allocator := by
          rw [show (allocIPFromPool none allocator.bannedIPs (allocator.poolSubnets family) 0
            allocator.reservedIPs).reserved = allocator.reservedIPs from sameIPs]
        rw [growPool_isSome_iff kept plain ipFilter subnetFilter below, roomForPool_setPools,
          sameTables]
        exact (and_iff_right short).symm
    · simp [allocIP, own, ipFilter, result]

end

/--
After every run, and without filters: an address is found exactly when one of the first
thousand candidates is free, or when there are fewer and the parent has room for a pool.
-/
theorem allocIP_found_iff {config : CombinedConfig} {history : List Event}
    {allocator : CombinedAllocator}
    (run : Run Step (newCombinedAllocator config) history allocator) (family : Family)
    (plain : ∀ outer, Denotes (config.parent family) outer → outer.family = family → outer.Plain)
    {choices : Choices} (ipFilter : choices.ipFilter = none)
    (subnetFilter : choices.subnetFilter = none) :
    (allocator.allocIP family choices).1.isSome ↔
      (∃ value ∈ (allocator.candidates family).take maxFilteredAllocationAttempts,
        allocator.FreeAddress family value) ∨
      (allocator.candidates family).length < maxFilteredAllocationAttempts ∧
        RoomForPool config allocator family :=
  (invariant_of_run run).allocIP_isSome_iff plain (poolsAllowed_of_run run) ipFilter subnetFilter

theorem plain_of_v4 (family : cidr.family = .v4) : cidr.Plain := by
  intro six
  rw [family] at six
  cases six

def smallConfig : CombinedConfig :=
  ⟨some ⟨[10, 0, 0, 0], [255, 255, 255, 0]⟩, none, 30, 64, [], []⟩

/-- The pool `10.0.0.0/30` has its second address left. -/
theorem allocIP_found_second :
    let first := ((newCombinedAllocator smallConfig).allocIP .v4 ⟨0, none, none⟩).2
    (first.allocIP .v4 ⟨0, none, none⟩).1.isSome := by
  intro first
  have run : Run Step (newCombinedAllocator smallConfig) _ first :=
    Run.single (step_allocIP _ .v4 ⟨0, none, none⟩)
  refine (allocIP_found_iff run .v4 (fun _ _ => plain_of_v4) rfl rfl).mpr
    (.inl ⟨0x0a000002, by decide +kernel, by decide +kernel, fun banned _ active => ?_⟩)
  rw [((invariant_of_run run).bans.subnets banned)] at active
  rcases active with ⟨_, member, _⟩
  cases member

section Crowded

def wideConfig : CombinedConfig :=
  ⟨some ⟨[10, 0, 0, 0], [255, 255, 0, 0]⟩, none, 21, 64, [], []⟩

def afterFirst : CombinedAllocator :=
  ((newCombinedAllocator wideConfig).allocIP .v4 ⟨0, none, none⟩).2

def crowd : List IP :=
  (range' 0x0a000002 1000).map fun value => intToIP value .v4

def crowded : CombinedAllocator :=
  crowd.foldl reserveIP afterFirst

theorem run_reserveIPs {start allocator : CombinedAllocator}
    (run : Run Step start history allocator) (ips : List IP) :
    ∃ later, Run Step start later (ips.foldl reserveIP allocator) := by
  induction ips generalizing history allocator with
  | nil => exact ⟨history, run⟩
  | cons ip rest ih =>
    have taken : Step allocator ⟨.reserveIP ip, ⟨0, none, none⟩, none, none⟩
        (allocator.reserveIP ip) := rfl
    exact ih (run.snoc taken)

theorem normalizeAnyIP_intToIP {value : ℕ} (bound : value < 2 ^ 32) :
    ∃ normalized, normalizeAnyIP (intToIP value .v4) = some normalized ∧
      ipReservationKey normalized = hostKey .v4 value := by
  rcases @intToIP_spec value .v4 bound with ⟨length, number⟩
  have own : normalizeIPForBits (intToIP value .v4) .v4 = some (intToIP value .v4) :=
    normalizeIPForBits_self length
  refine ⟨⟨intToIP value .v4, .v4, ofBytes (intToIP value .v4)⟩, ?_, ?_⟩
  · simp [normalizeAnyIP, own, ipToInt]
  · rw [hostKey_eq length, number]

theorem foldl_reserveIP_eq (ips : List IP) (allocator : CombinedAllocator) :
    ∃ reserved, ips.foldl reserveIP allocator = { allocator with reservedIPs := reserved } := by
  induction ips generalizing allocator with
  | nil => exact ⟨_, rfl⟩
  | cons ip rest ih =>
    rcases ih (allocator.reserveIP ip) with ⟨reserved, same⟩
    refine ⟨reserved, same.trans ?_⟩
    rw [reserveIP]
    split <;> rfl

theorem count_foldl_reserveIP (values : List ℕ) (small : ∀ value ∈ values, value < 2 ^ 32)
    (allocator : CombinedAllocator) (key : SubnetKey) :
    ((values.map fun value => intToIP value .v4).foldl reserveIP allocator).reservedIPs.count key =
      allocator.reservedIPs.count key + values.countP fun value => hostKey .v4 value = key := by
  induction values generalizing allocator with
  | nil => rfl
  | cons value rest ih =>
    rcases forall_mem_cons.mp small with ⟨first, later⟩
    rcases normalizeAnyIP_intToIP first with ⟨normalized, normal, ownKey⟩
    rw [map_cons, foldl_cons, ih later, countP_cons]
    simp only [reserveIP, normal, count_retain, ownKey, decide_eq_true_eq]
    by_cases same : hostKey .v4 value = key
    · subst same
      simp only [if_true]
      omega
    · simp [if_neg same, if_neg (Ne.symm same)]

theorem hostKey_v4_inj {left right : ℕ} (leftBound : left < 2 ^ 32) (rightBound : right < 2 ^ 32)
    (same : hostKey .v4 left = hostKey .v4 right) : left = right := by
  have ips : intToIP left .v4 = intToIP right .v4 := congrArg SubnetKey.ip same
  rw [← (@intToIP_spec left .v4 leftBound).2, ips, (@intToIP_spec right .v4 rightBound).2]

theorem crowd_small : ∀ value ∈ range' 0x0a000002 1000, value < 2 ^ 32 := by
  intro value member
  rw [mem_range'_1] at member
  omega

theorem crowded_candidates :
    crowded.candidates .v4 = range' 0x0a000002 2045 ++ [0x0a000001] := by
  have first : (afterFirst.poolSubnets .v4).map
      (fun pool => (pool.first, pool.last, pool.next, pool.isUsable pool.next)) =
      [([10, 0, 0, 0], [10, 0, 7, 255], [10, 0, 0, 2], true)] := by
    decide +kernel
  rcases map_eq_singleton_iff.mp first with ⟨pool, pools, fields⟩
  simp only [Prod.mk.injEq] at fields
  rcases fields with ⟨firstIP, lastIP, nextIP, usable⟩
  rcases foldl_reserveIP_eq crowd afterFirst with ⟨_, same⟩
  rw [candidates, crowded, same, pools]
  rw [nextIP] at usable
  have firstValue : ofBytes [10, 0, 0, 0] = 0x0a000000 := by decide
  have lastValue : ofBytes [10, 0, 7, 255] = 0x0a0007ff := by decide
  have nextValue : ofBytes [10, 0, 0, 2] = 0x0a000002 := by decide
  simp [PoolSubnet.candidates, firstIP, lastIP, nextIP, usable, firstValue, lastValue, nextValue]

theorem crowded_run : ∃ history, Run Step (newCombinedAllocator wideConfig) history crowded :=
  run_reserveIPs (Run.nil.snoc (step_allocIP (newCombinedAllocator wideConfig) .v4
    ⟨0, none, none⟩)) crowd

theorem crowded_count (key : SubnetKey) :
    crowded.reservedIPs.count key = afterFirst.reservedIPs.count key +
      (range' 0x0a000002 1000).countP fun value => hostKey .v4 value = key :=
  count_foldl_reserveIP (range' 0x0a000002 1000) crowd_small afterFirst key

theorem crowded_free : crowded.FreeAddress .v4 0x0a0007fe := by
  rcases foldl_reserveIP_eq crowd afterFirst with ⟨_, same⟩
  have bound : 0x0a0007fe < 2 ^ 32 := by decide
  have fresh : afterFirst.reservedIPs.count (hostKey .v4 0x0a0007fe) = 0 ∧
      afterFirst.bannedIPs.count (hostKey .v4 0x0a0007fe) = 0 ∧
      afterFirst.bannedSubnets.entries.length = 0 := by
    decide +kernel
  have others : (range' 0x0a000002 1000).countP
      (fun value => hostKey .v4 value = hostKey .v4 0x0a0007fe) = 0 := by
    rw [countP_eq_zero]
    intro value member same
    have equal := hostKey_v4_inj (crowd_small value member) bound (of_decide_eq_true same)
    rw [mem_range'_1] at member
    omega
  constructor
  · have count : crowded.reservedIPs.count (hostKey .v4 0x0a0007fe) = 0 := by
      rw [crowded_count, fresh.1, others]
    have banned : crowded.bannedIPs.count (hostKey .v4 0x0a0007fe) = 0 := by
      rw [crowded, same, fresh.2.1]
    rw [unused, decide_eq_true_eq]
    exact ⟨count, banned⟩
  · intro banned _ active
    have empty : afterFirst.bannedSubnets = ∅ :=
      AList.ext (eq_nil_of_length_eq_zero fresh.2.2)
    have kept : crowded.bannedSubnets = afterFirst.bannedSubnets := by rw [crowded, same]
    rw [kept, empty, count_empty] at active
    omega

theorem crowded_taken {value : ℕ} (member : value ∈ range' 0x0a000002 1000) :
    ¬crowded.FreeAddress .v4 value := by
  intro free
  have isUnused := free.unused
  rw [unused, decide_eq_true_eq, crowded_count] at isUnused
  have counted : 0 < (range' 0x0a000002 1000).countP
      fun other => hostKey .v4 other = hostKey .v4 value := by
    rw [countP_pos_iff]
    exact ⟨value, member, decide_eq_true rfl⟩
  omega

/-- A pool with a free address, from which an allocation without filters returns nothing. -/
theorem crowded_finds_nothing :
    (∃ history, Run Step (newCombinedAllocator wideConfig) history crowded) ∧
      0x0a0007fe ∈ crowded.candidates .v4 ∧ crowded.FreeAddress .v4 0x0a0007fe ∧
      (crowded.allocIP .v4 ⟨0, none, none⟩).1 = none := by
  refine ⟨crowded_run, ?_, crowded_free, ?_⟩
  · rw [crowded_candidates, mem_append, mem_range'_1]
    left
    omega
  · rcases crowded_run with ⟨history, run⟩
    rw [← not_isSome_iff_eq_none, (invariant_of_run run).allocIP_isSome_iff
      (fun _ _ => plain_of_v4) (poolsAllowed_of_run run) rfl rfl, crowded_candidates]
    rintro (⟨value, member, free⟩ | ⟨short, _⟩)
    · have firstThousand : (range' 0x0a000002 2045 ++ [0x0a000001]).take
          maxFilteredAllocationAttempts = range' 0x0a000002 1000 := by
        rw [take_append_of_le_length (by simp [maxFilteredAllocationAttempts]),
          take_range'_of_length_ge (by decide)]
        rfl
      rw [firstThousand] at member
      exact crowded_taken member free
    · simp [maxFilteredAllocationAttempts] at short

end Crowded

end Gonnect.Subnet.CombinedAllocator
