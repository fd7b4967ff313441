import Gonnect.Subnet.CombinedRuns
import Gonnect.Subnet.IPAlloc

/-!
# Addresses and reserved subnets

A new pool of the combined allocator avoids every subnet that is reserved. A subnet may
also be reserved later and lie inside a pool that exists already, and the walk over the
pools does not look at such reservations.
-/

namespace Gonnect.Subnet

open BigEndian Net List Option PoolSubnet

namespace CombinedAllocator

def visitedIPs (allocator : CombinedAllocator) (family : Family) : List IP :=
  ((allocator.poolSubnets family).flatMap visited).take maxFilteredAllocationAttempts

def recordReservation (counts : Cidr → ℕ) (event : Event) : Cidr → ℕ :=
  match event.call with
  | .reserveSubnet subnet => fun cidr => counts cidr + if Denotes subnet cidr then 1 else 0
  | .freeSubnet subnet => fun cidr => counts cidr - if Denotes subnet cidr then 1 else 0
  | .freeAllSubnets => fun _ => 0
  | _ => counts

variable (history : List Event)

def reservations : Cidr → ℕ :=
  history.foldl recordReservation fun _ => 0

theorem reservations_le (cidr : Cidr) :
    reservations history cidr ≤ (Ledger.ofHistory history).subnets cidr := by
  induction history using reverseRecOn with
  | nil => exact le_refl _
  | append_singleton history event ih =>
    rw [Ledger.ofHistory_snoc]
    have snoc : reservations (history ++ [event]) =
        recordReservation (reservations history) event := by
      simp [reservations]
    rw [snoc]
    rcases event with ⟨call, choices, subnet, ip⟩
    cases call with
    | reserveSubnet subnet => exact Nat.add_le_add_right ih _
    | allocSubnet family prefixLen => exact Nat.le_add_right_of_le ih
    | freeSubnet subnet => exact Nat.sub_le_sub_right ih _
    | freeAllSubnets => exact le_refl _
    | reserveIP ip | freeIP ip | freeAllIP => exact ih
    | allocIP family =>
      cases ip with
      | none | some pair => exact ih

def AvoidsReserved (allocator : CombinedAllocator) (family : Family) : Prop :=
  ∀ choices ip network host block, (allocator.allocIP family choices).1 = some (ip, network) →
    DenotesIP ip host → 0 < reservations history block → ¬block.Overlaps host

def VisitsAvoidReserved (allocator : CombinedAllocator) (family : Family) : Prop :=
  ∀ ip ∈ allocator.visitedIPs family, ∀ host block, DenotesIP ip host →
    allocator.reservedIPs.count host.key = 0 → allocator.bannedIPs.count host.key = 0 →
      0 < reservations history block → ¬block.Overlaps host

theorem not_overlaps_of_apart {cidr block host : Cidr} (apart : ¬block.Overlaps cidr)
    (family : host.family = cidr.family) (starts : cidr.start ≤ host.start)
    (ends : host.interval.last ≤ cidr.interval.last) : ¬block.Overlaps host := by
  intro overlap
  apply apart
  rw [Cidr.Overlaps, family] at overlap
  rw [Cidr.Overlaps]
  generalize cidr.family = common at overlap ⊢
  rcases overlap with ⟨first, last⟩
  cases common with
  | v4 =>
    exact ⟨first.trans (Nat.add_le_add_left ends _), (Nat.add_le_add_left starts _).trans last⟩
  | v6 => exact ⟨first.trans ends, starts.trans last⟩

variable {config : CombinedConfig} {ledger : Ledger} {allocator : CombinedAllocator}
  {family : Family}

theorem growPool_avoids (invariant : Invariant config ledger allocator) {choices : Choices}
    {attempts : ℕ} {ip : IP} {network : IPNet} {host block : Cidr}
    (returned : (allocator.growPool family choices attempts).1 = some (ip, network))
    (denotes : DenotesIP ip host) (active : 0 < ledger.subnets block)
    (across : block.family ≠ family → ∀ outer, Denotes (config.parent family) outer →
      ¬block.Overlaps outer) : ¬block.Overlaps host := by
  rcases invariant.allocSubnet_spec family (allocator.poolPrefix family) choices with
    nothing | ⟨outer, cidr, parent, outerFamily, grants, granted⟩
  · simp [growPool, nothing] at returned
  · rcases newCombinedPoolSubnet_spec cidr with ⟨pool, created, represents⟩
    rcases tryAllocFromPoolSubnet_spec choices.ipFilter allocator.bannedIPs allocator.reservedIPs
      attempts represents with ⟨_, _, ⟨nothing, _⟩ | ⟨hit, found, handsOut⟩⟩
    · simp [growPool, granted, created, reserveSubnet, nothing] at returned
    · simp only [growPool, granted, created, reserveSubnet, found, map_some,
        Option.some.injEq, Prod.mk.injEq] at returned
      rcases returned with ⟨rfl, _⟩
      rcases handsOut with ⟨own, _, ownDenotes, sameFamily, above, below, _⟩
      cases denotes.unique ownDenotes
      have counted : 0 < allocator.reservedSubnets.count block.key := by
        rw [invariant.subnets.counted]
        omega
      have single : host.interval.last = host.start := by
        simp [Cidr.interval, Interval.block, Cidr.size, subnetSize, denotes.1]
      refine not_overlaps_of_apart ?_ sameFamily above.le (single ▸ below.le)
      by_cases same : cidr.family = block.family
      · rw [Cidr.overlaps_iff same.symm]
        exact fun overlap => grants.free block (.inl counted) same overlap.symm
      · have apart := across
          (fun other => same (grants.inside.1.trans (outerFamily.trans other.symm)))
          outer parent
        exact not_overlaps_of_apart apart grants.inside.1 grants.inside.2.1 grants.inside.2.2

/-- In every state of a run, the addresses that can be allocated are outside of all subnets
reserved through `ReserveSubnet`, exactly if this is so for the free addresses that the walk
over the existing pools visits. Subnets of the other family have to be apart from the parent. -/
theorem avoidsReserved_iff {config : CombinedConfig} {history : List Event}
    {allocator : CombinedAllocator}
    (run : Run Step (newCombinedAllocator config) history allocator) (family : Family)
    (across : ∀ block, 0 < reservations history block → block.family ≠ family →
      ∀ outer, Denotes (config.parent family) outer → ¬block.Overlaps outer) :
    AvoidsReserved history allocator family ↔ VisitsAvoidReserved history allocator family := by
  have invariant := invariant_of_run run
  have represented : ∀ pool ∈ allocator.poolSubnets family, ∃ cidr, pool.Represents cidr := by
    intro pool member
    rcases invariant.subnets.represented family pool member with ⟨cidr, represents, _⟩
    exact ⟨cidr, represents⟩
  have normal : ∀ ip ∈ (allocator.poolSubnets family).flatMap visited,
      ∃ bits, normalizeAnyIP ip = some ⟨ip, bits, ofBytes ip⟩ := by
    intro ip member
    rcases mem_flatMap.mp member with ⟨pool, listed, visited⟩
    rcases represented pool listed with ⟨cidr, represents⟩
    exact ⟨_, visited_normal represents visited⟩
  have budget : 0 < maxFilteredAllocationAttempts := by decide
  constructor
  · intro avoids ip visited host block denotes unreserved unbanned reserved
    have listed := mem_of_mem_take visited
    rcases normal ip listed with ⟨bits, ownForm⟩
    rcases normalizeAnyIP_some ownForm with ⟨own, ownDenotes, represents⟩
    cases denotes.unique ownDenotes
    -- a filter that accepts this address alone
    let choices : Choices := ⟨0, some fun _ candidate => candidate = ip, none⟩
    have picked := @allocIPFromPool_picked choices.ipFilter allocator.bannedIPs
      allocator.reservedIPs _ 0 represented budget
    have found := @Scan.pick_only _ maxFilteredAllocationAttempts
      (grantedAt choices.ipFilter allocator.bannedIPs allocator.reservedIPs) _ 0 ip visited
      (fun moment more => (grantedAt_iff more ownForm represents).mpr
        ⟨unreserved, unbanned, by simp [choices]⟩) ?_
    · rw [← picked] at found
      rcases map_eq_some_iff.mp found with ⟨⟨hit, network⟩, result, same⟩
      cases same
      rcases mem_flatMap.mp listed with ⟨pool, member, _⟩
      rcases ne_none_iff_exists'.mp (parents_of_pool invariant member) with ⟨owned, own⟩
      refine avoids choices hit network _ block ?_ denotes reserved
      simp [allocIP, own, result]
    · intro moment other member granted
      rcases normal other member with ⟨otherBits, otherForm⟩
      rcases normalizeAnyIP_some otherForm with ⟨otherHost, _, otherRepresents⟩
      by_cases more : moment < maxFilteredAllocationAttempts
      · have accepted := ((grantedAt_iff more otherForm otherRepresents).mp granted).2.2
        simpa [choices] using accepted
      · simp [grantedAt, tryAllocIP, otherForm, Nat.le_of_not_lt more] at granted
  · intro avoids choices ip network host block returned denotes reserved
    have picked := @allocIPFromPool_picked choices.ipFilter allocator.bannedIPs
      allocator.reservedIPs _ 0 represented budget
    have active : 0 < (Ledger.ofHistory history).subnets block :=
      lt_of_lt_of_le reserved (reservations_le history block)
    cases own : allocator.parents family with
    | none => simp [allocIP, own] at returned
    | some owned =>
      rcases invariant.tryPools family choices.ipFilter with ⟨nothing, after, _⟩ |
        ⟨hit, from_, result, _, _⟩
      · simp only [allocIP, own, nothing, isSome_none, Bool.false_eq_true,
          false_or] at returned
        split_ifs at returned
        exact growPool_avoids after returned denotes active (across block reserved)
      · simp only [allocIP, own, result, isSome_some, true_or, if_true] at returned
        cases returned
        have found := (congrArg Prod.fst picked).symm
        rw [result] at found
        rcases Scan.pick_mem found with ⟨visited, moment, granted⟩
        rcases normal ip (mem_of_mem_take visited) with ⟨bits, ownForm⟩
        rcases normalizeAnyIP_some ownForm with ⟨ownHost, ownDenotes, represents⟩
        cases denotes.unique ownDenotes
        by_cases more : moment < maxFilteredAllocationAttempts
        · rcases (grantedAt_iff more ownForm represents).mp granted with ⟨unreserved, unbanned, _⟩
          exact avoids ip visited _ block denotes unreserved unbanned reserved
        · simp [grantedAt, tryAllocIP, ownForm, Nat.le_of_not_lt more] at granted

/-- The pool `10.0.0.0/30` exists when the upper half of the parent is reserved. -/
theorem avoidsReserved_upper :
    let config : CombinedConfig :=
      ⟨some ⟨[10, 0, 0, 0], [255, 255, 255, 0]⟩, none, 30, 64, [], []⟩
    let subnet : IPNet := ⟨[10, 0, 0, 128], [255, 255, 255, 128]⟩
    let pooled := (newCombinedAllocator config).allocIP .v4 ⟨0, none, none⟩
    AvoidsReserved [⟨.allocIP .v4, ⟨0, none, none⟩, none, pooled.1⟩,
      ⟨.reserveSubnet (some subnet), ⟨0, none, none⟩, none, none⟩]
      (pooled.2.reserveSubnet (some subnet)) .v4 := by
  intro config subnet pooled
  have run := (Run.single (step_allocIP (newCombinedAllocator config) .v4 ⟨0, none, none⟩)).snoc
    (rfl : Step pooled.2 ⟨.reserveSubnet (some subnet), ⟨0, none, none⟩, none, none⟩ _)
  have only : ∀ block, 0 < reservations [⟨.allocIP .v4, ⟨0, none, none⟩, none, pooled.1⟩,
      ⟨.reserveSubnet (some subnet), ⟨0, none, none⟩, none, none⟩] block →
      block = ⟨.v4, 25, 0x0a000080, by decide, by decide, by decide⟩ := by
    intro block reserved
    change 0 < 0 + ite _ _ _ at reserved
    split_ifs at reserved with denotes
    · exact denotes.unique (by decide +kernel)
    · cases reserved
  refine (avoidsReserved_iff run .v4 ?_).mpr ?_
  · rintro block reserved another
    exact absurd (only block reserved ▸ rfl) another
  · intro ip visited host block denotes _ _ reserved
    have inPool : (pooled.2.reserveSubnet (some subnet)).visitedIPs .v4 =
        [[10, 0, 0, 2], [10, 0, 0, 1]] := by
      decide +kernel
    rw [inPool, mem_pair] at visited
    rw [only block reserved]
    have two : DenotesIP [10, 0, 0, 2] (hostCidr .v4 0x0a000002 (by decide)) := by decide
    have one : DenotesIP [10, 0, 0, 1] (hostCidr .v4 0x0a000001 (by decide)) := by decide
    rcases visited with rfl | rfl
    · rw [denotes.unique two]
      decide
    · rw [denotes.unique one]
      decide

/-- The pool `10.0.0.0/24` exists when `10.0.0.2/32` is reserved, and the next address is
`10.0.0.2` nevertheless. -/
theorem allocIP_inside_reserved :
    let config : CombinedConfig :=
      ⟨some ⟨[10, 0, 0, 0], [255, 255, 255, 0]⟩, none, 24, 64, [], []⟩
    let choices : Choices := ⟨0, none, none⟩
    let network : IPNet := ⟨[10, 0, 0, 0], [255, 255, 255, 0]⟩
    let subnet : IPNet := ⟨[10, 0, 0, 2], [255, 255, 255, 255]⟩
    ∃ history allocator host, Run Step (newCombinedAllocator config) history allocator ∧
      (allocator.allocIP .v4 choices).1 = some ([10, 0, 0, 2], network) ∧
      DenotesIP [10, 0, 0, 2] host ∧ Denotes (some subnet) host ∧
      0 < reservations history host ∧ host.Overlaps host := by
  intro config choices network subnet
  have taken := step_allocIP (newCombinedAllocator config) .v4 choices
  generalize firstEq : (newCombinedAllocator config).allocIP .v4 choices = first at taken
  let host : Cidr := hostCidr .v4 0x0a000002 (by decide)
  refine ⟨_, first.2.reserveSubnet (some subnet), host,
    (Run.single taken).snoc
      (rfl : Step first.2 ⟨.reserveSubnet (some subnet), choices, none, none⟩ _),
    ?_, by decide +kernel, by decide +kernel, ?_, by decide⟩
  · rw [← firstEq]
    decide +kernel
  · rw [← firstEq]
    decide +kernel

end CombinedAllocator

end Gonnect.Subnet
