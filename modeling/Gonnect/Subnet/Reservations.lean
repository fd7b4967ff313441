import Gonnect.Foundation.RefCount
import Gonnect.Subnet.Network

/-!
# Reserved subnets and the search around them

Both allocators keep their reservations in one kind of table and share the search step that
moves a candidate behind the first blocker on it. A table is `Sound` when every entry holds
the numbers of one block under its key, so that a count in the table is a count of blocks.
-/

namespace Gonnect.Subnet

open BigEndian Net RefTable

abbrev SubnetTable := RefTable SubnetKey ReservedSubnet

def reserve (subnet : Option IPNet) (reserved : SubnetTable) : SubnetTable :=
  match normalizeSubnet subnet with
  | some normalized => reserved.retain normalized.key normalized
  | none => reserved

structure OwnedParent where
  network : IPNet
  bits : Family
  start : ℕ
  stop : ℕ

def ownParent (parent : Option IPNet) : Option OwnedParent := do
  let parent ← parent
  let (ip, mask, bits) ← normalizeIPNet parent
  let network : IPNet := ⟨ip, mask⟩
  let (first, last) := range network
  return {
    network := network
    bits := bits
    start := ipToInt ((normalizeIPForBits first bits).getD [])
    stop := ipToInt ((normalizeIPForBits last bits).getD []) }

def ReservedSubnet.interval (reserved : ReservedSubnet) : Interval :=
  ⟨reserved.start, reserved.stop⟩

def blockerBefore (left right : Interval) : Bool :=
  left.first < right.first ∨ left.first = right.first ∧ left.last ≤ right.last

def sortBlockers (blockers : List Interval) : List Interval :=
  blockers.mergeSort blockerBefore

def meetsParent (parent : OwnedParent) (interval : Interval) : Bool :=
  ¬(interval.last < parent.start ∨ parent.stop < interval.first)

def nextStart (candidateStart size : ℕ) (blocker : Interval) : ℕ :=
  let next := alignUp (blocker.last + 1) size
  if next ≤ candidateStart then candidateStart + size else next

def candidateNetwork (start : ℕ) (bits : Family) (prefixLen : ℕ) : IPNet where
  ip := intToIP start bits
  mask := cidrMask prefixLen bits

theorem subnetSize_pos (bits : Family) (prefixLen : ℕ) : 0 < subnetSize bits prefixLen := by
  simp only [subnetSize]
  positivity

variable {candidateStart size : ℕ} {blocker : Interval} {reserved : SubnetTable}
  {parent : Option IPNet}

theorem lt_nextStart (positive : 0 < size) (blocker : Interval) :
    candidateStart < nextStart candidateStart size blocker := by
  simp only [nextStart]
  split_ifs
  · omega
  · omega

theorem nextStart_of_overlaps (overlap : blocker.Overlaps (Interval.block candidateStart size)) :
    nextStart candidateStart size blocker = alignUp (blocker.last + 1) size := by
  have above := le_alignUp (blocker.last + 1) size
  have reaches := overlap.2
  simp only [Interval.block] at reaches
  simp only [nextStart]
  rw [if_neg (by omega)]

theorem sortBlockers_sorted (blockers : List Interval) :
    (sortBlockers blockers).Pairwise (fun left right => left.first ≤ right.first) := by
  have sorted : (blockers.mergeSort blockerBefore).Pairwise
      (fun left right => blockerBefore left right = true) := by
    apply List.pairwise_mergeSort
    · intro left middle right
      simp only [blockerBefore, decide_eq_true_eq]
      omega
    · intro left right
      simp only [blockerBefore, Bool.or_eq_true, decide_eq_true_eq]
      omega
  apply sorted.imp
  intro left right before
  simp only [blockerBefore, decide_eq_true_eq] at before
  omega

@[simp]
theorem mem_sortBlockers {blockers : List Interval} :
    blocker ∈ sortBlockers blockers ↔ blocker ∈ blockers := by
  simp [sortBlockers]

def SubnetTable.Sound (reserved : SubnetTable) : Prop :=
  reserved.All fun key item => ∃ cidr : Cidr, key = cidr.key ∧ item.Represents cidr

theorem sound_empty : SubnetTable.Sound ∅ :=
  all_empty _

theorem reserve_sound (sound : reserved.Sound) (subnet : Option IPNet) :
    SubnetTable.Sound (reserve subnet reserved) := by
  simp only [reserve]
  cases normal : normalizeSubnet subnet with
  | none => exact sound
  | some normalized =>
    rcases normalizeSubnet_some normal with ⟨cidr, _, represents⟩
    exact RefTable.All.retain sound ⟨cidr, represents.key, represents⟩

theorem count_reserve (reserved : SubnetTable) (subnet : Option IPNet) (cidr : Cidr) :
    (reserve subnet reserved).count cidr.key =
      reserved.count cidr.key + if Denotes subnet cidr then 1 else 0 := by
  simp only [reserve]
  cases normal : normalizeSubnet subnet with
  | none => simp [normalizeSubnet_none normal cidr]
  | some normalized =>
    rcases normalizeSubnet_some normal with ⟨found, denotes, represents⟩
    simp only [represents.key, count_retain, Cidr.key_inj, denotes.iff_eq, @eq_comm _ found]
    split_ifs with same <;> simp [same]

theorem release_sound (sound : reserved.Sound) (key : SubnetKey) :
    SubnetTable.Sound (reserved.release key).1 :=
  RefTable.All.release sound key

theorem count_release_of_represents (reserved : SubnetTable) {subnet : Option IPNet}
    {normalized : ReservedSubnet} (normal : normalizeSubnet subnet = some normalized)
    (cidr : Cidr) :
    (reserved.release normalized.key).1.count cidr.key =
      reserved.count cidr.key - if Denotes subnet cidr then 1 else 0 := by
  rcases normalizeSubnet_some normal with ⟨found, denotes, represents⟩
  simp only [represents.key, count_release, Cidr.key_inj, denotes.iff_eq, @eq_comm _ found]
  split_ifs with same <;> simp [same]

theorem SubnetTable.Sound.mem_items (sound : reserved.Sound) (family : Family)
    (interval : Interval) :
    (∃ item ∈ reserved.items, item.bits = family ∧ item.interval = interval) ↔
      ∃ cidr : Cidr, 0 < reserved.count cidr.key ∧ cidr.family = family ∧
        cidr.interval = interval := by
  constructor
  · rintro ⟨item, member, rfl, rfl⟩
    rcases mem_items_iff.mp member with ⟨key, entry, found, rfl⟩
    rcases sound key entry found with ⟨cidr, rfl, represents⟩
    refine ⟨cidr, count_pos_iff.mpr ⟨entry, found⟩, represents.bits.symm, ?_⟩
    simp [ReservedSubnet.interval, represents.start, represents.stop, Cidr.interval, Interval.block]
  · rintro ⟨cidr, active, rfl, rfl⟩
    rcases count_pos_iff.mp active with ⟨entry, found⟩
    rcases sound _ _ found with ⟨other, keys, represents⟩
    rw [← Cidr.key_injective keys] at represents
    refine ⟨entry.item, mem_items_iff.mpr ⟨_, entry, found, rfl⟩, represents.bits, ?_⟩
    simp [ReservedSubnet.interval, represents.start, represents.stop, Cidr.interval, Interval.block]

theorem ownParent_eq (parent : Option IPNet) :
    ownParent parent = (normalizeSubnet parent).map fun normalized =>
      ⟨normalized.network, normalized.bits, normalized.start, normalized.stop⟩ := by
  cases parent with
  | none => rfl
  | some network =>
    cases normal : normalizeIPNet network with
    | none | some parts => simp [ownParent, normalizeSubnet, normal]

structure OwnedParent.Represents (owned : OwnedParent) (cidr : Cidr) : Prop where
  bits : owned.bits = cidr.family
  start : owned.start = cidr.start
  stop : owned.stop = cidr.interval.last
  mask : maskSize owned.network.mask = (cidr.prefixLen, cidr.family.bits)

theorem ownParent_some {owned : OwnedParent} (found : ownParent parent = some owned) :
    ∃ cidr, Denotes parent cidr ∧ owned.Represents cidr := by
  rw [ownParent_eq] at found
  rcases Option.map_eq_some_iff.mp found with ⟨normalized, normal, rfl⟩
  rcases normalizeSubnet_some normal with ⟨cidr, denotes, represents⟩
  exact ⟨cidr, denotes, represents.bits, represents.start, represents.stop, represents.mask⟩

theorem ownParent_none (missing : ownParent parent = none) (cidr : Cidr) :
    ¬Denotes parent cidr := by
  rw [ownParent_eq, Option.map_eq_none_iff] at missing
  exact normalizeSubnet_none missing cidr

end Gonnect.Subnet
