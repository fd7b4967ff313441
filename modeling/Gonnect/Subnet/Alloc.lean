import Gonnect.Foundation.Run
import Gonnect.Subnet.Reservations

/-!
# The subnet allocator

`NewSubnetAllocator` owns a parent network and hands out aligned subnets of it. The search
starts at the first address of the parent and moves behind each reservation it meets.

The ledger is the purpose of the allocator, computed from the calls and their results alone.
The table of the allocator keeps the counts of the ledger, so a search finds the lowest block
that is disjoint from everything active in the ledger.
-/

namespace Gonnect.Subnet

open BigEndian Net List RefTable

def maxFilteredAllocationAttempts : ℕ := 1000

/-- A filter may answer differently each time; the number counts the candidates of a call. -/
abbrev SubnetFilter := ℕ → IPNet → Bool

structure SubnetAllocator where
  parent : Option OwnedParent
  reserved : SubnetTable
  filter : Option SubnetFilter

def newSubnetAllocator (parent : Option IPNet) (filter : Option SubnetFilter) :
    SubnetAllocator where
  parent := ownParent parent
  reserved := ∅
  filter := filter

namespace SubnetAllocator

variable (allocator : SubnetAllocator)

def sortedBlockers (parent : OwnedParent) : List Interval :=
  sortBlockers (((allocator.reserved.items.filter (·.bits = parent.bits)).map
    ReservedSubnet.interval).filter (meetsParent parent))

def search (bits : Family) (prefixLen parentEnd : ℕ) (blockers : List Interval)
    (filter : Option SubnetFilter) (candidateStart attempts : ℕ) : Option ℕ :=
  let size := subnetSize bits prefixLen
  if parentEnd < subnetEnd candidateStart size then
    none
  else
    match Interval.firstOverlap (.block candidateStart size) blockers with
    | some blocker =>
      search bits prefixLen parentEnd blockers filter
        (nextStart candidateStart size blocker) attempts
    | none =>
      match filter with
      | none => some candidateStart
      | some accepts =>
        if accepts attempts (candidateNetwork candidateStart bits prefixLen) then
          some candidateStart
        else if maxFilteredAllocationAttempts ≤ attempts + 1 then
          none
        else
          search bits prefixLen parentEnd blockers filter (candidateStart + size)
            (attempts + 1)
termination_by parentEnd + 1 - candidateStart
decreasing_by
  · have positive := subnetSize_pos bits prefixLen
    have above := @lt_nextStart candidateStart _ positive blocker
    simp only [subnetEnd] at *
    omega
  · have positive := subnetSize_pos bits prefixLen
    simp only [subnetEnd] at *
    omega

def validPrefix (prefixLen : ℤ) : Option (OwnedParent × ℕ) := do
  let parent ← allocator.parent
  if prefixLen < 0 ∨ (parent.bits.bits : ℤ) < prefixLen then
    none
  else
    let (parentPrefix, bits) := maskSize parent.network.mask
    if bits = parent.bits.bits then some (parent, parentPrefix) else none

def alloc (prefixLen : ℤ) : Option IPNet × SubnetAllocator :=
  match allocator.validPrefix prefixLen with
  | none => (none, allocator)
  | some (parent, parentPrefix) =>
    if prefixLen < parentPrefix then
      (none, allocator)
    else
      match search parent.bits prefixLen.toNat parent.stop (allocator.sortedBlockers parent)
        allocator.filter parent.start 0 with
      | none => (none, allocator)
      | some start =>
        let network := candidateNetwork start parent.bits prefixLen.toNat
        (some network, { allocator with reserved := reserve (some network) allocator.reserved })

def reserveSubnet (subnet : Option IPNet) : SubnetAllocator :=
  { allocator with reserved := reserve subnet allocator.reserved }

def allocSubnet (family : Family) (prefixLen : ℤ) : Option IPNet × SubnetAllocator :=
  if allocator.parent.map OwnedParent.bits = some family then
    allocator.alloc prefixLen
  else
    (none, allocator)

def freeSubnet (subnet : Option IPNet) : SubnetAllocator :=
  match normalizeSubnet subnet with
  | none => allocator
  | some normalized =>
    { allocator with reserved := (allocator.reserved.release normalized.key).1 }

def freeAllSubnets : SubnetAllocator :=
  { allocator with reserved := ∅ }

end SubnetAllocator

inductive Call where
  | reserve (subnet : Option IPNet)
  | alloc (family : Family) (prefixLen : ℤ)
  | free (subnet : Option IPNet)
  | freeAll

structure Event where
  call : Call
  result : Option IPNet

def SubnetAllocator.perform (allocator : SubnetAllocator) : Call → Option IPNet × SubnetAllocator
  | .reserve subnet => (none, allocator.reserveSubnet subnet)
  | .alloc family prefixLen => allocator.allocSubnet family prefixLen
  | .free subnet => (none, allocator.freeSubnet subnet)
  | .freeAll => (none, allocator.freeAllSubnets)

def SubnetAllocator.Step (before : SubnetAllocator) (event : Event) (after : SubnetAllocator) :
    Prop :=
  before.perform event.call = (event.result, after)

/-- How often each block is in use, and the blocks handed out since they were last unused. -/
structure Ledger where
  active : Cidr → ℕ
  live : Cidr → Prop

namespace Ledger

def empty : Ledger where
  active := fun _ => 0
  live := fun _ => False

def record (ledger : Ledger) (event : Event) : Ledger :=
  match event.call with
  | .reserve subnet =>
    { ledger with
      active := fun cidr => ledger.active cidr + if Denotes subnet cidr then 1 else 0 }
  | .alloc _ _ =>
    { active := fun cidr => ledger.active cidr + if Denotes event.result cidr then 1 else 0
      live := fun cidr => ledger.live cidr ∨ Denotes event.result cidr }
  | .free subnet =>
    let active := fun cidr => ledger.active cidr - if Denotes subnet cidr then 1 else 0
    { active := active, live := fun cidr => ledger.live cidr ∧ 0 < active cidr }
  | .freeAll => empty

def ofHistory (history : List Event) : Ledger :=
  history.foldl record empty

theorem ofHistory_snoc (history : List Event) (event : Event) :
    ofHistory (history ++ [event]) = (ofHistory history).record event := by
  simp [ofHistory]

end Ledger

namespace SubnetAllocator

variable {prefixLen candidateStart : ℕ} {history : List Event} {allocator : SubnetAllocator}
  {owned : OwnedParent} {outer : Cidr}

variable {bits : Family} {parent : Option IPNet}

theorem aligned_nextStart {blocker : Interval}
    (overlap : blocker.Overlaps (.block candidateStart (subnetSize bits prefixLen))) :
    subnetSize bits prefixLen ∣ nextStart candidateStart (subnetSize bits prefixLen) blocker := by
  rw [nextStart_of_overlaps overlap]
  exact dvd_alignUp (subnetSize_pos bits prefixLen)

section

variable (represents : owned.Represents outer)

include represents

theorem start_aligned (longer : outer.prefixLen ≤ prefixLen) :
    subnetSize owned.bits prefixLen ∣ owned.start := by
  rw [represents.bits, represents.start]
  apply dvd_trans (pow_dvd_pow 2 _) outer.aligned
  omega

theorem meets_of_overlaps {cidr other : Cidr} (inside : cidr.Inside outer)
    (overlap : cidr.interval.Overlaps other.interval) :
    meetsParent owned other.interval = true := by
  rcases inside with ⟨_, starts, ends⟩
  rcases overlap with ⟨first, last⟩
  simp only [Cidr.interval, Interval.block] at first last ends
  simp only [meetsParent, decide_eq_true_eq, represents.start, represents.stop, Cidr.interval,
    Interval.block]
  omega

theorem exists_block {start : ℕ} (bound : prefixLen ≤ outer.family.bits)
    (above : owned.start ≤ start) (aligned : subnetSize owned.bits prefixLen ∣ start)
    (ends : subnetEnd start (subnetSize owned.bits prefixLen) ≤ owned.stop) :
    ∃ cidr : Cidr, candidateNetwork start owned.bits prefixLen = cidr.toIPNet ∧
      cidr.start = start ∧ cidr.prefixLen = prefixLen ∧ cidr.Inside outer ∧
      cidr.interval = .block start (subnetSize owned.bits prefixLen) := by
  have positive := subnetSize_pos owned.bits prefixLen
  rw [represents.bits] at aligned ends positive ⊢
  rw [represents.stop] at ends
  rw [represents.start] at above
  have startBound : start ≤ outer.interval.last := by
    simp only [subnetEnd] at ends
    omega
  exact ⟨outer.within prefixLen start bound aligned startBound, rfl, rfl, rfl,
    ⟨rfl, above, ends⟩, rfl⟩

end

variable {blockers : List Interval} {filter : Option SubnetFilter}

theorem search_some {parentEnd attempts start : ℕ}
    (sorted : blockers.Pairwise (fun left right => left.first ≤ right.first))
    (aligned : subnetSize bits prefixLen ∣ candidateStart)
    (found : search bits prefixLen parentEnd blockers filter candidateStart attempts = some start) :
    candidateStart ≤ start ∧ subnetSize bits prefixLen ∣ start ∧
      subnetEnd start (subnetSize bits prefixLen) ≤ parentEnd ∧
      ∀ blocker ∈ blockers, ¬blocker.Overlaps (.block start (subnetSize bits prefixLen)) := by
  fun_induction search bits prefixLen parentEnd blockers filter candidateStart attempts with
  | case1 => simp at found
  | case2 candidateStart attempts size inRange blocker overlapped ih =>
    rcases Interval.firstOverlap_some overlapped with ⟨_, overlap⟩
    rcases ih (aligned_nextStart overlap) found with ⟨above, rest⟩
    have moved := @lt_nextStart candidateStart _ (subnetSize_pos bits prefixLen) blocker
    exact ⟨moved.le.trans above, rest⟩
  | case3 candidateStart attempts size inRange free
  | case4 candidateStart attempts size inRange free accepts accepted =>
    cases found
    exact ⟨le_rfl, aligned, Nat.le_of_not_lt inRange, Interval.firstOverlap_none sorted free⟩
  | case5 => simp at found
  | case6 candidateStart attempts size inRange free accepts given rejected more ih =>
    subst given
    rcases ih ((Nat.dvd_add_right aligned).mpr dvd_rfl) found with ⟨above, rest⟩
    exact ⟨(Nat.le_add_right _ _).trans above, rest⟩

open Ledger

structure Invariant (parent : Option IPNet) (history : List Event)
    (allocator : SubnetAllocator) : Prop where
  parent : allocator.parent = ownParent parent
  filter : allocator.filter = none
  sound : allocator.reserved.Sound
  counts : ∀ cidr : Cidr, allocator.reserved.count cidr.key =
    (ofHistory history).active cidr

theorem allocSubnet_after (allocator : SubnetAllocator) (family : Family) (prefixLen : ℤ) :
    (allocator.allocSubnet family prefixLen).2 =
      { allocator with
        reserved := reserve (allocator.allocSubnet family prefixLen).1 allocator.reserved } := by
  simp only [allocSubnet, alloc]
  split_ifs
  · split
    · rfl
    · split_ifs
      · rfl
      · split
        · rfl
        · rfl
  · rfl

theorem invariant_new (parent : Option IPNet) :
    Invariant parent [] (newSubnetAllocator parent none) where
  parent := rfl
  filter := rfl
  sound := sound_empty
  counts := by
    intro cidr
    exact count_empty cidr.key

theorem invariant_step {before after : SubnetAllocator} {event : Event}
    (invariant : Invariant parent history before) (taken : Step before event after) :
    Invariant parent (history ++ [event]) after := by
  rcases invariant with ⟨parentEq, filter, sound, counts⟩
  rcases event with ⟨call, result⟩
  cases call with
  | reserve subnet =>
    cases taken
    refine ⟨parentEq, filter, reserve_sound sound subnet, ?_⟩
    intro cidr
    rw [ofHistory_snoc]
    exact (count_reserve _ _ _).trans (by rw [counts]; rfl)
  | alloc family prefixLen =>
    have resultEq : (before.allocSubnet family prefixLen).1 = result := congrArg Prod.fst taken
    have afterEq : (before.allocSubnet family prefixLen).2 = after := congrArg Prod.snd taken
    rw [← afterEq, allocSubnet_after, resultEq]
    refine ⟨parentEq, filter, reserve_sound sound result, ?_⟩
    intro cidr
    rw [ofHistory_snoc]
    exact (count_reserve _ _ _).trans (by rw [counts]; rfl)
  | free subnet =>
    cases taken
    cases normal : normalizeSubnet subnet with
    | none =>
      simp only [freeSubnet, normal]
      refine ⟨parentEq, filter, sound, ?_⟩
      intro cidr
      rw [ofHistory_snoc, counts]
      simp [record, normalizeSubnet_none normal cidr]
    | some normalized =>
      simp only [freeSubnet, normal]
      refine ⟨parentEq, filter, release_sound sound _, ?_⟩
      intro cidr
      rw [ofHistory_snoc]
      exact (count_release_of_represents _ normal _).trans (by rw [counts]; rfl)
  | freeAll =>
    cases taken
    refine ⟨parentEq, filter, sound_empty, ?_⟩
    intro cidr
    rw [ofHistory_snoc]
    exact count_empty cidr.key

theorem invariant_of_run (run : Run Step (newSubnetAllocator parent none) history allocator) :
    Invariant parent history allocator := by
  apply run.history_invariant (invariant_new parent)
  intro history before event after invariant taken
  exact invariant_step invariant taken

end SubnetAllocator

end Gonnect.Subnet
