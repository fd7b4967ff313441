import Gonnect.Foundation.BudgetScan
import Gonnect.Subnet.Pool

/-!
# The order in which a pool tries its addresses

An allocation from a pool tries the addresses from `next` up to the last one, and then those
from the first one up to `next`. Seen as numbers the two loops are one scan with a budget,
over the `candidates` of the pool. The statements are about pools that do not meet the IPv6
addresses that stand for IPv4 addresses: `Next` turns such an address into four bytes, and
the walk ends there.
-/

namespace Gonnect.Subnet

open BigEndian Net List PoolSubnet Scan

def Cidr.Plain (cidr : Cidr) : Prop :=
  cidr.family = .v6 → cidr.interval.last < 0xffff * 2 ^ 32 ∨ 0x10000 * 2 ^ 32 ≤ cidr.start

theorem increment_value (bytes : List UInt8) :
    ofBytes (increment bytes).1 + (if (increment bytes).2 then 256 ^ bytes.length else 0) =
      ofBytes bytes + 1 := by
  induction bytes with
  | nil => rfl
  | cons byte rest ih =>
    have small := byte.toNat_lt
    have length := increment_length rest
    rcases carried : increment rest with ⟨bytes, carry⟩
    rw [carried] at ih length
    simp only [increment, carried]
    cases carry with
    | false =>
      simp only [Bool.false_eq_true, if_false, add_zero] at ih ⊢
      rw [ofBytes_cons, ofBytes_cons, length, ih, add_assoc]
    | true =>
      have next : (byte + 1).toNat = (byte.toNat + 1) % 256 := UInt8.toNat_add byte 1
      have wraps : (byte + 1 == 0) = true ↔ (byte + 1).toNat = 0 := by
        rw [beq_iff_eq, ← UInt8.toNat_inj, UInt8.toNat_zero]
      simp only [if_true, wraps, ofBytes_cons, length, length_cons] at ih ⊢
      rw [pow_succ, next]
      by_cases overflow : byte.toNat = 255
      · simp only [overflow, Nat.reduceAdd, Nat.mod_self, if_true]
        omega
      · rw [Nat.mod_eq_of_lt (by omega), if_neg (Nat.succ_ne_zero _), add_mul]
        omega

section Inside

variable {pool : PoolSubnet} {cidr : Cidr} (plain : cidr.Plain) {ip : IP}
  (length : ip.length = cidr.family.bytes)

include plain length

theorem Cidr.Plain.own_form (first : cidr.start ≤ ofBytes ip)
    (last : ofBytes ip ≤ cidr.interval.last) :
    (to4 ip).getD ip = ip := by
  cases family : cidr.family with
  | v4 =>
    rw [family] at length
    have own : to4 ip = some ip := @normalizeIPForBits_self ip .v4 length
    rw [own, Option.getD_some]
  | v6 =>
    have outside := plain family
    rw [family] at length
    have native := (native_iff length).mpr (by omega)
    rw [native, Option.getD_none]

theorem Cidr.Plain.nextIP (first : cidr.start ≤ ofBytes ip) (last : ofBytes ip < cidr.interval.last) :
    (nextIP ip).length = cidr.family.bytes ∧ ofBytes (nextIP ip) = ofBytes ip + 1 := by
  have form := plain.own_form length first last.le
  have bound := cidr.last_lt
  have value := increment_value ip
  have nextLength : (increment ip).1.length = cidr.family.bytes := by
    rw [increment_length, length]
  have nextBound := ofBytes_lt (increment ip).1
  rw [two_pow_bits] at bound
  rw [length] at value
  rw [Subnet.nextIP, form]
  refine ⟨nextLength, ?_⟩
  split_ifs at value
  · omega
  · omega

theorem PoolSubnet.Represents.isUsable_iff (represents : pool.Represents cidr) :
    pool.isUsable ip = true ↔ cidr.start < ofBytes ip ∧ ofBytes ip < cidr.interval.last := by
  simp only [isUsable, Bool.and_eq_true, represents.above_iff length,
    represents.below_iff length]
  constructor
  · rintro ⟨⟨_, first⟩, last⟩
    exact ⟨first, last⟩
  · rintro ⟨first, last⟩
    refine ⟨⟨?_, first⟩, last⟩
    rcases maskSize_family represents.mask with ⟨simple, maskLength⟩
    have lastEq : cidr.interval.last = cidr.start + cidr.size - 1 := rfl
    have networkForm := plain.own_form represents.length represents.value.ge
      (by rw [represents.value, lastEq]; omega)
    have ipForm := plain.own_form length first.le last.le
    have bytes : cidr.family.bytes = 4 ∨ cidr.family.bytes = 16 := by
      cases cidr.family <;> simp [Family.bytes]
    have number := networkNumberAndMask_self networkForm
      (represents.length.trans maskLength.symm) (represents.length ▸ bytes)
    have sizeEq : 2 ^ (8 * pool.network.mask.length - cidr.prefixLen) = cidr.size := by
      rw [maskLength, Cidr.size, subnetSize]
      cases cidr.family <;> rfl
    rw [contains_aligned number simple (by rw [sizeEq, represents.value]; exact cidr.aligned),
      ipForm, sizeEq, represents.value]
    exact ⟨length.trans represents.length.symm, first.le, last.le⟩

end Inside

def hostKey (family : Family) (value : ℕ) : SubnetKey :=
  ⟨family, family.bits, intToIP value family⟩

def unused (banned reserved : IPTable) (family : Family) (value : ℕ) : Bool :=
  reserved.count (hostKey family value) = 0 ∧ banned.count (hostKey family value) = 0

variable (pool : PoolSubnet)

def PoolSubnet.searchStart : IP :=
  if pool.isUsable pool.next then pool.next else nextIP pool.first

/-- The addresses that a loop over the pool looks at, up to a number of them. -/
def PoolSubnet.visits (pool : PoolSubnet) (limit : Option IP) : ℕ → IP → List IP
  | 0, _ => []
  | count + 1, candidate =>
    if limit.all (isBeforeIP candidate) ∧ pool.isUsable candidate then
      candidate :: pool.visits limit count (nextIP candidate)
    else
      []

/-- The addresses of a pool in the order in which an allocation looks at them, as far as
the budget of one call can reach in each of the two loops. -/
def PoolSubnet.visited : List IP :=
  if ¬isBeforeIP pool.first pool.last then
    []
  else
    pool.visits none maxFilteredAllocationAttempts pool.searchStart ++
      pool.visits (some pool.searchStart) maxFilteredAllocationAttempts (nextIP pool.first)

def Walk.picked : Walk → Option IP × ℕ
  | .found _ candidate attempts _ => (some candidate, attempts)
  | .gaveUp attempts => (none, attempts)
  | .exhausted attempts => (none, attempts)

def grantedAt (filter : Option IPFilter) (banned reserved : IPTable) (attempts : ℕ)
    (candidate : IP) : Bool :=
  (tryAllocIP filter banned candidate attempts reserved).1.isSome

section Walk

variable {pool} {cidr : Cidr} {filter : Option IPFilter} {banned reserved : IPTable}
    {family : Family} {limit : Option IP} {candidate : IP} {attempts : ℕ}

theorem hostKey_eq {ip : IP} (length : ip.length = family.bytes) :
    ipReservationKey ⟨ip, family, ofBytes ip⟩ = hostKey family (ofBytes ip) := by
  rw [ipReservationKey, subnetMapKey, hostKey, intToIP_ofBytes length]

open Option

theorem walk_gaveUp {attempts' : ℕ}
    (ended : walk filter banned pool limit candidate attempts reserved = .gaveUp attempts') :
    maxFilteredAllocationAttempts ≤ attempts' := by
  fun_induction walk filter banned pool limit candidate attempts reserved with
  | case1 | case4 => cases ended
  | case2 candidate attempts usable attempts'' reserved' tried spent =>
    cases ended
    exact spent
  | case3 candidate attempts usable attempts'' reserved' tried more ih => exact ih ended

theorem visits_usable {count : ℕ} {ip : IP}
    (short : (to4 pool.network.ip).isSome → candidate.length = 4)
    (member : ip ∈ pool.visits limit count candidate) :
    pool.isUsable ip ∧ ((to4 pool.network.ip).isSome → ip.length = 4) := by
  induction count generalizing candidate with
  | zero => cases member
  | succ count ih =>
    unfold visits at member
    split_ifs at member with usable
    · rcases mem_cons.mp member with rfl | later
      · exact ⟨usable.2, short⟩
      · exact ih (fun mapped => nextIP_length_of_four (short mapped)) later
    · cases member

section

variable (represents : pool.Represents cidr)

include represents

theorem PoolSubnet.Represents.goesOn_iff (plain : cidr.Plain) {stop : ℕ}
    (stopEq : stop = (limit.map ofBytes).getD cidr.interval.last)
    (stopLe : stop ≤ cidr.interval.last)
    (limitLength : ∀ bound ∈ limit, bound.length = cidr.family.bytes)
    (length : candidate.length = cidr.family.bytes) (above : cidr.start < ofBytes candidate) :
    (limit.all (isBeforeIP candidate) = true ∧ pool.isUsable candidate = true) ↔
      ofBytes candidate < stop := by
  rw [represents.isUsable_iff plain length]
  cases limit with
  | none =>
    simp [stopEq, above]
  | some bound =>
    simp only [map_some, getD_some] at stopEq
    have before : isBeforeIP candidate bound = true ↔ ofBytes candidate < stop := by
      rw [isBeforeIP, decide_eq_true_eq,
        lt_iff_ofBytes_lt (by rw [length, limitLength bound rfl]), stopEq]
    simp only [all_some, before]
    omega

theorem PoolSubnet.Represents.shortStart (mapped : (to4 pool.network.ip).isSome) :
    pool.searchStart.length = 4 := by
  unfold searchStart
  split_ifs
  · exact represents.nextShort mapped
  · exact represents.shortFirst mapped

theorem visited_normal {ip : IP} (member : ip ∈ pool.visited) :
    normalizeAnyIP ip = some ⟨ip, cidr.family, ofBytes ip⟩ := by
  have usable : pool.isUsable ip ∧ ((to4 pool.network.ip).isSome → ip.length = 4) := by
    unfold visited at member
    split_ifs at member with order
    · rcases mem_append.mp member with first | second
      · exact visits_usable represents.shortStart first
      · exact visits_usable represents.shortFirst second
    · cases member
  exact (isUsable_spec represents usable.2 usable.1).1

theorem walkAround_found_eq {ip hit : IP} {attempts' : ℕ}
    {reserved' : IPTable}
    (found : walkAround filter banned pool pool.searchStart attempts reserved =
      .found ip hit attempts' reserved') : ip = hit := by
  rcases walkAround_found represents found with ⟨usable, hitShort, tries, tried⟩
  rcases isUsable_spec represents hitShort usable with ⟨normal, _, _⟩
  simp only [tryAllocIP, normal] at tried
  split_ifs at tried
  · cases tried
  · cases tried
  · cases tried
    rfl
  · cases tried

end

variable (more : attempts < maxFilteredAllocationAttempts)

include more

theorem tryAllocIP_counts {attempts' : ℕ} {found : Option IP} {reserved' : IPTable}
    (usable : pool.isUsable candidate)
    (tried : tryAllocIP filter banned candidate attempts reserved =
      (found, attempts', reserved')) : attempts' = attempts + 1 := by
  rcases isSome_iff_exists.mp (isUsable_normalizes usable) with ⟨_, normal⟩
  simp only [tryAllocIP, normal, if_neg (not_le.mpr more)] at tried
  split_ifs at tried <;> cases tried <;> rfl

theorem walk_picked {count : ℕ}
    (enough : maxFilteredAllocationAttempts ≤ attempts + count) :
    (walk filter banned pool limit candidate attempts reserved).picked =
      pick (grantedAt filter banned reserved) maxFilteredAllocationAttempts
        (pool.visits limit count candidate) attempts := by
  obtain ⟨count, rfl⟩ : ∃ fewer, count = fewer + 1 := ⟨count - 1, by omega⟩
  fun_induction walk filter banned pool limit candidate attempts reserved generalizing count with
  | case1 candidate attempts usable ip attempts' reserved' tried =>
    have counted := tryAllocIP_counts more usable.2 tried
    rw [visits, if_pos usable, pick, if_neg (not_le.mpr more), if_pos]
    · rw [← counted]
      rfl
    · simp [grantedAt, tried]
  | case2 candidate attempts usable attempts' reserved' tried spent =>
    have counted := tryAllocIP_counts more usable.2 tried
    rw [visits, if_pos usable, pick, if_neg (not_le.mpr more), if_neg,
      pick_spent (by omega), ← counted]
    · rfl
    · simp [grantedAt, tried]
  | case3 candidate attempts usable attempts' reserved' tried notSpent ih =>
    have counted := tryAllocIP_counts more usable.2 tried
    subst counted
    obtain ⟨count, rfl⟩ : ∃ fewer, count = fewer + 1 := ⟨count - 1, by omega⟩
    rw [visits, if_pos usable, pick, if_neg (not_le.mpr more), if_neg]
    · exact ih (by omega) count (by omega)
    · simp [grantedAt, tried]
  | case4 candidate attempts ended =>
    rw [visits, if_neg ended]
    rfl

theorem grantedAt_iff {normalized : ReservedIP} {host : Cidr}
    (normal : normalizeAnyIP candidate = some normalized) (represents : normalized.Represents host) :
    grantedAt filter banned reserved attempts candidate = true ↔
      reserved.count host.key = 0 ∧ banned.count host.key = 0 ∧
        filter.all (fun accepts => accepts attempts normalized.ip) = true := by
  rw [← represents.key]
  simp only [grantedAt, tryAllocIP, normal, if_neg (not_le.mpr more),
    RefTable.count_eq_zero_iff]
  by_cases taken : (reserved.lookup (ipReservationKey normalized)).isSome ∨
      (banned.lookup (ipReservationKey normalized)).isSome
  · rw [if_pos taken]
    exact iff_of_false Bool.false_ne_true fun free => not_or.mpr ⟨free.1, free.2.1⟩ taken
  · rw [if_neg taken]
    rcases not_or.mp taken with ⟨first, second⟩
    split_ifs with accepted
    · exact ⟨fun _ => ⟨first, second, accepted⟩, fun _ => rfl⟩
    · exact iff_of_false Bool.false_ne_true fun free => accepted free.2.2

theorem walk_exhausted {used : ℕ}
    (ended : walk filter banned pool limit candidate attempts reserved = .exhausted used) :
    used < maxFilteredAllocationAttempts := by
  fun_induction walk filter banned pool limit candidate attempts reserved with
  | case1 | case2 => cases ended
  | case3 candidate attempts usable attempts' reserved' tried notSpent ih =>
    exact ih (Nat.lt_of_not_le notSpent) ended
  | case4 candidate attempts stopped =>
    cases ended
    exact more

variable (represents : pool.Represents cidr)

include represents

theorem tryAllocFromPoolSubnet_picked :
    ((tryAllocFromPoolSubnet filter banned pool attempts reserved).ip,
        (tryAllocFromPoolSubnet filter banned pool attempts reserved).attempts) =
      pick (grantedAt filter banned reserved) maxFilteredAllocationAttempts pool.visited
        attempts := by
  unfold visited
  by_cases order : isBeforeIP pool.first pool.last
  · have around : (walkAround filter banned pool pool.searchStart attempts reserved).picked =
        pick (grantedAt filter banned reserved) maxFilteredAllocationAttempts
          (pool.visits none maxFilteredAllocationAttempts pool.searchStart ++
            pool.visits (some pool.searchStart) maxFilteredAllocationAttempts (nextIP pool.first))
          attempts := by
      rw [pick_append, ← walk_picked more (Nat.le_add_left _ _), walkAround]
      cases walked : walk filter banned pool none pool.searchStart attempts reserved with
      | found ip hit attempts' reserved' => rfl
      | gaveUp attempts' => exact (pick_spent (walk_gaveUp walked)).symm
      | exhausted attempts' =>
        exact walk_picked (walk_exhausted more walked) (Nat.le_add_left _ _)
    rw [if_neg (not_not_intro order), ← around, tryAllocFromPoolSubnet_eq order,
      ← searchStart]
    cases ended : walkAround filter banned pool pool.searchStart attempts reserved with
    | found ip hit attempts' reserved' =>
      cases walkAround_found_eq represents ended
      rfl
    | _ => rfl
  · rw [if_pos order, tryAllocFromPoolSubnet, if_pos order]
    rfl

end Walk

def PoolSubnet.candidates : List ℕ :=
  let first := ofBytes pool.first
  let last := ofBytes pool.last
  let start := if pool.isUsable pool.next then ofBytes pool.next else first + 1
  range' start (last - start) ++ range' (first + 1) (start - (first + 1))

section Pools

variable {pool} {cidr : Cidr} {banned reserved : IPTable}

theorem pick_values {order : List IP} {values : List ℕ} {family : Family}
    (normal : ∀ ip ∈ order, normalizeAnyIP ip = some ⟨ip, family, ofBytes ip⟩)
    (same : (order.map ofBytes).take maxFilteredAllocationAttempts =
      values.take maxFilteredAllocationAttempts) (used : ℕ) :
    let picked := pick (grantedAt none banned reserved) maxFilteredAllocationAttempts order used
    (picked.1.isSome ↔ ∃ value ∈ values.take (maxFilteredAllocationAttempts - used),
        unused banned reserved family value = true) ∧
      (picked.1 = none →
        picked.2 = used + min values.length (maxFilteredAllocationAttempts - used)) := by
  intro picked
  have granted : ∀ moment < maxFilteredAllocationAttempts, ∀ ip ∈ order,
      grantedAt none banned reserved moment ip = unused banned reserved family (ofBytes ip) := by
    intro moment more ip member
    rcases normalizeAnyIP_some (normal ip member) with ⟨host, _, represents⟩
    have key := represents.key.symm.trans (hostKey_eq (length_of_normal (normal ip member)))
    rw [Bool.eq_iff_iff, grantedAt_iff more (normal ip member) represents, key, unused]
    simp
  rcases pick_outcome used granted with ⟨found, counted⟩
  have lengths := congrArg List.length same
  have taken := congrArg (List.take (maxFilteredAllocationAttempts - used)) same
  simp only [take_take, length_take, length_map, Nat.min_eq_left (Nat.sub_le _ _)]
    at lengths taken
  refine ⟨?_, fun nothing => (counted nothing).trans (by omega)⟩
  rw [found, ← taken, ← map_take]
  simp only [mem_map, exists_exists_and_eq_and]

variable (represents : pool.Represents cidr) (plain : cidr.Plain)

include represents plain

theorem PoolSubnet.Represents.start_spec (order : cidr.start < cidr.interval.last) :
    (nextIP pool.first).length = cidr.family.bytes ∧ ofBytes (nextIP pool.first) = cidr.start + 1 ∧
      pool.searchStart.length = cidr.family.bytes ∧ cidr.start < ofBytes pool.searchStart ∧
      ofBytes pool.searchStart ≤ cidr.interval.last ∧
      ofBytes pool.searchStart =
        if pool.isUsable pool.next then ofBytes pool.next else cidr.start + 1 := by
  rcases plain.nextIP represents.firstLength represents.firstValue.ge
    (by rw [represents.firstValue]; exact order) with ⟨firstLength, firstValue⟩
  rw [represents.firstValue] at firstValue
  refine ⟨firstLength, firstValue, ?_⟩
  unfold searchStart
  split_ifs with usable
  · rcases isUsable_spec represents represents.nextShort usable with
      ⟨normal, above, below⟩
    exact ⟨length_of_normal normal, above, below.le, rfl⟩
  · rw [firstLength, firstValue]
    exact ⟨rfl, by omega, by omega, rfl⟩

theorem PoolSubnet.Represents.visits_values (limit : Option IP) {stop : ℕ}
    (stopEq : stop = (limit.map ofBytes).getD cidr.interval.last)
    (stopLe : stop ≤ cidr.interval.last)
    (limitLength : ∀ bound ∈ limit, bound.length = cidr.family.bytes) {candidate : IP}
    (length : candidate.length = cidr.family.bytes) (above : cidr.start < ofBytes candidate)
    (count : ℕ) :
    (pool.visits limit count candidate).map ofBytes =
      (range' (ofBytes candidate) (stop - ofBytes candidate)).take count := by
  induction count generalizing candidate with
  | zero => simp [visits]
  | succ count ih =>
    have goesOn := represents.goesOn_iff plain stopEq stopLe limitLength length above
    rw [visits]
    by_cases below : ofBytes candidate < stop
    · rcases plain.nextIP length above.le (below.trans_le stopLe) with ⟨nextLength, nextValue⟩
      have left : stop - ofBytes candidate = stop - (ofBytes candidate + 1) + 1 := by omega
      rw [if_pos (goesOn.mpr below), map_cons, ih nextLength (by omega), nextValue, left,
        range'_succ, take_succ_cons]
    · rw [if_neg (mt goesOn.mp below), Nat.sub_eq_zero_of_le (Nat.le_of_not_lt below)]
      rfl

theorem PoolSubnet.Represents.visited_values :
    (pool.visited.map ofBytes).take maxFilteredAllocationAttempts =
      pool.candidates.take maxFilteredAllocationAttempts := by
  have ordered := represents.above_iff represents.lastLength
  rw [represents.lastValue] at ordered
  by_cases order : cidr.start < cidr.interval.last
  · rcases represents.start_spec plain order with
      ⟨firstLength, firstValue, length, above, upto, value⟩
    have high := represents.visits_values plain none rfl le_rfl (by simp) length above
      maxFilteredAllocationAttempts
    have low := represents.visits_values plain (some pool.searchStart) rfl upto
      (by simpa using length) firstLength (by omega) maxFilteredAllocationAttempts
    simp only [visited, if_neg (not_not_intro (ordered.mpr order)), map_append, high,
      low, candidates, represents.firstValue, represents.lastValue, firstValue, ← value]
    exact take_append_congr (by rw [take_take, min_self]; rfl)
      (by rw [take_take, min_self]; rfl)
  · have unusable : ¬pool.isUsable pool.next = true := by
      intro usable
      rcases isUsable_spec represents represents.nextShort usable with ⟨_, above, below⟩
      omega
    simp only [visited, ordered, order, not_false_eq_true, if_true,
      candidates, if_neg unusable, represents.firstValue, represents.lastValue,
      Nat.sub_self]
    rw [Nat.sub_eq_zero_of_le (by omega)]
    rfl

theorem tryAllocFromPoolSubnet_found_iff {attempts : ℕ}
    (more : attempts < maxFilteredAllocationAttempts) :
    (tryAllocFromPoolSubnet none banned pool attempts reserved).ip.isSome ↔
      ∃ value ∈ pool.candidates.take (maxFilteredAllocationAttempts - attempts),
        unused banned reserved cidr.family value = true := by
  have picked := @tryAllocFromPoolSubnet_picked pool cidr none banned reserved _ more represents
  rw [← (pick_values (fun ip => visited_normal represents) (represents.visited_values plain)
    attempts).1, ← picked]

end Pools

end Gonnect.Subnet
