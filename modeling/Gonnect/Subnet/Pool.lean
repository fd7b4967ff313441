import Gonnect.Subnet.Alloc

/-!
# Pool subnets and their addresses

A pool walks through its addresses with `Next`, starting where the last address was found,
and asks for each one whether it is usable, that is inside the network and strictly between
the first and the last address of the pool.

The walk compares byte slices. `Next` shortens an IPv4 address in sixteen bytes to four, so
slices of both lengths can meet in a comparison. This does no harm: in a pool whose network
is an IPv4 address in sixteen bytes nothing is usable.
-/

namespace Gonnect.Subnet

open BigEndian Net Option RefTable

abbrev IPFilter := ℕ → IP → Bool

/-- `reservedIP`; its reference count is kept by the table that holds it. -/
structure ReservedIP where
  ip : IP
  bits : Family
  value : ℕ
  deriving DecidableEq

def normalizeAnyIP (ip : IP) : Option ReservedIP :=
  match normalizeIPForBits ip .v4 with
  | some normalized => some ⟨normalized, .v4, ipToInt normalized⟩
  | none =>
    match normalizeIPForBits ip .v6 with
    | some normalized => some ⟨normalized, .v6, ipToInt normalized⟩
    | none => none

def ipReservationKey (reserved : ReservedIP) : SubnetKey :=
  subnetMapKey ⟨reserved.ip, cidrMask reserved.bits.bits reserved.bits⟩ reserved.bits
    reserved.bits.bits

abbrev IPTable := RefTable SubnetKey ReservedIP

/-- Add one to a byte string from the last byte on, with the carry out of the first. -/
def increment : List UInt8 → List UInt8 × Bool
  | [] => ([], true)
  | byte :: rest =>
    let (bytes, carry) := increment rest
    if carry then
      ((byte + 1) :: bytes, byte + 1 == 0)
    else
      (byte :: bytes, false)

def nextIP (ip : IP) : IP :=
  (increment ((to4 ip).getD ip)).1

def isBeforeIP (left right : IP) : Bool :=
  left < right

structure PoolSubnet where
  network : IPNet
  bits : Family
  prefixLen : ℕ
  first : IP
  last : IP
  next : IP

def newCombinedPoolSubnet (network : IPNet) : Option PoolSubnet := do
  let (ip, mask, bits) ← normalizeIPNet network
  let normalized : IPNet := ⟨ip, mask⟩
  let (first, last) := range normalized
  let first := (normalizeIPForBits first bits).getD []
  let last := (normalizeIPForBits last bits).getD []
  return {
    network := normalized
    bits := bits
    prefixLen := (maskSize mask).1
    first := first
    last := last
    next := nextIP first }

def PoolSubnet.isUsable (pool : PoolSubnet) (ip : IP) : Bool :=
  contains pool.network ip && isBeforeIP pool.first ip && isBeforeIP ip pool.last

/-- An address that is handed out, the number of candidates tried and the new reservations. -/
abbrev Attempt := Option IP × ℕ × IPTable

variable (filter : Option IPFilter)

def tryAllocIP (banned : IPTable) (candidate : IP) (attempts : ℕ) (reserved : IPTable) : Attempt :=
  match normalizeAnyIP candidate with
  | none => (none, attempts, reserved)
  | some normalized =>
    if maxFilteredAllocationAttempts ≤ attempts then
      (none, attempts, reserved)
    else
      let key := ipReservationKey normalized
      if (reserved.lookup key).isSome ∨ (banned.lookup key).isSome then
        (none, attempts + 1, reserved)
      else if filter.all (fun accepts => accepts attempts normalized.ip) then
        (some normalized.ip, attempts + 1, reserved.insert key ⟨normalized, 1, Nat.one_pos⟩)
      else
        (none, attempts + 1, reserved)

variable {network : IPNet} {ip : IP}

theorem normalizeAnyIP_of_length (length : ip.length = 4 ∨ ip.length = 16) :
    (normalizeAnyIP ip).isSome := by
  simp only [normalizeAnyIP, normalizeIPForBits]
  rcases length with four | sixteen
  · simp [to4, four]
  · cases to4 ip with
    | some converted => rfl
    | none => simp [to16, sixteen]

theorem contains_length (inside : contains network ip = true) :
    ip = [] ∨ ip.length = 4 ∨ ip.length = 16 := by
  simp only [contains] at inside
  cases number : networkNumberAndMask network with
  | none =>
    left
    simpa [number] using inside
  | some pair =>
    right
    simp only [number, decide_eq_true_eq] at inside
    have pairLength := (networkNumberAndMask_some number).2.2
    cases converted : to4 ip with
    | some ip4 =>
      simp only [to4] at converted
      split_ifs at converted with four mapped
      · exact .inl four
      · exact .inr mapped.1
    | none =>
      rw [converted, getD_none] at inside
      rw [inside.1]
      exact pairLength

variable {pool : PoolSubnet} {cidr : Cidr} {hit : IP}

theorem PoolSubnet.isUsable_normalizes (usable : pool.isUsable ip = true) :
    (normalizeAnyIP ip).isSome := by
  simp only [isUsable, Bool.and_eq_true] at usable
  rcases usable with ⟨⟨inside, above⟩, _⟩
  rcases contains_length inside with rfl | length
  · simp [isBeforeIP] at above
  · exact normalizeAnyIP_of_length length

theorem tryAllocIP_attempts {filter : Option IPFilter} {banned reserved : IPTable} {candidate : IP}
    {attempts : ℕ} (normal : (normalizeAnyIP candidate).isSome)
    (more : (tryAllocIP filter banned candidate attempts reserved).2.1 <
      maxFilteredAllocationAttempts) :
    (tryAllocIP filter banned candidate attempts reserved).2.1 = attempts + 1 := by
  rcases isSome_iff_exists.mp normal with ⟨normalized, normal⟩
  simp only [tryAllocIP, normal] at more ⊢
  split_ifs at more ⊢ with spent
  · simp only at more
    omega
  · rfl
  · rfl
  · rfl

inductive Walk where
  | found (ip candidate : IP) (attempts : ℕ) (reserved : IPTable)
  | gaveUp (attempts : ℕ)
  | exhausted (attempts : ℕ)

open PoolSubnet

/--
The two loops of `tryAllocFromPoolSubnetLocked`. Both stop at an unusable candidate; the
second one also stops at the address where the first one began.
-/
def walk (filter : Option IPFilter) (banned : IPTable) (pool : PoolSubnet) (limit : Option IP)
    (candidate : IP) (attempts : ℕ) (reserved : IPTable) : Walk :=
  if limit.all (isBeforeIP candidate) ∧ pool.isUsable candidate then
    match _tried : tryAllocIP filter banned candidate attempts reserved with
    | (some ip, attempts', reserved') => .found ip candidate attempts' reserved'
    | (none, attempts', _) =>
      if maxFilteredAllocationAttempts ≤ attempts' then
        .gaveUp attempts'
      else
        walk filter banned pool limit (nextIP candidate) attempts' reserved
  else
    .exhausted attempts
termination_by maxFilteredAllocationAttempts - attempts
decreasing_by
  rename_i usable _ more
  have counted := @tryAllocIP_attempts filter banned reserved candidate attempts
    (isUsable_normalizes usable.2)
  rw [_tried] at counted
  simp only at counted
  omega

structure PoolAttempt where
  ip : Option IP
  attempts : ℕ
  reserved : IPTable
  pool : PoolSubnet

def tryAllocFromPoolSubnet (banned : IPTable) (pool : PoolSubnet) (attempts : ℕ)
    (reserved : IPTable) : PoolAttempt :=
  if ¬isBeforeIP pool.first pool.last then
    ⟨none, attempts, reserved, pool⟩
  else
    let start := if pool.isUsable pool.next then pool.next else nextIP pool.first
    match walk filter banned pool none start attempts reserved with
    | .found ip candidate attempts reserved =>
      ⟨some ip, attempts, reserved, { pool with next := nextIP candidate }⟩
    | .gaveUp attempts => ⟨none, attempts, reserved, pool⟩
    | .exhausted attempts =>
      match walk filter banned pool (some start) (nextIP pool.first) attempts reserved with
      | .found ip candidate attempts reserved =>
        ⟨some ip, attempts, reserved, { pool with next := nextIP candidate }⟩
      | .gaveUp attempts => ⟨none, attempts, reserved, pool⟩
      | .exhausted attempts => ⟨none, attempts, reserved, pool⟩

def walkAround (banned : IPTable) (pool : PoolSubnet) (start : IP) (attempts : ℕ)
    (reserved : IPTable) : Walk :=
  match walk filter banned pool none start attempts reserved with
  | .exhausted attempts =>
    walk filter banned pool (some start) (nextIP pool.first) attempts reserved
  | walked => walked

def Walk.attempt (pool : PoolSubnet) (reserved : IPTable) : Walk → PoolAttempt
  | .found ip candidate attempts reserved =>
    ⟨some ip, attempts, reserved, { pool with next := nextIP candidate }⟩
  | .gaveUp attempts | .exhausted attempts => ⟨none, attempts, reserved, pool⟩

variable {filter}

def hostCidr (family : Family) (value : ℕ) (bound : value < 2 ^ family.bits) : Cidr where
  family := family
  prefixLen := family.bits
  start := value
  prefixLen_le := le_rfl
  aligned := by simp [subnetSize]
  start_lt := bound

def DenotesIP (ip : IP) (host : Cidr) : Prop :=
  host.prefixLen = host.family.bits ∧
    (normalizeAnyIP ip).map (fun reserved => (reserved.bits, reserved.value)) =
      some (host.family, host.start)

instance (ip : IP) (host : Cidr) : Decidable (DenotesIP ip host) :=
  inferInstanceAs (Decidable (_ ∧ _))

structure ReservedIP.Represents (reserved : ReservedIP) (host : Cidr) : Prop where
  bits : reserved.bits = host.family
  value : reserved.value = host.start
  full : host.prefixLen = host.family.bits
  length : reserved.ip.length = host.family.bytes
  denotes : ofBytes reserved.ip = host.start

structure PoolSubnet.Represents (pool : PoolSubnet) (cidr : Cidr) : Prop where
  bits : pool.bits = cidr.family
  prefixLen : pool.prefixLen = cidr.prefixLen
  length : pool.network.ip.length = cidr.family.bytes
  value : ofBytes pool.network.ip = cidr.start
  mask : maskSize pool.network.mask = (cidr.prefixLen, cidr.family.bits)
  firstLength : pool.first.length = cidr.family.bytes
  firstValue : ofBytes pool.first = cidr.start
  lastLength : pool.last.length = cidr.family.bytes
  lastValue : ofBytes pool.last = cidr.interval.last
  nextShort : (to4 pool.network.ip).isSome → pool.next.length = 4

theorem pool_denotes {pool : PoolSubnet} {cidr : Cidr} (represents : pool.Represents cidr) :
    Denotes (some pool.network) cidr := by
  refine ⟨represents.mask, ?_⟩
  rw [normalizeIPForBits_self represents.length, map_some, represents.value]
  exact congrArg some (Nat.div_mul_cancel cidr.aligned)

theorem normalizeAnyIP_some {reserved : ReservedIP} (normal : normalizeAnyIP ip = some reserved) :
    ∃ host, DenotesIP ip host ∧ reserved.Represents host := by
  have shape : reserved.ip.length = reserved.bits.bytes ∧ reserved.value = ofBytes reserved.ip := by
    simp only [normalizeAnyIP] at normal
    cases four : normalizeIPForBits ip .v4 with
    | some normalized =>
      simp only [four, Option.some.injEq] at normal
      subst normal
      exact ⟨normalizeIPForBits_length four, rfl⟩
    | none =>
      simp only [four] at normal
      cases six : normalizeIPForBits ip .v6 with
      | some normalized =>
        simp only [six, Option.some.injEq] at normal
        subst normal
        exact ⟨normalizeIPForBits_length six, rfl⟩
      | none => simp [six] at normal
  rcases shape with ⟨length, value⟩
  have bound : reserved.value < 2 ^ reserved.bits.bits := by
    rw [value, two_pow_bits, ← length]
    exact ofBytes_lt _
  refine ⟨hostCidr reserved.bits reserved.value bound, ⟨rfl, ?_⟩, rfl, rfl, rfl, length, value.symm⟩
  simp [normal, hostCidr]

theorem normalizeAnyIP_none (missing : normalizeAnyIP ip = none) (host : Cidr) :
    ¬DenotesIP ip host := by
  rintro ⟨_, denotes⟩
  simp [missing] at denotes

theorem length_of_normal {family : Family} {value : ℕ}
    (normal : normalizeAnyIP ip = some ⟨ip, family, value⟩) : ip.length = family.bytes := by
  rcases normalizeAnyIP_some normal with ⟨host, _, item⟩
  have length : ip.length = host.family.bytes := item.length
  rw [length, ← item.bits]

theorem DenotesIP.unique {left right : Cidr} (first : DenotesIP ip left)
    (second : DenotesIP ip right) : left = right := by
  rcases first with ⟨leftHost, leftAddress⟩
  rcases second with ⟨rightHost, rightAddress⟩
  rw [leftAddress, Option.some.injEq, Prod.mk.injEq] at rightAddress
  rcases rightAddress with ⟨family, start⟩
  apply Cidr.ext family _ start
  rw [leftHost, rightHost, family]

theorem ReservedIP.Represents.key {reserved : ReservedIP} {host : Cidr}
    (represents : reserved.Represents host) : ipReservationKey reserved = host.key := by
  have ip : intToIP host.start host.family = reserved.ip := by
    rw [← represents.denotes, intToIP_ofBytes represents.length]
  simp [ipReservationKey, subnetMapKey, Cidr.key, represents.bits, represents.full, ip]

theorem increment_length (bytes : List UInt8) : (increment bytes).1.length = bytes.length := by
  induction bytes with
  | nil => rfl
  | cons byte rest ih =>
    simp only [increment]
    split_ifs
    · simp [ih]
    · simp [ih]

variable {ip4 : IP} {banned reserved reserved' : IPTable}

theorem nextIP_length_of_to4 (converted : to4 ip = some ip4) : (nextIP ip).length = 4 := by
  rw [nextIP, converted, getD_some, increment_length]
  exact to4_length converted

theorem nextIP_length_of_four (length : ip.length = 4) : (nextIP ip).length = 4 := by
  apply nextIP_length_of_to4
  exact @normalizeIPForBits_self ip .v4 length

theorem four_not_between_mapped {first last : IP} (length : ip.length = 4)
    (above : isBeforeIP (v4InV6Prefix ++ first) ip = true)
    (below : isBeforeIP ip (v4InV6Prefix ++ last) = true) : False := by
  rcases ip with _ | ⟨a, _ | ⟨b, _ | ⟨c, _ | ⟨d, _ | ⟨e, rest⟩⟩⟩⟩⟩
  all_goals simp at length
  simp only [isBeforeIP, v4InV6Prefix, List.cons_append, decide_eq_true_eq,
    List.cons_lt_cons_iff, List.not_lt_nil, List.nil_lt_cons, and_false, or_false, and_true,
    UInt8.lt_iff_toNat_lt, ← UInt8.toNat_inj] at above below
  omega

theorem normalizeAnyIP_native (length : ip.length = 16) (native : to4 ip = none) :
    normalizeAnyIP ip = some ⟨ip, .v6, ofBytes ip⟩ := by
  simp [normalizeAnyIP, normalizeIPForBits, native, to16_sixteen length, ipToInt]

theorem walk_found {limit : Option IP} {candidate : IP}
    {attempts attempts' : ℕ} (short : (to4 pool.network.ip).isSome → candidate.length = 4)
    (found : walk filter banned pool limit candidate attempts reserved =
      .found ip hit attempts' reserved') :
    pool.isUsable hit ∧ ((to4 pool.network.ip).isSome → hit.length = 4) ∧
      ∃ tries, tryAllocIP filter banned hit tries reserved = (some ip, attempts', reserved') := by
  fun_induction walk filter banned pool limit candidate attempts reserved with
  | case1 candidate attempts usable _ _ _ tried =>
    cases found
    exact ⟨usable.2, short, attempts, tried⟩
  | case2 | case4 => cases found
  | case3 candidate attempts usable _ _ _ _ ih =>
    apply ih _ found
    intro mapped
    exact nextIP_length_of_four (short mapped)

section

variable (represents : pool.Represents cidr)

include represents

theorem PoolSubnet.Represents.last_mapped (family : cidr.family = .v6)
    (converted : to4 pool.network.ip = some ip4) :
    pool.first = v4InV6Prefix ++ ip4 ∧ ∃ last4, pool.last = v4InV6Prefix ++ last4 := by
  have length := represents.length
  have firstLength := represents.firstLength
  have lastLength := represents.lastLength
  rw [family] at length firstLength lastLength
  have mapped := eq_mapped_of_to4 length converted
  have first : pool.first = pool.network.ip := by
    apply ofBytes_injective
    · rw [firstLength, length]
    · rw [represents.firstValue, represents.value]
  have ip4Length := to4_length converted
  have aligned : 2 ^ (cidr.family.bits - cidr.prefixLen) ∣ ofBytes (v4InV6Prefix ++ ip4) := by
    rw [← mapped, represents.value]
    exact cidr.aligned
  have small := mapped_block_small ip4Length aligned
  refine ⟨first.trans mapped, padLeft 4 (toBytes (ofBytes ip4 +
    (2 ^ (cidr.family.bits - cidr.prefixLen) - 1))), ?_⟩
  have tailLength := length_padLeft (length_toBytes_le small)
  apply ofBytes_injective
  · rw [lastLength, List.length_append, tailLength]
    rfl
  · have positive := cidr.size_pos
    have start : cidr.start = ofBytes v4InV6Prefix * 256 ^ 4 + ofBytes ip4 := by
      rw [← represents.value, mapped, ofBytes_append, ip4Length]
    rw [represents.lastValue, ofBytes_append, tailLength, ofBytes_padLeft, ofBytes_toBytes]
    simp only [Cidr.interval, Interval.block, Cidr.size, subnetSize] at positive ⊢
    omega

section

variable (length : ip.length = cidr.family.bytes)

include length

theorem PoolSubnet.Represents.above_iff :
    isBeforeIP pool.first ip = true ↔ cidr.start < ofBytes ip := by
  rw [isBeforeIP, decide_eq_true_eq, lt_iff_ofBytes_lt (by rw [represents.firstLength, length]),
    represents.firstValue]

theorem PoolSubnet.Represents.below_iff :
    isBeforeIP ip pool.last = true ↔ ofBytes ip < cidr.interval.last := by
  rw [isBeforeIP, decide_eq_true_eq, lt_iff_ofBytes_lt (by rw [represents.lastLength, length]),
    represents.lastValue]

end

theorem PoolSubnet.Represents.network_v4 (family : cidr.family = .v4) :
    pool.network.ip.length = 4 ∧ to4 pool.network.ip = some pool.network.ip := by
  have length := represents.length
  rw [family] at length
  exact ⟨length, @normalizeIPForBits_self _ .v4 length⟩

theorem PoolSubnet.isUsable_spec (short : (to4 pool.network.ip).isSome → ip.length = 4)
    (usable : pool.isUsable ip = true) :
    normalizeAnyIP ip = some ⟨ip, cidr.family, ofBytes ip⟩ ∧
      cidr.start < ofBytes ip ∧ ofBytes ip < cidr.interval.last := by
  simp only [isUsable, Bool.and_eq_true] at usable
  rcases usable with ⟨⟨inside, above⟩, below⟩
  have between : ip.length = cidr.family.bytes →
      cidr.start < ofBytes ip ∧ ofBytes ip < cidr.interval.last := fun length =>
    ⟨(represents.above_iff length).mp above, (represents.below_iff length).mp below⟩
  cases family : cidr.family with
  | v4 =>
    rcases represents.network_v4 family with ⟨_, own⟩
    have length : ip.length = 4 := short (by rw [own]; rfl)
    have four : normalizeIPForBits ip .v4 = some ip := @normalizeIPForBits_self _ .v4 length
    refine ⟨?_, between (by rw [family]; exact length)⟩
    simp [normalizeAnyIP, four, ipToInt]
  | v6 =>
    cases converted : to4 pool.network.ip with
    | some ip4 =>
      rcases represents.last_mapped family converted with ⟨first, last4, last⟩
      have length : ip.length = 4 := short (by rw [converted]; rfl)
      rw [first] at above
      rw [last] at below
      exact (four_not_between_mapped length above below).elim
    | none =>
      have networkLength := represents.length
      rw [family] at networkLength
      rcases maskSize_family represents.mask with ⟨_, maskLength⟩
      rw [family] at maskLength
      have number := networkNumberAndMask_self (by rw [converted, getD_none])
        (networkLength.trans maskLength.symm) (.inr networkLength)
      simp only [contains, number, decide_eq_true_eq] at inside
      have native : to4 ip = none := by
        cases shortened : to4 ip with
        | none => rfl
        | some ip4 =>
          have four := to4_length shortened
          rw [shortened, getD_some, four, networkLength] at inside
          exact absurd inside.1 (by decide)
      rw [native, getD_none, networkLength] at inside
      exact ⟨normalizeAnyIP_native inside.1 native, between (by rw [family]; exact inside.1)⟩

def IPTable.Sound (reserved : IPTable) : Prop :=
  reserved.All fun key item => ∃ host : Cidr, key = host.key ∧ item.Represents host

def HandsOut (banned reserved : IPTable) (cidr : Cidr) (ip : IP) (reserved' : IPTable) : Prop :=
  ∃ host item, DenotesIP ip host ∧ host.family = cidr.family ∧ cidr.start < host.start ∧
    host.start < cidr.interval.last ∧ reserved.count host.key = 0 ∧ banned.count host.key = 0 ∧
    item.Represents host ∧ reserved' = reserved.insert host.key ⟨item, 1, Nat.one_pos⟩

theorem tryAllocIP_handsOut {tries attempts' : ℕ}
    (usable : pool.isUsable hit = true) (short : (to4 pool.network.ip).isSome → hit.length = 4)
    (tried : tryAllocIP filter banned hit tries reserved = (some ip, attempts', reserved')) :
    HandsOut banned reserved cidr ip reserved' := by
  rcases isUsable_spec represents short usable with ⟨normal, above, below⟩
  rcases normalizeAnyIP_some normal with ⟨host, denotes, item⟩
  simp only [tryAllocIP, normal] at tried
  split_ifs at tried with spent taken accepted
  · simp at tried
  · simp at tried
  · simp only [Prod.mk.injEq, Option.some.injEq] at tried
    rcases tried with ⟨rfl, _, rfl⟩
    rw [item.key] at taken ⊢
    rw [not_or] at taken
    have start : ofBytes hit = host.start := item.value
    rw [start] at above below
    exact ⟨host, _, denotes, item.bits.symm, above, below, count_eq_zero_iff.mpr taken.1,
      count_eq_zero_iff.mpr taken.2, item, rfl⟩
  · simp at tried

theorem PoolSubnet.Represents.shortFirst (mapped : (to4 pool.network.ip).isSome) :
    (nextIP pool.first).length = 4 := by
  cases family : cidr.family with
  | v4 =>
    have length := represents.firstLength
    rw [family] at length
    exact nextIP_length_of_four length
  | v6 =>
    rcases isSome_iff_exists.mp mapped with ⟨ip4, converted⟩
    rcases represents.last_mapped family converted with ⟨first, _⟩
    apply nextIP_length_of_to4
    rw [first]
    exact to4_mapped (to4_length converted)

theorem PoolSubnet.Represents.moveNext (short : (to4 pool.network.ip).isSome → hit.length = 4) :
    Represents { pool with next := nextIP hit } cidr := by
  rcases represents with
    ⟨bits, prefixLen, length, value, mask, firstLength, firstValue, lastLength, lastValue, _⟩
  refine ⟨bits, prefixLen, length, value, mask, firstLength, firstValue, lastLength, lastValue, ?_⟩
  intro mapped
  exact nextIP_length_of_four (short mapped)

omit represents in
theorem tryAllocFromPoolSubnet_eq {attempts : ℕ}
    (order : isBeforeIP pool.first pool.last) :
    tryAllocFromPoolSubnet filter banned pool attempts reserved =
      (walkAround filter banned pool (if pool.isUsable pool.next then pool.next else
        nextIP pool.first) attempts reserved).attempt pool reserved := by
  rw [tryAllocFromPoolSubnet, if_neg (not_not_intro order)]
  dsimp only [walkAround]
  generalize (if pool.isUsable pool.next then pool.next else nextIP pool.first) = start
  cases walk filter banned pool none start attempts reserved with
  | exhausted used =>
    cases walk filter banned pool (some start) (nextIP pool.first) used reserved <;> rfl
  | _ => rfl

theorem walkAround_found {attempts attempts' : ℕ}
    (found : walkAround filter banned pool (if pool.isUsable pool.next then pool.next else
      nextIP pool.first) attempts reserved = .found ip hit attempts' reserved') :
    pool.isUsable hit ∧ ((to4 pool.network.ip).isSome → hit.length = 4) ∧
      ∃ tries, tryAllocIP filter banned hit tries reserved = (some ip, attempts', reserved') := by
  unfold walkAround at found
  split at found
  · exact walk_found represents.shortFirst found
  · refine walk_found (fun mapped => ?_) found
    split_ifs
    · exact represents.nextShort mapped
    · exact represents.shortFirst mapped

end

theorem tryAllocFromPoolSubnet_spec (filter : Option IPFilter) (banned reserved : IPTable)
    (attempts : ℕ) (represents : pool.Represents cidr) :
    let attempt := tryAllocFromPoolSubnet filter banned pool attempts reserved
    attempt.pool.Represents cidr ∧ attempt.pool.network = pool.network ∧
      (attempt.ip = none ∧ attempt.reserved = reserved ∨
        ∃ ip, attempt.ip = some ip ∧ HandsOut banned reserved cidr ip attempt.reserved) := by
  by_cases order : isBeforeIP pool.first pool.last
  · rw [tryAllocFromPoolSubnet_eq order]
    generalize walked : walkAround filter banned pool _ attempts reserved = ended
    cases ended with
    | found ip hit attempts' reserved' =>
      rcases walkAround_found represents walked with ⟨usable, hitShort, tries, tried⟩
      refine ⟨represents.moveNext hitShort, rfl, .inr ⟨ip, rfl, ?_⟩⟩
      exact tryAllocIP_handsOut represents usable hitShort tried
    | gaveUp attempts' | exhausted attempts' => exact ⟨represents, rfl, .inl ⟨rfl, rfl⟩⟩
  · rw [tryAllocFromPoolSubnet, if_pos order]
    exact ⟨represents, rfl, .inl ⟨rfl, rfl⟩⟩

theorem newCombinedPoolSubnet_some (made : newCombinedPoolSubnet network = some pool) :
    ∃ cidr, Denotes (some network) cidr ∧ pool.Represents cidr := by
  cases normal : normalizeIPNet network with
  | none => simp [newCombinedPoolSubnet, normal] at made
  | some parts =>
    rcases parts with ⟨ip, mask, bits⟩
    rcases normalizeIPNet_some normal with ⟨rfl, cidr, rfl, denotes, length, value, size⟩
    rcases @range_spec ⟨ip, network.mask⟩ cidr length value size with
      ⟨last, first, lastNormal, lastLength, lastValue⟩
    simp only [newCombinedPoolSubnet, normal, bind_eq_bind, bind_some, first,
      lastNormal, getD_some, size, pure_def, Option.some.injEq] at made
    refine ⟨cidr, denotes, ?_⟩
    subst made
    refine ⟨rfl, rfl, length, value, size, length, value, lastLength, lastValue, ?_⟩
    intro mapped
    rcases isSome_iff_exists.mp mapped with ⟨ip4, converted⟩
    exact nextIP_length_of_to4 converted

theorem newCombinedPoolSubnet_none (malformed : newCombinedPoolSubnet network = none)
    (cidr : Cidr) : ¬Denotes (some network) cidr := by
  cases normal : normalizeIPNet network with
  | none => exact normalizeIPNet_none normal cidr
  | some parts => simp [newCombinedPoolSubnet, normal] at malformed

theorem newCombinedPoolSubnet_spec (cidr : Cidr) :
    ∃ pool, newCombinedPoolSubnet cidr.toIPNet = some pool ∧ pool.Represents cidr := by
  cases made : newCombinedPoolSubnet cidr.toIPNet with
  | none => exact absurd (denotes_toIPNet cidr) (newCombinedPoolSubnet_none made cidr)
  | some pool =>
    rcases newCombinedPoolSubnet_some made with ⟨other, denotes, represents⟩
    rw [denotes.unique (denotes_toIPNet cidr)] at represents
    exact ⟨pool, rfl, represents⟩

def PoolSubnet.key (pool : PoolSubnet) : SubnetKey :=
  subnetMapKey pool.network pool.bits pool.prefixLen

def PoolSubnet.interval (pool : PoolSubnet) : Interval :=
  ⟨ofBytes pool.first, ofBytes pool.last⟩

theorem PoolSubnet.Represents.key (represents : pool.Represents cidr) : pool.key = cidr.key := by
  have ip : intToIP cidr.start cidr.family = pool.network.ip := by
    rw [← represents.value, intToIP_ofBytes represents.length]
  simp [PoolSubnet.key, subnetMapKey, Cidr.key, represents.bits, represents.prefixLen, ip]

theorem PoolSubnet.Represents.interval (represents : pool.Represents cidr) :
    pool.interval = cidr.interval := by
  simp [PoolSubnet.interval, represents.firstValue, represents.lastValue, Cidr.interval,
    Interval.block]

end Gonnect.Subnet
