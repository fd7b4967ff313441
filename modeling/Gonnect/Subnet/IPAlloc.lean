import Gonnect.Subnet.PoolScan

/-!
# The address allocator

`NewIPAllocator` owns one network and hands out its addresses, apart from the first and the
last one. An allocation walks from the address behind the last one that it handed out to the
end of the network, and then from its start to where it began. The walk does not get past an
IPv4 address in sixteen bytes, as `Next` shortens it to four.
-/

namespace Gonnect.Subnet

open BigEndian Net Option PoolSubnet Function

/-- A measure for the walk: a slice of sixteen bytes may become one of four bytes, and
otherwise the numbers grow. -/
def stepsLeft (ip : IP) : ℕ :=
  ip.length * 2 ^ 129 + (2 ^ 128 - ofBytes ip)

def PoolSubnet.Advances (pool : PoolSubnet) : Prop :=
  ∀ ip, pool.isUsable ip = true → stepsLeft (nextIP ip) < stepsLeft ip

/-- `tryAlloc`: whether the candidate may be handed out, and the number of filtered
candidates. -/
def tryAlloc (filter : Option IPFilter) (reserved : IP → ℕ) (candidate : IP) (attempts : ℕ) :
    Bool × ℕ :=
  if reserved candidate ≠ 0 then
    (false, attempts)
  else
    match filter with
    | none => (true, attempts)
    | some accepts => (accepts attempts candidate, attempts + 1)

inductive IPSearch where
  | found (ip : IP)
  | gaveUp
  | exhausted (attempts : ℕ)

/-- The loops of `alloc`. Both stop at an unusable candidate; the second one also stops at
the address where the first one began. -/
def searchIP (filter : Option IPFilter) (pool : PoolSubnet) (advances : pool.Advances)
    (reserved : IP → ℕ) (limit : Option IP) (candidate : IP) (attempts : ℕ) : IPSearch :=
  if _usable : limit.all (isBeforeIP candidate) ∧ pool.isUsable candidate then
    let tried := tryAlloc filter reserved candidate attempts
    if tried.1 then
      .found candidate
    else if maxFilteredAllocationAttempts ≤ tried.2 then
      .gaveUp
    else
      searchIP filter pool advances reserved limit (nextIP candidate) tried.2
  else
    .exhausted attempts
termination_by stepsLeft candidate
decreasing_by exact advances candidate _usable.2

def IPSearch.result : IPSearch → (ℕ → IPSearch) → Option IP
  | .found ip, _ => some ip
  | .gaveUp, _ => none
  | .exhausted attempts, next =>
    match next attempts with
    | .found ip => some ip
    | .gaveUp => none
    | .exhausted _ => none

def findIP (filter : Option IPFilter) (pool : PoolSubnet) (advances : pool.Advances)
    (reserved : IP → ℕ) : Option IP :=
  if ¬isBeforeIP pool.first pool.last then
    none
  else
    (searchIP filter pool advances reserved none pool.searchStart 0).result
      (searchIP filter pool advances reserved (some pool.searchStart) (nextIP pool.first))

/-- The network is kept with its first, last and next address as the combined allocator
keeps a pool; it is missing if it is malformed. -/
structure IPAllocator where
  pool : Option PoolSubnet
  reserved : IP → ℕ
  filter : Option IPFilter
  advances : ∀ own ∈ pool, own.Advances

theorem contains_form_length {network : IPNet} {ip : IP} (inside : contains network ip = true)
    (nonempty : ip ≠ []) :
    ((to4 ip).getD ip).length = ((to4 network.ip).getD network.ip).length := by
  cases parts : networkNumberAndMask network with
  | none => exact absurd (by simpa [contains, parts] using inside) nonempty
  | some pair =>
    simp only [contains, parts, decide_eq_true_eq] at inside
    rw [inside.1, (networkNumberAndMask_some parts).1]

theorem PoolSubnet.Represents.advances {pool : PoolSubnet} {cidr : Cidr}
    (represents : pool.Represents cidr) : pool.Advances := by
  intro ip usable
  simp only [isUsable, Bool.and_eq_true] at usable
  rcases usable with ⟨⟨inside, above⟩, below⟩
  have grows : ip.length = cidr.family.bytes → (to4 ip).getD ip = ip →
      stepsLeft (nextIP ip) < stepsLeft ip := by
    intro length form
    rw [represents.below_iff length, ← represents.lastValue] at below
    have lastBound := ofBytes_lt pool.last
    have value := increment_value ip
    have nextLength := increment_length ip
    have bound := ofBytes_lt (increment ip).1
    have small : ofBytes ip < 2 ^ 128 := by
      refine (below.trans lastBound).trans_le ?_
      rw [represents.lastLength]
      cases cidr.family <;> decide
    rw [represents.lastLength, ← length] at lastBound
    simp only [stepsLeft, nextIP, form, nextLength]
    split_ifs at value <;> omega
  have nonempty : ip ≠ [] := by
    rintro rfl
    simp [isBeforeIP] at above
  have forms := contains_form_length inside nonempty
  cases converted : to4 ip with
  | none =>
    rcases (contains_length inside).resolve_left nonempty with four | sixteen
    · simp [to4, four] at converted
    · rw [converted, getD_none] at forms grows
      cases family : cidr.family with
      | v4 =>
        rcases represents.network_v4 family with ⟨networkLength, own⟩
        rw [own, getD_some, networkLength, sixteen] at forms
        exact absurd forms (by decide)
      | v6 => exact grows (by rw [family]; exact sixteen) rfl
  | some ip4 =>
    rcases (contains_length inside).resolve_left nonempty with four | sixteen
    · have own : to4 ip = some ip := @normalizeIPForBits_self ip .v4 four
      rw [own, getD_some] at forms grows
      cases family : cidr.family with
      | v4 => exact grows (by rw [family]; exact four) rfl
      | v6 =>
        cases mapped : to4 pool.network.ip with
        | none =>
          have networkLength := represents.length
          rw [family] at networkLength
          rw [mapped, getD_none, networkLength, four] at forms
          exact absurd forms (by decide)
        | some network4 =>
          rcases represents.last_mapped family mapped with ⟨first, last4, last⟩
          rw [first] at above
          rw [last] at below
          exact (four_not_between_mapped four above below).elim
    · have shorter := nextIP_length_of_to4 converted
      have bound := ofBytes_lt (nextIP ip)
      simp only [stepsLeft, shorter, sixteen]
      omega

def newIPAllocator (network : Option IPNet) (filter : Option IPFilter) : IPAllocator where
  pool := network.bind newCombinedPoolSubnet
  reserved := fun _ => 0
  filter := filter
  advances := by
    intro own made
    rcases bind_eq_some_iff.mp made with ⟨given, _, made⟩
    rcases newCombinedPoolSubnet_some made with ⟨_, _, represents⟩
    exact represents.advances

namespace IPAllocator

variable (allocator : IPAllocator)

def normalizeUsableIP (ip : IP) : Option IP := do
  let pool ← allocator.pool
  let normalized ← normalizeIPForBits ip pool.bits
  if pool.isUsable normalized then some normalized else none

def reserveIP (ip : IP) : IPAllocator :=
  match allocator.normalizeUsableIP ip with
  | none => allocator
  | some key =>
    { allocator with
      reserved := update allocator.reserved key (allocator.reserved key + 1) }

/-- `FreeIP`; a count of zero is a missing entry. -/
def freeIP (ip : IP) : IPAllocator :=
  match allocator.normalizeUsableIP ip with
  | none => allocator
  | some key =>
    { allocator with
      reserved := update allocator.reserved key (allocator.reserved key - 1) }

def freeAllIP : IPAllocator where
  pool := allocator.pool.map fun pool => { pool with next := nextIP pool.first }
  reserved := fun _ => 0
  filter := allocator.filter
  advances := by
    intro own moved
    rcases map_eq_some_iff.mp moved with ⟨pool, present, rfl⟩
    exact allocator.advances pool present

/-- The end of `tryAlloc`: the address is reserved, and the next search starts behind it. -/
def handOut {pool : PoolSubnet} (present : allocator.pool = some pool) (ip : IP) : IPAllocator where
  pool := some { pool with next := nextIP ip }
  reserved := update allocator.reserved ip 1
  filter := allocator.filter
  advances := by
    rintro own ⟨⟩
    exact allocator.advances pool present

def alloc : Option (IP × IPNet) × IPAllocator :=
  match present : allocator.pool with
  | none => (none, allocator)
  | some pool =>
    match findIP allocator.filter pool (allocator.advances pool present) allocator.reserved with
    | none => (none, allocator)
    | some ip => (some (ip, pool.network), allocator.handOut present ip)

def allocIP (family : Family) : Option (IP × IPNet) × IPAllocator :=
  if allocator.pool.map bits = some family then allocator.alloc else (none, allocator)

end IPAllocator

section Search

variable {filter : Option IPFilter} {pool : PoolSubnet} {cidr : Cidr} {reserved : IP → ℕ}
  {advances : pool.Advances}

theorem searchIP_found {limit : Option IP} {candidate ip : IP} {attempts : ℕ}
    (short : (to4 pool.network.ip).isSome → candidate.length = 4)
    (found : searchIP filter pool advances reserved limit candidate attempts = .found ip) :
    pool.isUsable ip ∧ ((to4 pool.network.ip).isSome → ip.length = 4) ∧ reserved ip = 0 := by
  fun_induction searchIP filter pool advances reserved limit candidate attempts with
  | case1 candidate attempts usable tried free =>
    cases found
    refine ⟨usable.2, short, ?_⟩
    by_contra taken
    simp [tried, tryAlloc, taken] at free
  | case2 | case4 => cases found
  | case3 candidate attempts usable tried notFree more ih =>
    exact ih (fun mapped => nextIP_length_of_four (short mapped)) found

theorem IPSearch.result_eq_some {first : IPSearch} {next : ℕ → IPSearch} {ip : IP}
    (found : first.result next = some ip) :
    first = .found ip ∨ ∃ attempts, next attempts = .found ip := by
  cases first with
  | found hit =>
    cases found
    exact .inl rfl
  | gaveUp => cases found
  | exhausted attempts =>
    simp only [IPSearch.result] at found
    split at found
    · cases found
      exact .inr ⟨attempts, by assumption⟩
    · cases found
    · cases found

theorem findIP_some {ip : IP} (represents : pool.Represents cidr)
    (found : findIP filter pool advances reserved = some ip) :
    pool.isUsable ip ∧ ((to4 pool.network.ip).isSome → ip.length = 4) ∧ reserved ip = 0 := by
  unfold findIP at found
  split_ifs at found with order
  rcases IPSearch.result_eq_some found with first | ⟨attempts, second⟩
  · exact searchIP_found represents.shortStart first
  · exact searchIP_found represents.shortFirst second

theorem searchIP_unfiltered (represents : pool.Represents cidr) (plain : cidr.Plain)
    {limit : Option IP} {stop : ℕ} (stopEq : stop = (limit.map ofBytes).getD cidr.interval.last)
    (stopLe : stop ≤ cidr.interval.last)
    (limitLength : ∀ bound ∈ limit, bound.length = cidr.family.bytes) {candidate : IP}
    (length : candidate.length = cidr.family.bytes) (above : cidr.start < ofBytes candidate)
    {attempts : ℕ} (more : attempts < maxFilteredAllocationAttempts) :
    (∃ ip, searchIP none pool advances reserved limit candidate attempts = .found ip) ∨
      searchIP none pool advances reserved limit candidate attempts = .exhausted attempts ∧
        ∀ value, ofBytes candidate ≤ value → value < stop →
          reserved (intToIP value cidr.family) ≠ 0 := by
  fun_induction searchIP none pool advances reserved limit candidate attempts with
  | case1 candidate attempts usable tried free => exact .inl ⟨candidate, rfl⟩
  | case2 candidate attempts usable tried notFree spent =>
    have same : tried.2 = attempts := by
      simp only [tried, tryAlloc]
      split_ifs <;> rfl
    omega
  | case3 candidate attempts usable tried notFree notSpent ih =>
    have same : tried.2 = attempts := by
      simp only [tried, tryAlloc]
      split_ifs <;> rfl
    have taken : reserved candidate ≠ 0 := by
      intro unused
      simp [tried, tryAlloc, unused] at notFree
    have below := (represents.goesOn_iff plain stopEq stopLe limitLength length above).mp usable
    rcases plain.nextIP length above.le (by omega) with ⟨nextLength, nextValue⟩
    rw [same] at ih ⊢
    rcases ih nextLength (by omega) more with found | ⟨exhausted, rest⟩
    · exact .inl found
    · refine .inr ⟨exhausted, fun value from_ upto => ?_⟩
      rcases Nat.eq_or_lt_of_le from_ with rfl | later
      · rwa [intToIP_ofBytes length]
      · exact rest value (by omega) upto
  | case4 candidate attempts ended =>
    refine .inr ⟨rfl, fun value from_ upto => absurd ?_ ended⟩
    rw [represents.goesOn_iff plain stopEq stopLe limitLength length above]
    omega

theorem findIP_none (represents : pool.Represents cidr) (plain : cidr.Plain)
    (nothing : findIP none pool advances reserved = none) {value : ℕ}
    (above : cidr.start < value) (below : value < cidr.interval.last) :
    reserved (intToIP value cidr.family) ≠ 0 := by
  have order : cidr.start < cidr.interval.last := above.trans below
  have inOrder : isBeforeIP pool.first pool.last = true := by
    rw [represents.above_iff represents.lastLength, represents.lastValue]
    exact order
  rcases represents.start_spec plain order with
    ⟨firstLength, firstValue, length, startAbove, upto, _⟩
  have positive : 0 < maxFilteredAllocationAttempts := by decide
  unfold findIP at nothing
  rw [if_neg (not_not_intro inOrder)] at nothing
  rcases @searchIP_unfiltered pool cidr reserved advances represents plain none _ rfl le_rfl
    (by simp) _ length startAbove _ positive with ⟨ip, found⟩ | ⟨exhausted, high⟩
  · rw [found] at nothing
    cases nothing
  · rcases @searchIP_unfiltered pool cidr reserved advances represents plain
      (some pool.searchStart) _ rfl upto (by simpa using length) _ firstLength (by omega) _
      positive with ⟨ip, found⟩ | ⟨_, low⟩
    · rw [exhausted, IPSearch.result, found] at nothing
      cases nothing
    · rcases lt_or_ge value (ofBytes pool.searchStart) with before | behind
      · exact low value (by omega) before
      · exact high value behind below

end Search

inductive IPCall where
  | reserve (ip : IP)
  | alloc (family : Family)
  | free (ip : IP)
  | freeAll

structure IPEvent where
  call : IPCall
  result : Option (IP × IPNet)

def IPAllocator.perform (allocator : IPAllocator) : IPCall → Option (IP × IPNet) × IPAllocator
  | .reserve ip => (none, allocator.reserveIP ip)
  | .alloc family => allocator.allocIP family
  | .free ip => (none, allocator.freeIP ip)
  | .freeAll => (none, allocator.freeAllIP)

def IPAllocator.Step (before : IPAllocator) (event : IPEvent) (after : IPAllocator) : Prop :=
  before.perform event.call = (event.result, after)

def addressValue (ip : IP) (family : Family) : Option ℕ :=
  (normalizeIPForBits ip family).map ofBytes

/-- How often an address is in use after an event. A free of an address that is not in use
does nothing, so an address is unused when the frees have reached the reservations. -/
def recordUse (family : Family) (uses : ℕ → ℕ) (event : IPEvent) : ℕ → ℕ :=
  match event.call with
  | .reserve ip => fun value => uses value + if addressValue ip family = some value then 1 else 0
  | .alloc _ => fun value =>
    uses value +
      if event.result.bind (fun pair => addressValue pair.1 family) = some value then 1 else 0
  | .free ip => fun value => uses value - if addressValue ip family = some value then 1 else 0
  | .freeAll => fun _ => 0

def usesOf (family : Family) (history : List IPEvent) : ℕ → ℕ :=
  history.foldl (recordUse family) fun _ => 0

theorem usesOf_snoc (family : Family) (history : List IPEvent) (event : IPEvent) :
    usesOf family (history ++ [event]) = recordUse family (usesOf family history) event := by
  simp [usesOf]

variable (parent : Option IPNet) (history : List IPEvent) (family : Family)

structure FreeAddress (value : ℕ) : Prop where
  inside : ∃ outer, Denotes parent outer ∧ outer.family = family ∧ outer.start < value ∧
    value < outer.interval.last
  unused : usesOf family history value = 0

/-- The result is a free address with the network of the parent, or nothing when there is no
free address. -/
def HandsOutFree : Option (IP × IPNet) → Prop
  | none => ∀ value, ¬FreeAddress parent history family value
  | some (ip, network) =>
    (∃ value, addressValue ip family = some value ∧ FreeAddress parent history family value) ∧
      ∃ outer, Denotes parent outer ∧ Denotes (some network) outer

open IPAllocator

def AllocatesFree : Prop :=
  ∀ history allocator, Run Step (newIPAllocator parent none) history allocator →
    ∀ family, HandsOutFree parent history family (allocator.allocIP family).1

def Mapped (value : ℕ) : Prop :=
  0xffff * 2 ^ 32 ≤ value ∧ value < 0x10000 * 2 ^ 32

/-- Between the first and the last address there is no IPv4 address in sixteen bytes. -/
def Cidr.Unmapped (cidr : Cidr) : Prop :=
  ∀ value, cidr.family = .v6 → cidr.start < value → value < cidr.interval.last → ¬Mapped value

namespace IPAllocator

structure Invariant (outer : Cidr) (history : List IPEvent) (allocator : IPAllocator) : Prop where
  pool : ∃ pool, allocator.pool = some pool ∧ pool.Represents outer ∧
    ∀ ip, ip.length = outer.family.bytes → pool.isUsable ip = true →
      allocator.reserved ip = usesOf outer.family history (ofBytes ip)
  filter : allocator.filter = none

/-- `ReserveIP` and `FreeIP`: the count of one usable address changes. -/
def adjust (allocator : IPAllocator) (ip : IP) (change : ℕ → ℕ) : IPAllocator :=
  match allocator.normalizeUsableIP ip with
  | none => allocator
  | some key =>
    { allocator with
      reserved := update allocator.reserved key (change (allocator.reserved key)) }

theorem adjust_spec (allocator : IPAllocator) (ip : IP) (change : ℕ → ℕ) :
    (allocator.adjust ip change).pool = allocator.pool ∧
      (allocator.adjust ip change).filter = allocator.filter ∧
      ∀ other, (allocator.adjust ip change).reserved other =
        if allocator.normalizeUsableIP ip = some other then change (allocator.reserved other)
        else allocator.reserved other := by
  unfold adjust
  cases normal : allocator.normalizeUsableIP ip with
  | none => simp
  | some key =>
    refine ⟨rfl, rfl, fun other => ?_⟩
    by_cases same : key = other
    · simp [same]
    · simp [same, Ne.symm same]

variable {parent history family} {outer : Cidr} {allocator : IPAllocator} {pool : PoolSubnet}
  {ip : IP}

theorem addressValue_iff {other : IP} (length : other.length = family.bytes) :
    addressValue ip family = some (ofBytes other) ↔ normalizeIPForBits ip family = some other := by
  unfold addressValue
  rw [map_eq_some_iff]
  constructor
  · rintro ⟨key, normal, value⟩
    rw [← ofBytes_injective (by rw [normalizeIPForBits_length normal, length]) value]
    exact normal
  · intro normal
    exact ⟨other, normal, rfl⟩

theorem normalizeUsableIP_iff (present : allocator.pool = some pool) {other : IP}
    (usable : pool.isUsable other = true) :
    allocator.normalizeUsableIP ip = some other ↔ normalizeIPForBits ip pool.bits = some other := by
  simp only [normalizeUsableIP, present, bind_eq_bind, bind_some,
    bind_eq_some_iff]
  constructor
  · rintro ⟨key, normal, taken⟩
    split_ifs at taken
    cases taken
    exact normal
  · intro normal
    exact ⟨other, normal, if_pos usable⟩

theorem hit_length (represents : pool.Represents outer) (usable : pool.isUsable ip = true)
    (short : (to4 pool.network.ip).isSome → ip.length = 4) : ip.length = outer.family.bytes := by
  rcases isUsable_spec represents short usable with ⟨normal, _, _⟩
  exact length_of_normal normal

theorem allocIP_cases (allocator : IPAllocator) (present : allocator.pool = some pool)
    (family : Family) :
    allocator.allocIP family = (none, allocator) ∧
        (pool.bits = family →
          findIP allocator.filter pool (allocator.advances pool present) allocator.reserved =
            none) ∨
      ∃ ip, pool.bits = family ∧
        findIP allocator.filter pool (allocator.advances pool present) allocator.reserved =
          some ip ∧
        allocator.allocIP family = (some (ip, pool.network), allocator.handOut present ip) := by
  rcases allocator with ⟨own, reserved, filter, advances⟩
  cases present
  by_cases same : pool.bits = family
  · subst same
    cases found : findIP filter pool (advances pool rfl) reserved with
    | none =>
      refine .inl ⟨?_, fun _ => rfl⟩
      simp [allocIP, alloc, found]
    | some ip =>
      refine .inr ⟨ip, rfl, rfl, ?_⟩
      simp [allocIP, alloc, found]
  · refine .inl ⟨?_, fun equal => absurd equal same⟩
    simp [allocIP, same]

theorem invariant_new (denotes : Denotes parent outer) :
    Invariant outer [] (newIPAllocator parent none) := by
  cases parent with
  | none => exact denotes.elim
  | some network =>
    cases made : newCombinedPoolSubnet network with
    | none => exact absurd denotes (newCombinedPoolSubnet_none made outer)
    | some pool =>
      rcases newCombinedPoolSubnet_some made with ⟨other, otherDenotes, represents⟩
      rw [otherDenotes.unique denotes] at represents
      exact ⟨⟨pool, made, represents, fun _ _ _ => rfl⟩, rfl⟩

theorem Invariant.allocIP {before : IPAllocator} (invariant : Invariant outer history before)
    (family : Family) :
    Invariant outer (history ++ [⟨.alloc family, (before.allocIP family).1⟩])
      (before.allocIP family).2 := by
  rcases invariant with ⟨⟨pool, present, represents, counts⟩, filter⟩
  rcases before.allocIP_cases present family with ⟨unchanged, _⟩ | ⟨ip, _, found, changed⟩
  · rw [unchanged]
    refine ⟨⟨pool, present, represents, fun other length usable => ?_⟩, filter⟩
    rw [usesOf_snoc, counts other length usable]
    simp [recordUse]
  · rcases findIP_some represents found with ⟨hitUsable, short, unused⟩
    have hitLength := hit_length represents hitUsable short
    rw [changed]
    refine ⟨⟨_, rfl, represents.moveNext short, fun other length usable => ?_⟩, filter⟩
    have value : addressValue ip outer.family = some (ofBytes other) ↔ other = ip := by
      rw [addressValue_iff length, normalizeIPForBits_self hitLength, Option.some.injEq, eq_comm]
    rw [usesOf_snoc]
    simp only [recordUse, handOut, bind_some, value, update_apply]
    split_ifs with same
    · rw [← counts other length usable, same, unused]
    · rw [counts other length usable, add_zero]

theorem Invariant.adjust {before : IPAllocator} (invariant : Invariant outer history before)
    {event : IPEvent} (change : ℕ → ℕ)
    (recorded : ∀ uses value, recordUse outer.family uses event value =
      if addressValue ip outer.family = some value then change (uses value) else uses value) :
    Invariant outer (history ++ [event]) (before.adjust ip change) := by
  rcases invariant with ⟨⟨pool, present, represents, counts⟩, filter⟩
  rcases before.adjust_spec ip change with ⟨samePool, sameFilter, changed⟩
  refine ⟨⟨pool, samePool.trans present, represents, fun other length usable => ?_⟩,
    sameFilter.trans filter⟩
  rw [usesOf_snoc, changed, counts other length usable, recorded]
  simp [normalizeUsableIP_iff present usable, addressValue_iff length, represents.bits]

theorem invariant_step {before after : IPAllocator} {event : IPEvent}
    (invariant : Invariant outer history before) (taken : Step before event after) :
    Invariant outer (history ++ [event]) after := by
  rcases event with ⟨call, result⟩
  cases call with
  | reserve ip =>
    cases taken
    refine invariant.adjust (· + 1) fun uses value => ?_
    simp only [recordUse]
    split_ifs <;> rfl
  | alloc family =>
    have resultEq : (before.allocIP family).1 = result := congrArg Prod.fst taken
    have afterEq : (before.allocIP family).2 = after := congrArg Prod.snd taken
    rw [← resultEq, ← afterEq]
    exact invariant.allocIP family
  | free ip =>
    cases taken
    refine invariant.adjust (· - 1) fun uses value => ?_
    simp only [recordUse]
    split_ifs <;> rfl
  | freeAll =>
    cases taken
    rcases invariant with ⟨⟨pool, present, represents, counts⟩, filter⟩
    have moved : (before.freeAllIP).pool = some { pool with next := nextIP pool.first } := by
      simp [freeAllIP, present]
    refine ⟨⟨_, moved, ?_, fun other length usable => ?_⟩, filter⟩
    · exact { represents with nextShort := represents.shortFirst }
    · rw [usesOf_snoc]
      rfl

theorem invariant_of_run (denotes : Denotes parent outer)
    (run : Run Step (newIPAllocator parent none) history allocator) :
    Invariant outer history allocator := by
  apply run.history_invariant (invariant_new denotes)
  intro history before event after invariant taken
  exact invariant_step invariant taken

theorem pool_of_malformed (malformed : ∀ outer, ¬Denotes parent outer)
    (run : Run Step (newIPAllocator parent none) history allocator) : allocator.pool = none := by
  apply run.invariant
  · cases parent with
    | none => rfl
    | some network =>
      cases made : newCombinedPoolSubnet network with
      | none => exact made
      | some pool =>
        rcases newCombinedPoolSubnet_some made with ⟨outer, denotes, _⟩
        exact absurd denotes (malformed outer)
  · rintro before ⟨call, result⟩ after empty taken
    have afterEq : (before.perform call).2 = after := congrArg Prod.snd taken
    rw [← afterEq]
    cases call with
    | reserve ip => exact (before.adjust_spec ip _).1.trans empty
    | alloc family => simp [perform, allocIP, empty]
    | free ip => exact (before.adjust_spec ip (· - 1)).1.trans empty
    | freeAll => simp [perform, freeAllIP, empty]

theorem Invariant.allocIP_some (invariant : Invariant outer history allocator)
    (denotes : Denotes parent outer) {network : IPNet}
    (returned : (allocator.allocIP family).1 = some (ip, network)) :
    HandsOutFree parent history family (some (ip, network)) ∧
      normalizeAnyIP ip = some ⟨ip, family, ofBytes ip⟩ := by
  rcases invariant.pool with ⟨pool, present, represents, counts⟩
  rcases allocator.allocIP_cases present family with ⟨unchanged, _⟩ | ⟨hit, bits, found, changed⟩
  · rw [unchanged] at returned
    cases returned
  · rw [changed] at returned
    cases returned
    rcases findIP_some represents found with ⟨usable, short, unused⟩
    have length := hit_length represents usable short
    rcases isUsable_spec represents short usable with ⟨normal, above, below⟩
    have sameFamily : outer.family = family := represents.bits.symm.trans bits
    rw [sameFamily] at length normal
    refine ⟨⟨⟨ofBytes ip, ?_, ⟨outer, denotes, sameFamily, above, below⟩, ?_⟩, outer, denotes, ?_⟩,
      normal⟩
    · rw [addressValue_iff length]
      exact normalizeIPForBits_self length
    · rw [← sameFamily, ← counts ip (by rw [sameFamily]; exact length) usable]
      exact unused
    · exact pool_denotes represents

theorem plain_of_unmapped {cidr : Cidr} (unmapped : cidr.Unmapped) {value : ℕ}
    (above : cidr.start < value) (below : value < cidr.interval.last) : cidr.Plain := by
  intro family
  by_contra meets
  rw [not_or, not_lt, not_le] at meets
  rcases meets with ⟨last, first⟩
  have lastEq : cidr.interval.last = cidr.start + cidr.size - 1 := rfl
  have even : 2 ∣ cidr.size := by
    have large : cidr.size ≠ 1 := by omega
    unfold Cidr.size subnetSize at large ⊢
    rcases Nat.eq_zero_or_pos (cidr.family.bits - cidr.prefixLen) with zero | positive
    · simp [zero] at large
    · exact dvd_pow_self 2 (by omega)
  have startEven : 2 ∣ cidr.start := even.trans cidr.aligned
  rcases even with ⟨half, sizeEq⟩
  rcases startEven with ⟨halfStart, startEq⟩
  rcases lt_or_ge cidr.start (0xffff * 2 ^ 32) with outside | within
  · exact unmapped (0xffff * 2 ^ 32) family outside (by omega) ⟨le_rfl, by decide⟩
  · exact unmapped (cidr.start + 1) family (by omega) (by omega) ⟨by omega, by omega⟩

theorem Invariant.allocIP_none (invariant : Invariant outer history allocator)
    (denotes : Denotes parent outer) (unmapped : outer.Unmapped)
    (returned : (allocator.allocIP family).1 = none) : HandsOutFree parent history family none := by
  rintro value ⟨⟨other, otherDenotes, sameFamily, above, below⟩, unused⟩
  cases otherDenotes.unique denotes
  have plain := plain_of_unmapped unmapped above below
  rcases invariant.pool with ⟨pool, present, represents, counts⟩
  rcases allocator.allocIP_cases present family with ⟨_, nothing⟩ | ⟨hit, _, _, changed⟩
  · have searched := nothing (represents.bits.trans sameFamily)
    simp only [invariant.filter] at searched
    have bound := below.trans outer.last_lt
    rcases intToIP_spec bound with ⟨length, valueEq⟩
    have usable : pool.isUsable (intToIP value outer.family) = true := by
      rw [represents.isUsable_iff plain length, valueEq]
      exact ⟨above, below⟩
    apply findIP_none represents plain searched above below
    rw [counts _ length usable, valueEq, sameFamily]
    exact unused
  · rw [changed] at returned
    cases returned

def reserveValue (family : Family) (value : ℕ) : IPEvent :=
  ⟨.reserve (intToIP value family), none⟩

open List

theorem run_reserveValues (start : IPAllocator) (family : Family) (values : List ℕ) :
    ∃ finish, Run Step start (values.map (reserveValue family)) finish := by
  induction values using reverseRecOn with
  | nil => exact ⟨start, .nil⟩
  | append_singleton values value ih =>
    rcases ih with ⟨between, run⟩
    rw [map_append]
    exact ⟨between.reserveIP (intToIP value family), run.snoc rfl⟩

theorem usesOf_reserveValues {values : List ℕ} (small : ∀ value ∈ values, value < 2 ^ family.bits)
    (value : ℕ) : usesOf family (values.map (reserveValue family)) value = values.count value := by
  induction values using reverseRecOn with
  | nil => rfl
  | append_singleton values last ih =>
    have earlier := ih fun other listed => small other (by simp [listed])
    rcases intToIP_spec (small last (by simp)) with ⟨length, valueEq⟩
    have number : addressValue (intToIP last family) family = some last := by
      rw [addressValue, normalizeIPForBits_self length, map_some, valueEq]
    rw [map_append, map_singleton, usesOf_snoc, count_append, count_singleton]
    simp only [recordUse, reserveValue, number, Option.some.injEq, beq_iff_eq]
    rw [earlier]

theorem not_mapped_of_native (normal : normalizeAnyIP ip = some ⟨ip, .v6, ofBytes ip⟩) :
    ¬Mapped (ofBytes ip) := by
  rintro ⟨above, below⟩
  cases converted : to4 ip with
  | none =>
    have outside := (native_iff (length_of_normal normal)).mp converted
    omega
  | some ip4 => simp [normalizeAnyIP, normalizeIPForBits, converted] at normal

theorem not_allocatesFree (denotes : Denotes parent outer) {value : ℕ} (family : outer.family = .v6)
    (above : outer.start < value) (below : value < outer.interval.last) (mapped : Mapped value) :
    ¬AllocatesFree parent := by
  intro allocates
  let others := (range' (outer.start + 1) (outer.interval.last - (outer.start + 1))).filter
    (· ≠ value)
  have small : ∀ other ∈ others, other < 2 ^ Family.bits .v6 := by
    intro other listed
    have inside := mem_range'_1.mp (mem_filter.mp listed).1
    have bound := outer.last_lt
    rw [family] at bound
    omega
  rcases run_reserveValues (newIPAllocator parent none) .v6 others with ⟨allocator, run⟩
  have handsOut := allocates _ allocator run .v6
  cases returned : (allocator.allocIP .v6).1 with
  | none =>
    rw [returned] at handsOut
    refine handsOut value ⟨⟨outer, denotes, family, above, below⟩, ?_⟩
    rw [usesOf_reserveValues small]
    exact count_eq_zero.mpr (by simp [others])
  | some pair =>
    rcases pair with ⟨ip, network⟩
    rw [returned] at handsOut
    rcases handsOut with ⟨⟨other, number, ⟨same, sameDenotes, _, first, last⟩, unused⟩, _⟩
    cases sameDenotes.unique denotes
    have native := ((invariant_of_run denotes run).allocIP_some denotes returned).2
    have otherEq : ofBytes ip = other := by
      rw [addressValue, normalizeIPForBits_self (length_of_normal native)] at number
      exact Option.some.inj number
    have different : other ≠ value := by
      rintro rfl
      exact not_mapped_of_native native (otherEq ▸ mapped)
    rw [usesOf_reserveValues small, count_eq_zero] at unused
    apply unused
    simp only [others, mem_filter, mem_range'_1, decide_eq_true_eq]
    omega

end IPAllocator

def AvoidsMapped : Prop :=
  ∀ outer, Denotes parent outer → outer.Unmapped

/-- After every run an allocation hands out an address of the parent that is neither its first
nor its last one and not in use, whenever there is one, exactly for the parents that have no
mapped address between the first and the last one. -/
theorem allocatesFree_iff (parent : Option IPNet) : AllocatesFree parent ↔ AvoidsMapped parent := by
  constructor
  · intro allocates outer denotes value family above below mapped
    exact not_allocatesFree denotes family above below mapped allocates
  · intro avoids history allocator run family
    by_cases denoted : ∃ outer, Denotes parent outer
    · rcases denoted with ⟨outer, denotes⟩
      have invariant := invariant_of_run denotes run
      cases returned : (allocator.allocIP family).1 with
      | none => exact invariant.allocIP_none denotes (avoids outer denotes) returned
      | some pair => exact (invariant.allocIP_some denotes returned).1
    · have malformed : ∀ outer, ¬Denotes parent outer := fun outer denotes =>
        denoted ⟨outer, denotes⟩
      have empty := pool_of_malformed malformed run
      have nothing : (allocator.allocIP family).1 = none := by
        simp [allocIP, empty]
      rw [nothing]
      rintro value ⟨⟨outer, denotes, _⟩, _⟩
      exact malformed outer denotes

/-- In `::ffff:10.0.0.0/120` nothing is found although nothing is in use. -/
theorem mappedNetwork_finds_nothing :
    let parent : Option IPNet :=
      some ⟨v4InV6Prefix ++ [10, 0, 0, 0], List.replicate 15 255 ++ [0]⟩
    ((newIPAllocator parent none).allocIP .v6).1 = none ∧
      FreeAddress parent [] .v6 (0xffff * 2 ^ 32 + 0x0a000001) := by
  intro parent
  refine ⟨by decide +kernel, ⟨?_, rfl⟩⟩
  exact ⟨⟨.v6, 120, 0xffff * 2 ^ 32 + 0x0a000000, by decide, by decide +kernel, by decide⟩,
    by decide +kernel, rfl, by decide, by decide +kernel⟩

end Gonnect.Subnet
