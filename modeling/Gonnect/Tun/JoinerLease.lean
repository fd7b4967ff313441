import Gonnect.Tun.JoinerTable

/-!
# The dynamic routes as a table of leases

`LeaseTable` says what the dynamic routes of the joiner are for: a bounded map from keys to
owners, in the order of the last use, whose entries end when they have not been used for a
time. `Refines` relates the pointers of the joiner to such a table at a time.
-/

set_option linter.unusedSectionVars false

namespace Gonnect.Tun

open List RecencyTable RouteKey Option

def RouteKey.isFlow {FlowKey FragmentKey : Type} : RouteKey FlowKey FragmentKey → Bool
  | .flow _ => true
  | .fragment _ => false

/-- A map from keys to owners that forgets the least recently used key at its limit and
every key that has not been used for the timeout. -/
structure LeaseTable (Key Owner : Type) where
  timeout : ℕ
  limit : ℕ
  leases : RecencyTable Key Owner
  stats : RoutingStats

namespace LeaseTable

section Operations

variable {Key Owner : Type} [DecidableEq Key] [DecidableEq Owner] (spec : LeaseTable Key Owner)
  (key : Key) (owner : Owner) (now : ℕ)

def expire : LeaseTable Key Owner :=
  { spec with
    leases := spec.leases.live now
    stats := { spec.stats with
      expiredRoutes := spec.stats.expiredRoutes +
        (spec.leases.length - (spec.leases.live now).length) } }

def holder : Option (Lease Key Owner) :=
  (spec.leases.live now).find key

def renew : LeaseTable Key Owner :=
  { spec with leases := spec.leases.use ⟨key, owner, now + spec.timeout⟩ }

def insert : LeaseTable Key Owner :=
  { spec with
    leases := spec.leases.put spec.limit ⟨key, owner, now + spec.timeout⟩
    stats := { spec.stats with
      evictedRoutes := spec.stats.evictedRoutes +
        if spec.leases.length < spec.limit then 0 else 1 } }

/-- An owner asks for a key, which it gets if no other owner has it. -/
def claim : LeaseTable Key Owner :=
  match spec.holder key now with
  | some lease =>
    if lease.owner ≠ owner then
      { spec with stats :=
        { spec.stats with flowCollisions := spec.stats.flowCollisions + 1 } }
    else
      spec.renew key owner now
  | none => spec.insert key owner now

def takeOver : LeaseTable Key Owner :=
  match spec.holder key now with
  | some _ => spec.renew key owner now
  | none => spec.insert key owner now

def release : LeaseTable Key Owner :=
  { spec with leases := spec.leases.release owner }

def clear : LeaseTable Key Owner :=
  { spec with leases := [] }

def AllLive : Prop :=
  ∀ lease ∈ spec.leases, now < lease.expires

theorem allLive_expire : (spec.expire now).AllLive now := by
  intro lease isMember
  have isLive := (mem_filter.mp isMember).2
  simpa using isLive

section

variable {spec now} (allLive : spec.AllLive now)

include allLive

theorem holder_eq_find (key : Key) : spec.holder key now = spec.leases.find key := by
  rw [holder, live, filter_eq_self.mpr]
  intro lease isMember
  simpa using allLive lease isMember

section

variable (positive : 0 < spec.timeout)

include positive

theorem AllLive.renew (key : Key) (owner : Owner) : (spec.renew key owner now).AllLive now := by
  intro lease isMember
  rcases mem_append.mp isMember with isOther | isNew
  · exact allLive lease (mem_filter.mp isOther).1
  · rw [mem_singleton.mp isNew]
    exact Nat.lt_add_of_pos_right positive

theorem AllLive.insert (key : Key) (owner : Owner) : (spec.insert key owner now).AllLive now := by
  intro lease isMember
  rcases mem_append.mp isMember with isOther | isNew
  · split_ifs at isOther
    · exact allLive lease isOther
    · exact allLive lease (mem_of_mem_drop isOther)
  · rw [mem_singleton.mp isNew]
    exact Nat.lt_add_of_pos_right positive

theorem AllLive.claim (key : Key) (owner : Owner) : (spec.claim key owner now).AllLive now := by
  rw [LeaseTable.claim]
  split
  · split_ifs
    · exact allLive
    · exact allLive.renew positive key owner
  · exact allLive.insert positive key owner

theorem AllLive.takeOver (key : Key) (owner : Owner) :
    (spec.takeOver key owner now).AllLive now := by
  rw [LeaseTable.takeOver]
  split
  · exact allLive.renew positive key owner
  · exact allLive.insert positive key owner

end

end

end Operations

end LeaseTable

namespace RouteTable

section Refinement

variable {FlowKey FragmentKey Owner : Type} [DecidableEq FlowKey] [DecidableEq FragmentKey]
  [DecidableEq Owner] [Inhabited FlowKey]

/-- The pointers and maps hold the leases of the table, which are sound at this time. -/
structure Refines (table : RouteTable FlowKey FragmentKey Owner)
    (spec : LeaseTable (RouteKey FlowKey FragmentKey) Owner) (now : ℕ) : Prop where
  timeout : table.flowTimeout = spec.timeout
  limit : table.flowLimit = spec.limit
  stats : table.routeStats = spec.stats
  positive : 0 < spec.limit
  sound : Sound spec.limit spec.timeout now spec.leases
  represents : ∃ refs free, table.Represents spec.leases refs free

variable {table : RouteTable FlowKey FragmentKey Owner}
  {spec : LeaseTable (RouteKey FlowKey FragmentKey) Owner}
  {leases : RecencyTable (RouteKey FlowKey FragmentKey) Owner} {refs free : List Ref} {now : ℕ}

theorem refines_new (flowTimeout : ℕ) {flowLimit : ℕ} (positive : 0 < flowLimit) (now : ℕ) :
    (new flowTimeout flowLimit : RouteTable FlowKey FragmentKey Owner).Refines
      ⟨flowTimeout, flowLimit, [], {}⟩ now where
  timeout := rfl
  limit := rfl
  stats := rfl
  positive := positive
  sound := .nil
  represents := ⟨[], [], represents_new _ _⟩

theorem mem_flows (key : FlowKey) : key ∈ table.flows.keys ↔ (table.lookup (.flow key)).isSome := by
  rw [lookup, AList.lookup_isSome, AList.mem_keys]

theorem mem_fragments (key : FragmentKey) :
    key ∈ table.fragments.keys ↔ (table.lookup (.fragment key)).isSome := by
  rw [lookup, AList.lookup_isSome, AList.mem_keys]

theorem mem_filtered_keys (kind : RouteKey FlowKey FragmentKey → Bool)
    (key : RouteKey FlowKey FragmentKey) :
    key ∈ (leases.filter fun lease => kind lease.key).map Lease.key ↔
      key ∈ leases.map Lease.key ∧ kind key := by
  simp only [List.mem_map, mem_filter]
  constructor
  · rintro ⟨lease, ⟨isMember, isKind⟩, rfl⟩
    exact ⟨⟨lease, isMember, rfl⟩, isKind⟩
  · rintro ⟨⟨lease, isMember, rfl⟩, isKind⟩
    exact ⟨lease, ⟨isMember, isKind⟩, rfl⟩

section

variable (represents : table.Represents leases refs free)

include represents

theorem Represents.restat (stats : RoutingStats) :
    { table with routeStats := stats }.Represents leases refs free where
  linked := ⟨represents.linked.segment, represents.linked.head, represents.linked.tail,
    represents.linked.chain, represents.linked.nodup, represents.linked.allocated,
    represents.linked.size⟩
  contents := represents.contents
  mapped key ref := by
    rw [← represents.mapped]
    cases key <;> rfl

theorem Represents.isSome_lookup (key : RouteKey FlowKey FragmentKey) :
    (table.lookup key).isSome ↔ key ∈ leases.map Lease.key := by
  rw [← represents.keys, List.mem_map, isSome_iff_exists]
  exact exists_congr fun ref => represents.mapped key ref

variable (distinct : (leases.map Lease.key).Nodup)

include distinct

theorem Represents.find (key : RouteKey FlowKey FragmentKey) :
    (table.lookup key = none ∧ leases.find key = none) ∨
    ∃ front lease back frontRefs ref backRefs,
      table.lookup key = some ref ∧ leases.find key = some lease ∧ lease.key = key ∧
      leases = front ++ lease :: back ∧ refs = frontRefs ++ ref :: backRefs ∧
      frontRefs.length = front.length := by
  cases found : table.lookup key with
  | none =>
    refine .inl ⟨rfl, find_eq_none_iff.mpr fun isKey => ?_⟩
    rw [← represents.keys] at isKey
    rcases mem_map.mp isKey with ⟨ref, isRef, hasKey⟩
    have lookedUp := (represents.mapped key ref).mpr ⟨isRef, hasKey⟩
    rw [found] at lookedUp
    cases lookedUp
  | some ref =>
    rcases (represents.mapped key ref).mp found with ⟨isRef, hasKey⟩
    rcases append_of_mem isRef with ⟨frontRefs, backRefs, rfl⟩
    rcases represents.splitRefs with ⟨front, lease, back, rfl, samePlace⟩
    have same := (represents.aligned samePlace).2.1
    have isKey : lease.key = key := by
      rw [← hasKey, same]
      rfl
    refine .inr ⟨front, lease, back, frontRefs, ref, backRefs, rfl, ?_, isKey, rfl, rfl,
      samePlace⟩
    rw [← isKey]
    exact find_of_split distinct

theorem Represents.sizes :
    table.flows.keys.length = (leases.filter fun lease => lease.key.isFlow).length ∧
    table.fragments.keys.length = (leases.filter fun lease => !lease.key.isFlow).length := by
  have flowKeys : (table.flows.keys.map flow).Perm
      ((leases.filter fun lease => lease.key.isFlow).map Lease.key) := by
    refine (perm_ext_iff_of_nodup ?_ ?_).mpr ?_
    · exact table.flows.keys_nodup.map fun one other same => flow.inj same
    · exact distinct.sublist (filter_sublist.map _)
    · intro key
      rw [mem_filtered_keys, ← represents.isSome_lookup]
      cases key with
      | flow key => simp [← mem_flows, isFlow]
      | fragment key => simp [isFlow]
  have fragmentKeys : (table.fragments.keys.map fragment).Perm
      ((leases.filter fun lease => !lease.key.isFlow).map Lease.key) := by
    refine (perm_ext_iff_of_nodup ?_ ?_).mpr ?_
    · exact table.fragments.keys_nodup.map fun one other same => fragment.inj same
    · exact distinct.sublist (filter_sublist.map _)
    · intro key
      rw [mem_filtered_keys fun key => !key.isFlow, ← represents.isSome_lookup]
      cases key with
      | flow key => simp [isFlow]
      | fragment key => simp [← mem_fragments, isFlow]
  exact ⟨by simpa using flowKeys.length_eq, by simpa using fragmentKeys.length_eq⟩

end

variable {lease : Lease (RouteKey FlowKey FragmentKey) Owner} {ref : Ref}

theorem Represents.first (represents : table.Represents (lease :: leases) refs free) :
    ∃ ref rest, refs = ref :: rest ∧ table.dynamicHead = some ref ∧
      (table.heap ref).content = leased lease := by
  rcases map_eq_cons_iff.mp represents.contents with ⟨ref, rest, rfl, same, _⟩
  exact ⟨ref, rest, rfl, represents.linked.head, same⟩

theorem Represents.empty (represents : table.Represents [] refs free) : table.dynamicHead = none := by
  obtain rfl : refs = [] := map_eq_nil_iff.mp represents.contents
  exact represents.linked.head

theorem Represents.removeFirst (represents : table.Represents (lease :: leases) (ref :: refs) free)
    (distinct : ((lease :: leases).map Lease.key).Nodup) :
    (table.removeDynamicRoute ref).Represents leases refs (ref :: free) :=
  @Represents.remove _ _ _ _ _ _ _ table free [] leases lease [] refs ref represents rfl distinct

theorem Represents.expire (turns : ℕ) (represents : table.Represents leases refs free)
    (enough : leases.length ≤ turns) (distinct : (leases.map Lease.key).Nodup)
    (sorted : leases.Pairwise fun earlier later => earlier.expires ≤ later.expires) :
    (∃ others free, (table.expire now turns).Represents (leases.live now) others free) ∧
    (table.expire now turns).flowTimeout = table.flowTimeout ∧
    (table.expire now turns).flowLimit = table.flowLimit ∧
    (table.expire now turns).routeStats = { table.routeStats with
      expiredRoutes := table.routeStats.expiredRoutes +
        (leases.length - (leases.live now).length) } := by
  induction turns generalizing table leases refs free with
  | zero =>
    obtain rfl : leases = [] := length_eq_zero_iff.mp (Nat.le_zero.mp enough)
    exact ⟨⟨refs, free, represents⟩, rfl, rfl, rfl⟩
  | succ turns ih =>
    cases leases with
    | nil =>
      have stays : table.expire now (turns + 1) = table := by
        simp only [expire, represents.empty]
      rw [stays]
      exact ⟨⟨refs, free, represents⟩, rfl, rfl, rfl⟩
    | cons lease rest =>
      rcases represents.first with ⟨ref, restRefs, rfl, isHead, same⟩
      have expires : (table.heap ref).content.expires = lease.expires := by
        rw [same]
        rfl
      by_cases isLive : now < lease.expires
      · have stays : table.expire now (turns + 1) = table := by
          simp [expire, isHead, expires, if_pos isLive]
        rw [stays, live_cons_of_lt sorted isLive, Nat.sub_self]
        exact ⟨⟨_, free, represents⟩, rfl, rfl, rfl⟩
      · have step : table.expire now (turns + 1) = { table.removeDynamicRoute ref with
            routeStats := { table.routeStats with
              expiredRoutes := table.routeStats.expiredRoutes + 1 } }.expire now turns := by
          simp only [expire, isHead, expires, if_neg isLive]
          rw [removed_eq]
        rcases ih ((represents.removeFirst distinct).restat
          { table.routeStats with expiredRoutes := table.routeStats.expiredRoutes + 1 })
          (Nat.le_of_succ_le_succ enough) (nodup_cons.mp distinct).2
          (pairwise_cons.mp sorted).2 with ⟨expired, timeout, limit, stats⟩
        rw [← step] at expired timeout limit stats
        have shorter : (live rest now).length ≤ rest.length := length_filter_le _ _
        rw [live_cons_of_le (Nat.le_of_not_lt isLive)]
        refine ⟨expired, timeout.trans ?_, limit.trans ?_, stats.trans ?_⟩
        · rw [removed_eq]
        · rw [removed_eq]
        · have counted : table.routeStats.expiredRoutes + 1 + (rest.length -
              (live rest now).length) = table.routeStats.expiredRoutes +
              ((lease :: rest).length - (live rest now).length) := by
            rw [length_cons]
            omega
          rw [← counted]

theorem Represents.removeOwned (owner : Owner)
    {rest : RecencyTable (RouteKey FlowKey FragmentKey) Owner} :
    ∀ {table : RouteTable FlowKey FragmentKey Owner}
      {front : RecencyTable (RouteKey FlowKey FragmentKey) Owner}
      {frontRefs restRefs free : List Ref} {turns : ℕ},
      table.Represents (front ++ rest) (frontRefs ++ restRefs) free →
      frontRefs.length = front.length → ((front ++ rest).map Lease.key).Nodup →
      rest.length ≤ turns →
      (∃ refs free, (table.removeOwned owner turns restRefs.head?).Represents
        (front ++ rest.release owner) refs free) ∧
      (table.removeOwned owner turns restRefs.head?).flowTimeout = table.flowTimeout ∧
      (table.removeOwned owner turns restRefs.head?).flowLimit = table.flowLimit ∧
      (table.removeOwned owner turns restRefs.head?).routeStats = table.routeStats := by
  induction rest with
  | nil =>
    intro table front frontRefs restRefs free turns represents samePlace _ _
    have lengths := represents.length
    simp only [length_append, length_nil] at lengths
    obtain rfl : restRefs = [] := length_eq_zero_iff.mp (by omega)
    have stays : table.removeOwned owner turns none = table := by
      cases turns <;> rfl
    rw [head?_nil, stays]
    exact ⟨⟨_, free, represents⟩, rfl, rfl, rfl⟩
  | cons lease rest ih =>
    intro table front frontRefs restRefs free turns represents samePlace distinct enough
    rcases restRefs with _ | ⟨ref, restRefs⟩
    · have lengths := represents.length
      simp only [length_append, length_nil, length_cons] at lengths
      omega
    rcases turns with _ | turns
    · simp at enough
    have same := (represents.aligned samePlace).2.1
    have behind := represents.linked.segment.node.2
    have isOwner : (table.heap ref).content.owner = some lease.owner := by
      rw [same]
      rfl
    simp only [head?_cons, RouteTable.removeOwned, behind, isOwner, some.injEq]
    by_cases owned : lease.owner = owner
    · have released : release (lease :: rest) owner =
          release rest owner := by
        simp [release, owned]
      have part : ((front ++ rest).map Lease.key).Nodup :=
        distinct.sublist ((Sublist.append_left (sublist_cons_self _ _) _).map _)
      rw [if_pos owned, released]
      rcases ih (represents.remove samePlace distinct) samePlace part
        (Nat.le_of_succ_le_succ enough) with ⟨removed, timeout, limit, stats⟩
      refine ⟨removed, timeout.trans ?_, limit.trans ?_, stats.trans ?_⟩ <;> rw [removed_eq]
    · have released : release (lease :: rest) owner =
          lease :: release rest owner := by
        simp [release, owned]
      rw [if_neg owned, released]
      have moved := @ih table (front ++ [lease]) (frontRefs ++ [ref]) restRefs
        free turns
      simp only [append_assoc, singleton_append] at moved
      exact moved represents (by simp [samePlace]) distinct (Nat.le_of_succ_le_succ enough)

variable {key : RouteKey FlowKey FragmentKey} {owner : Owner}

theorem setOwner_same (same : (table.heap ref).content.owner = some owner) :
    table.setOwner ref owner = table := by
  have sameHeap : (table.setOwner ref owner).heap = table.heap := by
    funext one
    by_cases isRef : one = ref
    · simp [setOwner, isRef, ← same]
    · exact Heap.set_other _ isRef
  calc table.setOwner ref owner = { table with heap := (table.setOwner ref owner).heap } := rfl
    _ = table := by rw [sameHeap]

theorem evict_of_lt {turns : ℕ} (room : table.dynamicSize < table.flowLimit) :
    table.evict turns = table := by
  cases turns with
  | zero => rfl
  | succ turns =>
    cases isHead : table.dynamicHead with
    | none => simp only [evict, isHead]
    | some route => simp only [evict, isHead, if_neg (not_le.mpr room)]

section

variable (refines : table.Refines spec now)

include refines

theorem Refines.later {next : ℕ} (passed : now ≤ next) :
    table.Refines spec next :=
  { refines with sound := refines.sound.later passed }

theorem Refines.restat (stats : RoutingStats) :
    { table with routeStats := stats }.Refines { spec with stats := stats } now := by
  rcases refines.represents with ⟨refs, free, represents⟩
  exact ⟨refines.timeout, refines.limit, rfl, refines.positive, refines.sound, refs, free,
    represents.restat stats⟩

theorem Refines.expire : (table.expireDynamicRoutes now).Refines (spec.expire now) now := by
  rcases refines.represents with ⟨refs, free, represents⟩
  have enough := Nat.le_of_eq represents.size.symm
  rcases represents.expire _ enough refines.sound.distinct refines.sound.sorted with
    ⟨expired, timeout, limit, stats⟩
  refine ⟨timeout.trans refines.timeout, limit.trans refines.limit, stats.trans ?_,
    refines.positive, refines.sound.live now, expired⟩
  rw [refines.stats]
  rfl

theorem Refines.found (lookedUp : table.lookup key = some ref) :
    ∃ lease, spec.leases.find key = some lease ∧ lease.key = key ∧
      (table.heap ref).content = leased lease := by
  rcases refines.represents with ⟨refs, free, represents⟩
  rcases represents.find refines.sound.distinct key with ⟨absent, _⟩ | ⟨front, lease, back,
    frontRefs, one, backRefs, isOne, found, sameKey, split, rfl, samePlace⟩
  · cases absent.symm.trans lookedUp
  obtain rfl := some.inj (isOne.symm.trans lookedUp)
  rw [split] at represents
  exact ⟨lease, found, sameKey, (represents.aligned samePlace).2.1⟩

theorem Refines.absent (absent : table.lookup key = none) : spec.leases.find key = none := by
  rcases refines.represents with ⟨refs, free, represents⟩
  rcases represents.find refines.sound.distinct key with ⟨_, notFound⟩ | ⟨_, _, _, _, one, _,
    isOne, _⟩
  · exact notFound
  · cases absent.symm.trans isOne

theorem Refines.renew (lookedUp : table.lookup key = some ref) (owner : Owner) :
    ((table.setOwner ref owner).touchDynamicRoute ref now).Refines (spec.renew key owner now)
      now := by
  rcases refines.represents with ⟨refs, free, represents⟩
  have distinct := refines.sound.distinct
  rcases represents.find distinct key with ⟨absent, _⟩ | ⟨front, lease, back, frontRefs, one,
    backRefs, isOne, found, rfl, split, rfl, samePlace⟩
  · cases absent.symm.trans lookedUp
  obtain rfl := some.inj (isOne.symm.trans lookedUp)
  rw [split] at represents distinct
  have touched := (represents.setOwner samePlace owner).touch samePlace now
  refine ⟨?_, ?_, ?_, refines.positive, refines.sound.use found rfl,
    frontRefs ++ backRefs ++ [one], free, ?_⟩
  · rw [touched_eq]
    exact refines.timeout
  · rw [touched_eq]
    exact refines.limit
  · rw [touched_eq]
    exact refines.stats
  · have sameTimeout : (table.setOwner one owner).flowTimeout = spec.timeout := refines.timeout
    rw [sameTimeout] at touched
    have used : spec.leases.use ⟨lease.key, owner, now + spec.timeout⟩ =
        front ++ back ++ [⟨lease.key, owner, now + spec.timeout⟩] := by
      rw [split]
      exact use_split distinct rfl
    simp only [LeaseTable.renew, used]
    exact touched

theorem Refines.touch (lookedUp : table.lookup key = some ref)
    (isOwner : (table.heap ref).content.owner = some owner) :
    (table.touchDynamicRoute ref now).Refines (spec.renew key owner now) now := by
  have renewed := refines.renew lookedUp owner
  rwa [setOwner_same isOwner] at renewed

theorem Refines.evict_cases :
    (spec.leases.length < spec.limit ∧ table.evict table.dynamicSize = table) ∨
    ∃ lease rest ref refs free, ¬spec.leases.length < spec.limit ∧ spec.leases = lease :: rest ∧
      table.Represents (lease :: rest) (ref :: refs) free ∧
      table.evict table.dynamicSize = { table.removeDynamicRoute ref with
        routeStats := { table.routeStats with
          evictedRoutes := table.routeStats.evictedRoutes + 1 } } := by
  rcases refines.represents with ⟨refs, free, represents⟩
  have size := represents.size
  have limit := refines.limit
  have bound := refines.sound.size
  by_cases room : spec.leases.length < spec.limit
  · exact .inl ⟨room, evict_of_lt (by omega)⟩
  · cases listed : spec.leases with
    | nil =>
      have positive := refines.positive
      rw [listed, length_nil] at room
      omega
    | cons lease rest =>
      rw [listed] at represents
      rcases represents.first with ⟨ref, restRefs, rfl, isHead, _⟩
      refine .inr ⟨lease, rest, ref, restRefs, free, listed ▸ room, rfl, represents, ?_⟩
      have full : table.flowLimit ≤ table.dynamicSize := by omega
      have turns : table.dynamicSize = restRefs.length + 1 := represents.linked.size
      rw [turns]
      simp only [evict, isHead, if_pos full]
      rw [removed_eq]
      refine evict_of_lt ?_
      dsimp only
      omega

theorem Refines.evict :
    (∃ refs free, (table.evict table.dynamicSize).Represents
      (if spec.leases.length < spec.limit then spec.leases else spec.leases.drop 1) refs free) ∧
    (table.evict table.dynamicSize).flowTimeout = spec.timeout ∧
    (table.evict table.dynamicSize).flowLimit = spec.limit ∧
    (table.evict table.dynamicSize).routeStats = { spec.stats with
      evictedRoutes := spec.stats.evictedRoutes +
        if spec.leases.length < spec.limit then 0 else 1 } := by
  rcases refines.evict_cases with ⟨room, stays⟩ | ⟨lease, rest, ref, refs, free, full, listed,
    represents, once⟩
  · rw [stays, if_pos room, if_pos room, refines.stats]
    exact ⟨refines.represents, refines.timeout, refines.limit, rfl⟩
  · have distinct := refines.sound.distinct
    rw [listed] at distinct
    rw [once, if_neg full, if_neg full, listed]
    refine ⟨⟨refs, ref :: free, (represents.removeFirst distinct).restat _⟩, ?_, ?_, ?_⟩
    · rw [removed_eq]
      exact refines.timeout
    · rw [removed_eq]
      exact refines.limit
    · rw [refines.stats]

theorem Refines.insert (absent : spec.leases.find key = none) (owner : Owner) :
    (table.insertRoute key owner now).Refines (spec.insert key owner now) now := by
  have fresh := find_eq_none_iff.mp absent
  rcases refines.evict with ⟨⟨refs, free, represents⟩, timeout, limit, stats⟩
  rw [insertRoute_eq]
  generalize table.evict table.dynamicSize = evicted at represents timeout limit stats ⊢
  have stillFresh : key ∉ (if spec.leases.length < spec.limit then spec.leases
      else spec.leases.drop 1).map Lease.key := by
    split_ifs
    · exact fresh
    · exact fun isKey => fresh (((drop_sublist 1 _).map _).subset isKey)
  rcases represents.place stillFresh owner now with ⟨rest, placed⟩
  rw [timeout] at placed
  have fields := evicted.placed_fields key owner now
  exact ⟨fields.1.trans timeout, fields.2.1.trans limit, fields.2.2.trans stats, refines.positive,
    refines.sound.put fresh rfl refines.positive, _, rest, placed⟩

open LeaseTable

theorem Refines.rememberFlow (allLive : spec.AllLive now) (key : FlowKey) (owner : Owner) :
    (table.rememberFlow key owner now).Refines (spec.claim (.flow key) owner now) now := by
  cases lookedUp : table.lookup (.flow key) with
  | none =>
    have absent := refines.absent lookedUp
    have looked : table.flows.lookup key = none := lookedUp
    simp only [RouteTable.rememberFlow, looked, claim,
      holder_eq_find allLive, absent]
    exact refines.insert absent owner
  | some ref =>
    rcases refines.found lookedUp with ⟨lease, found, _, same⟩
    have looked : table.flows.lookup key = some ref := lookedUp
    have isOwner : (table.heap ref).content.owner = some lease.owner := by
      rw [same]
      rfl
    simp only [RouteTable.rememberFlow, looked, claim,
      holder_eq_find allLive, found, isOwner, ne_eq, some.injEq]
    by_cases different : lease.owner = owner
    · subst different
      rw [if_neg (fun absurd => absurd rfl), if_neg (fun absurd => absurd rfl)]
      exact refines.touch lookedUp isOwner
    · rw [if_pos different, if_pos different, ← refines.stats]
      exact refines.restat _

theorem Refines.rememberFragment (allLive : spec.AllLive now) (key : FragmentKey) (owner : Owner) :
    (table.rememberFragment key owner now).Refines (spec.takeOver (.fragment key) owner now)
      now := by
  cases lookedUp : table.lookup (.fragment key) with
  | none =>
    have absent := refines.absent lookedUp
    have looked : table.fragments.lookup key = none := lookedUp
    simp only [RouteTable.rememberFragment, looked, takeOver,
      holder_eq_find allLive, absent]
    exact refines.insert absent owner
  | some ref =>
    rcases refines.found lookedUp with ⟨lease, found, _⟩
    have looked : table.fragments.lookup key = some ref := lookedUp
    simp only [RouteTable.rememberFragment, looked, takeOver,
      holder_eq_find allLive, found]
    exact refines.renew lookedUp owner

/-- A node keeps its owner while a route of the same owner is inserted. In a table of one
route it is evicted and taken again for the new route. -/
theorem Refines.insert_owner {one : Ref} (isOwner : (table.heap one).content.owner = some owner)
    (key : RouteKey FlowKey FragmentKey) :
    ((table.insertRoute key owner now).heap one).content.owner = some owner := by
  rw [insertRoute_eq, placed_content]
  split_ifs with isNew
  · rfl
  · rcases refines.evict_cases with ⟨_, stays⟩ | ⟨_, _, ref, refs, free, _, _, represents, once⟩
    · rw [stays]
      exact isOwner
    · rw [once] at isNew ⊢
      have taken : one ≠ ref := by
        exact isNew
      have linked : table.Linked ([] ++ ref :: refs) free := represents.linked
      have kept := removed_content linked taken
      rw [kept]
      exact isOwner

theorem Refines.rememberFragment_owner {one : Ref}
    (isOwner : (table.heap one).content.owner = some owner) (key : FragmentKey) :
    ((table.rememberFragment key owner now).heap one).content.owner = some owner := by
  rw [RouteTable.rememberFragment]
  split
  · rw [touched_content]
    split_ifs with isRef
    · simp [setOwner]
    · simp only [setOwner]
      rw [Heap.set_other _ isRef]
      exact isOwner
  · exact refines.insert_owner isOwner _

theorem Refines.release (owner : Owner) :
    (table.removeDynamicRoutesForOwner owner).Refines (spec.release owner) now := by
  rcases refines.represents with ⟨refs, free, represents⟩
  have enough := Nat.le_of_eq represents.size.symm
  rcases @Represents.removeOwned _ _ _ _ _ _ _ owner spec.leases table [] [] refs free _
    represents rfl refines.sound.distinct enough with ⟨removed, timeout, limit, stats⟩
  rw [← represents.linked.head] at removed timeout limit stats
  exact ⟨timeout.trans refines.timeout, limit.trans refines.limit, stats.trans refines.stats,
    refines.positive, refines.sound.release owner, removed⟩

theorem Refines.clear :
    table.clearDynamicRoutes.Refines spec.clear now where
  timeout := refines.timeout
  limit := refines.limit
  stats := refines.stats
  positive := refines.positive
  sound := .nil
  represents := by
    refine ⟨[], [], ⟨trivial, rfl, rfl, rfl, nodup_nil, by simp, rfl⟩, rfl, ?_⟩
    intro key ref
    cases key <;> simp [clearDynamicRoutes, lookup]

theorem Refines.sizes :
    table.flows.keys.length = (spec.leases.filter fun lease => lease.key.isFlow).length ∧
    table.fragments.keys.length = (spec.leases.filter fun lease => !lease.key.isFlow).length ∧
    table.dynamicSize = table.flows.keys.length + table.fragments.keys.length ∧
    table.dynamicSize ≤ table.flowLimit := by
  rcases refines.represents with ⟨refs, free, represents⟩
  rcases represents.sizes refines.sound.distinct with ⟨flows, fragments⟩
  have size := represents.size
  refine ⟨flows, fragments, ?_, ?_⟩
  · rw [size, flows, fragments]
    exact length_eq_length_filter_add _
  · rw [size, refines.limit]
    exact refines.sound.size

end

end Refinement

end RouteTable

end Gonnect.Tun
