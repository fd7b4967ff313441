import Gonnect.Foundation.LinkedList
import Gonnect.Foundation.RecencyTable
import Mathlib.Data.List.AList

/-!
# The dynamic routes of the joiner

Flow routes and fragment routes are nodes of one doubly linked list, from the least to the
most recently used one. Two maps lead from the keys to the nodes. A removed node is cleared
and kept on a list of free nodes. `Represents` ties these pointers and maps to a
`RecencyTable`, and every operation on the pointers is an operation on the table.
-/

set_option linter.unusedSectionVars false

namespace Gonnect.Tun

open List Heap Option

/-- `joinerDynamicRouteKind` with the key of that kind. -/
inductive RouteKey (FlowKey FragmentKey : Type) where
  | flow (key : FlowKey)
  | fragment (key : FragmentKey)
deriving DecidableEq

structure DynamicRoute (FlowKey FragmentKey Owner : Type) where
  owner : Option Owner
  expires : ℕ
  key : RouteKey FlowKey FragmentKey

structure RoutingStats where
  flowRoutes : ℕ := 0
  fragmentRoutes : ℕ := 0
  addressFallbacks : ℕ := 0
  defaultFallbacks : ℕ := 0
  droppedFallbacks : ℕ := 0
  flowCollisions : ℕ := 0
  expiredRoutes : ℕ := 0
  evictedRoutes : ℕ := 0
deriving DecidableEq

/-- The fields of `Joiner` for dynamic routes. `allocated` is the next unused pointer. -/
structure RouteTable (FlowKey FragmentKey Owner : Type) where
  flowTimeout : ℕ
  flowLimit : ℕ
  heap : Heap (DynamicRoute FlowKey FragmentKey Owner)
  allocated : Ref
  flows : AList fun _ : FlowKey => Ref
  fragments : AList fun _ : FragmentKey => Ref
  dynamicHead : Option Ref
  dynamicTail : Option Ref
  dynamicFree : Option Ref
  dynamicSize : ℕ
  routeStats : RoutingStats

section Model

variable {FlowKey FragmentKey Owner : Type} [DecidableEq FlowKey] [DecidableEq FragmentKey]
  [DecidableEq Owner] [Inhabited FlowKey]

namespace RouteTable

def zeroRoute : DynamicRoute FlowKey FragmentKey Owner where
  owner := none
  expires := 0
  key := .flow default

def new (flowTimeout flowLimit : ℕ) : RouteTable FlowKey FragmentKey Owner where
  flowTimeout := flowTimeout
  flowLimit := flowLimit
  heap _ := ⟨zeroRoute, none, none⟩
  allocated := 0
  flows := ∅
  fragments := ∅
  dynamicHead := none
  dynamicTail := none
  dynamicFree := none
  dynamicSize := 0
  routeStats := {}

variable (table : RouteTable FlowKey FragmentKey Owner)

/-- The `delete` of `removeDynamicRouteLocked` from the map of the route's kind. -/
def forget : RouteKey FlowKey FragmentKey → RouteTable FlowKey FragmentKey Owner
  | .flow key => { table with flows := table.flows.erase key }
  | .fragment key => { table with fragments := table.fragments.erase key }

variable (route : Ref)

def removeDynamicRoute : RouteTable FlowKey FragmentKey Owner :=
  let node := table.heap route
  let table := table.forget node.content.key
  { table with
    dynamicHead := if node.previous = none then node.next else table.dynamicHead
    dynamicTail := if node.next = none then node.previous else table.dynamicTail
    dynamicSize := table.dynamicSize - 1
    heap := ((table.heap.setNext node.previous node.next).setPrevious node.next
      node.previous).set route ⟨zeroRoute, none, table.dynamicFree⟩
    dynamicFree := some route }

def touchDynamicRoute (now : ℕ) : RouteTable FlowKey FragmentKey Owner :=
  let node := table.heap route
  let heap := table.heap.set route
    { node with content := { node.content with expires := now + table.flowTimeout } }
  if some route = table.dynamicTail then
    { table with heap := heap }
  else
    { table with
      dynamicHead := if node.previous = none then node.next else table.dynamicHead
      dynamicTail := some route
      heap := ((((heap.setNext node.previous node.next).setPrevious node.next
        node.previous).setPrevious (some route) table.dynamicTail).setNext (some route)
        none).setNext table.dynamicTail (some route) }

def addDynamicRoute : RouteTable FlowKey FragmentKey Owner :=
  match table.dynamicTail with
  | none => { table with
      dynamicHead := some route
      dynamicTail := some route
      dynamicSize := table.dynamicSize + 1 }
  | some tail => { table with
      heap := (table.heap.setNext (some tail) (some route)).setPrevious (some route) (some tail)
      dynamicTail := some route
      dynamicSize := table.dynamicSize + 1 }

/-- The loop of `newDynamicRouteLocked`, for a number of turns. -/
def evict : ℕ → RouteTable FlowKey FragmentKey Owner → RouteTable FlowKey FragmentKey Owner
  | 0, table => table
  | turns + 1, table =>
    match table.dynamicHead with
    | none => table
    | some route =>
      if table.flowLimit ≤ table.dynamicSize then
        let table := table.removeDynamicRoute route
        evict turns { table with routeStats :=
          { table.routeStats with evictedRoutes := table.routeStats.evictedRoutes + 1 } }
      else
        table

/-- The part of `newDynamicRouteLocked` behind its loop. -/
def takeRoute : Ref × RouteTable FlowKey FragmentKey Owner :=
  match table.dynamicFree with
  | none => (table.allocated, { table with allocated := table.allocated + 1 })
  | some route => (route, { table with dynamicFree := (table.heap route).next })

/-- `newDynamicRouteLocked`; every turn of its loop makes the list shorter. -/
def newDynamicRoute : Ref × RouteTable FlowKey FragmentKey Owner :=
  (table.evict table.dynamicSize).takeRoute

/-- The loop of `expireDynamicRoutesLocked`, for a number of turns. -/
def expire (now : ℕ) :
    ℕ → RouteTable FlowKey FragmentKey Owner → RouteTable FlowKey FragmentKey Owner
  | 0, table => table
  | turns + 1, table =>
    match table.dynamicHead with
    | none => table
    | some route =>
      if now < (table.heap route).content.expires then
        table
      else
        let table := table.removeDynamicRoute route
        expire now turns { table with routeStats :=
          { table.routeStats with expiredRoutes := table.routeStats.expiredRoutes + 1 } }

/-- `expireDynamicRoutesLocked`; every turn of its loop makes the list shorter. -/
def expireDynamicRoutes (now : ℕ) : RouteTable FlowKey FragmentKey Owner :=
  table.expire now table.dynamicSize

/-- The loop of `removeDynamicRoutesForOwnerLocked`, for a number of turns. -/
def removeOwned (owner : Owner) :
    ℕ → Option Ref → RouteTable FlowKey FragmentKey Owner → RouteTable FlowKey FragmentKey Owner
  | 0, _, table => table
  | _ + 1, none, table => table
  | turns + 1, some route, table =>
    let next := (table.heap route).next
    let table :=
      if (table.heap route).content.owner = some owner then
        table.removeDynamicRoute route
      else
        table
    removeOwned owner turns next table

/-- `removeDynamicRoutesForOwnerLocked`; a turn for every route of the list. -/
def removeDynamicRoutesForOwner (owner : Owner) : RouteTable FlowKey FragmentKey Owner :=
  table.removeOwned owner table.dynamicSize table.dynamicHead

def clearDynamicRoutes : RouteTable FlowKey FragmentKey Owner :=
  { table with
    flows := ∅
    fragments := ∅
    dynamicHead := none
    dynamicTail := none
    dynamicFree := none
    dynamicSize := 0 }

def writeRoute
    (content : DynamicRoute FlowKey FragmentKey Owner) : RouteTable FlowKey FragmentKey Owner :=
  { table with heap := table.heap.set route ⟨content, none, none⟩ }

def mapRoute : RouteKey FlowKey FragmentKey → RouteTable FlowKey FragmentKey Owner
  | .flow key => { table with flows := table.flows.insert key route }
  | .fragment key => { table with fragments := table.fragments.insert key route }

/-- The code that `rememberFlowLocked` and `rememberInboundFragmentLocked` have for a new key. -/
def insertRoute (key : RouteKey FlowKey FragmentKey)
    (owner : Owner) (now : ℕ) : RouteTable FlowKey FragmentKey Owner :=
  let (route, table) := table.newDynamicRoute
  let table := table.writeRoute route ⟨some owner, now + table.flowTimeout, key⟩
  (table.addDynamicRoute route).mapRoute route key

def rememberFlow (key : FlowKey) (owner : Owner) (now : ℕ) : RouteTable FlowKey FragmentKey Owner :=
  match table.flows.lookup key with
  | some route =>
    if (table.heap route).content.owner ≠ some owner then
      { table with routeStats :=
        { table.routeStats with flowCollisions := table.routeStats.flowCollisions + 1 } }
    else
      table.touchDynamicRoute route now
  | none => table.insertRoute (.flow key) owner now

def setOwner (owner : Owner) : RouteTable FlowKey FragmentKey Owner :=
  let node := table.heap route
  let heap := table.heap.set route
    { node with content := { node.content with owner := some owner } }
  { table with heap := heap }

/-- The part of `rememberInboundFragmentLocked` behind its tests of the packet. -/
def rememberFragment (key : FragmentKey)
    (owner : Owner) (now : ℕ) : RouteTable FlowKey FragmentKey Owner :=
  match table.fragments.lookup key with
  | some route => (table.setOwner route owner).touchDynamicRoute route now
  | none => table.insertRoute (.fragment key) owner now

def leased (lease : Lease (RouteKey FlowKey FragmentKey) Owner) :
    DynamicRoute FlowKey FragmentKey Owner where
  owner := some lease.owner
  expires := lease.expires
  key := lease.key

structure Linked (table : RouteTable FlowKey FragmentKey Owner) (refs free : List Ref) : Prop where
  segment : Segment table.heap none refs none
  head : table.dynamicHead = refs.head?
  tail : table.dynamicTail = refs.getLast?
  chain : Chain table.heap table.dynamicFree free
  nodup : (refs ++ free).Nodup
  allocated : ∀ ref ∈ refs ++ free, ref < table.allocated
  size : table.dynamicSize = refs.length

def lookup : RouteKey FlowKey FragmentKey → Option Ref
  | .flow key => table.flows.lookup key
  | .fragment key => table.fragments.lookup key

structure Represents (table : RouteTable FlowKey FragmentKey Owner)
    (leases : RecencyTable (RouteKey FlowKey FragmentKey) Owner) (refs free : List Ref) : Prop where
  linked : table.Linked refs free
  contents : refs.map (fun ref => (table.heap ref).content) = leases.map leased
  mapped : ∀ key ref, table.lookup key = some ref ↔
    ref ∈ refs ∧ (table.heap ref).content.key = key

theorem represents_new (flowTimeout flowLimit : ℕ) :
    (new flowTimeout flowLimit : RouteTable FlowKey FragmentKey Owner).Represents [] [] [] where
  linked := ⟨trivial, rfl, rfl, rfl, nodup_nil, by simp, rfl⟩
  contents := rfl
  mapped key ref := by cases key <;> simp [new, lookup]

variable {table} {leases : RecencyTable (RouteKey FlowKey FragmentKey) Owner} {refs free : List Ref}

section

variable (represents : table.Represents leases refs free)

include represents

theorem Represents.keys :
    refs.map (fun ref => (table.heap ref).content.key) = leases.map Lease.key := by
  have keys := congrArg (List.map DynamicRoute.key) represents.contents
  simpa [Function.comp_def, leased] using keys

theorem Represents.length :
    refs.length = leases.length := by
  simpa using congrArg List.length represents.contents

theorem Represents.size :
    table.dynamicSize = leases.length :=
  represents.linked.size.trans represents.length

theorem Represents.unique (distinct : (leases.map Lease.key).Nodup) {one other : Ref}
    (isOne : one ∈ refs) (isOther : other ∈ refs)
    (sameKey : (table.heap one).content.key = (table.heap other).content.key) : one = other := by
  rw [← represents.keys] at distinct
  exact inj_on_of_nodup_map distinct isOne isOther sameKey

end

variable {front back : RecencyTable (RouteKey FlowKey FragmentKey) Owner}
  {lease : Lease (RouteKey FlowKey FragmentKey) Owner} {frontRefs backRefs : List Ref} {ref : Ref}

theorem Represents.splitRefs
    (represents : table.Represents leases (frontRefs ++ ref :: backRefs) free) :
    ∃ front lease back, leases = front ++ lease :: back ∧ frontRefs.length = front.length := by
  have contents := represents.contents.symm
  rw [map_append, map_cons, map_eq_append_iff] at contents
  rcases contents with ⟨front, rest, rfl, sameFront, sameRest⟩
  rcases map_eq_cons_iff.mp sameRest with ⟨lease, back, rfl, _⟩
  exact ⟨front, lease, back, rfl, by simpa using (congrArg List.length sameFront).symm⟩

theorem Linked.outside (linked : table.Linked refs free) {one : Ref} (isFree : one ∈ free) :
    one ∉ refs :=
  fun isRef => (nodup_append.mp linked.nodup).2.2 one isRef one isFree rfl

variable (key : RouteKey FlowKey FragmentKey) (now : ℕ)

theorem forget_eq :
    table.forget key = { table with
      flows := (table.forget key).flows
      fragments := (table.forget key).fragments } := by
  cases key <;> rfl

theorem lookup_forget (key other : RouteKey FlowKey FragmentKey) :
    (table.forget key).lookup other = if other = key then none else table.lookup other := by
  split_ifs with same
  · subst same
    cases other <;> simp [forget, lookup]
  · cases key <;> cases other <;> simp_all [forget, lookup, AList.lookup_erase_ne]

theorem removed_eq (ref : Ref) : table.removeDynamicRoute ref = { table with
    flows := (table.removeDynamicRoute ref).flows
    fragments := (table.removeDynamicRoute ref).fragments
    dynamicHead := (table.removeDynamicRoute ref).dynamicHead
    dynamicTail := (table.removeDynamicRoute ref).dynamicTail
    dynamicSize := table.dynamicSize - 1
    heap := (table.removeDynamicRoute ref).heap
    dynamicFree := some ref } := by
  simp only [removeDynamicRoute]
  rw [forget_eq]

theorem touched_eq (ref : Ref) (now : ℕ) :
    table.touchDynamicRoute ref now = { table with
      heap := (table.touchDynamicRoute ref now).heap
      dynamicHead := (table.touchDynamicRoute ref now).dynamicHead
      dynamicTail := some ref } := by
  by_cases isTail : some ref = table.dynamicTail
  · have touched : table.touchDynamicRoute ref now = _ := if_pos isTail
    rw [touched, isTail]
  · have touched : table.touchDynamicRoute ref now = _ := if_neg isTail
    rw [touched]

theorem touched_content (ref one : Ref) (now : ℕ) :
    ((table.touchDynamicRoute ref now).heap one).content =
      if one = ref then { (table.heap ref).content with expires := now + table.flowTimeout }
      else (table.heap one).content := by
  by_cases isRef : one = ref
  · subst isRef
    simp only [touchDynamicRoute, if_true]
    split_ifs <;> simp
  · simp only [touchDynamicRoute, if_neg isRef]
    split_ifs <;> simp [isRef]

theorem moved_perm (frontRefs backRefs : List Ref) (ref : Ref) :
    (frontRefs ++ ref :: backRefs).Perm (frontRefs ++ backRefs ++ [ref]) :=
  perm_middle.trans (perm_append_singleton _ _).symm

section

variable (linked : table.Linked (frontRefs ++ ref :: backRefs) free)

include linked

theorem Linked.apart :
    ref ∉ frontRefs ++ backRefs ∧ ref ∉ free ∧ (frontRefs ++ ref :: backRefs).Nodup ∧
      (frontRefs ++ backRefs ++ ref :: free).Nodup := by
  have nodup := linked.nodup
  have moved :
      (frontRefs ++ ref :: backRefs ++ free).Perm (ref :: (frontRefs ++ backRefs ++ free)) :=
    perm_middle.append_right free
  have consed := nodup_cons.mp (nodup.perm moved)
  rw [mem_append, not_or] at consed
  refine ⟨consed.1.1, consed.1.2, (nodup_append.mp nodup).1, ?_⟩
  exact nodup.perm (moved.trans perm_middle.symm)

theorem removed_heap :
    (table.removeDynamicRoute ref).heap =
      ((table.heap.setNext frontRefs.getLast? backRefs.head?).setPrevious backRefs.head?
        frontRefs.getLast?).set ref ⟨zeroRoute, none, table.dynamicFree⟩ := by
  rcases linked.segment.node with ⟨before, behind⟩
  simp only [removeDynamicRoute]
  rw [forget_eq, before, behind]

theorem removed_content {other : Ref} (different : other ≠ ref) :
    ((table.removeDynamicRoute ref).heap other).content = (table.heap other).content := by
  rw [removed_heap linked, set_other _ different]
  simp

theorem Linked.remove :
    (table.removeDynamicRoute ref).Linked (frontRefs ++ backRefs) (ref :: free) := by
  rcases linked.apart with ⟨notOther, notFree, nodup, nextNodup⟩
  rcases linked.segment.node with ⟨before, behind⟩
  constructor
  · rw [removed_heap linked]
    refine Segment.frame ?_ (linked.segment.unlink nodup)
    intro one isOne
    exact set_other _ fun same => notOther (same ▸ isOne)
  · simp only [removeDynamicRoute]
    rw [forget_eq, before, behind]
    cases frontRefs with
    | nil => simp
    | cons first rest => simp [linked.head, getLast?_cons]
  · simp only [removeDynamicRoute]
    rw [forget_eq, before, behind]
    cases backRefs with
    | nil => simp
    | cons first rest => simp [linked.tail, getLast?_append, getLast?_cons]
  · refine ⟨rfl, ?_⟩
    rw [removed_heap linked, set_self]
    refine linked.chain.frame ?_
    intro one isFree
    have notRef : one ≠ ref := fun same => notFree (same ▸ isFree)
    have notLast : frontRefs.getLast? ≠ some one := fun isLast =>
      linked.outside isFree (mem_append_left _ (mem_of_getLast? isLast))
    rw [set_other _ notRef, setPrevious_next, setNext_other _ notLast]
  · exact nextNodup
  · intro one isOne
    rw [removed_eq]
    apply linked.allocated
    simp only [mem_append, mem_cons] at isOne ⊢
    tauto
  · have size := linked.size
    rw [removed_eq]
    simp only [length_append, length_cons] at size ⊢
    omega

theorem touched_segment :
    Segment (table.touchDynamicRoute ref now).heap none (frontRefs ++ backRefs ++ [ref]) none ∧
    (table.touchDynamicRoute ref now).dynamicHead = (frontRefs ++ backRefs ++ [ref]).head? ∧
    ∀ one ∈ free,
      ((table.touchDynamicRoute ref now).heap one).next = (table.heap one).next := by
  rcases linked.apart with ⟨notOther, notFree, nodup, _⟩
  rcases linked.segment.node with ⟨before, behind⟩
  rcases eq_nil_or_concat backRefs with rfl | ⟨middle, last, rfl⟩
  · -- the route is the last one already
    have isTail : some ref = table.dynamicTail := by simp [linked.tail]
    have touched : table.touchDynamicRoute ref now = _ := if_pos isTail
    simp only [touched, append_nil]
    refine ⟨linked.segment.congr ?_, linked.head, ?_⟩
    · intro one isOne
      by_cases isRef : one = ref
      · simp [isRef]
      · simp [isRef]
    · intro one isFree
      have notRef : one ≠ ref := fun same => notFree (same ▸ isFree)
      rw [set_other _ notRef]
  · have isLast : (frontRefs ++ middle.concat last).getLast? = some last := by simp
    have tail : table.dynamicTail = some last := by
      simp [linked.tail, getLast?_append, getLast?_cons]
    have lastNotRef : last ≠ ref := fun same => notOther (by simp [← same])
    have notTail : some ref ≠ table.dynamicTail := by
      rw [tail]
      exact fun same => lastNotRef (some.inj same).symm
    have touched : table.touchDynamicRoute ref now = _ := if_neg notTail
    have someRef {one : Ref} (notRef : one ≠ ref) : some ref ≠ some one :=
      fun same => notRef (some.inj same).symm
    simp only [touched, before, behind, tail]
    refine ⟨?_, ?_, ?_⟩
    · refine Segment.linkLast ?_ (linked.segment.unlink nodup) ?_ ?_ ?_
      · exact nodup.sublist (Sublist.append_left (sublist_cons_self _ _) _)
      · intro one isOne
        have notRef : one ≠ ref := fun same => notOther (same ▸ isOne)
        rw [isLast]
        apply setNext_congr
        rw [setNext_other _ (someRef notRef), setPrevious_other _ (someRef notRef)]
        apply setPrevious_congr
        apply setNext_congr
        exact set_other _ notRef
      · simp [setPrevious]
      · rw [setNext_other _ fun same => lastNotRef (some.inj same)]
        simp [setNext]
    · cases frontRefs with
      | nil => simp
      | cons first rest => simp [linked.head, getLast?_cons]
    · intro one isFree
      have notRef : one ≠ ref := fun same => notFree (same ▸ isFree)
      have notLast : some last ≠ some one := fun same =>
        linked.outside isFree (by simp [some.inj same])
      have notBefore : frontRefs.getLast? ≠ some one := fun isBefore =>
        linked.outside isFree (mem_append_left _ (mem_of_getLast? isBefore))
      rw [setNext_other _ notLast, setNext_other _ (someRef notRef),
        setPrevious_next, setPrevious_next, setNext_other _ notBefore,
        set_other _ notRef]

theorem Linked.touch :
    (table.touchDynamicRoute ref now).Linked (frontRefs ++ backRefs ++ [ref]) free := by
  rcases touched_segment now linked with ⟨segment, head, links⟩
  have moved := moved_perm frontRefs backRefs ref
  have touched := table.touched_eq ref now
  constructor
  · exact segment
  · exact head
  · rw [touched]
    simp
  · rw [touched]
    exact linked.chain.frame links
  · exact linked.nodup.perm (moved.append_right free)
  · intro one isOne
    rw [touched]
    exact linked.allocated one ((moved.append_right free).symm.subset isOne)
  · rw [touched, ← moved.length_eq]
    exact linked.size

end

theorem Represents.rearrange {other : RouteTable FlowKey FragmentKey Owner}
    {otherLeases : RecencyTable (RouteKey FlowKey FragmentKey) Owner}
    {otherRefs otherFree : List Ref}
    (represents : table.Represents leases refs free) (linked : other.Linked otherRefs otherFree)
    (moved : refs.Perm otherRefs) (sameMaps : other.lookup = table.lookup)
    (sameKeys : ∀ one, (other.heap one).content.key = (table.heap one).content.key)
    (contents : otherRefs.map (fun ref => (other.heap ref).content) = otherLeases.map leased) :
    other.Represents otherLeases otherRefs otherFree where
  linked := linked
  contents := contents
  mapped key ref := by rw [sameMaps, sameKeys, represents.mapped, moved.mem_iff]

section

variable
  (represents : table.Represents (front ++ lease :: back) (frontRefs ++ ref :: backRefs) free)
  (samePlace : frontRefs.length = front.length)

include represents samePlace

theorem Represents.aligned :
    frontRefs.map (fun ref => (table.heap ref).content) = front.map leased ∧
    (table.heap ref).content = leased lease ∧
    backRefs.map (fun ref => (table.heap ref).content) = back.map leased := by
  have contents := represents.contents
  rw [map_append, map_append, map_cons, map_cons] at contents
  rcases append_inj contents (by simpa using samePlace) with ⟨sameFront, sameRest⟩
  rcases cons_eq_cons.mp sameRest with ⟨same, sameBack⟩
  exact ⟨sameFront, same, sameBack⟩

theorem Represents.remove (distinct : ((front ++ lease :: back).map Lease.key).Nodup) :
    (table.removeDynamicRoute ref).Represents (front ++ back) (frontRefs ++ backRefs)
      (ref :: free) := by
  rcases represents.aligned samePlace with ⟨sameFront, same, sameBack⟩
  have linked := represents.linked
  rcases linked.apart with ⟨notOther, _, _, _⟩
  have kept {one : Ref} (isOne : one ∈ frontRefs ++ backRefs) :
      ((table.removeDynamicRoute ref).heap one).content = (table.heap one).content :=
    removed_content linked fun isRef => notOther (isRef ▸ isOne)
  refine ⟨linked.remove, ?_, ?_⟩
  · rw [map_congr_left fun one isOne => kept isOne, map_append, map_append,
      sameFront, sameBack]
  · intro key one
    have lookedUp : (table.removeDynamicRoute ref).lookup key =
        (table.forget (table.heap ref).content.key).lookup key := by
      cases key <;> rfl
    have keyOf : (table.heap ref).content.key = lease.key := by rw [same]; rfl
    rw [lookedUp, lookup_forget, keyOf]
    by_cases isKey : key = lease.key
    · rw [if_pos isKey]
      constructor
      · intro impossible
        cases impossible
      · rintro ⟨isOne, hasKey⟩
        rw [kept isOne, isKey, ← keyOf] at hasKey
        have isMember : one ∈ frontRefs ++ ref :: backRefs := by
          simp only [mem_append, mem_cons] at isOne ⊢
          tauto
        have isRef := represents.unique distinct isMember (by simp) hasKey
        exact absurd (isRef ▸ isOne) notOther
    · rw [if_neg isKey, represents.mapped]
      constructor
      · rintro ⟨isOne, hasKey⟩
        have notRef : one ≠ ref := by
          rintro rfl
          exact isKey (hasKey.symm.trans keyOf)
        have isOther : one ∈ frontRefs ++ backRefs := by
          simp only [mem_append, mem_cons] at isOne ⊢
          tauto
        exact ⟨isOther, by rw [kept isOther, hasKey]⟩
      · rintro ⟨isOne, hasKey⟩
        rw [kept isOne] at hasKey
        refine ⟨?_, hasKey⟩
        simp only [mem_append, mem_cons] at isOne ⊢
        tauto

theorem Represents.touch (now : ℕ) :
    (table.touchDynamicRoute ref now).Represents
      (front ++ back ++ [{ lease with expires := now + table.flowTimeout }])
      (frontRefs ++ backRefs ++ [ref]) free := by
  rcases represents.aligned samePlace with ⟨sameFront, same, sameBack⟩
  have linked := represents.linked
  rcases linked.apart with ⟨notOther, _, _, _⟩
  refine represents.rearrange (linked.touch now) (moved_perm _ _ _) ?_ ?_ ?_
  · funext key
    rw [touched_eq]
    cases key <;> rfl
  · intro one
    rw [touched_content]
    split_ifs with isRef
    · rw [isRef]
    · rfl
  · have kept : (frontRefs ++ backRefs).map
        (fun one => ((table.touchDynamicRoute ref now).heap one).content) =
        (frontRefs ++ backRefs).map (fun one => (table.heap one).content) := by
      refine map_congr_left fun one isOne => ?_
      have notRef : one ≠ ref := fun isRef => notOther (isRef ▸ isOne)
      rw [touched_content, if_neg notRef]
    rw [map_append, kept, map_append, sameFront, sameBack, map_singleton,
      touched_content, if_pos rfl, same, map_append, map_append, map_singleton]
    rfl

theorem Represents.setOwner (owner : Owner) :
    (table.setOwner ref owner).Represents (front ++ { lease with owner := owner } :: back)
      (frontRefs ++ ref :: backRefs) free := by
  rcases represents.aligned samePlace with ⟨sameFront, same, sameBack⟩
  have linked := represents.linked
  rcases linked.apart with ⟨notOther, notFree, _, _⟩
  have kept {one : Ref} (notRef : one ≠ ref) :
      (table.setOwner ref owner).heap one = table.heap one :=
    set_other _ notRef
  have keptAll {part : List Ref} (isPart : part ⊆ frontRefs ++ backRefs) :
      part.map (fun one => ((table.setOwner ref owner).heap one).content) =
        part.map (fun one => (table.heap one).content) := by
    refine map_congr_left fun one isOne => ?_
    have notRef : one ≠ ref := fun isRef => notOther (isRef ▸ isPart isOne)
    rw [kept notRef]
  refine represents.rearrange ⟨linked.segment.congr ?_, linked.head, linked.tail,
    linked.chain.frame ?_, linked.nodup, linked.allocated, linked.size⟩ (Perm.refl _) ?_ ?_ ?_
  · intro one _
    by_cases isRef : one = ref
    · subst isRef
      simp [RouteTable.setOwner]
    · rw [kept isRef]
      exact ⟨rfl, rfl⟩
  · intro one isFree
    have notRef : one ≠ ref := fun isRef => notFree (isRef ▸ isFree)
    rw [kept notRef]
  · funext key
    cases key <;> rfl
  · intro one
    by_cases isRef : one = ref
    · subst isRef
      simp [RouteTable.setOwner]
    · rw [kept isRef]
  · rw [map_append, map_cons, keptAll (subset_append_left _ _),
      keptAll (subset_append_right _ _), sameFront, sameBack, map_append, map_cons]
    simp [RouteTable.setOwner, same, leased]

end

theorem Linked.take (linked : table.Linked refs free) :
    ∃ rest, table.takeRoute.2.Linked refs rest ∧ table.takeRoute.1 ∉ refs ++ rest ∧
      table.takeRoute.1 < table.takeRoute.2.allocated := by
  have chain := linked.chain
  cases isFree : table.dynamicFree with
  | none =>
    rw [isFree] at chain
    rcases free with _ | ⟨first, rest⟩
    · simp only [takeRoute, isFree]
      refine ⟨[], ⟨linked.segment, linked.head, linked.tail, rfl, linked.nodup, ?_,
        linked.size⟩, ?_, Nat.lt_succ_self _⟩
      · exact fun one isOne => Nat.lt_succ_of_lt (linked.allocated one isOne)
      · exact fun isOne => lt_irrefl _ (linked.allocated _ isOne)
    · cases chain.1
  | some route =>
    rw [isFree] at chain
    rcases free with _ | ⟨first, rest⟩
    · cases chain
    · obtain rfl : route = first := some.inj chain.1
      simp only [takeRoute, isFree]
      have moved := linked.nodup.perm perm_middle
      refine ⟨rest, ⟨linked.segment, linked.head, linked.tail, chain.2,
        (nodup_cons.mp moved).2, ?_, linked.size⟩, (nodup_cons.mp moved).1, ?_⟩
      · intro one isOne
        refine linked.allocated one ?_
        simp only [mem_append, mem_cons] at isOne ⊢
        tauto
      · exact linked.allocated route (by simp)

theorem take_eq : table.takeRoute.2 = { table with
    allocated := table.takeRoute.2.allocated
    dynamicFree := table.takeRoute.2.dynamicFree } := by
  rw [takeRoute]
  split <;> rfl

theorem added_eq (ref : Ref) : table.addDynamicRoute ref = { table with
    heap := (table.addDynamicRoute ref).heap
    dynamicHead := (table.addDynamicRoute ref).dynamicHead
    dynamicTail := some ref
    dynamicSize := table.dynamicSize + 1 } := by
  cases isTail : table.dynamicTail <;> simp [addDynamicRoute, isTail]

theorem added_content (ref one : Ref) :
    ((table.addDynamicRoute ref).heap one).content = (table.heap one).content := by
  cases isTail : table.dynamicTail <;> simp [addDynamicRoute, isTail]

theorem Linked.add (linked : table.Linked refs free) (isNew : ref ∉ refs ++ free)
    (isAllocated : ref < table.allocated) (content : DynamicRoute FlowKey FragmentKey Owner) :
    ((table.writeRoute ref content).addDynamicRoute ref).Linked (refs ++ [ref]) free := by
  rw [mem_append, not_or] at isNew
  have kept {one : Ref} (notRef : one ≠ ref) :
      (table.writeRoute ref content).heap one = table.heap one := set_other _ notRef
  have someRef {one : Ref} (notRef : one ≠ ref) : some ref ≠ some one :=
    fun same => notRef (some.inj same).symm
  have refsNodup := (nodup_append.mp linked.nodup).1
  have notFree {one : Ref} (isFree : one ∈ free) : one ≠ ref := fun isRef =>
    isNew.2 (isRef ▸ isFree)
  have nodup : (refs ++ [ref] ++ free).Nodup := by
    rw [append_assoc]
    exact (nodup_cons.mpr ⟨by simpa using isNew, linked.nodup⟩).perm perm_middle.symm
  have allocated : ∀ one ∈ refs ++ [ref] ++ free, one < table.allocated := by
    intro one isOne
    by_cases isRef : one = ref
    · rw [isRef]
      exact isAllocated
    · refine linked.allocated one ?_
      simp only [mem_append, mem_singleton] at isOne ⊢
      tauto
  have size : table.dynamicSize + 1 = (refs ++ [ref]).length := by simp [linked.size]
  have head := linked.head
  have tail := linked.tail
  rcases eq_nil_or_concat refs with rfl | ⟨front, last, rfl⟩
  · -- the list was empty
    have isTail : (table.writeRoute ref content).dynamicTail = none := tail
    simp only [addDynamicRoute, isTail]
    refine ⟨⟨?_, ?_, trivial⟩, rfl, rfl, ?_, nodup, allocated, size⟩
    · simp [writeRoute]
    · simp [writeRoute]
    · exact linked.chain.frame fun one isFree => by rw [kept (notFree isFree)]
  · rw [concat_eq_append] at *
    have isLast : (front ++ [last]).getLast? = some last := by simp
    have lastNotRef : last ≠ ref := fun same => isNew.1 (by simp [← same])
    have isTail : (table.writeRoute ref content).dynamicTail = some last := tail.trans isLast
    simp only [addDynamicRoute, isTail]
    refine ⟨Segment.linkLast refsNodup linked.segment ?_ ?_ ?_, ?_, by simp, ?_, nodup, allocated,
      size⟩
    · intro one isOne
      have notRef : one ≠ ref := fun isRef => isNew.1 (isRef ▸ isOne)
      dsimp only
      rw [isLast, setPrevious_other _ (someRef notRef)]
      exact setNext_congr (kept notRef) _ _
    · simp [setPrevious]
    · rw [setPrevious_next, setNext_other _ fun same => lastNotRef (some.inj same)]
      simp [writeRoute]
    · exact head.trans (by cases front <;> simp)
    · refine linked.chain.frame fun one isFree => ?_
      have notLast : some last ≠ some one := fun same =>
        linked.outside isFree (by simp [some.inj same])
      rw [setPrevious_next, setNext_other _ notLast, kept (notFree isFree)]

theorem lookup_mapRoute (ref : Ref) (key other : RouteKey FlowKey FragmentKey) :
    (table.mapRoute ref key).lookup other = if other = key then some ref else table.lookup other := by
  split_ifs with same
  · subst same
    cases other <;> simp [mapRoute, lookup]
  · cases key <;> cases other <;> simp_all [mapRoute, lookup, AList.lookup_insert_ne]

/-- The code for a new key, behind the loop that makes room. -/
def placeRoute (key : RouteKey FlowKey FragmentKey)
    (owner : Owner) (now : ℕ) : RouteTable FlowKey FragmentKey Owner :=
  ((table.takeRoute.2.writeRoute table.takeRoute.1 ⟨some owner, now + table.flowTimeout, key⟩
    ).addDynamicRoute table.takeRoute.1).mapRoute table.takeRoute.1 key

theorem insertRoute_eq (owner : Owner) (now : ℕ) :
    table.insertRoute key owner now = (table.evict table.dynamicSize).placeRoute key owner now := by
  have sameTimeout : (table.evict table.dynamicSize).takeRoute.2.flowTimeout =
      (table.evict table.dynamicSize).flowTimeout := by rw [take_eq]
  simp [insertRoute, newDynamicRoute, placeRoute, sameTimeout]

theorem placed_content (owner : Owner) (now : ℕ) (one : Ref) :
    ((table.placeRoute key owner now).heap one).content =
      if one = table.takeRoute.1 then ⟨some owner, now + table.flowTimeout, key⟩
      else (table.heap one).content := by
  have sameHeap : (table.placeRoute key owner now).heap = ((table.takeRoute.2.writeRoute
      table.takeRoute.1 ⟨some owner, now + table.flowTimeout, key⟩).addDynamicRoute
        table.takeRoute.1).heap := by
    cases key <;> rfl
  rw [sameHeap, added_content]
  by_cases isRef : one = table.takeRoute.1
  · rw [if_pos isRef, isRef]
    simp [writeRoute]
  · rw [if_neg isRef]
    simp only [writeRoute]
    rw [set_other _ isRef, take_eq]

theorem placed_fields (owner : Owner) (now : ℕ) :
    (table.placeRoute key owner now).flowTimeout = table.flowTimeout ∧
    (table.placeRoute key owner now).flowLimit = table.flowLimit ∧
    (table.placeRoute key owner now).routeStats = table.routeStats := by
  have mapped (ref : Ref) (table : RouteTable FlowKey FragmentKey Owner) :
      (table.mapRoute ref key).flowTimeout = table.flowTimeout ∧
      (table.mapRoute ref key).flowLimit = table.flowLimit ∧
      (table.mapRoute ref key).routeStats = table.routeStats := by
    cases key <;> exact ⟨rfl, rfl, rfl⟩
  have timeout : table.takeRoute.2.flowTimeout = table.flowTimeout := by rw [take_eq]
  have limit : table.takeRoute.2.flowLimit = table.flowLimit := by rw [take_eq]
  have stats : table.takeRoute.2.routeStats = table.routeStats := by rw [take_eq]
  rw [placeRoute, added_eq]
  exact ⟨(mapped _ _).1.trans timeout, (mapped _ _).2.1.trans limit, (mapped _ _).2.2.trans stats⟩

theorem lookup_placeRoute (key other : RouteKey FlowKey FragmentKey) (owner : Owner) (now : ℕ) :
    (table.placeRoute key owner now).lookup other =
      if other = key then some table.takeRoute.1 else table.lookup other := by
  rw [placeRoute, lookup_mapRoute]
  rw [added_eq, writeRoute, take_eq]
  cases other <;> rfl

theorem Represents.place (represents : table.Represents leases refs free)
    {key : RouteKey FlowKey FragmentKey} (fresh : key ∉ leases.map Lease.key) (owner : Owner)
    (now : ℕ) :
    ∃ rest, (table.placeRoute key owner now).Represents
      (leases ++ [⟨key, owner, now + table.flowTimeout⟩]) (refs ++ [table.takeRoute.1]) rest := by
  rcases represents.linked.take with ⟨rest, linked, isNew, isAllocated⟩
  rw [mem_append, not_or] at isNew
  have kept {one : Ref} (isOne : one ∈ refs) :
      ((table.placeRoute key owner now).heap one).content = (table.heap one).content := by
    have notRef : one ≠ table.takeRoute.1 := fun isRef => isNew.1 (isRef ▸ isOne)
    rw [placed_content, if_neg notRef]
  have placed := linked.add (by simpa using isNew) isAllocated
    ⟨some owner, now + table.flowTimeout, key⟩
  refine ⟨rest, ?_, ?_, ?_⟩
  · cases key with
    | flow key | fragment key =>
      exact ⟨placed.segment, placed.head, placed.tail, placed.chain, placed.nodup,
        placed.allocated, placed.size⟩
  · rw [map_append, map_congr_left fun one isOne => kept isOne, represents.contents,
      map_singleton, placed_content, if_pos rfl, map_append, map_singleton]
    rfl
  · intro other one
    rw [lookup_placeRoute]
    have keysOfRefs : ∀ one ∈ refs, (table.heap one).content.key ≠ key := by
      intro one isOne isKey
      refine fresh ?_
      rw [← represents.keys, ← isKey]
      exact mem_map_of_mem isOne
    by_cases isRef : one = table.takeRoute.1
    · subst isRef
      rw [placed_content, if_pos rfl]
      by_cases isKey : other = key
      · simp [isKey]
      · rw [if_neg isKey, represents.mapped]
        constructor
        · exact fun found => absurd found.1 isNew.1
        · exact fun found => absurd found.2.symm isKey
    · rw [placed_content, if_neg isRef]
      have stays : one ∈ refs ++ [table.takeRoute.1] ↔ one ∈ refs := by simp [isRef]
      rw [stays]
      by_cases isKey : other = key
      · rw [if_pos isKey]
        constructor
        · exact fun found => absurd (some.inj found).symm isRef
        · exact fun found => absurd (found.2.trans isKey) (keysOfRefs one found.1)
      · rw [if_neg isKey, represents.mapped]

end RouteTable

end Model

end Gonnect.Tun
