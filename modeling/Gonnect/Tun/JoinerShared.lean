import Gonnect.Tun.JoinerModes

/-!
# The joiner routes by a table of leases

`JoinerSpec` decides from the leases that have not expired, and its log says how every
packet was routed. The joiner of the code simulates it, call by call, as long as the clock
does not go back.
-/

namespace Gonnect.Tun

open List Joiner RouteTable LeaseTable JoinerEvent

inductive Via where
  | fragment
  | flow
  | address
  | default
  | dropped
deriving DecidableEq

inductive Decision (Tun : Type) where
  | fragment (key : FragmentKey) (owner : Nested Tun)
  | flow (key : FlowKey) (owner : Nested Tun)
  | address (owner : Nested Tun)
  | default (owner : Nested Tun)
  | dropped

namespace Decision

variable {Tun : Type}

def via : Decision Tun → Via
  | .fragment _ _ => .fragment
  | .flow _ _ => .flow
  | .address _ => .address
  | .default _ => .default
  | .dropped => .dropped

def owner : Decision Tun → Option (Nested Tun)
  | .fragment _ owner => some owner
  | .flow _ owner => some owner
  | .address owner => some owner
  | .default owner => some owner
  | .dropped => none

end Decision

namespace RoutingStats

variable (stats : RoutingStats)

def counter : Via → ℕ
  | .fragment => stats.fragmentRoutes
  | .flow => stats.flowRoutes
  | .address => stats.addressFallbacks
  | .default => stats.defaultFallbacks
  | .dropped => stats.droppedFallbacks

def count : Via → RoutingStats
  | .fragment => stats.addFragmentRoute
  | .flow => stats.addFlowRoute
  | .address => stats.addAddressFallback
  | .default => stats.addDefaultFallback
  | .dropped => stats.addDroppedFallback

theorem counter_count (via other : Via) :
    (stats.count via).counter other = stats.counter other + if other = via then 1 else 0 := by
  cases via <;> cases other <;> rfl

end RoutingStats

section Spec

variable {Tun : Type} [DecidableEq Tun]

/-- The joiner with leases for its dynamic routes, and a log of what it decided. -/
structure JoinerSpec (Tun : Type) where
  frame : Frame Tun
  leases : LeaseTable (RouteKey FlowKey FragmentKey) (Nested Tun)
  log : List (Decision Tun)

def firstFragment : Option JoinerPacket → Option FragmentKey
  | none => none
  | some packet =>
    if packet.fragmented ∧ packet.fragmentOffset = 0 ∧ packet.moreFragments then
      some packet.joinerFragmentKey
    else
      none

def laterFragment : Option JoinerPacket → Option FragmentKey
  | none => none
  | some packet =>
    if packet.fragmented ∧ packet.fragmentOffset ≠ 0 then some packet.joinerFragmentKey else none

namespace JoinerSpec

def new (options : JoinerOptions) (spawned : Bool) : JoinerSpec Tun where
  frame := .new options spawned
  leases := ⟨(normalizeJoinerOptions options).1, (normalizeJoinerOptions options).2, [], {}⟩
  log := []

variable (spec : JoinerSpec Tun) (parsed : Option JoinerPacket)

def byFragment (now : ℕ) : Option (Decision Tun) := do
  let key ← laterFragment parsed
  let lease ← spec.leases.holder (.fragment key) now
  some (.fragment key lease.owner)

def byFlow (now : ℕ) : Option (Decision Tun) := do
  let packet ← parsed
  let key ← joinerInboundFlowKey packet
  let lease ← spec.leases.holder (.flow key) now
  some (.flow key lease.owner)

def byAddress (buf : List UInt8)
    (offset : ℕ) : Option (Decision Tun) :=
  (spec.frame.addressRoute parsed buf offset).map .address

def byDefault : Option (Decision Tun) :=
  spec.frame.defaultTun.map .default

def decision (buf : List UInt8) (offset now : ℕ) : Decision Tun :=
  let parsed := parseJoinerPacket buf offset
  ((spec.byFragment parsed now).or <| (spec.byFlow parsed now).or <|
    (spec.byAddress parsed buf offset).or spec.byDefault).getD .dropped

end JoinerSpec

namespace LeaseTable

variable (leases : LeaseTable (RouteKey FlowKey FragmentKey) (Nested Tun))

def refresh (now : ℕ) :
    Decision Tun → LeaseTable (RouteKey FlowKey FragmentKey) (Nested Tun)
  | .fragment key owner => leases.renew (.fragment key) owner now
  | .flow key owner => leases.renew (.flow key) owner now
  | .address _ => leases
  | .default _ => leases
  | .dropped => leases

def adopt (now : ℕ)
    (first : Option FragmentKey) (owner : Option (Nested Tun)) :
    LeaseTable (RouteKey FlowKey FragmentKey) (Nested Tun) :=
  match first, owner with
  | some key, some owner => leases.takeOver (.fragment key) owner now
  | _, _ => leases

def count {Key Owner : Type} (leases : LeaseTable Key Owner) (via : Via) : LeaseTable Key Owner :=
  { leases with stats := leases.stats.count via }

end LeaseTable

namespace JoinerSpec

variable (spec : JoinerSpec Tun)

def route (buf : List UInt8) (offset now : ℕ) : Option (Nested Tun) × JoinerSpec Tun :=
  let decision := spec.decision buf offset now
  (decision.owner, { spec with
    leases := ((spec.leases.refresh now decision).adopt now
      (firstFragment (parseJoinerPacket buf offset)) decision.owner).count decision.via
    log := spec.log ++ [decision] })

def routeAll (offset now : ℕ) :
    List (List UInt8) → JoinerSpec Tun → List (Option (Nested Tun)) × JoinerSpec Tun
  | [], spec => ([], spec)
  | buf :: bufs, spec =>
    let (target, spec) := spec.route buf offset now
    let (targets, spec) := routeAll offset now bufs spec
    (target :: targets, spec)

def expire (now : ℕ) : JoinerSpec Tun :=
  { spec with leases := spec.leases.expire now }

/-- An outgoing packet teaches the address of its sender and the flow of its replies. -/
def rememberRoute (owner : Nested Tun) (now : ℕ) (spec : JoinerSpec Tun) (packet : List UInt8) :
    JoinerSpec Tun :=
  match parseJoinerPacket packet 0 with
  | some parsed =>
    { spec with
      frame := spec.frame.rememberParsedSourceRoute parsed owner
      leases :=
        match joinerReverseFlowKey parsed with
        | some key => spec.leases.claim (.flow key) owner now
        | none => spec.leases }
  | none => { spec with frame := spec.frame.rememberPacketSourceRoute packet owner }

def rememberRoutes (packets : List (List UInt8)) (owner : Nested Tun) (now : ℕ) : JoinerSpec Tun :=
  if spec.frame.nested owner.t ≠ some owner then spec
  else packets.foldl (rememberRoute owner now) (spec.expire now)

def reframe (changed : Frame Tun × Option (Nested Tun)) : JoinerSpec Tun :=
  { spec with
    frame := changed.1
    leases :=
      match changed.2 with
      | none => spec.leases
      | some n => spec.leases.release n }

def change (changed : Except JoinerError (Frame Tun × Option (Nested Tun))) :
    JoinerAnswer Tun × JoinerSpec Tun :=
  match changed with
  | .error error => (.finished (.error error), spec)
  | .ok changed => (.finished (.ok ()), spec.reframe changed)

def step : JoinerEvent Tun → JoinerAnswer Tun × JoinerSpec Tun
  | .learn packets owner now => (.finished (.ok ()), spec.rememberRoutes packets owner now)
  | .write bufs offset now =>
    match spec.frame.acceptsWrite bufs offset with
    | .error error => (.finished (.error error), spec)
    | .ok () =>
      if bufs = [] then
        (.routed [], spec)
      else
        let (targets, spec) := routeAll offset.toNat now bufs (spec.expire now)
        (.routed targets, spec)
  | .attachDefault t => spec.change (spec.frame.attachDefault t)
  | .attachSecondary t => spec.change (spec.frame.attachSecondary t)
  | .detach t => spec.change (spec.frame.detach t)
  | .detachDefault => spec.change spec.frame.detachDefault
  | .detachNested n => (.finished (.ok ()), spec.reframe (spec.frame.detachNested n))
  | .close => (.finished (.ok ()), ⟨spec.frame.close, spec.leases.clear, spec.log⟩)
  | .routingStats now =>
    let spec := if spec.frame.closed then spec else spec.expire now
    (.stats spec.leases.stats
      (spec.leases.leases.filter fun lease => lease.key.isFlow).length
      (spec.leases.leases.filter fun lease => !lease.key.isFlow).length, spec)

def run : JoinerSpec Tun → List (JoinerEvent Tun) → List (JoinerAnswer Tun) × JoinerSpec Tun
  | spec, [] => ([], spec)
  | spec, event :: events =>
    let (answer, spec) := spec.step event
    let (answers, spec) := spec.run events
    (answer :: answers, spec)

end JoinerSpec

namespace LeaseTable

section Counters

variable {Key Owner : Type} [DecidableEq Key] [DecidableEq Owner] {leases : LeaseTable Key Owner}
  {via : Via} {now : ℕ}

def Alike (leases after : LeaseTable Key Owner) : Prop :=
  after.timeout = leases.timeout ∧ ∀ via, after.stats.counter via = leases.stats.counter via

omit [DecidableEq Key] [DecidableEq Owner] in
theorem alike_expire : leases.Alike (leases.expire now) :=
  ⟨rfl, fun via => by cases via <;> rfl⟩

variable (key : Key) (owner : Owner)

omit [DecidableEq Key] [DecidableEq Owner] in
theorem alike_insert : leases.Alike (leases.insert key owner now) :=
  ⟨rfl, fun via => by cases via <;> rfl⟩

theorem alike_claim : leases.Alike (leases.claim key owner now) := by
  rw [claim]
  split
  · split_ifs
    · exact ⟨rfl, fun via => by cases via <;> rfl⟩
    · exact ⟨rfl, fun _ => rfl⟩
  · exact alike_insert key owner

omit [DecidableEq Owner] in
theorem alike_takeOver : leases.Alike (leases.takeOver key owner now) := by
  rw [takeOver]
  split
  · exact ⟨rfl, fun _ => rfl⟩
  · exact alike_insert key owner

omit [DecidableEq Owner] in
theorem takeOver_count :
    (leases.count via).takeOver key owner now = (leases.takeOver key owner now).count via := by
  have sameHolder : (leases.count via).holder key now = leases.holder key now := rfl
  rw [takeOver, takeOver, sameHolder]
  cases leases.holder key now with
  | none => cases via <;> rfl
  | some lease => rfl

end Counters

variable {leases : LeaseTable (RouteKey FlowKey FragmentKey) (Nested Tun)} {now : ℕ}

omit [DecidableEq Tun] in
theorem alike_refresh (decision : Decision Tun) : leases.Alike (leases.refresh now decision) := by
  cases decision <;> exact ⟨rfl, fun _ => rfl⟩

omit [DecidableEq Tun] in
theorem alike_adopt (first : Option FragmentKey) (owner : Option (Nested Tun)) :
    leases.Alike (leases.adopt now first owner) := by
  cases first with
  | none => exact ⟨rfl, fun _ => rfl⟩
  | some key =>
    cases owner with
    | none => exact ⟨rfl, fun _ => rfl⟩
    | some owner => exact alike_takeOver _ _

theorem AllLive.refresh (allLive : leases.AllLive now) (positive : 0 < leases.timeout)
    (decision : Decision Tun) : (leases.refresh now decision).AllLive now := by
  cases decision with
  | fragment key owner | flow key owner => exact allLive.renew positive _ _
  | address owner | default owner | dropped => exact allLive

theorem AllLive.adopt (allLive : leases.AllLive now) (positive : 0 < leases.timeout)
    (first : Option FragmentKey) (owner : Option (Nested Tun)) :
    (leases.adopt now first owner).AllLive now := by
  cases first with
  | none => exact allLive
  | some key =>
    cases owner with
    | none => exact allLive
    | some owner => exact allLive.takeOver positive _ _

end LeaseTable

namespace RouteTable

variable {table : RouteTable FlowKey FragmentKey (Nested Tun)}
  {leases : LeaseTable (RouteKey FlowKey FragmentKey) (Nested Tun)} {now : ℕ}
  {parsed : Option JoinerPacket} {owner : Nested Tun}

theorem Refines.count (refines : table.Refines leases now) (via : Via) :
    { table with routeStats := table.routeStats.count via }.Refines (leases.count via) now := by
  have counted := refines.restat (table.routeStats.count via)
  rw [refines.stats] at counted ⊢
  exact counted

omit [DecidableEq Tun] in
theorem fragmentRoute_eq : table.fragmentRoute parsed =
    (laterFragment parsed).bind fun key => table.lookup (.fragment key) := by
  cases parsed with
  | none => rfl
  | some packet =>
    by_cases isLater : packet.fragmented ∧ packet.fragmentOffset ≠ 0
    · simp only [fragmentRoute, laterFragment, if_pos isLater]
      rfl
    · simp only [fragmentRoute, laterFragment, if_neg isLater]
      rfl

omit [DecidableEq Tun] in
theorem flowRoute_eq : table.flowRoute parsed =
    (parsed.bind joinerInboundFlowKey).bind fun key => table.lookup (.flow key) := by
  rw [flowRoute]
  split
  · rename_i key isKey
    rw [isKey]
    rfl
  · rename_i noKey
    rw [noKey]
    rfl

theorem firstFragment_of_later {key : FragmentKey} (isLater : laterFragment parsed = some key) :
    firstFragment parsed = none := by
  cases parsed with
  | none => rfl
  | some packet =>
    by_cases later : packet.fragmented ∧ packet.fragmentOffset ≠ 0
    · have notFirst : ¬(packet.fragmented ∧ packet.fragmentOffset = 0 ∧ packet.moreFragments) :=
        fun first => later.2 first.2.1
      simp [firstFragment, if_neg notFirst]
    · simp only [laterFragment, if_neg later] at isLater
      cases isLater

omit [DecidableEq Tun] in
theorem rememberInboundFragment_eq :
    table.rememberInboundFragment (parsed.getD {}) (some owner) now =
      match firstFragment parsed with
      | some key => table.rememberFragment key owner now
      | none => table := by
  cases parsed with
  | none => rfl
  | some packet =>
    by_cases isFirst : packet.fragmented ∧ packet.fragmentOffset = 0 ∧ packet.moreFragments
    · simp [rememberInboundFragment, firstFragment, isFirst]
    · have isOther : ¬packet.fragmented ∨ packet.fragmentOffset ≠ 0 ∨ ¬packet.moreFragments := by
        tauto
      simp only [rememberInboundFragment, firstFragment, if_neg isFirst, Option.getD_some,
        if_pos isOther]

theorem Refines.rememberInboundFragment (refines : table.Refines leases now)
    (allLive : leases.AllLive now) (parsed : Option JoinerPacket) (owner : Nested Tun) :
    (table.rememberInboundFragment (parsed.getD {}) (some owner) now).Refines
      (leases.adopt now (firstFragment parsed) (some owner)) now := by
  rw [rememberInboundFragment_eq]
  cases firstFragment parsed with
  | none => exact refines
  | some key => exact refines.rememberFragment allLive key owner

theorem Refines.rememberInboundFragment_owner (refines : table.Refines leases now)
    {one : Ref} (isOwner : (table.heap one).content.owner = some owner) :
    ((table.rememberInboundFragment (parsed.getD {}) (some owner) now).heap one).content.owner =
      some owner := by
  rw [rememberInboundFragment_eq]
  cases firstFragment parsed with
  | none => exact isOwner
  | some key => exact refines.rememberFragment_owner isOwner key

theorem touched_owner (table : RouteTable FlowKey FragmentKey (Nested Tun)) (ref : Ref) (now : ℕ) :
    ((table.touchDynamicRoute ref now).heap ref).content.owner =
      (table.heap ref).content.owner := by
  rw [touched_content, if_pos rfl]

end RouteTable

/-- The joiner of the code is the joiner over leases, at this time. -/
structure Joiner.Simulates (joiner : Joiner Tun) (spec : JoinerSpec Tun) (now : ℕ) : Prop where
  frame : joiner.frame = spec.frame
  refines : joiner.table.Refines spec.leases now
  shared : spec.frame.flowRouting = true
  positive : 0 < spec.leases.timeout
  counted : ∀ via, spec.leases.stats.counter via =
    spec.log.countP fun decision => via = decision.via

namespace Joiner.Simulates

variable {joiner : Joiner Tun} {spec : JoinerSpec Tun} {now : ℕ}
  {parsed : Option JoinerPacket} {ref : Ref}

variable {key : RouteKey FlowKey FragmentKey}

section

variable (simulates : joiner.Simulates spec now) (allLive : spec.leases.AllLive now)

include simulates allLive

theorem held (lookedUp : joiner.table.lookup key = some ref) :
    ∃ lease, spec.leases.holder key now = some lease ∧
      (joiner.table.heap ref).content.owner = some lease.owner := by
  rcases simulates.refines.found lookedUp with ⟨lease, found, _, same⟩
  refine ⟨lease, (holder_eq_find allLive key).trans found, ?_⟩
  rw [same]
  rfl

theorem notHeld (absent : joiner.table.lookup key = none) : spec.leases.holder key now = none :=
  (holder_eq_find allLive key).trans (simulates.refines.absent absent)

open JoinerSpec

open Option

theorem byFragment_some (isRoute : joiner.table.fragmentRoute parsed = some ref) :
    ∃ key owner, laterFragment parsed = some key ∧
      joiner.table.lookup (.fragment key) = some ref ∧
      (joiner.table.heap ref).content.owner = some owner ∧
      spec.byFragment parsed now = some (.fragment key owner) := by
  rw [fragmentRoute_eq] at isRoute
  rcases bind_eq_some_iff.mp isRoute with ⟨key, isLater, lookedUp⟩
  rcases simulates.held allLive lookedUp with ⟨lease, isHolder, isOwner⟩
  refine ⟨key, lease.owner, isLater, lookedUp, isOwner, ?_⟩
  simp [byFragment, isLater, isHolder]

theorem byFragment_none (noRoute : joiner.table.fragmentRoute parsed = none) :
    spec.byFragment parsed now = none := by
  rw [fragmentRoute_eq] at noRoute
  cases isLater : laterFragment parsed with
  | none => simp [byFragment, isLater]
  | some key =>
    simp only [isLater, bind_some] at noRoute
    simp [byFragment, isLater, simulates.notHeld allLive noRoute]

theorem byFlow_some (isRoute : joiner.table.flowRoute parsed = some ref) :
    ∃ key owner, joiner.table.lookup (.flow key) = some ref ∧
      (joiner.table.heap ref).content.owner = some owner ∧
      spec.byFlow parsed now = some (.flow key owner) := by
  rw [flowRoute_eq] at isRoute
  rcases bind_eq_some_iff.mp isRoute with ⟨key, isKey, lookedUp⟩
  rcases bind_eq_some_iff.mp isKey with ⟨packet, rfl, hasKey⟩
  rcases simulates.held allLive lookedUp with ⟨lease, isHolder, isOwner⟩
  refine ⟨key, lease.owner, lookedUp, isOwner, ?_⟩
  simp [byFlow, hasKey, isHolder]

theorem byFlow_none (noRoute : joiner.table.flowRoute parsed = none) :
    spec.byFlow parsed now = none := by
  rw [flowRoute_eq] at noRoute
  cases parsed with
  | none => rfl
  | some packet =>
    cases isKey : joinerInboundFlowKey packet with
    | none => simp [byFlow, isKey]
    | some key =>
      simp only [bind_some, isKey] at noRoute
      simp [JoinerSpec.byFlow, isKey, simulates.notHeld allLive noRoute]

theorem fallback (parsed : Option JoinerPacket) (owner : Nested Tun) (via : Via) :
    ({ joiner.table with routeStats := joiner.table.routeStats.count via
      }.rememberInboundFragment (parsed.getD {}) (some owner) now).Refines
      ((spec.leases.adopt now (firstFragment parsed) (some owner)).count via) now := by
  have counted := simulates.refines.count via
  have remembered := counted.rememberInboundFragment allLive parsed owner
  cases isFirst : firstFragment parsed with
  | none =>
    rw [isFirst] at remembered
    exact remembered
  | some key =>
    rw [isFirst] at remembered
    simp only [adopt] at remembered ⊢
    rwa [LeaseTable.takeOver_count] at remembered

theorem routeSharedAddress (buf : List UInt8) (offset : ℕ) :
    (joiner.routeSharedAddress buf offset now).1 = (spec.route buf offset now).1 ∧
    (joiner.routeSharedAddress buf offset now).2.frame = spec.frame ∧
    (joiner.routeSharedAddress buf offset now).2.table.Refines
      (spec.route buf offset now).2.leases now := by
  have refines := simulates.refines
  have frame := simulates.frame
  simp only [Joiner.routeSharedAddress, JoinerSpec.route, JoinerSpec.decision]
  generalize parseJoinerPacket buf offset = parsed
  cases isFragment : joiner.table.fragmentRoute parsed with
  | some ref =>
    rcases simulates.byFragment_some allLive isFragment with
      ⟨key, owner, isLater, lookedUp, isOwner, decided⟩
    have touched := refines.touch lookedUp isOwner
    simp only [decided, some_or, getD_some, firstFragment_of_later isLater]
    exact ⟨(touched_owner _ _ _).trans isOwner, frame, touched.count .fragment⟩
  | none =>
    simp only [simulates.byFragment_none allLive isFragment, none_or]
    cases isFlow : joiner.table.flowRoute parsed with
    | some ref =>
      rcases simulates.byFlow_some allLive isFlow with ⟨key, owner, lookedUp, isOwner, decided⟩
      have touched := refines.touch lookedUp isOwner
      have stillOwner := (touched_owner joiner.table ref now).trans isOwner
      have stillLive := allLive.renew simulates.positive (.flow key) owner
      simp only [decided, some_or, getD_some, stillOwner]
      exact ⟨touched.rememberInboundFragment_owner stillOwner, frame,
        (touched.rememberInboundFragment stillLive parsed owner).count .flow⟩
    | none =>
      simp only [simulates.byFlow_none allLive isFlow, none_or, JoinerSpec.byAddress, frame]
      cases spec.frame.addressRoute parsed buf offset with
      | some owner => exact ⟨rfl, rfl, simulates.fallback allLive parsed owner .address⟩
      | none =>
        simp only [JoinerSpec.byDefault, map_none, none_or]
        cases spec.frame.defaultTun with
        | some owner => exact ⟨rfl, rfl, simulates.fallback allLive parsed owner .default⟩
        | none =>
          refine ⟨rfl, rfl, ?_⟩
          have dropped := refines.count .dropped
          cases firstFragment parsed <;> exact dropped

theorem route (buf : List UInt8) (offset : ℕ) :
    (joiner.route buf offset now).1 = (spec.route buf offset now).1 ∧
    (joiner.route buf offset now).2.Simulates (spec.route buf offset now).2 now ∧
    (spec.route buf offset now).2.leases.AllLive now := by
  have shared : joiner.frame.flowRouting = true := by rw [simulates.frame, simulates.shared]
  rcases simulates.routeSharedAddress allLive buf offset with ⟨sameTarget, frame, refines⟩
  rw [Joiner.route, if_pos shared]
  have refreshed := @LeaseTable.alike_refresh _ spec.leases now (spec.decision buf offset now)
  have adopted := @LeaseTable.alike_adopt _ (spec.leases.refresh now (spec.decision buf offset now))
    now (firstFragment (parseJoinerPacket buf offset)) (spec.decision buf offset now).owner
  have positive : 0 < (spec.leases.refresh now (spec.decision buf offset now)).timeout :=
    refreshed.1 ▸ simulates.positive
  refine ⟨sameTarget, ⟨frame, refines, simulates.shared, adopted.1 ▸ positive, ?_⟩,
    (allLive.refresh simulates.positive _).adopt positive _ _⟩
  intro via
  simp [JoinerSpec.route, LeaseTable.count, RoutingStats.counter_count, adopted.2, refreshed.2,
    simulates.counted]

theorem rememberRoute (owner : Nested Tun) (packet : List UInt8) :
    (rememberRoute owner now joiner packet).Simulates
      (JoinerSpec.rememberRoute owner now spec packet) now ∧
    (JoinerSpec.rememberRoute owner now spec packet).leases.AllLive now := by
  have stillShared := @Joiner.flowRouting_rememberRoute _ _ joiner now owner packet
  simp only [Joiner.rememberRoute, JoinerSpec.rememberRoute, simulates.frame, simulates.shared,
    if_true] at stillShared ⊢
  generalize parseJoinerPacket packet 0 = parsed at stillShared ⊢
  cases parsed with
  | none =>
    exact ⟨⟨rfl, simulates.refines, stillShared, simulates.positive, simulates.counted⟩, allLive⟩
  | some parsed =>
    dsimp only at stillShared ⊢
    generalize joinerReverseFlowKey parsed = key at stillShared ⊢
    cases key with
    | none =>
      exact ⟨⟨rfl, simulates.refines, stillShared, simulates.positive, simulates.counted⟩, allLive⟩
    | some key =>
      have alike := @LeaseTable.alike_claim _ _ _ _ spec.leases now (.flow key) owner
      exact ⟨⟨rfl, simulates.refines.rememberFlow allLive key owner, stillShared,
        alike.1 ▸ simulates.positive, fun via => (alike.2 via).trans (simulates.counted via)⟩,
        allLive.claim simulates.positive _ _⟩

end

theorem routeAll (offset : ℕ) (bufs : List (List UInt8)) :
    ∀ {joiner : Joiner Tun} {spec : JoinerSpec Tun}, joiner.Simulates spec now →
      spec.leases.AllLive now →
      (routeAll offset now bufs joiner).1 = (JoinerSpec.routeAll offset now bufs spec).1 ∧
      (routeAll offset now bufs joiner).2.Simulates
        (JoinerSpec.routeAll offset now bufs spec).2 now := by
  induction bufs with
  | nil => exact fun simulates _ => ⟨rfl, simulates⟩
  | cons buf bufs ih =>
    intro joiner spec simulates allLive
    rcases simulates.route allLive buf offset with ⟨sameTarget, next, stillLive⟩
    rcases ih next stillLive with ⟨sameTargets, last⟩
    exact ⟨congrArg₂ List.cons sameTarget sameTargets, last⟩

theorem rememberAll (owner : Nested Tun) (packets : List (List UInt8)) :
    ∀ {joiner : Joiner Tun} {spec : JoinerSpec Tun}, joiner.Simulates spec now →
      spec.leases.AllLive now →
      (packets.foldl (Joiner.rememberRoute owner now) joiner).Simulates
        (packets.foldl (JoinerSpec.rememberRoute owner now) spec) now := by
  induction packets with
  | nil => exact fun simulates _ => simulates
  | cons packet packets ih =>
    intro joiner spec simulates allLive
    rcases simulates.rememberRoute allLive owner packet with ⟨next, stillLive⟩
    exact ih next stillLive

section

variable (simulates : joiner.Simulates spec now)

include simulates

theorem later {next : ℕ} (passed : now ≤ next) :
    joiner.Simulates spec next :=
  { simulates with refines := simulates.refines.later passed }

theorem expire :
    (joiner.expire now).Simulates (spec.expire now) now := by
  have shared : joiner.frame.flowRouting = true := by rw [simulates.frame, simulates.shared]
  rw [Joiner.expire, if_pos shared]
  exact ⟨simulates.frame, simulates.refines.expire, simulates.shared, simulates.positive,
    fun via => (alike_expire.2 via).trans (simulates.counted via)⟩

theorem rememberRoutes (packets : List (List UInt8)) (owner : Nested Tun) :
    (joiner.rememberRoutes packets owner now).Simulates (spec.rememberRoutes packets owner now)
      now := by
  rw [Joiner.rememberRoutes, JoinerSpec.rememberRoutes, simulates.frame]
  split_ifs
  · exact simulates
  · exact simulates.expire.rememberAll owner packets (allLive_expire _ _)

theorem reframe {changed : Frame Tun × Option (Nested Tun)}
    (shared : changed.1.flowRouting = true) :
    (joiner.reframe changed).Simulates (spec.reframe changed) now := by
  rcases changed with ⟨frame, removed⟩
  cases removed with
  | none => exact ⟨rfl, simulates.refines, shared, simulates.positive, simulates.counted⟩
  | some n =>
    exact ⟨rfl, simulates.refines.release n, shared, simulates.positive, simulates.counted⟩

theorem change {changed : Except JoinerError (Frame Tun × Option (Nested Tun))}
    (shared : (joiner.change changed).2.frame.flowRouting = true) :
    (joiner.change changed).1 = (spec.change changed).1 ∧
    (joiner.change changed).2.Simulates (spec.change changed).2 now := by
  cases changed with
  | error error => exact ⟨rfl, simulates⟩
  | ok next => exact ⟨rfl, simulates.reframe shared⟩

end

end Joiner.Simulates

def JoinerEvent.time? : JoinerEvent Tun → Option ℕ
  | .learn _ _ now => some now
  | .write _ _ now => some now
  | .routingStats now => some now
  | _ => none

def Clocked (events : List (JoinerEvent Tun)) : Prop :=
  (events.filterMap time?).Pairwise (· ≤ ·)

instance (events : List (JoinerEvent Tun)) : Decidable (Clocked events) :=
  inferInstanceAs (Decidable (Pairwise _ _))

def lastTime (start : ℕ) (events : List (JoinerEvent Tun)) : ℕ :=
  (events.filterMap time?).getLastD start

namespace Joiner.Simulates

variable {joiner : Joiner Tun} {spec : JoinerSpec Tun} {now : ℕ}

theorem step (simulates : joiner.Simulates spec now) (event : JoinerEvent Tun)
    (timely : event.time?.getD now = now) :
    (joiner.step event).1 = (spec.step event).1 ∧
    (joiner.step event).2.Simulates (spec.step event).2 now := by
  have frame := simulates.frame
  have stillShared : (joiner.step event).2.frame.flowRouting = true := by
    rw [flowRouting_step, frame, simulates.shared]
  cases event with
  | learn packets owner time =>
    obtain rfl : time = now := timely
    exact ⟨rfl, simulates.rememberRoutes packets owner⟩
  | write bufs offset time =>
    obtain rfl : time = now := timely
    simp only [step, JoinerSpec.step, frame]
    cases spec.frame.acceptsWrite bufs offset with
    | error error => exact ⟨rfl, simulates⟩
    | ok =>
      split_ifs
      · exact ⟨rfl, simulates⟩
      · rcases routeAll offset.toNat bufs simulates.expire (allLive_expire _ _) with
          ⟨sameTargets, last⟩
        exact ⟨congrArg JoinerAnswer.routed sameTargets, last⟩
  | attachDefault t | attachSecondary t | detach t | detachDefault =>
    simp only [Joiner.step, JoinerSpec.step, frame] at stillShared ⊢
    exact simulates.change stillShared
  | detachNested n =>
    simp only [Joiner.step, JoinerSpec.step, frame] at stillShared ⊢
    exact ⟨trivial, simulates.reframe stillShared⟩
  | close =>
    simp only [Joiner.step, JoinerSpec.step, frame]
    exact ⟨trivial, rfl, simulates.refines.clear, simulates.shared, simulates.positive,
      simulates.counted⟩
  | routingStats time =>
    obtain rfl : time = now := timely
    have settled : (if joiner.frame.closed then joiner else joiner.expire time).Simulates
        (if spec.frame.closed then spec else spec.expire time) time := by
      rw [frame]
      split_ifs
      · exact simulates
      · exact simulates.expire
    rcases settled.refines.sizes with ⟨flows, fragments, _⟩
    refine ⟨?_, settled⟩
    simp [step, JoinerSpec.step, flows, fragments, settled.refines.stats]

theorem run (events : List (JoinerEvent Tun)) :
    ∀ {joiner : Joiner Tun} {spec : JoinerSpec Tun} {now : ℕ}, joiner.Simulates spec now →
      (∀ time ∈ events.filterMap time?, now ≤ time) → Clocked events →
      (joiner.run events).1 = (spec.run events).1 ∧
      (joiner.run events).2.Simulates (spec.run events).2 (lastTime now events) := by
  induction events with
  | nil => exact fun simulates _ _ => ⟨rfl, simulates⟩
  | cons event events ih =>
    intro joiner spec now simulates timely clocked
    cases isTime : event.time? with
    | none =>
      simp only [Clocked, lastTime, filterMap_cons, isTime] at timely clocked ⊢
      rcases simulates.step event (by simp [isTime]) with ⟨sameAnswer, next⟩
      rcases ih next timely clocked with ⟨sameAnswers, last⟩
      exact ⟨congrArg₂ List.cons sameAnswer sameAnswers, last⟩
    | some time =>
      simp only [Clocked, lastTime, filterMap_cons, isTime, pairwise_cons, getLastD_cons]
        at timely clocked ⊢
      have moved := simulates.later (timely time mem_cons_self)
      rcases moved.step event (by simp [isTime]) with ⟨sameAnswer, next⟩
      rcases ih next clocked.1 clocked.2 with ⟨sameAnswers, last⟩
      exact ⟨congrArg₂ List.cons sameAnswer sameAnswers, last⟩

end Joiner.Simulates

/-- The list of the dynamic routes is in order: sorted by expiry, as long as the two maps
together, and not longer than the limit. -/
structure RouteTable.Tidy (table : RouteTable FlowKey FragmentKey (Nested Tun)) : Prop where
  sorted : ∃ refs free, table.Linked refs free ∧
    refs.Pairwise fun earlier later =>
      (table.heap earlier).content.expires ≤ (table.heap later).content.expires
  size : table.dynamicSize = table.flows.keys.length + table.fragments.keys.length
  bounded : table.dynamicSize ≤ table.flowLimit

theorem RouteTable.Refines.tidy {table : RouteTable FlowKey FragmentKey (Nested Tun)}
    {leases : LeaseTable (RouteKey FlowKey FragmentKey) (Nested Tun)} {now : ℕ}
    (refines : table.Refines leases now) : table.Tidy := by
  rcases refines.represents with ⟨refs, free, represents⟩
  rcases refines.sizes with ⟨_, _, size, bounded⟩
  refine ⟨⟨refs, free, represents.linked, ?_⟩, size, bounded⟩
  have expiries := congrArg (List.map DynamicRoute.expires) represents.contents
  simp only [map_map] at expiries
  have sorted : (leases.leases.map Lease.expires).Pairwise (· ≤ ·) :=
    pairwise_map.mpr refines.sound.sorted
  exact pairwise_map.mp (expiries ▸ sorted :)

theorem simulates_new (options : JoinerOptions) (shared : options.sharedAddressRouting = true)
    (spawned : Bool) : (new options spawned : Joiner Tun).Simulates (.new options spawned) 0 where
  frame := rfl
  refines := by
    refine refines_new _ ?_ 0
    simp only [normalizeJoinerOptions]
    split_ifs with isDefault
    · decide
    · omega
  shared := shared
  positive := by
    simp only [JoinerSpec.new, normalizeJoinerOptions]
    split_ifs with isDefault
    · decide
    · omega
  counted via := by cases via <;> rfl

/-- In every run of a joiner with shared addresses the pointers and maps are a table of
leases: calls answer as the table says, and the list of routes stays in order. -/
theorem joiner_routes_by_leases (options : JoinerOptions)
    (shared : options.sharedAddressRouting = true) (spawned : Bool)
    (events : List (JoinerEvent Tun)) (clocked : Clocked events) :
    ((new options spawned).run events).1 =
      ((JoinerSpec.new options spawned).run events).1 ∧
    ((new options spawned).run events).2.Simulates
      ((JoinerSpec.new options spawned).run events).2 (lastTime 0 events) ∧
    ((new options spawned).run events).2.table.Tidy := by
  have start := @simulates_new Tun _ options shared spawned
  rcases Simulates.run events start (fun _ _ => Nat.zero_le _) clocked with
    ⟨sameAnswers, last⟩
  exact ⟨sameAnswers, last, last.refines.tidy⟩

end Spec

def udpPacket (source destination sourcePort destPort flags : UInt8) : List UInt8 :=
  [0x45, 0, 0, 28, 0, 7, flags, 0, 64, 17, 0, 0, 10, 0, 0, source, 10, 0, 0, destination,
    0, sourcePort, 0, destPort, 0, 8, 0, 0]

/-- A tun sends a packet, and the first fragment of the reply comes in. -/
def replyRun : List (JoinerEvent ℕ) :=
  [.attachSecondary (some 0), .learn [udpPacket 1 2 10 20 0] ⟨0, 0⟩ 5,
    .write [replicate 256 0 ++ udpPacket 2 1 20 10 0x20] 256 6,
    .routingStats 7]

/-- The flow is matched and then evicted by the fragment, which takes its node. -/
theorem joiner_routes_reply :
    Clocked replyRun ∧
    ((new ⟨true, 0, 1⟩ true).run replyRun).1 =
      [.finished (.ok ()), .finished (.ok ()), .routed [some ⟨0, 0⟩],
        .stats { flowRoutes := 1, evictedRoutes := 1 } 0 1] ∧
    ((new ⟨true, 0, 1⟩ true).run replyRun).1 =
      ((JoinerSpec.new ⟨true, 0, 1⟩ true).run replyRun).1 :=
  ⟨by decide, by decide +kernel,
    (joiner_routes_by_leases ⟨true, 0, 1⟩ rfl true replyRun (by decide)).1⟩

end Gonnect.Tun
