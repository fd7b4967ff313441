import Gonnect.Tun.JoinerLease
import Gonnect.Tun.JoinerPacket

/-!
# Shared-address routing of the joiner

A joiner learns from the packets that its nested tuns send. In shared-address mode an
incoming packet goes to the owner of its fragment, else of its flow, else of its address,
else to the default tun, and it is dropped without one. `Joiner` is the joiner with its
pointers and maps, and `JoinerSpec` the same machine over a `LeaseTable`.
-/

namespace Gonnect.Tun

open Checked Function BigEndian

/-- A pointer to a `joinerNested`. -/
structure Nested (Tun : Type) where
  t : Tun
  id : ℕ
deriving DecidableEq

inductive JoinerError where
  | closed
  | smallOffset
  | duplicateTun
  | nilTun
  | invalidOffset
  | shortBuffer
deriving DecidableEq

structure JoinerOptions where
  sharedAddressRouting : Bool
  flowTimeout : ℤ
  maxFlowEntries : ℤ

def defaultJoinerFlowTimeout : ℕ := 120000000000

def defaultJoinerMaxFlowEntries : ℕ := 64 * 1024

def normalizeJoinerOptions (options : JoinerOptions) : ℕ × ℕ :=
  (if options.flowTimeout ≤ 0 then defaultJoinerFlowTimeout else options.flowTimeout.toNat,
    if options.maxFlowEntries ≤ 0 then defaultJoinerMaxFlowEntries
    else options.maxFlowEntries.toNat)

def joinerOffset : ℤ := 256

def validatePacketOffset (bufs : List (List UInt8)) (offset : ℤ) : Except JoinerError Unit :=
  if offset < 0 then .error .invalidOffset
  else if bufs.any fun buf => offset > buf.length then .error .shortBuffer
  else .ok ()

/-- The fields of `Joiner` that the mode with shared addresses does not add. `created` tells
apart the pointers that `newJoinerNested` returns. -/
structure Frame (Tun : Type) where
  closed : Bool
  flowRouting : Bool
  defaultTun : Option (Nested Tun)
  secondaries : Tun → Option (Nested Tun)
  nested : Tun → Option (Nested Tun)
  routes4 : ℕ → Option (Nested Tun)
  routes6 : List UInt8 → Option (Nested Tun)
  created : ℕ

inductive JoinerEvent (Tun : Type) where
  | learn (packets : List (List UInt8)) (owner : Nested Tun) (now : ℕ)
  | write (bufs : List (List UInt8)) (offset : ℤ) (now : ℕ)
  | attachDefault (t : Option Tun)
  | attachSecondary (t : Option Tun)
  | detach (t : Tun)
  | detachDefault
  | detachNested (nested : Nested Tun)
  | close
  | routingStats (now : ℕ)

inductive JoinerAnswer (Tun : Type) where
  | finished (result : Except JoinerError Unit)
  | routed (targets : List (Option (Nested Tun)))
  | stats (counters : RoutingStats) (activeFlows activeFragments : ℕ)
deriving DecidableEq

section Machine

variable {Tun : Type} [DecidableEq Tun]

namespace Frame

/-- `NewJoinerWithOptions`, which leaves the joiner closed when it cannot spawn. -/
def new (options : JoinerOptions) (spawned : Bool) : Frame Tun where
  closed := !spawned
  flowRouting := options.sharedAddressRouting
  defaultTun := none
  secondaries _ := none
  nested _ := none
  routes4 _ := none
  routes6 _ := none
  created := 0

variable (frame : Frame Tun)

def parsedDestinationRoute (packet : JoinerPacket) : Option (Nested Tun) :=
  if packet.version = 4 then frame.routes4 (ofBytes (packet.destination.take 4))
  else if packet.version = 6 then frame.routes6 packet.destination
  else none

def packetDestinationRoute (buf : List UInt8) (offset : ℕ) : Option (Nested Tun) :=
  let packet := buf.drop offset
  if offset ≥ buf.length then none
  else if byteAt packet 0 >>> 4 = 4 then
    if packet.length ≥ 20 then frame.routes4 (ofBytes (bytesAt packet 16 20)) else none
  else if byteAt packet 0 >>> 4 = 6 then
    if packet.length ≥ 40 then frame.routes6 (bytesAt packet 24 40) else none
  else none

/-- The address route that `routeSharedAddressLocked` asks for. -/
def addressRoute (parsed : Option JoinerPacket) (buf : List UInt8) (offset : ℕ) :
    Option (Nested Tun) :=
  match parsed with
  | some packet => frame.parsedDestinationRoute packet
  | none => frame.packetDestinationRoute buf offset

def rememberParsedSourceRoute (packet : JoinerPacket) (owner : Nested Tun) : Frame Tun :=
  if packet.version = 4 then
    { frame with routes4 :=
      Function.update frame.routes4 (ofBytes (packet.source.take 4)) (some owner) }
  else if packet.version = 6 then
    { frame with routes6 := update frame.routes6 packet.source (some owner) }
  else
    frame

def rememberPacketSourceRoute (packet : List UInt8) (owner : Nested Tun) : Frame Tun :=
  if packet.length = 0 then
    frame
  else if byteAt packet 0 >>> 4 = 4 then
    if packet.length ≥ 20 then
      { frame with routes4 :=
        Function.update frame.routes4 (ofBytes (bytesAt packet 12 16)) (some owner) }
    else
      frame
  else if byteAt packet 0 >>> 4 = 6 then
    if packet.length ≥ 40 then
      { frame with routes6 := update frame.routes6 (bytesAt packet 8 24) (some owner) }
    else
      frame
  else
    frame

/-- The part of `removeNestedLocked` outside the dynamic routes. -/
def removeNested (n : Nested Tun) : Frame Tun :=
  { frame with
    defaultTun := if frame.defaultTun = some n then none else frame.defaultTun
    secondaries := update frame.secondaries n.t none
    nested := update frame.nested n.t none
    routes4 := fun key => if frame.routes4 key = some n then none else frame.routes4 key
    routes6 := fun key => if frame.routes6 key = some n then none else frame.routes6 key }

def dismiss (n : Option (Nested Tun)) : Frame Tun × Option (Nested Tun) :=
  match n with
  | none => (frame, none)
  | some n => (frame.removeNested n, some n)

/-- `AttachDefault`, with the nested tun that it removes. -/
def attachDefault : Option Tun → Except JoinerError (Frame Tun × Option (Nested Tun))
  | none => .error .nilTun
  | some t =>
    if frame.closed then .error .closed
    else if (frame.secondaries t).isSome then .error .duplicateTun
    else if frame.defaultTun.map Nested.t = some t then .ok (frame, none)
    else
      let (frame, old) := frame.dismiss frame.defaultTun
      let n : Nested Tun := ⟨t, frame.created⟩
      .ok ({ frame with
        defaultTun := some n
        nested := update frame.nested t (some n)
        created := frame.created + 1 }, old)

def attachSecondary : Option Tun → Except JoinerError (Frame Tun × Option (Nested Tun))
  | none => .error .nilTun
  | some t =>
    if frame.closed then .error .closed
    else if frame.defaultTun.map Nested.t = some t then .error .duplicateTun
    else if (frame.secondaries t).isSome then .ok (frame, none)
    else
      let n : Nested Tun := ⟨t, frame.created⟩
      .ok ({ frame with
        secondaries := update frame.secondaries t (some n)
        nested := update frame.nested t (some n)
        created := frame.created + 1 }, none)

def detach (t : Tun) : Except JoinerError (Frame Tun × Option (Nested Tun)) :=
  if frame.closed then .error .closed else .ok (frame.dismiss (frame.nested t))

def detachDefault : Except JoinerError (Frame Tun × Option (Nested Tun)) :=
  if frame.closed then .error .closed else .ok (frame.dismiss frame.defaultTun)

def detachNested (n : Nested Tun) : Frame Tun × Option (Nested Tun) :=
  if frame.nested n.t ≠ some n then (frame, none) else frame.dismiss (some n)

/-- `Close`; a second call finds nothing that it could clear. -/
def close : Frame Tun :=
  { frame with
    closed := true
    defaultTun := none
    secondaries := fun _ => none
    nested := fun _ => none
    routes4 := fun _ => none
    routes6 := fun _ => none }

def acceptsWrite (bufs : List (List UInt8)) (offset : ℤ) : Except JoinerError Unit :=
  if offset < joinerOffset then .error .smallOffset
  else do
    validatePacketOffset bufs offset
    if frame.closed then .error .closed else .ok ()

end Frame

structure Joiner (Tun : Type) where
  frame : Frame Tun
  table : RouteTable FlowKey FragmentKey (Nested Tun)

namespace RoutingStats

variable (stats : RoutingStats)

def addFragmentRoute : RoutingStats :=
  { stats with fragmentRoutes := stats.fragmentRoutes + 1 }

def addFlowRoute : RoutingStats :=
  { stats with flowRoutes := stats.flowRoutes + 1 }

def addAddressFallback : RoutingStats :=
  { stats with addressFallbacks := stats.addressFallbacks + 1 }

def addDefaultFallback : RoutingStats :=
  { stats with defaultFallbacks := stats.defaultFallbacks + 1 }

def addDroppedFallback : RoutingStats :=
  { stats with droppedFallbacks := stats.droppedFallbacks + 1 }

end RoutingStats

namespace RouteTable

variable (table : RouteTable FlowKey FragmentKey (Nested Tun))

def rememberInboundFragment (packet : JoinerPacket) (owner : Option (Nested Tun)) (now : ℕ) :
    RouteTable FlowKey FragmentKey (Nested Tun) :=
  match owner with
  | none => table
  | some owner =>
    if ¬packet.fragmented ∨ packet.fragmentOffset ≠ 0 ∨ ¬packet.moreFragments then table
    else table.rememberFragment packet.joinerFragmentKey owner now

def fragmentRoute (parsed : Option JoinerPacket) : Option Ref :=
  match parsed with
  | some packet =>
    if packet.fragmented ∧ packet.fragmentOffset ≠ 0 then
      table.fragments.lookup packet.joinerFragmentKey
    else
      none
  | none => none

def flowRoute (parsed : Option JoinerPacket) : Option Ref :=
  match parsed.bind joinerInboundFlowKey with
  | some key => table.flows.lookup key
  | none => none

end RouteTable

namespace Joiner

def new (options : JoinerOptions) (spawned : Bool) : Joiner Tun where
  frame := .new options spawned
  table := .new (normalizeJoinerOptions options).1 (normalizeJoinerOptions options).2

variable (joiner : Joiner Tun)

def routeSharedAddress (buf : List UInt8) (offset now : ℕ) : Option (Nested Tun) × Joiner Tun :=
  let parsed := parseJoinerPacket buf offset
  let packet := parsed.getD {}
  let table := joiner.table
  match table.fragmentRoute parsed with
  | some route =>
    let table := table.touchDynamicRoute route now
    let table := { table with routeStats := table.routeStats.addFragmentRoute }
    ((table.heap route).content.owner, { joiner with table := table })
  | none =>
    match table.flowRoute parsed with
    | some route =>
      let table := table.touchDynamicRoute route now
      let table := table.rememberInboundFragment packet (table.heap route).content.owner now
      let table := { table with routeStats := table.routeStats.addFlowRoute }
      -- the owner is read from the node again, after the fragment has been remembered
      ((table.heap route).content.owner, { joiner with table := table })
    | none =>
      match joiner.frame.addressRoute parsed buf offset with
      | some owner =>
        let table := { table with routeStats := table.routeStats.addAddressFallback }
        let table := table.rememberInboundFragment packet (some owner) now
        (some owner, { joiner with table := table })
      | none =>
        match joiner.frame.defaultTun with
        | some owner =>
          let table := { table with routeStats := table.routeStats.addDefaultFallback }
          let table := table.rememberInboundFragment packet (some owner) now
          (some owner, { joiner with table := table })
        | none =>
          let table := { table with routeStats := table.routeStats.addDroppedFallback }
          (none, { joiner with table := table })

def route (buf : List UInt8) (offset now : ℕ) : Option (Nested Tun) × Joiner Tun :=
  if joiner.frame.flowRouting then
    joiner.routeSharedAddress buf offset now
  else
    match joiner.frame.packetDestinationRoute buf offset with
    | some n => (some n, joiner)
    | none => (joiner.frame.defaultTun, joiner)

def routeAll (offset now : ℕ) :
    List (List UInt8) → Joiner Tun → List (Option (Nested Tun)) × Joiner Tun
  | [], joiner => ([], joiner)
  | buf :: bufs, joiner =>
    let (target, joiner) := joiner.route buf offset now
    let (targets, joiner) := routeAll offset now bufs joiner
    (target :: targets, joiner)

/-- Routes that are too old are removed, in shared-address mode. -/
def expire (now : ℕ) : Joiner Tun :=
  if joiner.frame.flowRouting then
    { joiner with table := joiner.table.expireDynamicRoutes now }
  else
    joiner

def rememberRoute (owner : Nested Tun) (now : ℕ) (joiner : Joiner Tun) (packet : List UInt8) :
    Joiner Tun :=
  match if joiner.frame.flowRouting then parseJoinerPacket packet 0 else none with
  | some parsed =>
    let frame := joiner.frame.rememberParsedSourceRoute parsed owner
    match joinerReverseFlowKey parsed with
    | some key => ⟨frame, joiner.table.rememberFlow key owner now⟩
    | none => { joiner with frame := frame }
  | none => { joiner with frame := joiner.frame.rememberPacketSourceRoute packet owner }

def rememberRoutes (packets : List (List UInt8)) (owner : Nested Tun) (now : ℕ) : Joiner Tun :=
  if joiner.frame.nested owner.t ≠ some owner then joiner
  else packets.foldl (rememberRoute owner now) (joiner.expire now)

/-- Another frame, without the routes of the nested tun that was removed. -/
def reframe (changed : Frame Tun × Option (Nested Tun)) : Joiner Tun where
  frame := changed.1
  table :=
    match changed.2 with
    | none => joiner.table
    | some n => joiner.table.removeDynamicRoutesForOwner n

def change (changed : Except JoinerError (Frame Tun × Option (Nested Tun))) :
    JoinerAnswer Tun × Joiner Tun :=
  match changed with
  | .error error => (.finished (.error error), joiner)
  | .ok changed => (.finished (.ok ()), joiner.reframe changed)

def step : JoinerEvent Tun → JoinerAnswer Tun × Joiner Tun
  | .learn packets owner now => (.finished (.ok ()), joiner.rememberRoutes packets owner now)
  | .write bufs offset now =>
    match joiner.frame.acceptsWrite bufs offset with
    | .error error => (.finished (.error error), joiner)
    | .ok () =>
      if bufs = [] then
        (.routed [], joiner)
      else
        let (targets, joiner) := routeAll offset.toNat now bufs (joiner.expire now)
        (.routed targets, joiner)
  | .attachDefault t => joiner.change (joiner.frame.attachDefault t)
  | .attachSecondary t => joiner.change (joiner.frame.attachSecondary t)
  | .detach t => joiner.change (joiner.frame.detach t)
  | .detachDefault => joiner.change joiner.frame.detachDefault
  | .detachNested n => (.finished (.ok ()), joiner.reframe (joiner.frame.detachNested n))
  | .close => (.finished (.ok ()), ⟨joiner.frame.close, joiner.table.clearDynamicRoutes⟩)
  | .routingStats now =>
    let joiner := if joiner.frame.closed then joiner else joiner.expire now
    (.stats joiner.table.routeStats joiner.table.flows.keys.length
      joiner.table.fragments.keys.length, joiner)

def run : Joiner Tun → List (JoinerEvent Tun) → List (JoinerAnswer Tun) × Joiner Tun
  | joiner, [] => ([], joiner)
  | joiner, event :: events =>
    let (answer, joiner) := joiner.step event
    let (answers, joiner) := joiner.run events
    (answer :: answers, joiner)

end Joiner

end Machine

end Gonnect.Tun
