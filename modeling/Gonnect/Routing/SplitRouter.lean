import Gonnect.Foundation.BoolStack
import Gonnect.Foundation.ExpiringCache
import Gonnect.Foundation.Yields
import Gonnect.Routing.PacketFlow
import Gonnect.Routing.SplitCompile

/-!
# The split router

A split router selects a slot for each packet. It evaluates the compiled segments, or runs
the decoded program on a stack of fixed size if there are none. Rule predicates ask a
matcher about the flow of the packet. Their answers are kept for the packet in two bit masks
and a map, and across packets in a cache. Whole results are kept in a second cache.

The texts of the addresses are computed each time. Every reading of the clock takes the next
value of a sequence, and pruning a cache walks its map in an order that the environment
chooses.
-/

namespace Gonnect.Routing

open Checked StraightLine Netip

abbrev Matcher := FlowTuple → Except Unit Bool

structure SplitIPv4Subnet where
  addr : BitVec 32
  mask : BitVec 32
deriving DecidableEq

def SplitIPv4Subnet.contains (subnet : SplitIPv4Subnet) (addr : BitVec 32) : Bool :=
  addr &&& subnet.mask == subnet.addr

def compileSplitIPv4Subnet (subnet : IPv4Subnet) : SplitIPv4Subnet :=
  if subnet.bits = 0 then
    ⟨0, 0⟩
  else
    let mask := BitVec.allOnes 32 <<< (32 - subnet.bits).toNat
    ⟨subnet.addr &&& mask, mask⟩

structure SplitRuleCacheKey where
  rule : ℕ
  proto : UInt8
  src : Addr
  dst : Addr
  srcPort : ℕ
  dstPort : ℕ
deriving DecidableEq

/-- `splitRouteCacheKey`, with its three flags as fields. -/
structure SplitRouteCacheKey where
  proto : UInt8
  native : Bool
  hasPorts : Bool
  flowOK : Bool
  src : Addr
  dst : Addr
  srcPort : ℕ
  dstPort : ℕ
deriving DecidableEq

abbrev SplitRuleCache := ExpiringCache SplitRuleCacheKey Bool

abbrev SplitRouteCache := ExpiringCache SplitRouteCacheKey ℕ

structure SplitRouter where
  matchers : List (Option Matcher)
  tables : Tables
  splitSubnets : List SplitIPv4Subnet
  routeProgram : List Instr
  routeStackDepth : ℕ
  routeCompiled : Option (SplitConds × List SplitRouteSegment)
  routeStringOps : AddrStringOps

structure SplitWorld where
  clock : ℕ → ℤ
  ruleOrder : ℕ → WalkOrder (SplitRuleCacheKey × CacheEntry Bool)
  routeOrder : ℕ → WalkOrder (SplitRouteCacheKey × CacheEntry ℕ)
  addrString : Addr → Text

structure SplitContext where
  router : SplitRouter
  world : SplitWorld
  native : Bool
  packet : ParsedIPPacket
  packetData : List UInt8
  /-- The names of a DNS cache, if the rules have one. -/
  names : Option (Addr → List Text)

inductive Endpoint where
  | src
  | dst
deriving DecidableEq, Repr

def ParsedIPPacket.addr (packet : ParsedIPPacket) : Endpoint → Addr
  | .src => packet.src
  | .dst => packet.dst

def AddrStringOps.at (ops : AddrStringOps) : Endpoint → Bool
  | .src => ops.local
  | .dst => ops.remote

/-- The changing part of `splitEval`, and the part of the router that outlives it: the
rule cache and how often the clock was read. -/
structure SplitEval where
  ruleSeenMask : BitVec 64
  ruleValueMask : BitVec 64
  localRules : List (ℕ × Bool)
  flowDone : Bool
  flow : Option FlowTuple
  reverseNames : Endpoint → Option (List Text)
  cacheNow : ℤ
  cacheable : Bool
  ruleCache : Option SplitRuleCache
  ticks : ℕ

def SplitEval.start (ruleCache : Option SplitRuleCache) (ticks : ℕ) : SplitEval where
  ruleSeenMask := 0
  ruleValueMask := 0
  localRules := []
  flowDone := false
  flow := none
  reverseNames := fun _ => none
  cacheNow := 0
  cacheable := true
  ruleCache := ruleCache
  ticks := ticks

abbrev SplitM := Stateful SplitEval

namespace SplitContext

variable (ctx : SplitContext)

def readClock : SplitM ℤ := do
  let ev ← get
  set { ev with ticks := ev.ticks + 1 }
  pure (ctx.world.clock ev.ticks)

/-- `now`: one reading for all cache lookups of a packet. -/
def now : SplitM ℤ := do
  let ev ← get
  if ev.cacheNow = 0 then do
    let reading ← ctx.readClock
    modify fun ev => { ev with cacheNow := reading }
    pure reading
  else
    pure ev.cacheNow

def packetFlow : SplitM (Option FlowTuple) := do
  let ev ← get
  if ev.flowDone then
    pure ev.flow
  else do
    set { ev with flowDone := true }
    if ctx.packet.flowOK then do
      match ← StateT.lift (flowTupleFromOutgoingIPPacket ctx.packetData) with
      | .ok flow => do
          modify fun ev => { ev with flow := some flow }
          pure (some flow)
      | .error _ => do
          modify fun ev => { ev with cacheable := false }
          pure none
    else
      pure ev.flow

def ruleCacheKey (rule : ℕ) : SplitRuleCacheKey where
  rule := rule
  proto := ctx.packet.proto
  src := ctx.packet.src
  dst := ctx.packet.dst
  srcPort := ctx.packet.srcPort
  dstPort := ctx.packet.dstPort

/-- The matcher call that ends both branches of `matchRule`: `none` when there is no flow
or the matcher fails. -/
def askMatcher (matcher : Matcher) : SplitM (Option Bool) := do
  match ← ctx.packetFlow with
  | none => pure none
  | some flow =>
    match matcher flow with
    | .error _ => do
        modify fun ev => { ev with cacheable := false }
        pure none
    | .ok got => pure (some got)

variable (key : SplitRuleCacheKey) (endpoint : Endpoint)

def lookupRule (now : ℤ) : SplitM (Option Bool) :=
  modifyGet fun ev =>
    match ev.ruleCache with
    | some cache =>
      ((cache.get key now).1, { ev with ruleCache := some (cache.get key now).2 })
    | none => (none, ev)

def storeRule (got : Bool) : SplitM Unit := do
  let fresh ← ctx.readClock
  modify fun ev =>
    { ev with
      ruleCache := ev.ruleCache.map fun cache =>
        cache.set (ctx.world.ruleOrder ev.ticks) key got fresh }

def matchRule (idx rule : ℕ) : SplitM Bool := do
  if !ctx.packet.hasPorts then
    pure false
  else
    match ← StateT.lift (index ctx.router.matchers idx) with
    | none => pure false
    | some matcher =>
      if !ctx.packet.flowOK then
        pure false
      else
        match (← get).ruleCache with
        | some _ => do
            let key := ctx.ruleCacheKey rule
            let now ← ctx.now
            match ← lookupRule key now with
            | some got => pure got
            | none =>
              match ← ctx.askMatcher matcher with
              | none => pure false
              | some got => do
                  ctx.storeRule key got
                  pure got
        | none => do
            match ← ctx.askMatcher matcher with
            | none => pure false
            | some got => pure got

/-- `rule`: a matcher is asked once for a packet. -/
def rule (param : ℕ) : SplitM Bool := do
  if !ctx.native then
    pure false
  else if param ≥ ctx.router.matchers.length then
    pure false
  else if param < 64 then do
    let ev ← get
    if ev.ruleSeenMask.getLsbD param then
      pure (ev.ruleValueMask.getLsbD param)
    else do
      let got ← ctx.matchRule param param
      modify fun ev =>
        { ev with
          ruleSeenMask := ev.ruleSeenMask ||| BitVec.twoPow 64 param
          ruleValueMask :=
            if got then ev.ruleValueMask ||| BitVec.twoPow 64 param else ev.ruleValueMask }
      pure got
  else do
    match (← get).localRules.find? fun entry => entry.1 = param with
    | some entry => pure entry.2
    | none => do
        let got ← ctx.matchRule param param
        modify fun ev => { ev with localRules := (param, got) :: ev.localRules }
        pure got

/-- `srcReverseDNSNames` and `dstReverseDNSNames`: the names are looked up once, and a
result that depends on them is not kept in the route cache. -/
def reverseDNSNames : SplitM (List Text) := do
  match (← get).reverseNames endpoint, ctx.names, ctx.router.routeStringOps.at endpoint with
  | some names, _, _ => pure names
  | none, some storage, true => do
      modify fun ev => { ev with cacheable := false }
      let _ ← ctx.now
      let names := storage (ctx.packet.addr endpoint)
      modify fun ev =>
        { ev with reverseNames := Function.update ev.reverseNames endpoint (some names) }
      pure names
  | none, _, _ => pure []

/-- `matchSrcString` and `matchDstString`: the text of the address, or one of its names. -/
def matchString (want : Text) : SplitM Bool := do
  if ctx.world.addrString (ctx.packet.addr endpoint) = want then
    pure true
  else do
    let names ← ctx.reverseDNSNames endpoint
    pure (names.any (dnsNameEqual · want))

/-- `matchSrcRegexp` and `matchDstRegexp` -/
def matchRegexp (regexp : Regexp) : SplitM Bool := do
  if regexp (ctx.world.addrString (ctx.packet.addr endpoint)) then
    pure true
  else do
    let names ← ctx.reverseDNSNames endpoint
    pure (names.any (matchDNSNameRegexp regexp))

def withEntry {α : Type} (table : List α) (param : ℕ) (test : α → SplitM Bool) : SplitM Bool := do
  let entry ← StateT.lift (index table param)
  test entry

/-- The predicate cases that the stack interpreter, `predicates` and `atom` have in
common. -/
def test (op : Op) (param : ℕ) : Option (SplitM Bool) :=
  let pkt := ctx.packet
  let tables := ctx.router.tables
  match op with
  | .net4 => some (pure pkt.src.is4)
  | .net6 => some (pure pkt.src.is6)
  | .udp => some (pure (pkt.proto == 17))
  | .tcp => some (pure (pkt.proto == 6))
  | .addrS => some (withEntry tables.strings param (ctx.matchString .dst))
  | .laddrS => some (withEntry tables.strings param (ctx.matchString .src))
  | .addrRe => some (withEntry tables.regexps param (ctx.matchRegexp .dst))
  | .laddrRe => some (withEntry tables.regexps param (ctx.matchRegexp .src))
  | .addr4 =>
    some (withEntry tables.ipv4Addrs param fun want => pure (pkt.dst4 == want && pkt.dst.is4))
  | .laddr4 =>
    some (withEntry tables.ipv4Addrs param fun want => pure (pkt.src4 == want && pkt.src.is4))
  | .addr6 => some (withEntry tables.ipv6Addrs param fun want => pure (pkt.dst == want))
  | .laddr6 => some (withEntry tables.ipv6Addrs param fun want => pure (pkt.src == want))
  | .snet4 =>
    some (if pkt.dst.is4 then
      withEntry ctx.router.splitSubnets param fun subnet => pure (subnet.contains pkt.dst4)
    else pure false)
  | .lsnet4 =>
    some (if pkt.src.is4 then
      withEntry ctx.router.splitSubnets param fun subnet => pure (subnet.contains pkt.src4)
    else pure false)
  | .snet6 => some (withEntry tables.ipv6Subnets param fun subnet => pure (subnet.contains pkt.dst))
  | .lsnet6 =>
    some (withEntry tables.ipv6Subnets param fun subnet => pure (subnet.contains pkt.src))
  | .port => some (pure (pkt.hasPorts && param == pkt.dstPort))
  | .lport => some (pure (pkt.hasPorts && param == pkt.srcPort))
  | .rule => some (ctx.rule param)
  | _ => none

/-- `atom`; an opcode without a case does not hold. -/
def atom (op : Option Op) (param : ℕ) : SplitM Bool :=
  match op with
  | some .pushTrue => pure true
  | some .pushFalse | some .fqdn | some .lfqdn => pure false
  | some op => (ctx.test op param).getD (pure false)
  | none => pure false

def predicate (pred : SplitPredicate) : SplitM Bool := do
  let got ← match pred.op with
    | some .pushTrue => pure true
    | some .pushFalse | some .fqdn | some .lfqdn => pure false
    | some op => (ctx.test op pred.param).getD (pure false)
    | none => pure false
  pure (if pred.not then !got else got)

def predicates (kind : SplitFastCondKind) (preds : List SplitPredicate) : SplitM Bool :=
  if kind = .all then preds.allM ctx.predicate else preds.anyM ctx.predicate

/-- `evalCond`. The arena refers to earlier nodes only, so the depth of the recursion is
bounded by the index of the node. -/
def evalCond (conds : SplitConds) : ℕ → ℕ → SplitM Bool
  | 0, _ => StateT.lift (.error .outOfRange)
  | depth + 1, idx => do
      match ← StateT.lift (index conds idx) with
      | .const value => pure value
      | .atom op param => ctx.atom op param
      | .not child => do
          let value ← evalCond conds depth child
          pure (!value)
      | .join .and children => children.allM (evalCond conds depth)
      | .join .or children => children.anyM (evalCond conds depth)

def segmentMatched (conds : SplitConds) (segment : SplitRouteSegment) : SplitM Bool :=
  match segment.fastKind with
  | .none => ctx.evalCond conds conds.length segment.cond
  | kind =>
    match segment.fastPreds with
    | [⟨some .rule, param, false⟩] => ctx.rule param
    | preds => ctx.predicates kind preds

def routeBySegments (conds : SplitConds) : List SplitRouteSegment → SplitM ℕ
  | [] => pure 0
  | segment :: rest => do
      if ← ctx.segmentMatched conds segment then
        pure (if segment.drop then 0 else segment.slot)
      else
        routeBySegments conds rest

end SplitContext

structure SplitStack where
  cells : List Bool
  sp : ℕ
deriving DecidableEq

namespace SplitStack

/-- `stack[sp] = value; sp++` -/
def push (stack : SplitStack) (value : Bool) : Checked SplitStack :=
  if stack.sp < stack.cells.length then
    .ok ⟨stack.cells.set stack.sp value, stack.sp + 1⟩
  else
    .error .outOfRange

/-- `sp--; stack[sp]` -/
def pop (stack : SplitStack) : Checked (Bool × SplitStack) :=
  if stack.sp = 0 then
    .error .outOfRange
  else do
    let value ← index stack.cells (stack.sp - 1)
    .ok (value, { stack with sp := stack.sp - 1 })

end SplitStack

namespace SplitContext

variable (ctx : SplitContext)

def step (instr : Instr) : SplitStack × SplitEval →
    Checked (Outcome (SplitStack × SplitEval) (ℕ × SplitEval))
  | (stack, ev) =>
    match instr.op with
    | some .drop => do
        let (value, stack) ← stack.pop
        .ok (if value then .halt (0, ev) else .next (stack, ev))
    | some .slot => do
        let (value, stack) ← stack.pop
        .ok (if value then .halt (instr.param, ev) else .next (stack, ev))
    | some .pushTrue => do
        let stack ← stack.push true
        .ok (.next (stack, ev))
    | some .pushFalse | some .fqdn | some .lfqdn => do
        let stack ← stack.push false
        .ok (.next (stack, ev))
    | some .not => do
        let (value, stack) ← stack.pop
        let stack ← stack.push (!value)
        .ok (.next (stack, ev))
    | some .and => do
        let (b, stack) ← stack.pop
        let (a, stack) ← stack.pop
        let stack ← stack.push (a && b)
        .ok (.next (stack, ev))
    | some .or => do
        let (b, stack) ← stack.pop
        let (a, stack) ← stack.pop
        let stack ← stack.push (a || b)
        .ok (.next (stack, ev))
    | some op =>
      match ctx.test op instr.param with
      | some test => do
          let (value, ev) ← test.run ev
          let stack ← stack.push value
          .ok (.next (stack, ev))
      | none => .ok (.next (stack, ev))
    | none => .ok (.next (stack, ev))

/-- The stack interpreter, with 64 cells or as many as the program needs. -/
def interpret : SplitM ℕ := fun ev =>
  StraightLine.run ctx.step (fun (_, ev) => (0, ev)) ctx.router.routeProgram
    (⟨List.replicate (max 64 ctx.router.routeStackDepth) false, 0⟩, ev)

def evaluate : SplitM ℕ :=
  match ctx.router.routeCompiled with
  | some (conds, segments) => ctx.routeBySegments conds segments
  | none => ctx.interpret

end SplitContext

structure SplitState where
  ruleCache : Option SplitRuleCache
  routeCache : Option SplitRouteCache
  ticks : ℕ

structure SplitCall where
  buf : List UInt8
  offset : ℤ
  native : Bool
  names : Option (Addr → List Text)

def splitRouteCacheKeyFromPacket (packet : ParsedIPPacket) (native : Bool) :
    SplitRouteCacheKey where
  proto := packet.proto
  native := native
  hasPorts := packet.hasPorts
  flowOK := packet.flowOK
  src := packet.src
  dst := packet.dst
  srcPort := packet.srcPort
  dstPort := packet.dstPort

namespace SplitRouter

variable (router : SplitRouter) (world : SplitWorld)

def lookupRoute (key : SplitRouteCacheKey) : Stateful SplitState (Option ℕ) := do
  let state ← get
  match state.routeCache with
  | none => pure none
  | some cache => do
      let (found, cache) := cache.get key (world.clock state.ticks)
      set { state with routeCache := some cache, ticks := state.ticks + 1 }
      pure found

def storeRoute (key : SplitRouteCacheKey) (slot : ℕ) (cacheable : Bool) :
    Stateful SplitState Unit := do
  let state ← get
  match state.routeCache, cacheable with
  | some cache, true =>
    set { state with
      routeCache :=
        some (cache.set (world.routeOrder state.ticks) key slot (world.clock state.ticks))
      ticks := state.ticks + 1 }
  | _, _ => pure ()

def evaluatePacket (ctx : SplitContext) : Stateful SplitState (ℕ × Bool) := fun state => do
  let (slot, ev) ← ctx.evaluate.run (.start state.ruleCache state.ticks)
  .ok ((slot, ev.cacheable), { state with ruleCache := ev.ruleCache, ticks := ev.ticks })

def route (call : SplitCall) : Stateful SplitState ℕ := do
  match ← StateT.lift (parseIPPacket call.buf call.offset) with
  | none => pure 0
  | some packet => do
      let key := splitRouteCacheKeyFromPacket packet call.native
      match ← lookupRoute world key with
      | some slot => pure slot
      | none => do
          let packetData ← StateT.lift
            (window call.buf call.offset.toNat (call.offset.toNat + packet.total))
          let (slot, cacheable) ← evaluatePacket
            { router, world, native := call.native, packet, packetData, names := call.names }
          storeRoute world key slot cacheable
          pure slot

def routeAll (calls : List SplitCall) : Stateful SplitState (List ℕ) :=
  calls.mapM (router.route world)

end SplitRouter

structure SplitBytecodeRules (Rule : Type) where
  /-- `sysnet.System.BuildMatcher`, if there is a system. -/
  system : Option (Rule → Except Unit (Option Matcher))
  rules : List Rule
  ruleCacheTTL : ℤ
  ruleCacheMaxEntries : ℤ
  routeCacheTTL : ℤ
  routeCacheMaxEntries : ℤ
  tables : RawTables
  route : List UInt8

def defaultSplitRuleCacheTTL : ℤ := 1000000000

def defaultSplitRuleCacheMaxEntries : ℕ := 4096

/-- `newSplitRuleResultCache`, and the end of `newSplitRouteResultCache`. -/
def newSplitResultCache {Key Value : Type} (ttl maxEntries : ℤ) :
    Option (ExpiringCache Key Value) :=
  if ttl < 0 ∨ maxEntries < 0 then
    none
  else
    some (.empty (if ttl = 0 then defaultSplitRuleCacheTTL else ttl)
      (if maxEntries = 0 then defaultSplitRuleCacheMaxEntries else maxEntries.toNat))

def newSplitRouteResultCache {Key Value : Type}
    (routeTTL routeMaxEntries ruleTTL ruleMaxEntries : ℤ) : Option (ExpiringCache Key Value) :=
  if routeTTL = 0 ∧ routeMaxEntries = 0 then
    newSplitResultCache ruleTTL ruleMaxEntries
  else
    newSplitResultCache routeTTL routeMaxEntries

namespace SplitRouter

def validateOp (tables : Tables) (rules pc : ℕ) (op : Op) (param : ℕ) :
    Except BytecodeError Unit :=
  if op.isRouterMethod || op.isSnifferOnly || op.isDNSOnly then
    .error (.notValidFor "SplitRoute" pc op "SplitRouter")
  else
    match op with
    | .slot => if param > 16 then .error (.slotOutOfRange "SplitRoute" pc param 16) else .ok ()
    | .rule => checkIndex "SplitRoute" pc param (some ("rule", rules))
    | op => checkIndex "SplitRoute" pc param (tables.indexed op)

def validate {Rule : Type} (rules : SplitBytecodeRules Rule) :
    Except RuleError (Tables × (Rule → Except Unit (Option Matcher))) :=
  match rules.system with
  | none => .error .noSystem
  | some system => do
      let tables ← rules.tables.validate
      (validateBytecode "SplitRoute" rules.route
        (validateOp tables rules.rules.length)).mapError .bytecode
      .ok (tables, system)

def buildMatchers {Rule : Type} (buildMatcher : Rule → Except Unit (Option Matcher)) :
    List Rule → ℕ → Except RuleError (List (Option Matcher))
  | [], _ => .ok []
  | rule :: rest, position =>
    match buildMatcher rule with
    | .error _ => .error (.ruleMatcher position)
    | .ok matcher => do
        let matchers ← buildMatchers buildMatcher rest (position + 1)
        .ok (matcher :: matchers)

end SplitRouter

/-- `NewBytecodeSplitRouter`; the compilers read the bytecode without a bounds check. -/
def newBytecodeSplitRouter {Rule : Type} (rules : SplitBytecodeRules Rule) :
    Checked (Except RuleError (SplitRouter × SplitState)) :=
  match SplitRouter.validate rules with
  | .error error => .ok (.error error)
  | .ok (tables, buildMatcher) => do
      let routeStringOps ← bytecodeAddrStringOps rules.route
      let (routeProgram, routeStackDepth) ← compileSplitBytecode rules.route
      let routeCompiled ← compileSplitRoute rules.route
      match SplitRouter.buildMatchers buildMatcher rules.rules 0 with
      | .error error => .ok (.error error)
      | .ok matchers =>
        .ok (.ok
          ({ matchers, tables
             splitSubnets := tables.ipv4Subnets.map compileSplitIPv4Subnet
             routeProgram, routeStackDepth, routeCompiled, routeStringOps },
           { ruleCache := newSplitResultCache rules.ruleCacheTTL rules.ruleCacheMaxEntries
             routeCache := newSplitRouteResultCache rules.routeCacheTTL
               rules.routeCacheMaxEntries rules.ruleCacheTTL rules.ruleCacheMaxEntries
             ticks := 0 }))

theorem exists_built {Rule : Type} {rules : SplitBytecodeRules Rule}
    {test : SplitRouter × SplitState → Bool}
    (passes : (newBytecodeSplitRouter rules).toOption.any fun built => built.toOption.any test) :
    ∃ router state, newBytecodeSplitRouter rules = .ok (.ok (router, state)) ∧
      test (router, state) := by
  rcases exists_of_any passes with ⟨_, built, passes⟩
  rcases exists_of_any passes with ⟨⟨router, state⟩, rfl, passes⟩
  exact ⟨router, state, built, passes⟩

end Gonnect.Routing
