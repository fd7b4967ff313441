import Gonnect.Routing.InterpreterSafety
import Gonnect.Routing.SplitSegments

/-!
# Routing packets

A constructed router has a validated program in both forms, which yield the slot that the
program selects, whatever earlier packets have left in the caches. Without a DNS cache the
route cache key determines the slot: the truth of every test is a function of the fields of
the key.
-/

namespace Gonnect.Routing

open Checked StraightLine Netip List Reaches SplitContext SplitRouter Ensures AtomReading

namespace SplitRouter

structure Constructed (router : SplitRouter) : Prop where
  subnets : router.splitSubnets.length = router.tables.ipv4Subnets.length
  validated : ∃ last, Validated router.tables router.routeProgram 0 last
  counted : splitMaxDepth router.routeProgram 0 0 = router.routeStackDepth
  compiled : compileLoop router.routeProgram .initial [] [] = .ok router.routeCompiled

theorem Validated.compileLoop_ok {tables : Tables} {program : List Instr} {start last : ℕ}
    (validated : Validated tables program start last) :
    ∃ result, compileLoop program .initial [] [] = .ok result := by
  let reading : AtomReading := ⟨fun _ _ => True, fun _ _ => true, trivial, rfl⟩
  have compiles : reading.Compiles program .initial [] [] :=
    compileLoop_compiles (fun _ _ _ => trivial) validated.accepted
      SplitConds.wellFormed_initial (by simp)
  rcases compiles with ⟨result, computed, _⟩
  exact ⟨result, computed⟩

end SplitRouter

variable {Rule : Type} (rules : SplitBytecodeRules Rule)

def SplitBytecodeRules.ruleCacheLimit : ℕ :=
  if rules.ruleCacheMaxEntries = 0 then defaultSplitRuleCacheMaxEntries
  else rules.ruleCacheMaxEntries.toNat

def SplitBytecodeRules.routeCacheLimit : ℕ :=
  if rules.routeCacheTTL = 0 ∧ rules.routeCacheMaxEntries = 0 then rules.ruleCacheLimit
  else if rules.routeCacheMaxEntries = 0 then defaultSplitRuleCacheMaxEntries
  else rules.routeCacheMaxEntries.toNat

theorem newBytecodeSplitRouter_ok :
    ∃ result, newBytecodeSplitRouter rules = .ok result ∧
      ∀ router state, result = .ok (router, state) → router.Constructed ∧
        state.ruleCache = newSplitResultCache rules.ruleCacheTTL rules.ruleCacheMaxEntries ∧
        state.routeCache = newSplitRouteResultCache rules.routeCacheTTL rules.routeCacheMaxEntries
          rules.ruleCacheTTL rules.ruleCacheMaxEntries := by
  unfold newBytecodeSplitRouter
  split
  · exact ⟨_, rfl, by simp⟩
  · rename_i tables buildMatcher accepted
    have valid : ∃ last, validateLoop "SplitRoute"
        (validateOp tables rules.rules.length) depthEffect rules.route 0 0 =
          .ok last := by
      unfold validate at accepted
      split at accepted
      · cases accepted
      · rcases of_bind accepted with ⟨_, _, accepted⟩
        rcases of_bind accepted with ⟨_, code, accepted⟩
        cases accepted
        exact validateBytecode_ok (mapError_eq_ok_iff.mp code)
    rcases valid with ⟨last, valid⟩
    rcases bytecodeAddrStringOps_ok valid with ⟨stringOps, marked⟩
    have sound : ∀ pc op param, validateOp tables rules.rules.length pc op param =
        .ok () → Accepts tables op param :=
      fun _ _ _ => validateOp_sound
    rcases validateLoop_decodes sound valid with ⟨program, decoded, validated⟩
    rcases Validated.compileLoop_ok validated with ⟨compiled, computed⟩
    have decodes : decode rules.route = .ok program := decoded
    simp only [marked, compileSplitBytecode, compileSplitRoute, decodes, computed, ok_bind]
    split
    · exact ⟨_, rfl, by simp⟩
    · refine ⟨_, rfl, ?_⟩
      rintro router state ⟨⟩
      exact ⟨⟨by simp, ⟨last, validated⟩, rfl, computed⟩, rfl, rfl⟩

variable {rules}

namespace SplitRouter

variable {router : SplitRouter} {world : SplitWorld} {call : SplitCall} {packet : ParsedIPPacket}

def context (router : SplitRouter) (world : SplitWorld) (call : SplitCall)
    (packet : ParsedIPPacket) : SplitContext where
  router := router
  world := world
  native := call.native
  packet := packet
  packetData := (call.buf.take (call.offset.toNat + packet.total)).drop call.offset.toNat
  names := call.names

/-- What the state of a router keeps: right answers in the rule cache, and results in the
route cache that are right in a sense to be chosen. -/
structure Keeps (router : SplitRouter) (right : SplitRouteCacheKey → ℕ → Prop)
    (ruleLimit routeLimit : ℕ) (state : SplitState) : Prop where
  ruleCache : ∀ cache ∈ state.ruleCache, cache.Sound router.RuleRight ruleLimit
  routeCache : ∀ cache ∈ state.routeCache, cache.Sound right routeLimit

variable {right : SplitRouteCacheKey → ℕ → Prop} {ruleLimit routeLimit : ℕ}

theorem lookupRoute_ensures (key : SplitRouteCacheKey) :
    Ensures (router.Keeps right ruleLimit routeLimit) (lookupRoute world key)
      fun found => ∀ slot ∈ found, right key slot := by
  intro state keeps
  rw [lookupRoute, bind_iff, get_iff]
  split
  · exact pure_iff.mpr ⟨keeps, by simp⟩
  · rename_i cache present
    have sound := keeps.routeCache cache present
    simp only [bind_iff, set_iff, pure_iff]
    refine ⟨{ keeps with routeCache := ?_ }, (sound.holds.get key _).1⟩
    rintro _ ⟨⟩
    exact sound.get key _

theorem storeRoute_yields {key : SplitRouteCacheKey} {slot : ℕ} (correct : right key slot)
    (cacheable : Bool) :
    Yields (router.Keeps right ruleLimit routeLimit) (storeRoute world key slot cacheable) () := by
  intro state keeps
  rw [storeRoute, bind_iff, get_iff]
  split
  · rename_i cache present
    refine set_iff.mpr ⟨{ keeps with routeCache := ?_ }, rfl⟩
    rintro _ ⟨⟩
    exact (keeps.routeCache cache present).set _ correct _
  · exact pure_iff.mpr ⟨keeps, rfl⟩

variable (constructed : router.Constructed)

include constructed

theorem Constructed.prepared (parsed : packet.ParsedAt call.buf call.offset) :
    (router.context world call packet).Prepared :=
  ⟨parsed.flow, constructed.subnets⟩

section Memory

variable {memory : SplitEval → Prop}
  (evaluates : (router.context world call packet).Evaluates memory)

include evaluates

theorem Constructed.interpret_yields :
    Yields memory (router.context world call packet).interpret
      (router.context world call packet).slot := by
  rcases constructed.validated with ⟨last, validated⟩
  exact SplitContext.interpret_yields evaluates validated constructed.counted

theorem Constructed.routeBySegments_yields {conds : SplitConds}
    {segments : List SplitRouteSegment} (compiled : router.routeCompiled = some (conds, segments)) :
    Yields memory ((router.context world call packet).routeBySegments conds segments)
      (router.context world call packet).slot := by
  rcases constructed.validated with ⟨last, validated⟩
  exact SplitContext.routeBySegments_yields evaluates validated
    (constructed.compiled.trans (congrArg Except.ok compiled))

theorem Constructed.evaluate_yields :
    Yields memory (router.context world call packet).evaluate
      (router.context world call packet).slot := by
  unfold evaluate
  split
  · rename_i conds segments compiled
    exact constructed.routeBySegments_yields evaluates compiled
  · exact constructed.interpret_yields evaluates

end Memory

theorem Constructed.evaluates (parsed : packet.ParsedAt call.buf call.offset) {limit : ℕ} :
    (router.context world call packet).Evaluates
      ((router.context world call packet).Remembers limit) :=
  (constructed.prepared parsed).evaluates

theorem Constructed.slot_property (property : ℕ → Prop) (dropped : property 0)
    (slots : ∀ instr ∈ router.routeProgram, instr.op = some .slot → instr.param ≤ routerSlots →
      property instr.param) : property (router.context world call packet).slot := by
  rcases constructed.validated with ⟨last, validated⟩
  have targets : ∀ target, .halt target ∈ router.routeProgram.map
      (router.context world call packet).reading.command → property target := by
    intro target member
    rcases mem_map.mp member with ⟨instr, listed, halts⟩
    rcases validated.accepted instr listed with ⟨op, known, accepts⟩
    unfold command at halts
    rw [known] at halts
    cases op <;> cases halts
    · exact dropped
    · exact slots instr listed known (accepts.slot rfl)
  have selected : ∀ answer : Option ℕ, (∀ target ∈ answer, property target) →
      property (answer.getD 0) := by
    rintro (_ | target) fine
    · exact dropped
    · exact fine target rfl
  exact selected _ (BoolStack.run_target targets [])

theorem Constructed.slot_le : (router.context world call packet).slot ≤ routerSlots :=
  constructed.slot_property (· ≤ routerSlots) (Nat.zero_le _) fun _ _ _ small => small

theorem evaluatePacket_ensures (parsed : packet.ParsedAt call.buf call.offset) :
    Ensures (router.Keeps right ruleLimit routeLimit)
      (evaluatePacket (router.context world call packet))
      fun result => result.1 = (router.context world call packet).slot := by
  intro state keeps
  have start : (router.context world call packet).Remembers ruleLimit
      (.start state.ruleCache state.ticks) :=
    remembers_start keeps.ruleCache _
  rcases constructed.evaluate_yields (constructed.evaluates parsed) _ start with
    ⟨slot, ev, computed, kept, equal⟩
  refine ⟨(slot, ev.cacheable), { state with ruleCache := ev.ruleCache, ticks := ev.ticks }, ?_,
    { keeps with ruleCache := kept.ruleCache }, equal⟩
  show evaluatePacket _ state = _
  simp [evaluatePacket, computed, ok_bind]

/-- The result of a call: slot 0 for what is no packet, and a right one otherwise. -/
def Answers (right : SplitRouteCacheKey → ℕ → Prop) (call : SplitCall) (slot : ℕ) : Prop :=
  match parseIPPacket call.buf call.offset with
  | .ok (some packet) => right (splitRouteCacheKeyFromPacket packet call.native) slot
  | _ => slot = 0

def Admits (router : SplitRouter) (world : SplitWorld) (right : SplitRouteCacheKey → ℕ → Prop)
    (call : SplitCall) : Prop :=
  ∀ packet : ParsedIPPacket, packet.ParsedAt call.buf call.offset →
    right (splitRouteCacheKeyFromPacket packet call.native) (router.context world call packet).slot

theorem route_ensures (admits : router.Admits world right call) :
    Ensures (router.Keeps right ruleLimit routeLimit) (router.route world call)
      (Answers right call) := by
  rcases parseIPPacket_spec call.buf call.offset with ⟨result, parsed, wellParsed⟩
  unfold Answers
  rw [parsed]
  refine bind (Yields.lift parsed) ?_
  rintro result rfl
  cases result with
  | none => exact Yields.pure 0
  | some packet =>
    have parsedAt := wellParsed packet rfl
    have correct := admits packet parsedAt
    refine bind (lookupRoute_ensures (splitRouteCacheKeyFromPacket packet call.native)) ?_
    intro found known
    cases found with
    | some slot =>
      intro state keeps
      exact pure_iff.mpr ⟨keeps, known slot rfl⟩
    | none =>
      have windowed : window call.buf call.offset.toNat (call.offset.toNat + packet.total) =
          .ok (router.context world call packet).packetData :=
        window_eq_ok (Nat.le_add_right _ _) parsedAt.inside
      refine bind (Yields.lift windowed) ?_
      rintro _ rfl
      refine bind (evaluatePacket_ensures constructed parsedAt) ?_
      rintro ⟨slot, cacheable⟩ selected
      cases selected
      refine bind (storeRoute_yields correct cacheable) ?_
      intro _ _ state keeps
      exact pure_iff.mpr ⟨keeps, correct⟩

theorem routeAll_ensures {calls : List SplitCall}
    (admits : ∀ call ∈ calls, router.Admits world right call) :
    Ensures (router.Keeps right ruleLimit routeLimit) (router.routeAll world calls)
      fun slots => Forall₂ (Answers right) calls slots :=
  mapM fun call member => route_ensures constructed (admits call member)

end SplitRouter

namespace SplitContext

/-- Two packets of one router with the same route cache key and the same names. -/
structure SameView (ctx other : SplitContext) : Prop where
  router : ctx.router = other.router
  texts : ctx.world.addrString = other.world.addrString
  names : ctx.names = other.names
  src4 : ctx.packet.src4 = value4 ctx.packet.src ∧ other.packet.src4 = value4 other.packet.src
  dst4 : ctx.packet.dst4 = value4 ctx.packet.dst ∧ other.packet.dst4 = value4 other.packet.dst
  key : splitRouteCacheKeyFromPacket ctx.packet ctx.native =
    splitRouteCacheKeyFromPacket other.packet other.native

variable {ctx other : SplitContext}

theorem SameView.testHolds (same : SameView ctx other) (op : Op) (param : ℕ) :
    ctx.testHolds op param = other.testHolds op param := by
  rcases same with ⟨router, texts, names, ⟨src4, otherSrc4⟩, ⟨dst4, otherDst4⟩, key⟩
  simp only [splitRouteCacheKeyFromPacket, SplitRouteCacheKey.mk.injEq] at key
  rcases key with ⟨proto, native, hasPorts, flowOK, src, dst, srcPort, dstPort⟩
  have addr : ∀ endpoint, ctx.packet.addr endpoint = other.packet.addr endpoint := by
    rintro (_ | _)
    · exact src
    · exact dst
  have strings : ∀ endpoint, ctx.stringHolds endpoint = other.stringHolds endpoint := by
    intro endpoint
    funext want
    simp [stringHolds, namesOf, names, router, texts, addr]
  have regexps : ∀ endpoint, ctx.regexpHolds endpoint = other.regexpHolds endpoint := by
    intro endpoint
    funext regexp
    simp [regexpHolds, namesOf, names, router, texts, addr]
  have flow : ctx.packet.flow = other.packet.flow := by
    simp [ParsedIPPacket.flow, proto, src, dst, srcPort, dstPort]
  have rules : ctx.ruleHolds param = other.ruleHolds param := by
    simp [ruleHolds, router, native, hasPorts, flowOK, flow]
  cases op <;>
    simp [SplitContext.testHolds, router, strings, regexps, rules, src4, dst4, otherSrc4, otherDst4,
      proto, hasPorts, src, dst, srcPort, dstPort]

theorem SameView.slot (same : SameView ctx other) : ctx.slot = other.slot := by
  have atoms : ctx.atomHolds = other.atomHolds := by
    funext op param
    unfold atomHolds
    split
    · rfl
    · exact same.testHolds _ _
    · rfl
  have commands : ctx.reading.command = other.reading.command := by
    funext instr
    simp [command, reading, atoms]
  unfold SplitContext.slot
  rw [commands, same.router]

end SplitContext

variable (router : SplitRouter)

namespace SplitRouter

def RouteRight (addrString : Addr → Text) (key : SplitRouteCacheKey) (slot : ℕ) : Prop :=
  ∀ (world : SplitWorld) (call : SplitCall) (packet : ParsedIPPacket),
    world.addrString = addrString → call.names = none → packet.ParsedAt call.buf call.offset →
      key = splitRouteCacheKeyFromPacket packet call.native →
        slot = (router.context world call packet).slot

variable {call : SplitCall}

theorem admits_routeRight (world : SplitWorld) (noNames : call.names = none) :
    router.Admits world (router.RouteRight world.addrString) call := by
  intro packet parsed otherWorld otherCall otherPacket texts otherNoNames otherParsed key
  exact SameView.slot ⟨rfl, texts.symm, noNames.trans otherNoNames.symm,
    ⟨parsed.src4, otherParsed.src4⟩, ⟨parsed.dst4, otherParsed.dst4⟩, key⟩

def slotOf (world : SplitWorld) (call : SplitCall) : ℕ :=
  match parseIPPacket call.buf call.offset with
  | .ok (some packet) => (router.context world call packet).slot
  | _ => 0

theorem route_yields {router : SplitRouter} (constructed : router.Constructed) (world : SplitWorld)
    (noNames : call.names = none) {ruleLimit routeLimit : ℕ} :
    Yields (router.Keeps (router.RouteRight world.addrString) ruleLimit routeLimit)
      (router.route world call) (router.slotOf world call) := by
  intro state keeps
  refine (route_ensures constructed (router.admits_routeRight world noNames) state keeps).mono ?_
  rintro slot after ⟨kept, answers⟩
  refine ⟨kept, ?_⟩
  rcases parseIPPacket_spec call.buf call.offset with ⟨result, parsed, wellParsed⟩
  simp only [Answers, parsed] at answers
  simp only [slotOf, parsed]
  cases result with
  | none => exact answers
  | some packet => exact answers world call packet rfl noNames (wellParsed packet rfl) rfl

theorem slotOf_congr {world other : SplitWorld} (texts : world.addrString = other.addrString)
    (noNames : call.names = none) : router.slotOf world call = router.slotOf other call := by
  rcases parseIPPacket_spec call.buf call.offset with ⟨result, parsed, wellParsed⟩
  simp only [slotOf, parsed]
  cases result with
  | none => rfl
  | some packet =>
    exact router.admits_routeRight world noNames packet (wellParsed packet rfl) other call packet
      texts.symm noNames (wellParsed packet rfl) rfl

end SplitRouter

theorem newSplitResultCache_sound {Key Value : Type} [DecidableEq Key]
    (right : Key → Value → Prop) (ttl maxEntries : ℤ) :
    ∀ cache ∈ (newSplitResultCache ttl maxEntries : Option (ExpiringCache Key Value)),
      cache.Sound right
        (if maxEntries = 0 then defaultSplitRuleCacheMaxEntries else maxEntries.toNat) := by
  intro cache present
  unfold newSplitResultCache at present
  by_cases disabled : ttl < 0 ∨ maxEntries < 0
  · rw [if_pos disabled] at present
    cases present
  · rw [if_neg disabled] at present
    cases present
    exact ExpiringCache.sound_empty _ _

variable {router} {state : SplitState}

theorem SplitRouter.keeps_start (right : SplitRouteCacheKey → ℕ → Prop)
    (ruleCache : state.ruleCache = newSplitResultCache rules.ruleCacheTTL rules.ruleCacheMaxEntries)
    (routeCache : state.routeCache = newSplitRouteResultCache rules.routeCacheTTL
      rules.routeCacheMaxEntries rules.ruleCacheTTL rules.ruleCacheMaxEntries) :
    router.Keeps right rules.ruleCacheLimit rules.routeCacheLimit state := by
  refine ⟨?_, ?_⟩
  · rw [ruleCache]
    exact newSplitResultCache_sound _ _ _
  · rw [routeCache]
    unfold newSplitRouteResultCache SplitBytecodeRules.routeCacheLimit
    split_ifs with inherited
    · exact newSplitResultCache_sound _ _ _
    all_goals
      intro cache present
      simpa [*] using newSplitResultCache_sound right _ _ cache present

section

variable (built : newBytecodeSplitRouter rules = .ok (.ok (router, state)))

include built

theorem newBytecodeSplitRouter_spec :
    router.Constructed ∧
      ∀ right, router.Keeps right rules.ruleCacheLimit rules.routeCacheLimit state := by
  rcases newBytecodeSplitRouter_ok rules with ⟨result, computed, described⟩
  cases computed.symm.trans built
  rcases described router state rfl with ⟨constructed, ruleCache, routeCache⟩
  exact ⟨constructed, fun right => router.keeps_start right ruleCache routeCache⟩

/-- What holds of slot 0 and of the slot of every packet holds of all results of a run, with
the caches that the constructor sets up. -/
theorem SplitRouter.routeAll_property {world : SplitWorld} (property : ℕ → Prop)
    (dropped : property 0)
    (selected : ∀ call packet, property (router.context world call packet).slot)
    (calls : List SplitCall) :
    ∃ slots after, (router.routeAll world calls).run state = .ok (slots, after) ∧
      (∀ slot ∈ slots, property slot) ∧
        router.Keeps (fun _ slot => property slot) rules.ruleCacheLimit rules.routeCacheLimit
          after := by
  rcases newBytecodeSplitRouter_spec built with ⟨constructed, keeps⟩
  rcases routeAll_ensures constructed (fun call _ packet _ => selected call packet) state
    (keeps fun _ slot => property slot) with ⟨slots, after, ran, kept, answers⟩
  refine ⟨slots, after, ran, ?_, kept⟩
  intro slot member
  rcases forall₂_iff_get.mp answers with ⟨sameLength, each⟩
  rcases mem_iff_get.mp member with ⟨position, rfl⟩
  have answered := each position (by omega) position.isLt
  unfold Answers at answered
  split at answered
  · exact answered
  · rw [answered]
    exact dropped

/-- Every sequence of calls returns slots in range, and leaves caches on which the stack
interpreter runs without a fault. -/
theorem SplitRouter.routeAll_ok (world : SplitWorld) (calls : List SplitCall) :
    ∃ slots after, (router.routeAll world calls).run state = .ok (slots, after) ∧
      (∀ slot ∈ slots, slot ≤ routerSlots) ∧
        ∀ call packet, parseIPPacket call.buf call.offset = .ok (some packet) →
          ∃ slot ev, (router.context world call packet).interpret.run
            (.start after.ruleCache after.ticks) = .ok (slot, ev) ∧ slot ≤ routerSlots := by
  rcases newBytecodeSplitRouter_spec built with ⟨constructed, _⟩
  rcases routeAll_property built (· ≤ routerSlots) (Nat.zero_le _)
    (fun _ _ => constructed.slot_le) calls with ⟨slots, after, ran, small, kept⟩
  refine ⟨slots, after, ran, small, ?_⟩
  · intro call packet parsed
    have start : (router.context world call packet).Remembers rules.ruleCacheLimit
        (.start after.ruleCache after.ticks) :=
      remembers_start kept.ruleCache _
    rcases constructed.interpret_yields
        (constructed.evaluates (header_of_parse parsed).parsedAt) _ start with
      ⟨_, ev, computed, _, rfl⟩
    exact ⟨_, ev, computed, constructed.slot_le⟩

def SplitBytecodeRules.withoutCaches (rules : SplitBytecodeRules Rule) :
    SplitBytecodeRules Rule :=
  { rules with ruleCacheTTL := -1, routeCacheTTL := -1 }

theorem newBytecodeSplitRouter_withoutCaches :
    newBytecodeSplitRouter rules.withoutCaches = .ok (.ok (router, ⟨none, none, 0⟩)) := by
  have accepted : validate rules.withoutCaches = validate rules := rfl
  unfold newBytecodeSplitRouter at built ⊢
  rw [accepted]
  split at built
  · cases built
  · rcases of_bind built with ⟨stringOps, marked, built⟩
    rcases of_bind built with ⟨⟨program, depth⟩, decoded, built⟩
    rcases of_bind built with ⟨compiled, computed, built⟩
    simp only [SplitBytecodeRules.withoutCaches, marked, decoded, computed, ok_bind]
    split at built
    · cases built
    · cases built
      rfl

end

end Gonnect.Routing
