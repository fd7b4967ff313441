import Gonnect.Routing.MethodPrograms
import Gonnect.Routing.SplitRouting

/-!
# Guarantees of the bytecode interpreters

The main results about routing bytecode: programs that a constructor accepts run
without a fault and end in range, the two forms of a split-route program agree, and
the caches of the split router cannot be observed.
-/

namespace Gonnect.Routing

open Checked Netip RouterCfg SplitRouter

def sampleSplitRules : SplitBytecodeRules Unit where
  system := some fun _ => .ok (some fun flow => .ok (flow.remotePort == 53))
  rules := [()]
  ruleCacheTTL := 0
  ruleCacheMaxEntries := 2
  routeCacheTTL := 0
  routeCacheMaxEntries := 0
  tables := ⟨[], [], [], [], [], []⟩
  route := [Op.tcp.toByte, Op.udp.toByte, Op.or.toByte, Op.rule.toByte, 0, 0, Op.and.toByte,
    Op.slot.toByte, 3]

def sampleSplitWorld : SplitWorld where
  clock reading := reading
  ruleOrder _ := default
  routeOrder _ := default
  addrString _ := []

def sampleSplitCall : SplitCall where
  buf := [0x45, 0, 0, 28, 0, 0, 0, 0, 64, 17, 0, 0, 10, 0, 0, 1, 10, 0, 0, 2,
    0x12, 0x34, 0, 53, 0, 8, 0, 0]
  offset := 0
  native := true
  names := none

theorem sampleSplitRules_built :
    ∃ router state conds segments,
      newBytecodeSplitRouter sampleSplitRules = .ok (.ok (router, state)) ∧
        router.routeCompiled = some (conds, segments) := by
  have accepted : (newBytecodeSplitRouter sampleSplitRules).toOption.any fun built =>
      built.toOption.any fun pair => pair.1.routeCompiled.isSome := by decide +kernel
  rcases exists_built accepted with ⟨router, state, built, accepted⟩
  rcases Option.isSome_iff_exists.mp accepted with ⟨⟨conds, segments⟩, compiled⟩
  exact ⟨router, state, conds, segments, built, compiled⟩

theorem sampleSplitCall_parses :
    ∃ packet, parseIPPacket sampleSplitCall.buf sampleSplitCall.offset = .ok (some packet) := by
  have parses : (parseIPPacket sampleSplitCall.buf sampleSplitCall.offset).toOption.any
      Option.isSome := by decide +kernel
  rcases exists_of_any parses with ⟨_ | packet, parsed, parses⟩
  · cases parses
  · exact ⟨packet, parsed⟩

/-- The compiled segments and the stack interpreter select the same slot, in every state
that earlier calls can leave behind. -/
theorem routeBySegments_eq_interpret {Rule : Type} {rules : SplitBytecodeRules Rule}
    {router : SplitRouter} {state : SplitState}
    (built : newBytecodeSplitRouter rules = .ok (.ok (router, state)))
    {conds : SplitConds} {segments : List SplitRouteSegment}
    (compiled : router.routeCompiled = some (conds, segments))
    {world : SplitWorld} {history : List SplitCall} {slots : List ℕ} {later : SplitState}
    (ran : (router.routeAll world history).run state = .ok (slots, later))
    {call : SplitCall} {packet : ParsedIPPacket}
    (parsed : parseIPPacket call.buf call.offset = .ok (some packet)) :
    ∃ slot bySegments byStack,
      ((router.context world call packet).routeBySegments conds segments).run
          (.start later.ruleCache later.ticks) = .ok (slot, bySegments) ∧
        (router.context world call packet).interpret.run
          (.start later.ruleCache later.ticks) = .ok (slot, byStack) := by
  rcases newBytecodeSplitRouter_spec built with ⟨constructed, keeps⟩
  rcases (routeAll_ensures constructed (fun _ _ _ _ => trivial) state
    (keeps fun _ _ => True)).of_run ran with ⟨kept, _⟩
  have parsedAt := (header_of_parse parsed).parsedAt
  have start : (router.context world call packet).Remembers rules.ruleCacheLimit
      (.start later.ruleCache later.ticks) :=
    SplitContext.remembers_start kept.ruleCache _
  rcases constructed.routeBySegments_yields (constructed.evaluates parsedAt) compiled _ start with
    ⟨_, bySegments, segmentsRan, _, rfl⟩
  rcases constructed.interpret_yields (constructed.evaluates parsedAt) _ start with
    ⟨_, byStack, stackRan, _, rfl⟩
  exact ⟨_, bySegments, byStack, segmentsRan, stackRan⟩

theorem routeBySegments_eq_interpret_sample :
    ∃ router state conds segments packet,
      newBytecodeSplitRouter sampleSplitRules = .ok (.ok (router, state)) ∧
        router.routeCompiled = some (conds, segments) ∧
        parseIPPacket sampleSplitCall.buf sampleSplitCall.offset = .ok (some packet) ∧
        ∃ slot bySegments byStack,
          ((router.context sampleSplitWorld sampleSplitCall packet).routeBySegments conds
              segments).run (.start state.ruleCache state.ticks) = .ok (slot, bySegments) ∧
            (router.context sampleSplitWorld sampleSplitCall packet).interpret.run
              (.start state.ruleCache state.ticks) = .ok (slot, byStack) := by
  rcases sampleSplitRules_built with ⟨router, state, conds, segments, built, compiled⟩
  rcases sampleSplitCall_parses with ⟨packet, parsed⟩
  exact ⟨router, state, conds, segments, packet, built, compiled, parsed,
    routeBySegments_eq_interpret built compiled (rfl : (router.routeAll _ []).run _ = _) parsed⟩

/-- A router with caches returns call by call the slots of the same router without, and
its caches stay within their limits. The two routers may see different clocks and walk
their maps in different orders. -/
theorem routeAll_eq_withoutCaches {Rule : Type} {rules : SplitBytecodeRules Rule}
    {router : SplitRouter} {state : SplitState}
    (built : newBytecodeSplitRouter rules = .ok (.ok (router, state)))
    {world plainWorld : SplitWorld} (texts : plainWorld.addrString = world.addrString)
    {calls : List SplitCall} (noDNS : ∀ call ∈ calls, call.names = none) :
    (∃ slots after plainState plainAfter,
      newBytecodeSplitRouter rules.withoutCaches = .ok (.ok (router, plainState)) ∧
      plainState.ruleCache = none ∧ plainState.routeCache = none ∧
      (router.routeAll world calls).run state = .ok (slots, after) ∧
      (router.routeAll plainWorld calls).run plainState = .ok (slots, plainAfter) ∧
      (∀ cache ∈ after.ruleCache,
        cache.maxEntries = rules.ruleCacheLimit ∧ cache.entries.length ≤ rules.ruleCacheLimit) ∧
      ∀ cache ∈ after.routeCache,
        cache.maxEntries = rules.routeCacheLimit ∧ cache.entries.length ≤ rules.routeCacheLimit) ∧
    (∀ (cache : SplitRuleCache) order key value now,
      (cache.set order key value now).entries.length ≤ cache.maxEntries) ∧
    ∀ (cache : SplitRouteCache) order key slot now,
      (cache.set order key slot now).entries.length ≤ cache.maxEntries := by
  refine ⟨?_, fun cache => cache.length_set_le, fun cache => cache.length_set_le⟩
  rcases newBytecodeSplitRouter_spec built with ⟨constructed, keeps⟩
  have plainKeeps : router.Keeps (router.RouteRight plainWorld.addrString) 0 0 ⟨none, none, 0⟩ :=
    ⟨by simp, by simp⟩
  rcases Yields.mapM (fun call member => route_yields constructed world
    (noDNS call member)) state (keeps _) with ⟨_, after, cached, kept, rfl⟩
  rcases Yields.mapM (fun call member => route_yields constructed plainWorld
    (noDNS call member)) _ plainKeeps with ⟨_, plainAfter, plain, _, rfl⟩
  have same : calls.map (router.slotOf plainWorld) = calls.map (router.slotOf world) :=
    List.map_congr_left fun call member => router.slotOf_congr texts (noDNS call member)
  rw [same] at plain
  refine ⟨_, after, _, plainAfter, newBytecodeSplitRouter_withoutCaches built, rfl, rfl, cached,
    plain, ?_, ?_⟩
  · intro cache present
    exact ⟨(kept.ruleCache cache present).configured, (kept.ruleCache cache present).bounded⟩
  · intro cache present
    exact ⟨(kept.routeCache cache present).configured, (kept.routeCache cache present).bounded⟩

theorem routeAll_eq_withoutCaches_sample :
    ∃ router state plainState slots after plainAfter,
      newBytecodeSplitRouter sampleSplitRules = .ok (.ok (router, state)) ∧
        newBytecodeSplitRouter sampleSplitRules.withoutCaches = .ok (.ok (router, plainState)) ∧
        (router.routeAll sampleSplitWorld [sampleSplitCall, sampleSplitCall]).run state =
          .ok (slots, after) ∧
        (router.routeAll sampleSplitWorld [sampleSplitCall, sampleSplitCall]).run plainState =
          .ok (slots, plainAfter) := by
  rcases sampleSplitRules_built with ⟨router, state, _, _, built, _⟩
  rcases routeAll_eq_withoutCaches built (rfl : sampleSplitWorld.addrString = _)
    (by simp [sampleSplitCall] : ∀ call ∈ [sampleSplitCall, sampleSplitCall], call.names = none) with
    ⟨⟨slots, after, plainState, plainAfter, plainBuilt, _, _, cached, plain, _⟩, _⟩
  exact ⟨router, state, plainState, slots, after, plainAfter, built, plainBuilt, cached, plain⟩

/-- Programs that a constructor accepts run without a fault, and end in range. -/
theorem bytecode_interpreters_safe :
    (∀ (rules : BytecodeRules) (cfg : RouterCfg), newBytecodeRouterCfg rules = .ok cfg →
      ∀ call storage, ∃ slot, cfg.select call storage = .ok slot ∧ slot ≤ 16) ∧
    (∀ (Factory Mutation : Type) (library : TextLibrary)
      (rules : SnifferBytecodeRules Factory Mutation) (cfg : SnifferControls Factory Mutation),
      newBytecodeSnifferControls library rules = .ok cfg → ∀ call failed result storage,
        (∃ action, cfg.controlAction call storage = .ok action ∧ action.slot ≤ 255) ∧
          ∃ action, cfg.sniffControlAction call failed result storage = .ok action ∧
            action.slot ≤ 255) ∧
    (∀ (rules : RemapperBytecodeRules) (cfg : BytecodeRemapperRules),
      newBytecodeRemapRules rules = .ok cfg → ∀ rule ∈ cfg.rules, ∀ info storage,
        ∃ matched, cfg.filter rule info storage = .ok matched) ∧
    (∀ (library : TextLibrary) (rules : DNSBytecodeRules) (cfg : DNSRouteFunc),
      newBytecodeDNSRouteFunc rules = .ok cfg → ∀ message,
        ∃ name, cfg.exec library message = .ok name ∧ (name = [] ∨ name ∈ cfg.backends)) ∧
    ∀ (Rule : Type) (rules : SplitBytecodeRules Rule) (router : SplitRouter) (state : SplitState),
      newBytecodeSplitRouter rules = .ok (.ok (router, state)) →
        ∀ world calls, ∃ slots after, (router.routeAll world calls).run state = .ok (slots, after) ∧
          (∀ slot ∈ slots, slot ≤ 16) ∧
            ∀ call packet, parseIPPacket call.buf call.offset = .ok (some packet) →
              ∃ slot ev, (router.context world call packet).interpret.run
                (.start after.ruleCache after.ticks) = .ok (slot, ev) ∧ slot ≤ 16 := by
  refine ⟨?_, ?_, ?_, ?_, ?_⟩
  · intro rules cfg constructed call storage
    rcases newBytecodeRouterCfg_ok constructed with ⟨_, _, valid⟩
    rcases valid call.program with ⟨_, _, _, accepted⟩
    rw [select_eq]
    exact exec_ok accepted _ _ _ _
  · intro Factory Mutation library rules cfg constructed call failed result storage
    exact SnifferControls.actions_ok constructed call failed result
  · intro rules cfg constructed rule member info storage
    exact BytecodeRemapperRules.filter_ok constructed member info
  · intro library rules cfg constructed message
    exact DNSRouteFunc.exec_ok constructed message
  · intro Rule rules router state built world calls
    exact routeAll_ok built world calls

def noTables : RawTables :=
  ⟨[], [], [], [], [], []⟩

def dialRules : BytecodeRules where
  tables := noTables
  dialTCP := [Op.tcp.toByte, Op.slot.toByte, 7]
  listenTCP := []
  dialUDP := []
  routeUDP := []
  lookup := []

def routeActionRules : SnifferBytecodeRules Unit Unit where
  classifiers := []
  tables := noTables
  routeActions := [⟨200, ()⟩]
  control := [Op.tcp.toByte, Op.route.toByte, 0, 0]
  sniffControl := []

def remapPortRules : RemapperBytecodeRules where
  tables := noTables
  rules := [⟨[Op.tcp.toByte], .dst, .port, [], bytes "53"⟩]

def backendRules : DNSBytecodeRules where
  backends := [bytes "a"]
  tables := noTables
  route := [Op.pushTrue.toByte, Op.backend.toByte, 0, 0]

theorem bytecode_interpreters_safe_sample :
    (∃ cfg, newBytecodeRouterCfg dialRules = .ok cfg ∧ ∀ call storage, ∃ slot,
      cfg.select call storage = .ok slot ∧ slot ≤ 16) ∧
    (∃ cfg, newBytecodeSnifferControls asciiLibrary.toTextLibrary routeActionRules = .ok cfg ∧
      ∀ call storage, ∃ action, cfg.controlAction call storage = .ok action ∧
        action.slot ≤ 255) ∧
    (∃ cfg, newBytecodeRemapRules remapPortRules = .ok cfg ∧ ∀ rule ∈ cfg.rules,
      ∀ info storage, ∃ matched, cfg.filter rule info storage = .ok matched) ∧
    (∃ cfg, newBytecodeDNSRouteFunc backendRules = .ok cfg ∧ ∀ message, ∃ name,
      cfg.exec asciiLibrary.toTextLibrary message = .ok name ∧
        (name = [] ∨ name ∈ cfg.backends)) ∧
    ∃ router state slots after,
      newBytecodeSplitRouter sampleSplitRules = .ok (.ok (router, state)) ∧
        (router.routeAll sampleSplitWorld [sampleSplitCall]).run state = .ok (slots, after) ∧
        ∀ slot ∈ slots, slot ≤ 16 := by
  have accepts {ε α : Type} (built : Except ε α) (succeeds : built.toOption.any fun _ => true) :
      ∃ cfg, built = .ok cfg := by
    rcases exists_of_any succeeds with ⟨cfg, isBuilt, _⟩
    exact ⟨cfg, isBuilt⟩
  rcases bytecode_interpreters_safe with ⟨router, sniffer, remapper, dns, split⟩
  refine ⟨?_, ?_, ?_, ?_, ?_⟩
  · rcases accepts (newBytecodeRouterCfg dialRules) (by decide +kernel) with ⟨cfg, built⟩
    exact ⟨cfg, built, router _ _ built⟩
  · rcases accepts (newBytecodeSnifferControls asciiLibrary.toTextLibrary routeActionRules)
      (by decide +kernel) with ⟨cfg, built⟩
    exact ⟨cfg, built, fun call storage => (sniffer _ _ _ _ _ built call false 0 storage).1⟩
  · rcases accepts (newBytecodeRemapRules remapPortRules) (by decide +kernel) with ⟨cfg, built⟩
    exact ⟨cfg, built, remapper _ _ built⟩
  · rcases accepts (newBytecodeDNSRouteFunc backendRules) (by decide +kernel) with ⟨cfg, built⟩
    exact ⟨cfg, built, dns _ _ _ built⟩
  · rcases sampleSplitRules_built with ⟨router, state, _, _, built, _⟩
    rcases split _ _ router state built sampleSplitWorld [sampleSplitCall] with
      ⟨slots, after, ran, bounded, _⟩
    exact ⟨router, state, slots, after, built, ran, bounded⟩

end Gonnect.Routing
