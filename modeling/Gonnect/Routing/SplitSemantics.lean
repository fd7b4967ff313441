import Gonnect.Routing.SplitRouter

/-!
# What a split-route program means

The truth of a predicate depends on the packet, on whether it is native, and on the names
that the DNS cache has (`testHolds`). As long as what masks, maps and caches hold is right,
every predicate yields its truth value and leaves them right, and so do the compiled
conditions and the stack interpreter.
-/

namespace Gonnect.Routing

open Checked StraightLine Netip Reaches Function Yields SplitEval BitVec List

def SplitRuleCacheKey.flow (key : SplitRuleCacheKey) : FlowTuple where
  proto := if key.proto = 6 then .tcp else .udp
  localIP := key.src.asSlice
  localPort := key.srcPort
  remoteIP := key.dst.asSlice
  remotePort := key.dstPort

def SplitRouter.RuleRight (router : SplitRouter) (key : SplitRuleCacheKey) (value : Bool) : Prop :=
  ∃ matcher, router.matchers[key.rule]? = some (some matcher) ∧ matcher key.flow = .ok value

def Matcher.holds (matcher : Matcher) (flow : FlowTuple) : Bool :=
  match matcher flow with
  | .ok got => got
  | .error _ => false

def Tables.InRange (tables : Tables) (op : Op) (param : ℕ) : Prop :=
  ∀ entry ∈ tables.indexed op, param < entry.2

structure AtomReading where
  allowed : Option Op → ℕ → Prop
  holds : Option Op → ℕ → Bool
  pushTrue_allowed : allowed (some .pushTrue) 0
  pushTrue_holds : holds (some .pushTrue) 0 = true

def AtomReading.command (reading : AtomReading) (instr : Instr) : BoolStack.Cmd ℕ :=
  match instr.op with
  | some .drop => .halt 0
  | some .slot => .halt instr.param
  | some .pushTrue => .push true
  | some .pushFalse | some .fqdn | some .lfqdn => .push false
  | some .not => .not
  | some .and => .and
  | some .or => .or
  | some op => .push (reading.holds (some op) instr.param)
  | none => .skip

namespace SplitContext

variable (ctx : SplitContext)

def ruleHolds (idx : ℕ) : Bool :=
  match ctx.router.matchers[idx]? with
  | some (some matcher) =>
    ctx.native && ctx.packet.hasPorts && ctx.packet.flowOK && matcher.holds ctx.packet.flow
  | _ => false

variable (endpoint : Endpoint)

def namesOf : List Text :=
  match ctx.names, ctx.router.routeStringOps.at endpoint with
  | some storage, true => storage (ctx.packet.addr endpoint)
  | _, _ => []

def stringHolds (want : Text) : Bool :=
  ctx.world.addrString (ctx.packet.addr endpoint) == want ||
    (ctx.namesOf endpoint).any (dnsNameEqual · want)

def regexpHolds (regexp : Regexp) : Bool :=
  regexp (ctx.world.addrString (ctx.packet.addr endpoint)) ||
    (ctx.namesOf endpoint).any (matchDNSNameRegexp regexp)

def testHolds (op : Op) (param : ℕ) : Bool :=
  let pkt := ctx.packet
  let tables := ctx.router.tables
  match op with
  | .net4 => pkt.src.is4
  | .net6 => pkt.src.is6
  | .udp => pkt.proto == 17
  | .tcp => pkt.proto == 6
  | .addrS => tables.strings[param]?.any (ctx.stringHolds .dst)
  | .laddrS => tables.strings[param]?.any (ctx.stringHolds .src)
  | .addrRe => tables.regexps[param]?.any (ctx.regexpHolds .dst)
  | .laddrRe => tables.regexps[param]?.any (ctx.regexpHolds .src)
  | .addr4 => tables.ipv4Addrs[param]?.any fun want => pkt.dst4 == want && pkt.dst.is4
  | .laddr4 => tables.ipv4Addrs[param]?.any fun want => pkt.src4 == want && pkt.src.is4
  | .addr6 => tables.ipv6Addrs[param]?.any fun want => pkt.dst == want
  | .laddr6 => tables.ipv6Addrs[param]?.any fun want => pkt.src == want
  | .snet4 => pkt.dst.is4 &&
      ctx.router.splitSubnets[param]?.any fun subnet => subnet.contains pkt.dst4
  | .lsnet4 => pkt.src.is4 &&
      ctx.router.splitSubnets[param]?.any fun subnet => subnet.contains pkt.src4
  | .snet6 => tables.ipv6Subnets[param]?.any fun subnet => subnet.contains pkt.dst
  | .lsnet6 => tables.ipv6Subnets[param]?.any fun subnet => subnet.contains pkt.src
  | .port => pkt.hasPorts && param == pkt.dstPort
  | .lport => pkt.hasPorts && param == pkt.srcPort
  | .rule => ctx.ruleHolds param
  | _ => false

def atomHolds (op : Option Op) (param : ℕ) : Bool :=
  match op with
  | some .pushTrue => true
  | some op => ctx.testHolds op param
  | none => false

def reading : AtomReading where
  allowed op param := ∀ known ∈ op, ctx.router.tables.InRange known param
  holds := ctx.atomHolds
  pushTrue_allowed := by
    rintro _ ⟨⟩ entry ⟨⟩
  pushTrue_holds := rfl

def slot : ℕ :=
  (BoolStack.run (ctx.router.routeProgram.map ctx.reading.command) []).getD 0

structure Remembers (limit : ℕ) (ev : SplitEval) : Prop where
  masks : ∀ idx < 64, ev.ruleValueMask.getLsbD idx =
    (ev.ruleSeenMask.getLsbD idx && ctx.ruleHolds idx)
  localRules : ∀ entry ∈ ev.localRules, entry.2 = ctx.ruleHolds entry.1
  flow : ev.flow = if ev.flowDone && ctx.packet.flowOK then some ctx.packet.flow else none
  names : ∀ endpoint, ∀ names ∈ ev.reverseNames endpoint, names = ctx.namesOf endpoint
  ruleCache : ∀ cache ∈ ev.ruleCache, cache.Sound ctx.router.RuleRight limit

/-- The packet of the context is a parsed one: its flow is the one that it spells out. -/
def FlowKnown : Prop :=
  ctx.packet.flowOK = true →
    flowTupleFromOutgoingIPPacket ctx.packetData = .ok (.ok ctx.packet.flow)

variable {ctx} {limit : ℕ}

theorem remembers_start {ruleCache : Option SplitRuleCache}
    (sound : ∀ cache ∈ ruleCache, cache.Sound ctx.router.RuleRight limit) (ticks : ℕ) :
    ctx.Remembers limit (.start ruleCache ticks) where
  masks := by simp [start]
  localRules := by simp [start]
  flow := by simp [start]
  names := by simp [start]
  ruleCache := sound

/-! ### What the steps of an evaluation change

The parts of the memory that a step leaves alone need no invariant. -/

theorem now_reaches (ev : SplitEval) :
    Reaches ev ctx.now fun now after =>
      now = (if ev.cacheNow = 0 then ctx.world.clock ev.ticks else ev.cacheNow) ∧
        ∃ ticks, after = { ev with cacheNow := now, ticks := ticks } := by
  simp only [now, readClock, bind_iff, get_iff]
  split_ifs with unset
  · simp only [bind_iff, get_iff, set_iff, modify_iff,
      pure_iff]
    exact ⟨trivial, _, rfl⟩
  · exact pure_iff.mpr ⟨rfl, ev.ticks, rfl⟩

variable {ev : SplitEval} {param : ℕ}

theorem packetFlow_reaches (known : ctx.FlowKnown)
    (noted : ev.flow = if ev.flowDone && ctx.packet.flowOK then some ctx.packet.flow else none) :
    Reaches ev ctx.packetFlow fun found after =>
      found = (if ctx.packet.flowOK then some ctx.packet.flow else none) ∧
        ∃ cacheable, after = { ev with flowDone := true, flow := found, cacheable := cacheable } := by
  simp only [packetFlow, bind_iff, get_iff]
  split_ifs with done flowOK notOK
  · refine pure_iff.mpr ⟨by simp [noted, done, flowOK], ev.cacheable, ?_⟩
    rw [← done]
  · refine pure_iff.mpr ⟨by simp [noted, done, flowOK], ev.cacheable, ?_⟩
    rw [← done]
  · simp only [bind_iff, set_iff, lift_ok (known notOK), modify_iff,
      pure_iff]
    exact ⟨trivial, _, rfl⟩
  · simp only [bind_iff, set_iff, pure_iff]
    refine ⟨by simp [noted, done], ev.cacheable, rfl⟩

theorem askMatcher_reaches (known : ctx.FlowKnown) (flowOK : ctx.packet.flowOK = true)
    (matcher : Matcher)
    (noted : ev.flow = if ev.flowDone && ctx.packet.flowOK then some ctx.packet.flow else none) :
    Reaches ev (ctx.askMatcher matcher) fun answer after =>
      answer = (match matcher ctx.packet.flow with | .ok got => some got | .error _ => none) ∧
        ∃ cacheable, after = { ev with
          flowDone := true, flow := some ctx.packet.flow, cacheable := cacheable } := by
  rw [askMatcher, bind_iff]
  refine (packetFlow_reaches known noted).mono ?_
  rintro found _ ⟨rfl, cacheable, rfl⟩
  rw [if_pos flowOK]
  dsimp only
  cases matcher ctx.packet.flow with
  | ok got => exact pure_iff.mpr ⟨rfl, cacheable, rfl⟩
  | error failure =>
    simp only [bind_iff, modify_iff, pure_iff]
    exact ⟨trivial, false, rfl⟩

theorem reverseDNSNames_reaches (endpoint : Endpoint)
    (noted : ∀ endpoint, ∀ names ∈ ev.reverseNames endpoint, names = ctx.namesOf endpoint) :
    Reaches ev (ctx.reverseDNSNames endpoint) fun names after =>
      names = ctx.namesOf endpoint ∧
        (∀ endpoint, ∀ names ∈ after.reverseNames endpoint, names = ctx.namesOf endpoint) ∧
        (after.cacheNow = ev.cacheNow ∨ ev.cacheNow = 0 ∧ after.cacheNow = ctx.world.clock ev.ticks) ∧
        ∃ cacheable ticks, after = { ev with
          reverseNames := after.reverseNames, cacheNow := after.cacheNow
          cacheable := cacheable, ticks := ticks } := by
  rw [reverseDNSNames, bind_iff, get_iff]
  split
  · rename_i names stored
    exact pure_iff.mpr ⟨noted endpoint names stored, noted, .inl rfl, _, _, rfl⟩
  · rename_i storage _ present enabled
    have meant : ctx.namesOf endpoint = storage (ctx.packet.addr endpoint) := by
      simp [namesOf, present, enabled]
    rw [meant, bind_iff, modify_iff, bind_iff]
    refine (now_reaches _).mono ?_
    rintro now _ ⟨reading, ticks, rfl⟩
    simp only [bind_iff, modify_iff, pure_iff]
    refine ⟨trivial, ?_, ?_, false, ticks, rfl⟩
    · intro other names stored
      by_cases same : other = endpoint
      · subst same
        simp only [update_self, Option.mem_some_iff] at stored
        exact stored.symm.trans meant.symm
      · simp only [update_of_ne same] at stored
        exact noted other names stored
    · dsimp only at reading
      split_ifs at reading with unset
      · exact .inr ⟨unset, reading⟩
      · exact .inl reading
  · rename_i _ disabled
    refine pure_iff.mpr ⟨?_, noted, .inl rfl, _, _, rfl⟩
    unfold namesOf
    split
    · rename_i storage present enabled
      exact absurd enabled (disabled storage present)
    · rfl

theorem readClock_ensures : Ensures (ctx.Remembers limit) ctx.readClock fun _ => True := by
  intro ev remembers
  simp only [readClock, bind_iff, get_iff, set_iff, pure_iff,
    and_true]
  exact { remembers with }

theorem now_ensures : Ensures (ctx.Remembers limit) ctx.now fun _ => True := by
  intro ev remembers
  refine (now_reaches ev).mono ?_
  rintro now _ ⟨_, ticks, rfl⟩
  exact ⟨{ remembers with }, trivial⟩

theorem askMatcher_yields (known : ctx.FlowKnown) (flowOK : ctx.packet.flowOK = true)
    (matcher : Matcher) :
    Yields (ctx.Remembers limit) (ctx.askMatcher matcher)
      (match matcher ctx.packet.flow with | .ok got => some got | .error _ => none) := by
  intro ev remembers
  refine (askMatcher_reaches known flowOK matcher remembers.flow).mono ?_
  rintro answer _ ⟨answered, cacheable, rfl⟩
  exact ⟨{ remembers with flow := by simp [flowOK] }, answered⟩

theorem lookupRule_ensures (key : SplitRuleCacheKey) (now : ℤ) :
    Ensures (ctx.Remembers limit) (lookupRule key now)
      fun found => ∀ got ∈ found, ctx.router.RuleRight key got := by
  intro ev remembers
  simp only [lookupRule, modifyGet_iff]
  cases present : ev.ruleCache with
  | none => exact ⟨remembers, by simp⟩
  | some cache =>
    have sound := remembers.ruleCache cache present
    refine ⟨{ remembers with ruleCache := ?_ }, (sound.holds.get key now).1⟩
    rintro _ ⟨⟩
    exact sound.get key now

theorem storeRule_yields {key : SplitRuleCacheKey} {got : Bool}
    (right : ctx.router.RuleRight key got) :
    Yields (ctx.Remembers limit) (ctx.storeRule key got) () := by
  refine Ensures.bind readClock_ensures ?_
  intro fresh _ ev remembers
  refine modify_iff.mpr ⟨{ remembers with ruleCache := ?_ }, rfl⟩
  intro cache stored
  rcases Option.map_eq_some_iff.mp stored with ⟨before, present, rfl⟩
  exact (remembers.ruleCache before present).set _ right fresh

theorem matchRule_yields (known : ctx.FlowKnown) (native : ctx.native = true) {idx : ℕ}
    (inside : idx < ctx.router.matchers.length) :
    Yields (ctx.Remembers limit) (ctx.matchRule idx idx) (ctx.ruleHolds idx) := by
  rcases exists_index inside with ⟨entry, found, read⟩
  unfold matchRule ruleHolds
  rw [found]
  cases ports : ctx.packet.hasPorts with
  | false =>
    cases entry <;> simp <;> exact pure false
  | true =>
    simp only [Bool.not_true, Bool.false_eq_true, if_false]
    refine bind (lift read) ?_
    cases entry with
    | none => exact pure false
    | some matcher =>
      cases flowOK : ctx.packet.flowOK with
      | false => simpa [ports, flowOK] using pure false
      | true =>
        simp only [native, Bool.not_true, Bool.false_eq_true, if_false, Bool.and_self,
          Bool.true_and]
        have asked : Yields (ctx.Remembers limit) (ctx.askMatcher matcher) _ :=
          askMatcher_yields known flowOK matcher
        -- The cache decides which branch is taken, and both yield the matcher's answer.
        intro ev remembers
        rw [bind_iff, get_iff]
        cases ev.ruleCache with
        | none =>
          refine bind asked ?_ ev remembers
          unfold Matcher.holds
          cases matcher ctx.packet.flow <;> exact pure _
        | some cache =>
          refine Ensures.bind now_ensures ?_ ev remembers
          intro now _
          refine Ensures.bind (lookupRule_ensures (ctx.ruleCacheKey idx) now) ?_
          intro hit right
          cases hit with
          | some got =>
            rcases right got rfl with ⟨other, same, answer⟩
            cases found.symm.trans same
            have equal : matcher.holds ctx.packet.flow = got := by
              simp only [Matcher.holds]
              rw [show matcher ctx.packet.flow = .ok got from answer]
            rw [equal]
            exact pure got
          | none =>
            refine bind asked ?_
            unfold Matcher.holds
            cases answer : matcher ctx.packet.flow with
            | error failure => exact pure false
            | ok got =>
              exact bind (storeRule_yields ⟨matcher, found, answer⟩)
                (pure got)

theorem Remembers.see (remembers : ctx.Remembers limit ev) (small : param < 64) :
    ctx.Remembers limit
      { ev with
        ruleSeenMask := ev.ruleSeenMask ||| twoPow 64 param
        ruleValueMask :=
          if ctx.ruleHolds param then ev.ruleValueMask ||| twoPow 64 param
          else ev.ruleValueMask } := by
  refine { remembers with masks := ?_ }
  intro idx inside
  have before := remembers.masks idx inside
  by_cases same : idx = param
  · subst same
    cases holds : ctx.ruleHolds idx <;> simp_all
  · cases holds : ctx.ruleHolds param <;> simp_all

theorem Remembers.note (remembers : ctx.Remembers limit ev) : ctx.Remembers limit
    { ev with localRules := (param, ctx.ruleHolds param) :: ev.localRules } := by
  refine { remembers with localRules := ?_ }
  intro entry member
  rcases mem_cons.mp member with rfl | old
  · rfl
  · exact remembers.localRules entry old

/-- A rule is read from the memory of the evaluation, or it is asked for and then noted. -/
theorem rule_noted {Holds : SplitEval → Prop} {param : ℕ}
    (masks : ∀ ev, Holds ev → param < 64 → ev.ruleValueMask.getLsbD param =
      (ev.ruleSeenMask.getLsbD param && ctx.ruleHolds param))
    (localRules : ∀ ev, Holds ev → ∀ entry ∈ ev.localRules, entry.2 = ctx.ruleHolds entry.1)
    (asked : ctx.native = true → param < ctx.router.matchers.length → ∀ ev, Holds ev →
      (param < 64 → ¬ev.ruleSeenMask.getLsbD param = true) →
      (64 ≤ param → ∀ entry ∈ ev.localRules, entry.1 ≠ param) →
      Reaches ev (ctx.matchRule param param) fun got after => got = ctx.ruleHolds param ∧
        (param < 64 → Holds { after with
          ruleSeenMask := after.ruleSeenMask ||| twoPow 64 param
          ruleValueMask :=
            if got then after.ruleValueMask ||| twoPow 64 param
            else after.ruleValueMask }) ∧
        (64 ≤ param → Holds { after with localRules := (param, got) :: after.localRules })) :
    Yields Holds (ctx.rule param) (ctx.ruleHolds param) := by
  unfold rule
  cases native : ctx.native with
  | false =>
    have never : ctx.ruleHolds param = false := by
      unfold ruleHolds
      split <;> simp [native]
    rw [never]
    exact pure false
  | true =>
    simp only [Bool.not_true, Bool.false_eq_true, if_false]
    split_ifs with outside small
    · have never : ctx.ruleHolds param = false := by
        simp [ruleHolds, List.getElem?_eq_none outside]
      rw [never]
      exact pure false
    · intro ev holds
      rw [bind_iff, get_iff]
      split_ifs with seen
      · refine pure_iff.mpr ⟨holds, ?_⟩
        simp [masks ev holds small, seen]
      · rw [bind_iff]
        refine (asked native (Nat.lt_of_not_le outside) ev holds (fun _ => seen) (by omega)).mono ?_
        rintro _ later ⟨rfl, see, _⟩
        simp only [bind_iff, modify_iff, pure_iff, and_true]
        exact see small
    · intro ev holds
      rw [bind_iff, get_iff]
      split
      · rename_i entry present
        refine pure_iff.mpr ⟨holds, ?_⟩
        have same : entry.1 = param := by simpa using find?_some present
        rw [localRules ev holds entry (mem_of_find?_eq_some present), same]
      · rename_i absent
        rw [bind_iff]
        refine (asked native (Nat.lt_of_not_le outside) ev holds (absurd · small)
          fun _ => by simpa using absent).mono ?_
        rintro _ later ⟨rfl, _, note⟩
        simp only [bind_iff, modify_iff, pure_iff, and_true]
        exact note (Nat.le_of_not_lt small)

theorem rule_yields (known : ctx.FlowKnown) (param : ℕ) :
    Yields (ctx.Remembers limit) (ctx.rule param) (ctx.ruleHolds param) := by
  refine rule_noted (fun ev remembers => remembers.masks param)
    (fun ev remembers => remembers.localRules) ?_
  intro native inside ev remembers _ _
  refine (matchRule_yields known native inside ev remembers).mono ?_
  rintro _ later ⟨kept, rfl⟩
  exact ⟨rfl, kept.see, fun _ => kept.note⟩

theorem reverseDNSNames_yields (endpoint : Endpoint) :
    Yields (ctx.Remembers limit) (ctx.reverseDNSNames endpoint) (ctx.namesOf endpoint) := by
  intro ev remembers
  refine (reverseDNSNames_reaches endpoint remembers.names).mono ?_
  rintro names after ⟨meant, noted, _, cacheable, ticks, changed⟩
  rw [changed]
  exact ⟨{ remembers with names := noted }, meant⟩

/-- The memory of an evaluation serves its purpose: rules and names yield what they mean,
whatever is remembered. -/
structure Evaluates (ctx : SplitContext) (memory : SplitEval → Prop) : Prop where
  rule : ∀ param, Yields memory (ctx.rule param) (ctx.ruleHolds param)
  names : ∀ endpoint, Yields memory (ctx.reverseDNSNames endpoint) (ctx.namesOf endpoint)
  subnets : ctx.router.splitSubnets.length = ctx.router.tables.ipv4Subnets.length

variable {memory : SplitEval → Prop}

structure Prepared (ctx : SplitContext) : Prop where
  flow : ctx.FlowKnown
  subnets : ctx.router.splitSubnets.length = ctx.router.tables.ipv4Subnets.length

theorem Prepared.evaluates (prepared : ctx.Prepared) : ctx.Evaluates (ctx.Remembers limit) :=
  ⟨rule_yields prepared.flow, reverseDNSNames_yields, prepared.subnets⟩

theorem matchString_yields (evaluates : ctx.Evaluates memory) (endpoint : Endpoint) (want : Text) :
    Yields memory (ctx.matchString endpoint want) (ctx.stringHolds endpoint want) := by
  unfold matchString stringHolds
  split_ifs with same
  · simpa [same] using pure true
  · have different : (ctx.world.addrString (ctx.packet.addr endpoint) == want) = false := by
      simpa using same
    rw [different, Bool.false_or]
    exact bind (evaluates.names endpoint) (pure _)

theorem matchRegexp_yields (evaluates : ctx.Evaluates memory) (endpoint : Endpoint)
    (regexp : Regexp) :
    Yields memory (ctx.matchRegexp endpoint regexp) (ctx.regexpHolds endpoint regexp) := by
  unfold matchRegexp regexpHolds
  split_ifs with matched
  · simpa [matched] using pure true
  · rw [Bool.not_eq_true] at matched
    rw [matched, Bool.false_or]
    exact bind (evaluates.names endpoint) (pure _)

variable {test : SplitM Bool}

theorem guarded_yields {guard value : Bool} (yieldsTest : Yields memory test value) :
    Yields memory (if guard then test else pure false) (guard && value) := by
  cases guard with
  | false => exact pure false
  | true => exact yieldsTest

theorem withEntry_yields {α : Type} {table : List α} (inside : param < table.length)
    {test : α → SplitM Bool} {value : α → Bool}
    (yieldsTest : ∀ entry, Yields memory (test entry) (value entry)) :
    Yields memory (withEntry table param test) (table[param]?.any value) := by
  rw [List.getElem?_eq_getElem inside]
  exact bind (lift (index_eq_ok inside)) (yieldsTest _)

theorem test_yields (evaluates : ctx.Evaluates memory) {op : Op}
    (inRange : ctx.router.tables.InRange op param) (listed : ctx.test op param = some test) :
    Yields memory test (ctx.testHolds op param) := by
  have inside : ∀ {table : String} {size : ℕ},
      ctx.router.tables.indexed op = some (table, size) → param < size :=
    fun indexed => inRange _ indexed
  cases op <;> cases listed
  case net4 | net6 | udp | tcp | port | lport => exact pure _
  case addrS => exact withEntry_yields (inside rfl) (matchString_yields evaluates .dst)
  case laddrS => exact withEntry_yields (inside rfl) (matchString_yields evaluates .src)
  case addrRe => exact withEntry_yields (inside rfl) (matchRegexp_yields evaluates .dst)
  case laddrRe => exact withEntry_yields (inside rfl) (matchRegexp_yields evaluates .src)
  case addr4 | laddr4 | addr6 | laddr6 | snet6 | lsnet6 =>
      exact withEntry_yields (inside rfl) fun _ => pure _
  case snet4 | lsnet4 =>
      exact guarded_yields
        (withEntry_yields (evaluates.subnets ▸ inside rfl) fun _ => pure _)
  case rule => exact evaluates.rule param

end SplitContext

end Gonnect.Routing
