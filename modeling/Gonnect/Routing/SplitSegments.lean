import Gonnect.Routing.SplitArena
import Gonnect.Routing.SplitInterpreter

/-!
# The compiled form of a split-route program

The compiler runs the program on a stack of nodes. In a model of the final arena those nodes
have truth values, and the run mirrors that of the abstract machine on these values. A
terminal that takes the last node becomes a segment, unless its condition is the constant
that never holds; after one that always holds the machine stops, and so does the compiler.
-/

namespace Gonnect.Routing

open Checked StraightLine List BoolStack SplitConds Yields SplitCond SplitRouter

def SplitPredicate.holds (reading : AtomReading) (pred : SplitPredicate) : Bool :=
  if pred.not then !reading.holds pred.op pred.param else reading.holds pred.op pred.param

def SplitFastCondKind.holds (reading : AtomReading) (preds : List SplitPredicate) :
    SplitFastCondKind → Option Bool
  | .none => Option.none
  | .all => some (preds.all (·.holds reading))
  | .any => some (preds.any (·.holds reading))

namespace SplitConds

variable {reading : AtomReading} {conds : SplitConds} {idx : ℕ}

section

variable (wellFormed : conds.WellFormed reading)

include wellFormed

theorem WellFormed.atom {op : Option Op} {param : ℕ}
    (stored : conds[idx]? = some (.atom op param)) :
    reading.allowed op param ∧ ∀ truth, Models reading conds truth →
      reading.holds op param = truth idx :=
  ⟨wellFormed.atoms op param (mem_of_getElem? stored),
    fun _ models => (models idx _ stored).symm⟩

theorem WellFormed.child {child : ℕ} (stored : conds[idx]? = some (.not child)) :
    ∃ node, conds[child]? = some node ∧ index conds child = .ok node := by
  have inside := List.getElem?_eq_some_iff.mp stored
  have earlier := wellFormed.backward idx _ stored child (by simp [children])
  exact exists_index (earlier.trans inside.1)

theorem childPredicates_ok {children : List ℕ} (inside : ∀ child ∈ children, child < conds.length) :
    ∃ found, conds.childPredicates children = .ok found ∧ ∀ preds ∈ found,
      (∀ pred ∈ preds, reading.allowed pred.op pred.param) ∧
        ∀ truth, Models reading conds truth → preds.map (·.holds reading) = children.map truth := by
  induction children with
  | nil => exact ⟨some [], rfl, by simp⟩
  | cons child rest ih =>
    rcases ih fun other member => inside other (by simp [member]) with ⟨found, read, sound⟩
    rcases exists_index (inside child (by simp)) with ⟨node, stored, isNode⟩
    -- One more predicate, which has the value of the first operand.
    have extend : ∀ pred : SplitPredicate, reading.allowed pred.op pred.param →
        (∀ truth, Models reading conds truth → pred.holds reading = truth child) →
        ∀ preds ∈ found.map (pred :: ·), (∀ pred ∈ preds, reading.allowed pred.op pred.param) ∧
          ∀ truth, Models reading conds truth →
            preds.map (·.holds reading) = (child :: rest).map truth := by
      intro pred allowed means preds member
      rcases Option.map_eq_some_iff.mp member with ⟨tail, present, rfl⟩
      rcases sound tail present with ⟨allowedTail, meansTail⟩
      refine ⟨by simpa using ⟨allowed, allowedTail⟩, fun truth models => ?_⟩
      simp [means truth models, meansTail truth models]
    simp only [childPredicates, isNode, ok_bind]
    cases node with
    | atom op param =>
      rcases wellFormed.atom stored with ⟨allowed, means⟩
      exact ⟨_, by simp [read, ok_bind], extend ⟨op, param, false⟩ allowed means⟩
    | not grandchild =>
      rcases wellFormed.child stored with ⟨inner, isInner, readInner⟩
      simp only [readInner, ok_bind]
      split
      · rename_i op param
        rcases wellFormed.atom isInner with ⟨allowed, means⟩
        refine ⟨_, by simp [read, ok_bind], extend ⟨op, param, true⟩ allowed ?_⟩
        intro truth models
        simp [SplitPredicate.holds, means truth models, models child _ stored, holds]
      · exact ⟨none, rfl, by simp⟩
    | const value =>
      refine ⟨_, by simp [read, ok_bind],
        extend ⟨some .pushTrue, 0, !value⟩ reading.pushTrue_allowed ?_⟩
      intro truth models
      rw [models child _ stored]
      cases value <;> simp [SplitPredicate.holds, reading.pushTrue_holds, holds]
    | join kind nodes => exact ⟨none, rfl, by simp⟩

theorem fastPredicates_ok (inside : idx < conds.length) :
    ∃ kind preds, conds.fastPredicates idx = .ok (kind, preds) ∧
      (∀ pred ∈ preds, reading.allowed pred.op pred.param) ∧
        ∀ truth, Models reading conds truth → ∀ value ∈ kind.holds reading preds,
          value = truth idx := by
  rcases exists_index inside with ⟨node, stored, isNode⟩
  simp only [fastPredicates, isNode, ok_bind]
  cases node with
  | const value =>
    refine ⟨_, _, rfl, by simp, fun truth models => ?_⟩
    rw [models idx _ stored]
    cases value <;> simp [SplitFastCondKind.holds, holds]
  | atom op param =>
    rcases wellFormed.atom stored with ⟨allowed, means⟩
    refine ⟨_, _, rfl, by simpa using allowed, fun truth models => ?_⟩
    simp [SplitFastCondKind.holds, SplitPredicate.holds, means truth models]
  | not child =>
    rcases wellFormed.child stored with ⟨inner, isInner, readInner⟩
    simp only [readInner, ok_bind]
    split
    · rename_i op param
      rcases wellFormed.atom isInner with ⟨allowed, means⟩
      refine ⟨_, _, rfl, by simpa using allowed, fun truth models => ?_⟩
      simp [SplitFastCondKind.holds, SplitPredicate.holds, means truth models,
        models idx _ stored, holds]
    · exact ⟨_, _, rfl, by simp, by simp [SplitFastCondKind.holds]⟩
  | join kind children =>
    have insideChildren : ∀ child ∈ children, child < conds.length := fun child member =>
      lt_trans (wellFormed.backward idx _ stored child member) inside
    rcases childPredicates_ok wellFormed insideChildren with ⟨found, read, sound⟩
    simp only [read, ok_bind]
    cases found with
    | none => exact ⟨_, _, rfl, by simp, by simp [SplitFastCondKind.holds]⟩
    | some preds =>
      rcases sound preds rfl with ⟨allowed, means⟩
      cases kind with
      | and | or =>
        refine ⟨_, _, rfl, allowed, ?_⟩
        rintro truth models _ ⟨⟩
        rw [models idx _ stored, holds, ← means truth models, SplitJoin.combine]
        simp [all_map, any_map]

end

end SplitConds

def SplitRouteSegment.target (segment : SplitRouteSegment) : ℕ :=
  if segment.drop then 0 else segment.slot

def selectSegment (truth : ℕ → Bool) : List SplitRouteSegment → ℕ
  | [] => 0
  | segment :: rest => if truth segment.cond then segment.target else selectSegment truth rest

/-- The predicates of a segment may be used in place of its condition. -/
structure SplitRouteSegment.Faithful (reading : AtomReading) (conds : SplitConds)
    (segment : SplitRouteSegment) : Prop where
  inside : segment.cond < conds.length
  allowed : ∀ pred ∈ segment.fastPreds, reading.allowed pred.op pred.param
  means : ∀ truth, Models reading conds truth →
    ∀ value ∈ segment.fastKind.holds reading segment.fastPreds, value = truth segment.cond
  slot : segment.slot ≤ routerSlots

variable {reading : AtomReading} {segment : SplitRouteSegment}

theorem SplitRouteSegment.Faithful.mono {conds later : SplitConds}
    (faithful : segment.Faithful reading conds) (grown : conds <+: later) :
    segment.Faithful reading later :=
  { faithful with
    inside := lt_of_lt_of_le faithful.inside grown.length_le
    means := fun truth models => faithful.means truth (models.mono grown) }

def terminalTarget (drop : Bool) (param : ℕ) : ℕ :=
  if drop then 0 else param

variable {drop : Bool} {param : ℕ}

theorem terminalTarget_le (small : drop = false → param ≤ routerSlots) :
    terminalTarget drop param ≤ routerSlots := by
  cases drop with
  | true => exact Nat.zero_le _
  | false => exact small rfl

theorem segmentSlot_eq (small : drop = false → param ≤ routerSlots) :
    (if drop then 0 else (bytecodeParamInt param routerSlots).getD 0) =
      terminalTarget drop param := by
  cases drop with
  | true => rfl
  | false =>
    have fits : ¬ (param : ℤ) > (routerSlots : ℕ) := by
      have := small rfl
      omega
    have nonneg : ¬ ((routerSlots : ℕ) : ℤ) < 0 := by omega
    simp [bytecodeParamInt, terminalTarget, fits, nonneg]

variable {conds : SplitConds}

theorem compileSegment_ok {cond : ℕ} (wellFormed : conds.WellFormed reading)
    (inside : cond < conds.length) (drop : Bool) (small : drop = false → param ≤ routerSlots) :
    ∃ compiled final, compileSegment conds cond drop param = .ok (compiled, final) ∧
      (∀ segment ∈ compiled, segment.Faithful reading conds) ∧
        ∀ truth, Models reading conds truth → (final = true → truth cond = true) ∧
          ∀ rest, selectSegment truth (compiled ++ rest) =
            if truth cond then terminalTarget drop param else selectSegment truth rest := by
  rcases constValue_ok reading inside with ⟨const, read, known⟩
  rcases fastPredicates_ok wellFormed inside with ⟨kind, preds, fast, allowed, means⟩
  simp only [compileSegment, read, ok_bind]
  by_cases never : const = some false
  · rw [if_pos never]
    refine ⟨[], false, rfl, by simp, fun truth models => ⟨by simp, fun rest => ?_⟩⟩
    simp [known false never truth models]
  · simp only [if_neg never, fast, ok_bind, segmentSlot_eq small]
    refine ⟨_, _, rfl, ?_, fun truth models => ⟨?_, fun rest => ?_⟩⟩
    · simpa using ⟨inside, allowed, means, terminalTarget_le small⟩
    · intro constant
      rcases Option.isSome_iff_exists.mp constant with ⟨value, equal⟩
      rw [known value equal truth models]
      cases value with
      | true => rfl
      | false => exact absurd equal never
    · cases drop <;> simp [selectSegment, SplitRouteSegment.target, terminalTarget]

structure Compiled (reading : AtomReading) (conds : SplitConds)
    (segments : List SplitRouteSegment) (selected : (ℕ → Bool) → ℕ)
    (result : SplitConds × List SplitRouteSegment) : Prop where
  grown : conds <+: result.1
  wellFormed : result.1.WellFormed reading
  added : ∃ compiled, result.2 = segments ++ compiled ∧
    (∀ segment ∈ compiled, segment.Faithful reading result.1) ∧
      ∀ truth, Models reading result.1 truth →
        selectSegment truth compiled = selected truth

variable {meaning : (ℕ → Bool) → Bool} {between : ℕ × SplitConds}

theorem Compiled.after_built {segments : List SplitRouteSegment} {later selected : (ℕ → Bool) → ℕ}
    {result : SplitConds × List SplitRouteSegment}
    (compiled : Compiled reading between.2 segments later result)
    (built : Built reading conds meaning between)
    (same : ∀ truth, truth between.1 = meaning truth → later truth = selected truth) :
    Compiled reading conds segments selected result := by
  rcases compiled.added with ⟨added, appended, faithful, selects⟩
  refine ⟨built.grown.trans compiled.grown, compiled.wellFormed, added, appended, faithful, ?_⟩
  intro truth models
  rw [selects truth models]
  exact same truth (built.means truth (models.mono compiled.grown))

variable {program : List Instr}

namespace AtomReading

variable (reading)

/-- The compiler does not fault, and what it makes of the rest of the program selects
what the abstract machine selects. -/
def Compiles (program : List Instr) (conds : SplitConds) (stack : List ℕ)
    (segments : List SplitRouteSegment) : Prop :=
  ∃ result, compileLoop program conds stack segments = .ok result ∧
    ∀ compiled ∈ result, Compiled reading conds segments
      (fun truth => (run (program.map reading.command) (stack.map truth)).getD 0) compiled

variable {reading} {instr : Instr} {rest : List Instr} {stack : List ℕ}
    {segments : List SplitRouteSegment}

theorem Compiles.rejected (computed : compileLoop program conds stack segments = .ok none) :
    reading.Compiles program conds stack segments :=
  ⟨none, computed, by simp⟩

theorem Compiles.built {after : List ℕ} {made : Checked (ℕ × SplitConds)}
    (builds : ∃ between, made = .ok between ∧ Built reading conds meaning between)
    (compiles : ∀ between, Built reading conds meaning between →
      reading.Compiles rest between.2 (between.1 :: after) segments)
    (computed : compileLoop (instr :: rest) conds stack segments = do
      let (node, conds) ← made
      compileLoop rest conds (node :: after) segments)
    (runs : ∀ truth, run (reading.command instr :: rest.map reading.command)
      (stack.map truth) = run (rest.map reading.command) (meaning truth :: after.map truth)) :
    reading.Compiles (instr :: rest) conds stack segments := by
  rcases builds with ⟨between, rfl, built⟩
  rcases compiles between built with ⟨result, compiled, sound⟩
  refine ⟨result, computed.trans compiled, fun final present => ?_⟩
  refine (sound final present).after_built built fun truth means => ?_
  simp [runs truth, means]

theorem Compiles.terminal {cond : ℕ} {drop : Bool} (wellFormed : conds.WellFormed reading)
    (inside : cond < conds.length) (small : drop = false → instr.param ≤ routerSlots)
    (compiles : ∀ segments, reading.Compiles rest conds [] segments)
    (computed : compileLoop (instr :: rest) conds [cond] segments = do
      let (compiled, final) ← compileSegment conds cond drop instr.param
      if final then .ok (some (conds, segments ++ compiled))
      else compileLoop rest conds [] (segments ++ compiled))
    (halts : reading.command instr = .halt (terminalTarget drop instr.param)) :
    reading.Compiles (instr :: rest) conds [cond] segments := by
  rcases compileSegment_ok wellFormed inside drop small with
    ⟨compiled, final, made, faithful, selects⟩
  simp only [made, ok_bind] at computed
  cases final with
  | true =>
    refine ⟨_, computed, ?_⟩
    rintro _ ⟨⟩
    refine ⟨prefix_rfl, wellFormed, compiled, rfl, faithful, fun truth models => ?_⟩
    rcases selects truth models with ⟨always, first⟩
    have matched := first []
    rw [append_nil, if_pos (always rfl)] at matched
    simp [matched, halts, always rfl]
  | false =>
    rcases compiles (segments ++ compiled) with ⟨result, continued, sound⟩
    refine ⟨result, computed.trans continued, fun later present => ?_⟩
    have extended := sound later present
    rcases extended.added with ⟨added, appended, faithfulAdded, selectsAdded⟩
    refine ⟨extended.grown, extended.wellFormed, compiled ++ added, by simp [appended], ?_, ?_⟩
    · intro segment member
      rcases mem_append.mp member with old | new
      · exact (faithful segment old).mono extended.grown
      · exact faithfulAdded segment new
    · intro truth models
      rw [(selects truth (models.mono extended.grown)).2, selectsAdded truth models]
      simp only [map_cons, map_nil, halts, run_halt]
      split_ifs <;> rfl

theorem compileLoop_compiles {tables : Tables}
    (allows : ∀ op param, tables.InRange op param → reading.allowed (some op) param)
    (accepted : ∀ instr ∈ program, ∃ op, instr.op = some op ∧
      Accepts tables op instr.param)
    (wellFormed : conds.WellFormed reading) (inside : ∀ node ∈ stack, node < conds.length) :
    reading.Compiles program conds stack segments := by
  induction program generalizing conds stack segments with
  | nil =>
    by_cases empty : stack = []
    · refine ⟨some (conds, segments), by simp [compileLoop, empty], ?_⟩
      rintro _ ⟨⟩
      exact ⟨prefix_rfl, wellFormed, [], by simp, by simp, fun _ _ => rfl⟩
    · exact .rejected (by simp [compileLoop, empty])
  | cons instr rest ih =>
    have acceptedRest : ∀ instr ∈ rest, ∃ op, instr.op = some op ∧
        Accepts tables op instr.param :=
      fun other member => accepted other (by simp [member])
    -- The rest of the program, after the builder has made the new top of the stack.
    have proceed : ∀ {meaning : (ℕ → Bool) → Bool} {below : List ℕ},
        (∀ node ∈ below, node < conds.length) →
          ∀ between, Built reading conds meaning between →
            reading.Compiles rest between.2 (between.1 :: below) segments := by
      intro meaning below insideBelow between built
      refine ih acceptedRest built.wellFormed fun node member => ?_
      rcases mem_cons.mp member with rfl | old
      · exact built.inside
      · exact lt_of_lt_of_le (insideBelow node old) built.grown.length_le
    rcases accepted instr (by simp) with ⟨op, known, accepts⟩
    rcases instr with ⟨_, param⟩
    cases known
    have atom := wellFormed.append (.atom (some op) param) (by simp [children]) <| by
      rintro _ _ ⟨⟩
      exact allows op param accepts.inRange
    cases op
    case drop | slot =>
        rcases stack with _ | ⟨cond, _ | _⟩
        · exact .rejected rfl
        · refine .terminal wellFormed (inside cond (by simp)) (fun kept => ?_)
            (fun _ => ih acceptedRest wellFormed (by simp)) rfl rfl
          first | exact accepts.slot rfl | cases kept
        · exact .rejected rfl
    case pushTrue =>
        exact .built ⟨_, rfl, wellFormed.trueCond⟩ (proceed inside) rfl fun _ => rfl
    case pushFalse | fqdn | lfqdn =>
        exact .built ⟨_, rfl, wellFormed.falseCond⟩ (proceed inside) rfl fun _ => rfl
    case not =>
        rcases stack with _ | ⟨cond, below⟩
        · exact .rejected rfl
        · exact .built (not_built wellFormed (inside cond (by simp)))
            (proceed fun node member => inside node (by simp [member])) rfl fun _ => rfl
    case and | or =>
        rcases stack with _ | ⟨right, _ | ⟨left, below⟩⟩
        · exact .rejected rfl
        · exact .rejected rfl
        · refine .built ?_ (proceed fun node member => inside node (by simp [member])) rfl
            fun _ => rfl
          first
            | exact and_built wellFormed (inside left (by simp)) (inside right (by simp))
            | exact or_built wellFormed (inside left (by simp)) (inside right (by simp))
    case dial | listen | lookup => exact absurd accepts.notMethod (by decide)
    case intercept | sniff | sniffNone | route => exact absurd accepts.notSniffer (by decide)
    case backend | qtype | qclass | opcode => exact absurd accepts.notDNS (by decide)
    all_goals exact .built ⟨_, rfl, atom⟩ (proceed inside) rfl fun _ => rfl

end AtomReading

theorem SplitRouter.Validated.accepted {tables : Tables} {start last : ℕ}
    (validated : Validated tables program start last) :
    ∀ instr ∈ program, ∃ op, instr.op = some op ∧ Accepts tables op instr.param := by
  intro instr member
  rcases validated.forall_mem instr member with ⟨_, _, op, known, accepts, _⟩
  exact ⟨op, known, accepts⟩

namespace SplitContext

variable {ctx : SplitContext} {segments : List SplitRouteSegment} {memory : SplitEval → Prop}

theorem atom_yields (evaluates : ctx.Evaluates memory) {op : Option Op} {param : ℕ}
    (allowed : ctx.reading.allowed op param) :
    Yields memory (ctx.atom op param) (ctx.reading.holds op param) := by
  cases op with
  | none => exact pure false
  | some op =>
    have inRange : ctx.router.tables.InRange op param := allowed op rfl
    cases op
    case pushTrue => exact pure true
    case pushFalse | fqdn | lfqdn => exact pure false
    case drop | slot | not | and | or | dial | listen | lookup | intercept | sniff | sniffNone |
        route | backend | qtype | qclass | opcode => exact pure false
    all_goals exact test_yields evaluates inRange rfl

theorem predicate_eq (pred : SplitPredicate) :
    ctx.predicate pred =
      ctx.atom pred.op pred.param >>= fun got => pure (if pred.not then !got else got) := by
  rcases pred with ⟨_ | op, param, negated⟩
  · rfl
  · cases op <;> rfl

section

variable (evaluates : ctx.Evaluates memory)

include evaluates

theorem predicate_yields {pred : SplitPredicate}
    (allowed : ctx.reading.allowed pred.op pred.param) :
    Yields memory (ctx.predicate pred) (pred.holds ctx.reading) := by
  rw [predicate_eq]
  exact bind (atom_yields evaluates allowed) (pure _)

theorem predicates_yields {kind : SplitFastCondKind} {preds : List SplitPredicate} {value : Bool}
    (allowed : ∀ pred ∈ preds, ctx.reading.allowed pred.op pred.param)
    (holds : kind.holds ctx.reading preds = some value) :
    Yields memory (ctx.predicates kind preds) value := by
  cases kind <;> cases holds
  case all => exact allM fun pred member => predicate_yields evaluates (allowed pred member)
  case any => exact anyM fun pred member => predicate_yields evaluates (allowed pred member)

variable {truth : ℕ → Bool}

section

variable (wellFormed : conds.WellFormed ctx.reading)

include wellFormed

theorem evalCond_yields
    (models : Models ctx.reading conds truth) {depth idx : ℕ} (deep : idx < depth)
    (inside : idx < conds.length) : Yields memory (ctx.evalCond conds depth idx) (truth idx) := by
  induction depth generalizing idx with
  | zero => exact absurd deep (Nat.not_lt_zero _)
  | succ depth ih =>
    rcases exists_index inside with ⟨node, stored, read⟩
    have child : ∀ other ∈ node.children,
        Yields memory (ctx.evalCond conds depth other) (truth other) := by
      intro other member
      have earlier := wellFormed.backward idx _ stored other member
      exact ih (by omega) (by omega)
    rw [models idx _ stored]
    refine bind (lift read) ?_
    cases node with
    | const value => exact pure value
    | atom op param => exact atom_yields evaluates (wellFormed.atom stored).1
    | not nodes => exact bind (child _ (by simp [children])) (pure _)
    | join kind nodes =>
      cases kind with
      | and =>
        have all : Yields memory _ (nodes.all truth) := allM child
        simpa [holds, SplitJoin.combine, all_map] using all
      | or =>
        have any : Yields memory _ (nodes.any truth) := anyM child
        simpa [holds, SplitJoin.combine, any_map] using any

theorem segmentMatched_yields (models : SplitConds.Models ctx.reading conds truth)
    (faithful : segment.Faithful ctx.reading conds) :
    Yields memory (ctx.segmentMatched conds segment) (truth segment.cond) := by
  unfold segmentMatched
  split
  · exact evalCond_yields evaluates wellFormed models faithful.inside faithful.inside
  · rename_i kind notNone
    have present : ∃ value, segment.fastKind.holds ctx.reading segment.fastPreds = some value := by
      cases listed : segment.fastKind with
      | none => exact absurd listed notNone
      | all | any => exact ⟨_, rfl⟩
    rcases present with ⟨value, holds⟩
    rw [← faithful.means truth models value holds]
    split
    · rename_i param single
      -- The shortcut for a single rule predicate.
      have same : value = ctx.ruleHolds param := by
        rw [single] at holds
        cases kind : segment.fastKind <;> rw [kind] at holds <;> cases holds
        · exact Bool.and_true _
        · exact Bool.or_false _
      rw [same]
      exact evaluates.rule param
    · exact predicates_yields evaluates faithful.allowed holds

theorem routeBySegments_selects (models : SplitConds.Models ctx.reading conds truth)
    (faithful : ∀ segment ∈ segments, segment.Faithful ctx.reading conds) :
    Yields memory (ctx.routeBySegments conds segments) (selectSegment truth segments) := by
  induction segments with
  | nil => exact pure 0
  | cons segment rest ih =>
    refine bind
      (segmentMatched_yields evaluates wellFormed models (faithful segment (by simp))) ?_
    simp only [selectSegment]
    cases truth segment.cond with
    | true => exact pure _
    | false => exact ih fun other member => faithful other (by simp [member])

end

theorem routeBySegments_yields {last : ℕ}
    (validated : Validated ctx.router.tables ctx.router.routeProgram 0 last)
    (compiled : compileLoop ctx.router.routeProgram .initial [] [] = .ok (some (conds, segments))) :
    Yields memory (ctx.routeBySegments conds segments) ctx.slot := by
  have allows : ∀ op param, ctx.router.tables.InRange op param →
      ctx.reading.allowed (some op) param := by
    rintro op param inRange _ ⟨⟩
    exact inRange
  have compiles : ctx.reading.Compiles ctx.router.routeProgram .initial [] [] :=
    AtomReading.compileLoop_compiles allows validated.accepted wellFormed_initial (by simp)
  rcases compiles with ⟨result, computed, sound⟩
  cases computed.symm.trans compiled
  rcases sound _ rfl with ⟨_, wellFormed, _, rfl, faithful, selects⟩
  rcases exists_models wellFormed.backward with ⟨truth, models⟩
  have selected : selectSegment truth segments = ctx.slot := selects truth models
  rw [← selected]
  exact routeBySegments_selects evaluates wellFormed models faithful

end

end SplitContext

end Gonnect.Routing
