import Gonnect.Routing.ParserMeaning

/-!
# Programs for single methods

`NewBytecodeRulesProgram` gives a method of the router only the segments of a program that
can trigger for the method. A segment that is left out has a condition that is false in
every call of the method. But the segments share one stack: a segment may leave values
behind, and a later segment may use them as operands.
-/

namespace Gonnect.Routing

open Checked StraightLine List BoolStack RuleToken RouterCfg BoolState RouterProgram RuleDraft Netip
  Command Option

def EndsOnce (library : ParserLibrary) (segment : List RuleLine) : Prop :=
  ∀ front line back, segment = front ++ line :: back →
    bytecodeRuleLineEndsSegment library line = true → back = []

variable {library : ParserLibrary} {ev : Eval} {draft : RuleDraft} {cfg : RouterCfg}
  {tokens : List RuleToken} {lines segment : List RuleLine} {line : RuleLine}
  {method : BytecodeMethod} {values : RuleToken → Bool}

theorem splitSegments_endsOnce
    (open_ : ∀ line ∈ segment, bytecodeRuleLineEndsSegment library line = false) :
    ∀ part ∈ splitSegments library lines segment, EndsOnce library part := by
  induction lines generalizing segment with
  | nil =>
    intro part member
    rw [splitSegments] at member
    split_ifs at member with empty
    · cases member
    · obtain rfl := mem_singleton.mp member
      rintro front line back rfl isEnd
      have notEnd := open_ line (by simp)
      rw [notEnd] at isEnd
      cases isEnd
  | cons line lines ih =>
    intro part member
    rw [splitSegments] at member
    split_ifs at member with isEnd
    · rcases mem_cons.mp member with rfl | later
      · rintro front last back split isLast
        -- An ending line before the last one would be among the lines of an open segment.
        rcases eq_nil_or_concat back with rfl | ⟨rest, final, rfl⟩
        · rfl
        · have same : segment = front ++ last :: rest := by
            have joined : segment ++ [line] = (front ++ last :: rest) ++ [final] := by
              rw [split]
              simp
            exact (append_inj' joined rfl).1
          have notEnd := open_ last (by rw [same]; simp)
          rw [notEnd] at isLast
          cases isLast
      · exact ih (by simp) part later
    · refine ih ?_ part member
      intro other isMember
      rcases mem_append.mp isMember with earlier | last
      · exact open_ other earlier
      · obtain rfl := mem_singleton.mp last
        exact Bool.eq_false_iff.mpr isEnd

theorem EndsOnce.tail (ends : EndsOnce library (line :: lines)) : EndsOnce library lines := by
  rintro front last back rfl isEnd
  exact ends (line :: front) last back rfl isEnd

theorem EndsOnce.last (ends : EndsOnce library (line :: lines))
    (isEnd : bytecodeRuleLineEndsSegment library line = true) : lines = [] :=
  ends [] line lines rfl isEnd

variable {op : Op} {a b : BoolState} {x y : Bool} {after : RuleDraft} {rules : BytecodeRules}
  {call : RouterCall} {slot : ℕ}

theorem endsSegment_of_terminal (notSkipped : line.skipped library = false)
    (isOp : line.op? library = some op) (isTerminal : op.isTerminal = true) :
    bytecodeRuleLineEndsSegment library line = true := by
  have named : bytes op.name = library.toUpper (splitRuleLine line.text).1 := by
    have found := find?_some isOp
    simpa using found
  rw [bytecodeRuleLineEndsSegment, notSkipped, ← named]
  cases op with
  | drop | slot | intercept | route | backend => decide
  | _ => cases isTerminal

def BoolState.Describes : BoolState → Bool → Prop
  | .no, value => value = false
  | .yes, value => value = true
  | .unknown, _ => True

theorem BoolState.Describes.not {state : BoolState} {value : Bool} (known : state.Describes value) :
    state.not.Describes (!value) := by
  cases state with
  | no | yes => exact congrArg Bool.not known
  | unknown => trivial

theorem BoolState.Describes.and (first : a.Describes x) (second : b.Describes y) :
    (a.and b).Describes (x && y) := by
  cases a <;> cases b <;> simp_all [and, Describes]

theorem BoolState.Describes.or (first : a.Describes x) (second : b.Describes y) :
    (a.or b).Describes (x || y) := by
  cases a <;> cases b <;> simp_all [or, Describes]

theorem BoolState.describes_ofBool (value : Bool) : (BoolState.ofBool value).Describes value := by
  cases value <;> rfl

structure Eval.Of (ev : Eval) (method : BytecodeMethod) : Prop where
  dial : ev.isDial = (method == .dial)
  listen : ev.isListen = (method == .listen)
  lookup : ev.isLookup = (method == .lookup)

/-- The truth of an opcode in a call of a method, where any predicate but the three about
the method has the given value. -/
def Op.methodTruth (method : BytecodeMethod) (value : Bool) : Op → Bool
  | .dial => method == .dial
  | .listen => method == .listen
  | .lookup => method == .lookup
  | _ => value

/-- What a line does in a call of a method, for any values of the run-time predicates. -/
def RuleToken.commandWith (library : ParserLibrary) (method : BytecodeMethod)
    (values : RuleToken → Bool) (token : RuleToken) : Cmd ℕ :=
  token.op.stackCommand (token.op.methodTruth method (values token)) (token.target library)

theorem RuleToken.command_eq_commandWith (ofMethod : ev.Of method) :
    command library ev = commandWith library method (holds library ev) := by
  funext ⟨op, arg, hasArg⟩
  cases op with
  | dial => exact congrArg Cmd.push ofMethod.dial
  | listen => exact congrArg Cmd.push ofMethod.listen
  | lookup => exact congrArg Cmd.push ofMethod.lookup
  | _ => rfl

theorem canTriggerStep_sound {token : RuleToken} {states after : List BoolState}
    {stack : List Bool} (known : Forall₂ Describes states stack)
    (stepped : canTriggerStep method token.op states = some after)
    (notTerminal : token.op.isTerminal = false) :
    ∃ next, step (token.commandWith library method values) stack = .next next ∧
      (token.commandWith library method values).depth stack.length = some next.length ∧
      Forall₂ Describes after next := by
  rcases token with ⟨op, arg, hasArg⟩
  cases op with
  | drop | slot | intercept | route | backend => cases notTerminal
  | pushTrue | pushFalse =>
    cases stepped
    exact ⟨_, rfl, rfl, .cons rfl known⟩
  | not =>
    cases known with
    | nil => cases stepped
    | cons first rest =>
      cases stepped
      exact ⟨_, rfl, rfl, .cons first.not rest⟩
  | and | or =>
    rcases known with _ | ⟨second, _ | ⟨first, rest⟩⟩
    · cases stepped
    · cases stepped
    · cases stepped
      first
        | exact ⟨_, rfl, rfl, .cons (first.and second) rest⟩
        | exact ⟨_, rfl, rfl, .cons (first.or second) rest⟩
  | dial | listen | lookup =>
    cases stepped
    exact ⟨_, rfl, rfl, .cons (describes_ofBool _) known⟩
  | _ =>
    cases stepped
    exact ⟨_, rfl, rfl, .cons trivial known⟩

def commandsWith (library : ParserLibrary) (method : BytecodeMethod) (values : RuleToken → Bool)
    (segment : List RuleLine) : List (Cmd ℕ) :=
  (ruleTokens library segment).map (commandWith library method values)

def segmentCommands (library : ParserLibrary) (ev : Eval) (segment : List RuleLine) :
    List (Cmd ℕ) :=
  (ruleTokens library segment).map (command library ev)

def RuleLine.token (line : RuleLine) (op : Op) : RuleToken :=
  ⟨op, (splitRuleLine line.text).2.1, (splitRuleLine line.text).2.2⟩

theorem ruleTokens_cons (notSkipped : line.skipped library = false)
    (isOp : line.op? library = some op) :
    ruleTokens library (line :: lines) = line.token op :: ruleTokens library lines := by
  have isToken : line.token? library = some (line.token op) := by
    rw [RuleLine.token?, notSkipped, isOp]
    rfl
  rw [ruleTokens, filterMap_cons_some isToken]
  rfl

theorem canTriggerLoop_sound (values : RuleToken → Bool) :
    ∀ {states : List BoolState} {stack : List Bool} {hasMethodOp : Bool},
      EndsOnce library lines →
      canTriggerLoop library method lines states hasMethodOp = false →
      Forall₂ Describes states stack →
        (depth (commandsWith library method values lines) stack.length).isSome ∧
          run (commandsWith library method values lines) stack = none := by
  induction lines with
  | nil =>
    intro states stack hasMethodOp _ never _
    cases never
  | cons line lines ih =>
    intro states stack hasMethodOp ends never known
    unfold canTriggerLoop at never
    split_ifs at never with isSkipped
    · have absent : line.token? library = none := if_pos isSkipped
      rw [commandsWith, ruleTokens, filterMap_cons_none absent]
      exact ih ends.tail never known
    · split at never
      · cases never
      · rename_i op isOp
        have notSkipped : line.skipped library = false := Bool.eq_false_iff.mpr isSkipped
        rw [commandsWith, ruleTokens_cons notSkipped isOp, map_cons]
        split_ifs at never with isTerminal
        · -- The condition of the segment is on top of the stack, and it is false.
          have terminalOp : op.isTerminal = true := by
            rcases isTerminal with rfl | rfl <;> rfl
          obtain rfl := ends.last (endsSegment_of_terminal notSkipped isOp terminalOp)
          have halts : (line.token op).commandWith library method values =
              .halt ((line.token op).target library) := Op.stackCommand_terminal terminalOp _ _
          rw [halts]
          cases known with
          | nil => cases never
          | cons first rest =>
            rename_i condition value _ _
            have isFalse : value = false := by
              cases condition with
              | no => exact first
              | yes | unknown => simp at never
            rw [isFalse]
            exact ⟨rfl, rfl⟩
        · split at never
          · cases never
          · rename_i after stepped
            have notTerminal : op.isTerminal = false := by
              -- Another terminal would be the last line, and the loop would end there.
              refine Bool.eq_false_iff.mpr fun terminalOp => ?_
              obtain rfl := ends.last (endsSegment_of_terminal notSkipped isOp terminalOp)
              cases never
            obtain ⟨next, taken, tall, knownNext⟩ :=
              @canTriggerStep_sound library method values (line.token op) _ _ _ known stepped
                notTerminal
            rcases ih ends.tail never knownNext with ⟨enough, quiet⟩
            rw [depth, tall, run_cons, taken]
            exact ⟨enough, quiet⟩

/-- A segment that cannot trigger for a method has a condition of its own, and it is false
in every call of the method. -/
theorem segment_quiet (ofMethod : ev.Of method) (ends : EndsOnce library segment)
    (never : bytecodeSegmentCanTrigger library segment method = false) :
    Closed (segmentCommands library ev segment) ∧
      run (segmentCommands library ev segment) [] = none := by
  rw [segmentCommands, command_eq_commandWith ofMethod]
  exact canTriggerLoop_sound _ ends never .nil

variable (library)

/-- The program of a draft is what the parser writes for the lines. -/
def RuleDraft.Holds (draft : RuleDraft) (program : RouterProgram) (tokens : List RuleToken) :
    Prop :=
  ∃ commands, draft.code program = assemble commands ∧
    Forall₂ (draft.parser.Writes library) tokens commands

theorem RuleDraft.new_holds (program : RouterProgram) : new.Holds library program [] :=
  ⟨[], rfl, .nil⟩

def keptTokens (program : RouterProgram) (segment : List RuleLine) : List RuleToken :=
  if bytecodeSegmentCanTrigger library segment program.method then ruleTokens library segment
  else []

theorem RouterProgram.flatMap_all {α : Type} (program : RouterProgram)
    (lines : RouterProgram → List α) :
    (all.flatMap fun other => if other = program then lines other else []) = lines program := by
  cases program <;> simp [all]

variable {library}

section

variable {program other : RouterProgram} (holds : draft.Holds library program tokens)

include holds

theorem RuleDraft.Holds.add (added : draft.add library other lines = .ok after) :
    after.Holds library program
      (tokens ++ if other = program then ruleTokens library lines else []) := by
  rcases of_bind added with ⟨⟨code, parser⟩, parsed, same⟩
  cases same
  rcases parseProgramLines_spec parsed with ⟨extended, commands, written, writes⟩
  rcases holds with ⟨earlier, assembled, earlierWrites⟩
  have kept := earlierWrites.imp fun _ _ pair => pair.mono extended
  split_ifs with same
  · subst same
    refine ⟨earlier ++ commands, ?_, rel_append kept writes⟩
    change Function.update draft.code other _ other = _
    rw [Function.update_self, assembled, assemble_append, written]
    rfl
  · refine ⟨earlier, ?_, by rwa [append_nil]⟩
    change Function.update draft.code other _ program = _
    rw [Function.update_of_ne (Ne.symm same), assembled]

theorem RuleDraft.Holds.addSegment
    (added : Routing.addSegment library segment draft other = .ok after) :
    after.Holds library program
      (tokens ++ if other = program then keptTokens library program segment else []) := by
  rw [Routing.addSegment] at added
  split_ifs at added with triggers
  · have extended := holds.add added
    split_ifs at extended ⊢ with same
    · subst same
      rwa [keptTokens, if_pos triggers]
    · exact extended
  · cases added
    split_ifs with same
    · subst same
      rwa [keptTokens, if_neg triggers, append_nil]
    · rwa [append_nil]

theorem RuleDraft.Holds.forEach {α : Type} {step : RuleDraft → α → Except ProgramError RuleDraft}
    {lines : α → List RuleToken}
    (stepHolds : ∀ {draft after : RuleDraft} {item : α} {tokens : List RuleToken},
      draft.Holds library program tokens → step draft item = .ok after →
        after.Holds library program (tokens ++ lines item))
    {items : List α} (folded : items.foldlM step draft = .ok after) :
    after.Holds library program (tokens ++ items.flatMap lines) := by
  induction items generalizing draft tokens with
  | nil =>
    cases folded
    rwa [flatMap_nil, append_nil]
  | cons first rest ih =>
    rcases of_bind folded with ⟨between, stepped, later⟩
    rw [flatMap_cons, ← append_assoc]
    exact ih (stepHolds holds stepped) later

theorem RuleDraft.Holds.segments {segments : List (List RuleLine)}
    (folded : segments.foldlM (fun draft segment =>
      all.foldlM (Routing.addSegment library segment) draft) draft = .ok after) :
    after.Holds library program (tokens ++ segments.flatMap (keptTokens library program)) := by
  apply holds.forEach _ folded
  intro draft after segment tokens earlier stepped
  have extended := earlier.forEach (fun kept added => kept.addSegment added) stepped
  rwa [flatMap_all] at extended

end

def RouterCall.program : RouterCall → RouterProgram
  | .dialTCP _ _ _ => .dialTCP
  | .listenTCP _ _ => .listenTCP
  | .dialUDP _ _ _ => .dialUDP
  | .routeUDP _ _ _ => .routeUDP
  | .lookup _ _ => .lookup

def RouterCall.network : RouterCall → Text
  | .dialTCP network _ _ | .listenTCP network _ | .dialUDP network _ _ | .routeUDP network _ _
  | .lookup network _ => network

def RouterCall.laddr : RouterCall → AddrInput
  | .dialTCP _ laddr _ | .listenTCP _ laddr | .dialUDP _ laddr _ | .routeUDP _ laddr _ => laddr
  | .lookup _ _ => .empty

def RouterCall.raddr : RouterCall → AddrInput
  | .dialTCP _ _ raddr | .dialUDP _ _ raddr | .routeUDP _ _ raddr | .lookup _ raddr => raddr
  | .listenTCP _ _ => .empty

def RouterCall.eval (call : RouterCall) (storage : Option (Netip.Addr → List Text)) : Eval :=
  RouterCfg.eval call.program.method call.network call.laddr call.raddr storage ⟨true, true⟩

theorem RouterCall.eval_of (call : RouterCall) (storage : Option (Netip.Addr → List Text)) :
    (call.eval storage).Of call.program.method :=
  ⟨rfl, rfl, rfl⟩

def RouterCfg.code (cfg : RouterCfg) : RouterProgram → List UInt8
  | .dialTCP => cfg.dialTCP
  | .listenTCP => cfg.listenTCP
  | .dialUDP => cfg.dialUDP
  | .routeUDP => cfg.routeUDP
  | .lookup => cfg.lookup

theorem RouterCfg.select_eq (cfg : RouterCfg) (call : RouterCall)
    (storage : Option (Addr → List Text)) :
    cfg.select call storage = exec cfg.tables (cfg.code call.program) call.program.method
      call.network call.laddr call.raddr storage := by
  cases call <;> rfl

theorem newBytecodeRouterCfg_ok (built : newBytecodeRouterCfg rules = .ok cfg) :
    rules.tables.validate = .ok cfg.tables ∧ cfg = { rules with tables := cfg.tables } ∧
      ∀ program, ∃ name hasLAddr lookup,
        RouterCfg.validateCode cfg.tables name (cfg.code program) hasLAddr lookup = .ok () := by
  rcases of_bind built with ⟨tables, validated, built⟩
  rcases of_bind built with ⟨_, dialTCP, built⟩
  rcases of_bind built with ⟨_, listenTCP, built⟩
  rcases of_bind built with ⟨_, dialUDP, built⟩
  rcases of_bind built with ⟨_, routeUDP, built⟩
  rcases of_bind built with ⟨_, lookup, built⟩
  cases built
  refine ⟨validated, rfl, fun program => ?_⟩
  cases program with
  | dialTCP => exact ⟨_, _, _, dialTCP⟩
  | listenTCP => exact ⟨_, _, _, listenTCP⟩
  | dialUDP => exact ⟨_, _, _, dialUDP⟩
  | routeUDP => exact ⟨_, _, _, routeUDP⟩
  | lookup => exact ⟨_, _, _, lookup⟩

theorem newBytecodeRouterCfg_code (built : newBytecodeRouterCfg (draft.rules library) = .ok cfg)
    (program : RouterProgram) :
    draft.parser.Fills library cfg.tables ∧ cfg.code program = draft.code program ∧
      ∃ name hasLAddr lookup,
        RouterCfg.validateCode cfg.tables name (cfg.code program) hasLAddr lookup = .ok () := by
  rcases newBytecodeRouterCfg_ok built with ⟨validated, same, valid⟩
  refine ⟨BytecodeParser.fills_of_validate validated, ?_, valid program⟩
  rw [same]
  cases program <;> rfl

theorem RouterCfg.select_holds (built : newBytecodeRouterCfg (draft.rules library) = .ok cfg)
    (call : RouterCall) (holds : draft.Holds library call.program tokens)
    (storage : Option (Addr → List Text)) :
    cfg.select call storage = .ok ((run
      (tokens.map (command library (call.eval storage))) []).getD 0) := by
  rcases newBytecodeRouterCfg_code built call.program with ⟨fills, same, _, _, _, valid⟩
  rcases holds with ⟨commands, assembled, writes⟩
  rw [select_eq]
  rw [same, assembled] at valid ⊢
  exact exec_parsed fills writes valid _ _ _ _ _

theorem RuleDraft.finish_eq (finished : draft.finish library = .ok rules) :
    rules = draft.rules library := by
  rcases of_bind finished with ⟨_, _, same⟩
  cases same
  rfl

variable {program : Text}

theorem select_newBytecodeRulesProgram
    (derived : newBytecodeRulesProgram library program = .ok rules)
    (built : newBytecodeRouterCfg rules = .ok cfg) (call : RouterCall)
    (storage : Option (Addr → List Text)) :
    cfg.select call storage = .ok ((run
      (((splitBytecodeRuleSegments library program).flatMap
        (keptTokens library call.program)).map
          (command library (call.eval storage))) []).getD 0) := by
  rcases of_bind derived with ⟨draft, folded, finished⟩
  obtain rfl := finish_eq finished
  exact RouterCfg.select_holds built call
    ((new_holds library call.program).segments folded) storage

variable (library ev)

def segmentShape (segment : List RuleLine) : List (BoolStack.Cmd ℕ) :=
  (ruleTokens library segment).map fun token => token.op.stackCommand false 0

theorem segmentCommands_depth (segment : List RuleLine) (height : ℕ) :
    depth (segmentCommands library ev segment) height =
      depth (segmentShape library segment) height := by
  rw [segmentCommands, segmentShape]
  induction ruleTokens library segment generalizing height with
  | nil => rfl
  | cons token tokens ih =>
    simp only [map_cons, depth, command, Op.stackCommand_depth]
    congr 1
    funext after
    exact ih after

/-- The segments of a program with their meaning in a call, and whether the method of the
call receives them. -/
def segmentRules (method : BytecodeMethod) (segments : List (List RuleLine)) :
    List (Bool × List (Cmd ℕ)) :=
  segments.map fun segment =>
    (bytecodeSegmentCanTrigger library segment method, segmentCommands library ev segment)

theorem segmentRules_kept (program : RouterProgram) (segments : List (List RuleLine)) :
    (keptRules (segmentRules library ev program.method segments)).flatten =
      (segments.flatMap (keptTokens library program)).map (command library ev) := by
  induction segments with
  | nil => rfl
  | cons segment segments ih =>
    rw [flatMap_cons, map_append, ← ih, keptTokens]
    cases triggers : bytecodeSegmentCanTrigger library segment program.method with
    | true => simp [segmentRules, keptRules, triggers, segmentCommands]
    | false => simp [segmentRules, BoolStack.keptRules, triggers]

def derivedSlot (program : Text) (call : RouterCall) : Option ℕ :=
  (newBytecodeRulesProgram library program).toOption.bind fun rules =>
    (newBytecodeRouterCfg rules).toOption.bind fun cfg => (cfg.select call none).toOption

variable {library ev}

/-- `ListenTCP` does not receive the first segment, and the second one does not need it. -/
def unspoiledProgram : Text :=
  bytes "DIAL\nTCP\nAND\nSLOT 1\nTRUE\nSLOT 2"

theorem firstMatch_kept {segments : List (List RuleLine)} (ofMethod : ev.Of method)
    (ends : ∀ segment ∈ segments, EndsOnce library segment) :
    firstMatch (keptRules (segmentRules library ev method segments)) =
      firstMatch (segments.map (segmentCommands library ev)) := by
  induction segments with
  | nil => rfl
  | cons segment segments ih =>
    rcases forall_mem_cons.mp ends with ⟨endsOnce, laterEnds⟩
    have later := ih laterEnds
    simp only [firstMatch, keptRules, segmentRules, map_cons, filter_cons] at later ⊢
    cases triggers : bytecodeSegmentCanTrigger library segment method with
    | true => simp only [if_true, map_cons, findSome?_cons, later]
    | false =>
      rcases segment_quiet ofMethod endsOnce triggers with ⟨closed, quiet⟩
      have notSelected : selected (segmentCommands library ev segment) = none :=
        (if_pos closed).trans quiet
      rw [findSome?_cons, notSelected]
      exact later

/-- If every segment of a program has its own operands, each method selects the first segment of
the whole program whose condition, taken alone, is true in the call. -/
theorem methodProgram_first_match {library : ParserLibrary} {program : Text}
    {rules : BytecodeRules} {cfg : RouterCfg}
    (derived : newBytecodeRulesProgram library program = .ok rules)
    (built : newBytecodeRouterCfg rules = .ok cfg)
    (own : ∀ segment ∈ splitBytecodeRuleSegments library program,
      Closed (segmentShape library segment))
    (call : RouterCall) (storage : Option (Addr → List Text)) :
    cfg.select call storage = .ok ((firstMatch ((splitBytecodeRuleSegments library program).map
      (segmentCommands library (call.eval storage)))).getD 0) := by
  have ends : ∀ segment ∈ splitBytecodeRuleSegments library program, EndsOnce library segment :=
    splitSegments_endsOnce (by simp)
  rw [select_newBytecodeRulesProgram derived built, ← segmentRules_kept, run_flatten,
    firstMatch_kept (call.eval_of storage) ends]
  intro rule member
  rcases mem_map.mp member with ⟨_, isKept, rfl⟩
  rcases mem_map.mp (mem_filter.mp isKept).1 with ⟨segment, isSegment, rfl⟩
  rw [Closed, segmentCommands_depth]
  exact own segment isSegment

theorem methodProgram_first_match_listen :
    ∃ rules cfg, newBytecodeRulesProgram asciiLibrary unspoiledProgram = .ok rules ∧
      newBytecodeRouterCfg rules = .ok cfg ∧
      cfg.select (.listenTCP (bytes "tcp") .empty) none = .ok 2 := by
  have derives : derivedSlot asciiLibrary unspoiledProgram (.listenTCP (bytes "tcp") .empty) =
      some 2 := by decide +kernel
  rcases bind_eq_some_iff.mp derives with ⟨rules, derived, rest⟩
  rcases bind_eq_some_iff.mp rest with ⟨cfg, built, -⟩
  refine ⟨rules, cfg, toOption_eq_some derived, toOption_eq_some built, ?_⟩
  rw [methodProgram_first_match (toOption_eq_some derived) (toOption_eq_some built)
    (by decide +kernel)]
  decide +kernel

/-- A segment that cannot trigger for a method never fires, whatever the predicates are;
the loop of the router, run on the code of the segment, always ends without a target. -/
theorem untriggered_segment_never_fires {library : ParserLibrary} {program : Text}
    {segment : List RuleLine} (isSegment : segment ∈ splitBytecodeRuleSegments library program)
    {method : BytecodeMethod} (never : bytecodeSegmentCanTrigger library segment method = false) :
    (∀ values : RuleToken → Bool,
      run (commandsWith library method values segment) [] = none) ∧
    ∀ {Factory : Type} (parser : BytecodeParser Factory) (tables : Tables)
      (commands : List Command), parser.Fills library tables →
      Forall₂ (parser.Writes library) (ruleTokens library segment) commands →
      ∀ (name : String) (hasLAddr lookup : Bool),
        validateCode tables name (assemble commands) hasLAddr lookup = .ok () →
        ∀ ev : Eval, ev.Of method → ∀ missing : ℕ,
          execLoop (step tables ev) (fun _ => missing) (assemble commands) 0 [] =
            .ok missing := by
  have ends : EndsOnce library segment := splitSegments_endsOnce (by simp) segment isSegment
  refine ⟨fun values => (canTriggerLoop_sound values ends never .nil).2, ?_⟩
  intro Factory parser tables commands fills written name hasLAddr lookup accepted ev ofMethod
    missing
  have quiet := (segment_quiet ofMethod ends never).2
  rw [segmentCommands] at quiet
  rw [execLoop_parsed fills written accepted ev missing, quiet]
  rfl

theorem untriggered_segment_never_fires_listen :
    ∃ segment ∈ splitBytecodeRuleSegments asciiLibrary unspoiledProgram,
      bytecodeSegmentCanTrigger asciiLibrary segment .listen = false ∧
      (∀ values, run (commandsWith asciiLibrary .listen values segment) [] = none) ∧
      ∃ (written : List UInt8 × BytecodeParser Unit) (tables : Tables),
        parseProgramLines asciiLibrary "" segment [] .new = .ok written ∧ ∀ laddr storage,
        execLoop (step tables ((RouterCall.listenTCP (bytes "tcp") laddr).eval storage))
          (fun _ => 0) written.1 0 [] = .ok 0 := by
  have leftOut : ∃ segment ∈ splitBytecodeRuleSegments asciiLibrary unspoiledProgram,
      bytecodeSegmentCanTrigger asciiLibrary segment .listen = false ∧
      (parseProgramLines asciiLibrary "" segment [] (.new : BytecodeParser Unit)).toOption.any
        fun written => (written.2.apply asciiLibrary).validate.toOption.any fun tables =>
          (validateCode tables "" written.1 true false).toOption = some () := by
    decide +kernel
  rcases leftOut with ⟨segment, isSegment, never, parses⟩
  rcases exists_of_any parses with ⟨written, parsed, valid⟩
  rcases exists_of_any valid with ⟨tables, validated, accepted⟩
  rcases parseProgramLines_spec parsed with ⟨_, commands, same, writes⟩
  rcases untriggered_segment_never_fires isSegment never with ⟨quiet, ends⟩
  refine ⟨segment, isSegment, never, quiet, written, tables, parsed, fun laddr storage => ?_⟩
  rw [same, nil_append] at accepted ⊢
  exact ends _ _ _ (BytecodeParser.fills_of_validate validated) writes _ _ _
    (toOption_eq_some (of_decide_eq_true accepted)) _ (RouterCall.eval_of _ storage) 0

end Gonnect.Routing
