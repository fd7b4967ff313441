import Gonnect.Routing.Interpreters

/-!
# Validated programs do not fault

The depth that a validator tracks is the height of the interpreter's stack. For each
interpreter it remains to show that its switch handles every opcode that its validator lets
through as the depth check assumes: a predicate pushes one value, and the result of a
terminal is in range. `Interprets` says which value and which result that is.
-/

namespace Gonnect.Routing

open Checked StraightLine Netip List

def HasDepth (depth : ℕ) (stack : Stack) : Prop :=
  stack.length = depth

variable {name : String} {code : List UInt8} {stack : Stack}
  {storage : Option (Addr → List Text)}

section

variable {validateOp : ℕ → Op → ℕ → Except BytecodeError Unit}

theorem validateBytecode_ok (accepted : validateBytecode name code validateOp = .ok ()) :
    ∃ last, validateLoop name validateOp depthEffect code 0 0 = .ok last := by
  rcases of_bind accepted with ⟨last, succeeded, _⟩
  exact ⟨last, succeeded⟩

theorem bytecodeAddrStringOps_ok {effect : Op → ℕ → Option ℕ} {last : ℕ}
    (accepted : validateLoop name validateOp effect code 0 0 = .ok last) :
    ∃ ops, bytecodeAddrStringOps code = .ok ops := by
  refine (execLoop_sound (fun _ _ => True) (fun _ _ => True) (fun _ => True) ?_ ?_ accepted trivial
    ?_).imp fun ops succeeded => succeeded.1
  · intros; trivial
  · intro op param before after ops _ _ _
    unfold AddrStringOps.mark
    split <;> exact ⟨_, rfl, trivial⟩
  · intros; trivial

theorem pushed_sound {Result : Type} {wanted : Result → Prop}
    {predicate : Op → Option (Checked Bool)} {op : Op} {before after : ℕ}
    (notTerminal : op.isTerminal = false)
    (pushes : op.isLogic = false → ∃ value, predicate op = some (.ok value))
    (enough : depthEffect op before = some after) (described : HasDepth before stack) :
    ∃ outcome : Outcome Stack Result,
      (pushStep predicate op stack >>= fun next => .ok (.next next)) = Except.ok outcome ∧
        outcome.Described HasDepth wanted after := by
  cases described
  rcases pushStep_sound notTerminal pushes enough with ⟨next, pushed, height⟩
  exact ⟨.next next, by simp [pushed, ok_bind], height⟩

/-- The interpreter pushes the truth of a predicate, and a terminal has the result. -/
structure Interprets {Result : Type} (accepts : Op → ℕ → Prop)
    (step : Op → ℕ → Stack → Checked (Outcome Stack Result)) (truth : Op → ℕ → Bool)
    (result : Op → ℕ → Result) : Prop where
  terminal : ∀ {op param} (stack : Stack), accepts op param → op.isTerminal = true →
    step op param stack = Routing.terminal stack (.ok (result op param))
  pushes : ∀ {op param} (stack : Stack), accepts op param → op.isTerminal = false →
    ∃ predicate, step op param stack =
        (pushStep predicate op stack >>= fun next => .ok (.next next)) ∧
      (op.isLogic = false → predicate op = some (.ok (truth op param)))

theorem Interprets.exec_ok {Result : Type} {accepts : Op → ℕ → Prop}
    {step : Op → ℕ → Stack → Checked (Outcome Stack Result)} {truth : Op → ℕ → Bool}
    {result : Op → ℕ → Result} (interprets : Interprets accepts step truth result)
    (wanted : Result → Prop) (results : ∀ op param, wanted (result op param)) {default : Result}
    (atEnd : wanted default)
    (sound : ∀ pc op param, validateOp pc op param = .ok () → accepts op param) {last : ℕ}
    (valid : validateLoop name validateOp depthEffect code 0 0 = .ok last) :
    ∃ answer, execLoop step (fun _ => default) code 0 [] = .ok answer ∧ wanted answer := by
  refine execLoop_sound accepts HasDepth wanted sound ?_ valid rfl fun _ _ => atEnd
  intro op param before after stack accepted enough described
  cases terminalOp : op.isTerminal with
  | true =>
    cases described
    rw [interprets.terminal stack accepted terminalOp]
    exact terminal_sound terminalOp enough ⟨_, rfl, results op param⟩
  | false =>
    rcases interprets.pushes stack accepted terminalOp with ⟨predicate, stepped, pushed⟩
    rw [stepped]
    exact pushed_sound terminalOp (fun isPredicate => ⟨_, pushed isPredicate⟩) enough described

end

theorem Tables.predicate_pushes (tables : Tables) (ev : Eval) (op : Op) (param : ℕ)
    (isPredicate : op.isLogic = false) (notTerminal : op.isTerminal = false)
    (shared : op ≠ .rule ∧ op.isSnifferOnly = false ∧ op.isDNSOnly = false) :
    ∃ value, tables.predicate ev op param = some (.ok value) := by
  have pushes : ∃ value, tables.predicate ev op param = some value := by
    cases op <;> simp_all [Op.isLogic, Op.isTerminal, Op.isSnifferOnly, Op.isDNSOnly,
      Tables.predicate]
  rcases pushes with ⟨computation, pushed⟩
  rcases tables.predicate_ok ev op param pushed with ⟨value, rfl⟩
  exact ⟨value, pushed⟩

theorem bytecodeParamInt_le {param slot : ℕ} {limit : ℤ}
    (read : bytecodeParamInt param limit = some slot) : slot ≤ limit := by
  unfold bytecodeParamInt at read
  split_ifs at read
  cases read
  omega

variable {param pc : ℕ}

namespace RouterCfg

def Accepts (op : Op) (_ : ℕ) : Prop :=
  op ≠ .rule ∧ op.isSnifferOnly = false ∧ op.isDNSOnly = false

variable {tables : Tables} {op : Op} {hasLAddr lookup : Bool}

theorem validateOp_sound (accepted : validateOp tables name hasLAddr lookup pc op param = .ok ()) :
    Accepts op param := by
  unfold validateOp at accepted
  split_ifs at accepted with noLocal forLookup other
  simp only [Bool.or_eq_true, not_or, Bool.not_eq_true] at other
  refine ⟨?_, other.1.2, other.2⟩
  rintro rfl
  exact absurd other.1.1 (by decide)

def truth (tables : Tables) (ev : Eval) (op : Op) (param : ℕ) : Bool :=
  match tables.predicate ev op param with
  | some (.ok value) => value
  | _ => false

def result (op : Op) (param : ℕ) : ℕ :=
  match op with
  | .slot => (bytecodeParamInt param routerSlots).getD 0
  | _ => 0

theorem interprets (tables : Tables) (ev : Eval) :
    Interprets Accepts (step tables ev) (truth tables ev) result where
  terminal := by
    intro op param stack accepted isTerminal
    cases op with
    | drop | slot => rfl
    | intercept | route => cases accepted.2.1
    | backend => cases accepted.2.2
    | _ => cases isTerminal
  pushes := by
    intro op param stack accepted notTerminal
    refine ⟨fun op => tables.predicate ev op param, ?_, fun isPredicate => ?_⟩
    · cases op with
      | drop | slot => cases notTerminal
      | _ => rfl
    · rcases tables.predicate_pushes ev op param isPredicate notTerminal accepted with
        ⟨value, pushed⟩
      simp [truth, pushed]

theorem result_le (op : Op) (param : ℕ) : result op param ≤ routerSlots := by
  unfold result
  split
  · cases read : bytecodeParamInt param routerSlots with
    | none => exact Nat.zero_le _
    | some slot =>
      have := bytecodeParamInt_le read
      simpa using this
  · exact Nat.zero_le _

theorem exec_ok (accepted : validateCode tables name code hasLAddr lookup = .ok ())
    (method : BytecodeMethod) (network : Text) (laddr raddr : AddrInput) :
    ∃ slot, exec tables code method network laddr raddr storage = .ok slot ∧
      slot ≤ routerSlots := by
  rcases validateBytecode_ok (mapError_eq_ok_iff.mp accepted) with ⟨last, valid⟩
  rcases bytecodeAddrStringOps_ok valid with ⟨stringOps, marked⟩
  simp only [exec, marked, ok_bind]
  exact (interprets tables _).exec_ok (· ≤ routerSlots) result_le (Nat.zero_le _)
    (fun _ _ _ => validateOp_sound) valid

end RouterCfg

namespace SnifferControls

variable {Factory Mutation : Type}

def Accepts (op : Op) (_ : ℕ) : Prop :=
  op ≠ .rule ∧ op.isDNSOnly = false

variable {classifiers routeActions : ℕ} {op : Op} {program : SnifferProgram}

theorem validateOp_sound {tables : Tables}
    (accepted : validateOp tables classifiers routeActions name program pc op param = .ok ()) :
    Accepts op param := by
  unfold validateOp at accepted
  split_ifs at accepted with other
  simp only [not_or, Bool.not_eq_true] at other
  exact other

variable (cfg : SnifferControls Factory Mutation)

theorem predicate_pushes (ev : Eval) (result : ℤ) (op : Op) (param : ℕ)
    (isPredicate : op.isLogic = false) (notTerminal : op.isTerminal = false)
    (accepted : Accepts op param) :
    ∃ value, cfg.predicate ev result op param = some (.ok value) := by
  unfold predicate
  split
  · exact ⟨_, rfl⟩
  · exact ⟨_, rfl⟩
  · rename_i notSniff notNone
    refine cfg.tables.predicate_pushes ev op param isPredicate notTerminal
      ⟨accepted.1, ?_, accepted.2⟩
    cases op <;> simp_all [Op.isTerminal, Op.isSnifferOnly]

variable {cfg}

def truth (cfg : SnifferControls Factory Mutation) (ev : Eval) (result : ℤ) (op : Op) (param : ℕ) :
    Bool :=
  match cfg.predicate ev result op param with
  | some (.ok value) => value
  | _ => false

def action (cfg : SnifferControls Factory Mutation) (op : Op) (param : ℕ) :
    SnifferAction Mutation :=
  match op with
  | .slot =>
    match bytecodeParamInt param maxSnifferBytecodeSlot with
    | some slot => { reject with slot := slot }
    | none => reject
  | .route =>
    match cfg.routeActions[param]? with
    | some action =>
      { slot := action.slot.toNat, intercept := false, mutation := some action.mutation }
    | none => reject
  | .intercept => { reject with intercept := true }
  | _ => reject

theorem interprets (ev : Eval) (result : ℤ) :
    Interprets Accepts (cfg.step ev result) (cfg.truth ev result) cfg.action where
  terminal := by
    intro op param stack accepted isTerminal
    cases op with
    | drop | slot | intercept => rfl
    | route =>
      have taken : (match bytecodeParamIndex param cfg.routeActions.length with
          | some idx => do
              let action ← index cfg.routeActions idx
              .ok
                { slot := action.slot.toNat, intercept := false, mutation := some action.mutation }
          | none => .ok reject : Checked (SnifferAction Mutation)) =
            .ok (cfg.action .route param) := by
        unfold bytecodeParamIndex
        split_ifs with empty outside
        · simp [action, length_eq_zero_iff.mp empty]
        · simp [action, getElem?_eq_none outside]
        · have inside : param < cfg.routeActions.length := Nat.lt_of_not_le outside
          simp [action, index_eq_ok inside, getElem?_eq_getElem inside]
      exact congrArg (Routing.terminal stack) taken
    | backend => cases accepted.2
    | _ => cases isTerminal
  pushes := by
    intro op param stack accepted notTerminal
    refine ⟨fun op => cfg.predicate ev result op param, ?_, fun isPredicate => ?_⟩
    · cases op with
      | drop | slot | route | intercept => cases notTerminal
      | _ => rfl
    · rcases cfg.predicate_pushes ev result op param isPredicate notTerminal accepted with
        ⟨value, pushed⟩
      simp [truth, pushed]

theorem action_slot_le (op : Op) (param : ℕ) :
    (cfg.action op param).slot ≤ maxSnifferBytecodeSlot := by
  unfold action
  split
  · split
    · rename_i slot read
      have := bytecodeParamInt_le read
      simpa using this
    · exact Nat.zero_le _
  · split
    · exact Nat.le_of_lt_succ (UInt8.toNat_lt _)
    · exact Nat.zero_le _
  · exact Nat.zero_le _
  · exact Nat.zero_le _

theorem exec_ok (accepted : validateBytecode name code
      (validateOp cfg.tables classifiers routeActions name program) = .ok ()) (call : SnifferCall)
    (result : ℤ) :
    ∃ action, cfg.exec code call result storage = .ok action ∧
      action.slot ≤ maxSnifferBytecodeSlot := by
  rcases validateBytecode_ok accepted with ⟨last, valid⟩
  rcases bytecodeAddrStringOps_ok valid with ⟨stringOps, marked⟩
  simp only [exec, marked, ok_bind]
  exact (cfg.interprets _ result).exec_ok (·.slot ≤ maxSnifferBytecodeSlot) action_slot_le
    (Nat.zero_le _) (fun _ _ _ => validateOp_sound) valid

theorem actions_ok {library : TextLibrary} {rules : SnifferBytecodeRules Factory Mutation}
    (constructed : newBytecodeSnifferControls library rules = .ok cfg) (call : Option SnifferCall)
    (failed : Bool) (result : ℤ) :
    (∃ action, cfg.controlAction call storage = .ok action ∧
        action.slot ≤ maxSnifferBytecodeSlot) ∧
      ∃ action, cfg.sniffControlAction call failed result storage = .ok action ∧
        action.slot ≤ maxSnifferBytecodeSlot := by
  rcases of_bind constructed with ⟨classifiers, _, constructed⟩
  rcases of_bind constructed with ⟨tables, _, constructed⟩
  rcases of_bind constructed with ⟨_, control, constructed⟩
  rcases of_bind constructed with ⟨_, sniffControl, constructed⟩
  cases constructed
  constructor
  · cases call with
    | none => exact ⟨reject, rfl, Nat.zero_le _⟩
    | some call => exact exec_ok (mapError_eq_ok_iff.mp control) call noMatch
  · unfold sniffControlAction
    split
    · exact exec_ok (mapError_eq_ok_iff.mp sniffControl) _ result
    · exact ⟨reject, rfl, Nat.zero_le _⟩

end SnifferControls

variable {param before after : ℕ}

namespace BytecodeRemapperRules

def Accepts (op : Op) (_ : ℕ) : Prop :=
  op.isTerminal = false ∧ op ≠ .rule ∧ op.isSnifferOnly = false ∧ op.isDNSOnly = false

variable {tables : Tables} {op : Op}

theorem validatePredicateOp_sound (accepted : validatePredicateOp tables name pc op param = .ok ()) :
    Accepts op param := by
  cases op <;> first
    | exact ⟨rfl, by decide, rfl, rfl⟩
    | cases accepted

theorem step_sound {ev : Eval} (accepted : Accepts op param)
    (enough : predicateEffect op before = some after) (described : HasDepth before stack) :
    ∃ outcome, step tables ev op param stack = .ok outcome ∧
      outcome.Described HasDepth (fun _ => True) after := by
  rcases accepted with ⟨notTerminal, shared⟩
  -- Without terminals the switch on the depth is the one of the other validators.
  have sameEffect : predicateEffect op before = depthEffect op before := by
    cases op <;> first
      | rfl
      | cases notTerminal
  refine pushed_sound notTerminal ?_ (sameEffect.symm.trans enough) described
  intro isPredicate
  unfold predicate
  split
  · exact ⟨_, rfl⟩
  · exact tables.predicate_pushes ev _ param isPredicate notTerminal shared

theorem exec_ok (accepted : validatePredicate tables name code = .ok ()) (info : RemapInfo) :
    ∃ matched, exec tables code info storage = .ok matched := by
  rcases of_bind accepted with ⟨last, valid, _⟩
  rcases bytecodeAddrStringOps_ok valid with ⟨stringOps, marked⟩
  simp only [exec, marked, ok_bind]
  have empty : HasDepth 0 [] := rfl
  refine (execLoop_sound Accepts HasDepth (fun _ => True) ?_ ?_ valid empty ?_).imp
    fun matched ran => ran.1
  · intro pc op param valid
    exact validatePredicateOp_sound valid
  · intro op param before after stack
    exact step_sound
  · intro final _
    trivial

variable {rule : RemapperBytecodeRule}

theorem validateRules_mem {rules : List RemapperBytecodeRule} {position : ℕ}
    (accepted : validateRules tables rules position = .ok ()) (member : rule ∈ rules)
    (nonempty : rule.predicate ≠ []) :
    ∃ name, validatePredicate tables name rule.predicate = .ok () := by
  induction rules generalizing position with
  | nil => cases member
  | cons first rest ih =>
    rcases of_bind accepted with ⟨_, _, checked⟩
    split_ifs at checked with empty
    · rcases mem_cons.mp member with rfl | later
      · exact absurd empty nonempty
      · exact ih checked later
    · rcases of_bind checked with ⟨_, valid, checkedRest⟩
      rcases mem_cons.mp member with rfl | later
      · exact ⟨_, mapError_eq_ok_iff.mp valid⟩
      · exact ih checkedRest later

theorem filter_ok {rules : RemapperBytecodeRules} {cfg : BytecodeRemapperRules}
    (constructed : newBytecodeRemapRules rules = .ok cfg) (member : rule ∈ cfg.rules)
    (info : RemapInfo) :
    ∃ matched, cfg.filter rule info storage = .ok matched := by
  rcases of_bind constructed with ⟨tables, _, constructed⟩
  rcases of_bind constructed with ⟨_, accepted, constructed⟩
  cases constructed
  unfold filter
  split_ifs with empty
  · exact ⟨true, rfl⟩
  · rcases validateRules_mem accepted member empty with ⟨name, valid⟩
    exact exec_ok valid info

end BytecodeRemapperRules

namespace DNSRouteFunc

def Accepts (op : Op) (_ : ℕ) : Prop :=
  op ∈ [.drop, .backend, .pushTrue, .pushFalse, .not, .and, .or, .net4, .net6, .fqdn, .addrS,
    .addrRe, .addr4, .addr6, .snet4, .snet6, .qtype, .qclass, Op.opcode]

variable {op : Op} {library : TextLibrary}

theorem validateOp_sound {tables : Tables} {backends pc : ℕ}
    (accepted : validateOp tables backends pc op param = .ok ()) : Accepts op param := by
  unfold Accepts
  cases op <;> first
    | decide
    | cases accepted

theorem predicate_pushes (library : TextLibrary) (tables : Tables) (message : Option Message)
    (op : Op) (param : ℕ) (isPredicate : op.isLogic = false) (notTerminal : op.isTerminal = false)
    (accepted : Accepts op param) :
    ∃ value, predicate library tables message op param = some (.ok value) := by
  have tested : ∀ {α : Type} (table : List α) (test : α → Bool),
      ∃ value, some (testEntry table param test) = some (.ok value) := by
    intro α table test
    rcases testEntry_ok table param test with ⟨value, read⟩
    exact ⟨value, congrArg some read⟩
  cases op <;> first
    | exact ⟨_, rfl⟩
    | exact tested _ _
    | exact absurd isPredicate (by decide)
    | exact absurd notTerminal (by decide)
    | exact absurd accepted (by unfold Accepts; decide)

variable {cfg : DNSRouteFunc}

theorem step_sound {message : Option Message} (accepted : Accepts op param)
    (enough : depthEffect op before = some after) (described : HasDepth before stack) :
    ∃ outcome, step library cfg message op param stack = .ok outcome ∧
      outcome.Described HasDepth (fun name => name = [] ∨ name ∈ cfg.backends) after := by
  unfold step
  split
  · cases described
    exact terminal_sound rfl enough ⟨[], rfl, .inl rfl⟩
  · cases described
    refine terminal_sound rfl enough ?_
    split
    · rename_i idx read
      unfold bytecodeParamIndex at read
      split_ifs at read with empty outside
      cases read
      exact ⟨_, index_eq_ok (Nat.lt_of_not_le outside), .inr (getElem_mem _)⟩
    · exact ⟨[], rfl, .inl rfl⟩
  · have notTerminal : op.isTerminal = false := by
      cases op <;> simp_all [Op.isTerminal, Accepts]
    refine pushed_sound notTerminal ?_ enough described
    intro isPredicate
    exact predicate_pushes library cfg.tables message op param isPredicate notTerminal accepted

theorem exec_ok {rules : DNSBytecodeRules} (constructed : newBytecodeDNSRouteFunc rules = .ok cfg)
    (message : Option Message) :
    ∃ name, exec library cfg message = .ok name ∧ (name = [] ∨ name ∈ cfg.backends) := by
  rcases of_bind constructed with ⟨_, _, constructed⟩
  rcases of_bind constructed with ⟨tables, _, constructed⟩
  rcases of_bind constructed with ⟨_, accepted, constructed⟩
  cases constructed
  rcases validateBytecode_ok (mapError_eq_ok_iff.mp accepted) with ⟨last, valid⟩
  refine execLoop_sound Accepts HasDepth (fun name => name = [] ∨ name ∈ rules.backends)
    ?_ ?_ valid rfl ?_
  · intro pc op param valid
    exact validateOp_sound valid
  · intro op param before after stack
    exact step_sound
  · intro final _
    exact .inl rfl

end DNSRouteFunc

end Gonnect.Routing
