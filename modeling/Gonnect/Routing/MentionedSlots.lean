import Gonnect.Routing.Guarantees

/-!
# The slots that a program mentions

`MentionedSlots` reports the slots of a router, a split router or a sniffer. They are
collected by one walk over the bytes of the programs, as the interpreters walk over them. So
every slot other than the drop slot that a run returns is reported.
-/

namespace Gonnect.Routing

open Checked StraightLine List Instr

def mark (maxSlot param : ℕ) (seen : List Bool) : Checked (List Bool) :=
  if param = 0 then
    .ok seen
  else
    match bytecodeParamInt param maxSlot with
    | none => .ok seen
    | some slot => if slot < seen.length then .ok (seen.set slot true) else .error .outOfRange

variable {program : List Instr}

section Walk

variable {Mutation : Type}

def mentionStep (maxSlot : ℕ) (routeActions : List (SnifferRouteAction Mutation)) (op : Op)
    (param : ℕ) (seen : List Bool) : Checked (Outcome (List Bool) (List Bool)) :=
  match op with
  | .slot => do
      let seen ← mark maxSlot param seen
      .ok (.next seen)
  | .route =>
    match bytecodeParamIndex param routeActions.length with
    | none => .ok (.next seen)
    | some idx => do
        let action ← index routeActions idx
        let seen ← mark maxSlot action.slot.toNat seen
        .ok (.next seen)
  | _ => .ok (.next seen)

def mentionedBytecodeSlotsWithRoutes (maxSlot : ℕ)
    (routeActions : List (SnifferRouteAction Mutation)) (programs : List (List UInt8)) :
    Checked (List ℕ) := do
  let seen ← programs.foldlM
    (fun seen code => execLoop (mentionStep maxSlot routeActions) id code 0 seen)
    (replicate (maxSlot + 1) false)
  .ok ((range' 1 maxSlot).filter fun slot => seen.getD slot false)

def mentionedBytecodeSlots (maxSlot : ℕ) (programs : List (List UInt8)) : Checked (List ℕ) :=
  mentionedBytecodeSlotsWithRoutes maxSlot ([] : List (SnifferRouteAction Unit)) programs

/-- The slot that an operation mentions; 0 stands for none. -/
def slotOfOp (routeActions : List (SnifferRouteAction Mutation)) (op : Op) (param : ℕ) : ℕ :=
  match op with
  | .slot => param
  | .route => (routeActions[param]?.map fun action => action.slot.toNat).getD 0
  | _ => 0

def Mentions (routeActions : List (SnifferRouteAction Mutation)) (program : List Instr)
    (slot : ℕ) : Prop :=
  ∃ instr ∈ program, ∃ op, instr.op = some op ∧ slotOfOp routeActions op instr.param = slot

structure Sees (maxSlot : ℕ) (mentioned : ℕ → Prop) (before after : List Bool) : Prop where
  length : after.length = before.length
  seen : ∀ slot, 0 < slot → slot ≤ maxSlot →
    (after.getD slot false = true ↔ before.getD slot false = true ∨ mentioned slot)

variable {maxSlot : ℕ} {seen : List Bool}
  {first second : ℕ → Prop} {codes : List (List UInt8)} {programs : List (List Instr)}

theorem Sees.trans {before between after : List Bool} (earlier : Sees maxSlot first before between)
    (later : Sees maxSlot second between after) :
    Sees maxSlot (fun slot => first slot ∨ second slot) before after where
  length := later.length.trans earlier.length
  seen := by
    intro slot positive small
    rw [later.seen slot positive small, earlier.seen slot positive small, or_assoc]

theorem Sees.congr {before after : List Bool} (sees : Sees maxSlot first before after)
    (same : ∀ slot, 0 < slot → (first slot ↔ second slot)) : Sees maxSlot second before after where
  length := sees.length
  seen := by
    intro slot positive small
    rw [sees.seen slot positive small, same slot positive]

theorem Sees.refl (maxSlot : ℕ) (seen : List Bool) : Sees maxSlot (fun _ => False) seen seen :=
  ⟨rfl, by simp⟩

theorem mark_sees (param : ℕ) (long : seen.length = maxSlot + 1) :
    ∃ after, mark maxSlot param seen = .ok after ∧ Sees maxSlot (param = ·) seen after := by
  unfold mark bytecodeParamInt
  split_ifs with zero negative large
  · refine ⟨seen, rfl, (Sees.refl maxSlot seen).congr fun slot positive => ?_⟩
    constructor
    · exact False.elim
    · omega
  · omega
  · refine ⟨seen, rfl, rfl, fun slot positive small => ?_⟩
    have other : param ≠ slot := by omega
    simp [other]
  · have inside : param < seen.length := by omega
    refine ⟨seen.set param true, if_pos inside, length_set, fun slot positive small => ?_⟩
    rw [getD_eq_getElem?_getD, getElem?_set]
    split_ifs with same
    · simp [same]
    · rw [getD_eq_getElem?_getD]
      simp [same]

variable (routeActions : List (SnifferRouteAction Mutation))

theorem mentionStep_sees (op : Op) (param : ℕ) (long : seen.length = maxSlot + 1) :
    ∃ after, mentionStep maxSlot routeActions op param seen = .ok (.next after) ∧
      Sees maxSlot (slotOfOp routeActions op param = ·) seen after := by
  have nothing : ∀ {slot}, slot = 0 → Sees maxSlot (slot = ·) seen seen := by
    rintro _ rfl
    refine (Sees.refl maxSlot seen).congr fun slot positive => ?_
    constructor
    · exact False.elim
    · omega
  cases op with
  | slot =>
    rcases mark_sees param long with ⟨after, marked, sees⟩
    exact ⟨after, by simp [mentionStep, marked, ok_bind], sees⟩
  | route =>
    simp only [mentionStep, bytecodeParamIndex, slotOfOp]
    split_ifs with empty outside
    · have noAction : routeActions = [] := length_eq_zero_iff.mp empty
      exact ⟨seen, rfl, nothing (by simp [noAction])⟩
    · exact ⟨seen, rfl, nothing (by simp [getElem?_eq_none outside])⟩
    · have inside : param < routeActions.length := Nat.lt_of_not_le outside
      rcases mark_sees routeActions[param].slot.toNat long with ⟨after, marked, sees⟩
      refine ⟨after, by simp [index_eq_ok inside, ok_bind, marked], ?_⟩
      simpa only [getElem?_eq_getElem inside, Option.map_some, Option.getD_some] using sees
  | _ => exact ⟨seen, rfl, nothing rfl⟩

theorem run_mentionStep (program : List Instr) (long : seen.length = maxSlot + 1) :
    ∃ after, run (fun instr => instr.perform (mentionStep maxSlot routeActions)) id program seen =
        .ok after ∧ Sees maxSlot (Mentions routeActions program) seen after := by
  induction program generalizing seen with
  | nil =>
    refine ⟨seen, rfl, (Sees.refl maxSlot seen).congr fun slot _ => ?_⟩
    simp [Mentions]
  | cons instr program ih =>
    rcases instr with ⟨op, param⟩
    have stepped : ∃ between, perform (mentionStep maxSlot routeActions) ⟨op, param⟩ seen =
        .ok (.next between) ∧
          Sees maxSlot (Mentions routeActions [⟨op, param⟩]) seen between := by
      cases op with
      | none =>
        refine ⟨seen, rfl, (Sees.refl maxSlot seen).congr fun slot _ => ?_⟩
        simp [Mentions]
      | some op =>
        rcases mentionStep_sees routeActions op param long with ⟨between, performed, sees⟩
        refine ⟨between, performed, sees.congr fun slot _ => ?_⟩
        simp [Mentions]
    rcases stepped with ⟨between, performed, first⟩
    rcases ih (first.length.trans long) with ⟨after, finished, rest⟩
    refine ⟨after, ?_, (first.trans rest).congr fun slot _ => ?_⟩
    · rw [run, performed, ok_bind]
      exact finished
    · simp [Mentions, or_and_right, exists_or]

section

variable (decoded : Forall₂ (fun code program => decode code = .ok program) codes programs)

include decoded

theorem foldlM_mentionStep (long : seen.length = maxSlot + 1) :
    ∃ after, codes.foldlM (fun seen code => execLoop (mentionStep maxSlot routeActions) id code 0
        seen) seen = .ok after ∧
      Sees maxSlot (fun slot => ∃ program ∈ programs, Mentions routeActions program slot) seen
        after := by
  induction decoded generalizing seen with
  | nil => exact ⟨seen, rfl, (Sees.refl maxSlot seen).congr fun slot _ => by simp⟩
  | @cons code program codes programs first _ ih =>
    rcases run_mentionStep routeActions program long with ⟨between, walked, seesFirst⟩
    rcases ih (seesFirst.length.trans long) with ⟨after, finished, seesRest⟩
    refine ⟨after, ?_, (seesFirst.trans seesRest).congr fun slot _ => by simp⟩
    rw [foldlM_cons, execLoop_eq_run first, walked, ok_bind]
    exact finished

theorem mentionedBytecodeSlotsWithRoutes_spec {routeActions : List (SnifferRouteAction Mutation)} :
    ∃ slots, mentionedBytecodeSlotsWithRoutes maxSlot routeActions codes = .ok slots ∧
      slots.Pairwise (· < ·) ∧
      ∀ slot, slot ∈ slots ↔
        0 < slot ∧ slot ≤ maxSlot ∧ ∃ program ∈ programs, Mentions routeActions program slot := by
  have long : (replicate (maxSlot + 1) false).length = maxSlot + 1 := length_replicate
  rcases foldlM_mentionStep routeActions decoded long with ⟨seen, walked, sees⟩
  refine ⟨(range' 1 maxSlot).filter fun slot => seen.getD slot false, ?_,
    (pairwise_lt_range' (s := 1)).filter _, fun slot => ?_⟩
  · rw [mentionedBytecodeSlotsWithRoutes, walked, ok_bind]
  · rw [mem_filter, mem_range'_1]
    constructor
    · rintro ⟨⟨positive, small⟩, isSeen⟩
      have within : slot ≤ maxSlot := by omega
      refine ⟨positive, within, ((sees.seen slot positive within).mp isSeen).resolve_left ?_⟩
      simp [getD_eq_getElem?_getD, within]
    · rintro ⟨positive, within, mentioned⟩
      exact ⟨⟨positive, by omega⟩, (sees.seen slot positive within).mpr (.inr mentioned)⟩

end

theorem decode_of_validated {name : String} {validateOp : ℕ → Op → ℕ → Except BytecodeError Unit}
    {code : List UInt8} (accepted : validateBytecode name code validateOp = .ok ()) :
    ∃ program, decode code = .ok program := by
  rcases validateBytecode_ok accepted with ⟨last, accepted⟩
  have anything : ∀ pc op param, validateOp pc op param = .ok () → True := fun _ _ _ _ => trivial
  rcases validateLoop_decodes anything accepted with ⟨program, decoded, _⟩
  exact ⟨program, decoded⟩

theorem run_getD_target {Result : Type} {truth : Op → ℕ → Bool} {result : Op → ℕ → Result}
    (property : Result → Prop) {default : Result} (atEnd : property default)
    (targets : ∀ instr ∈ program, ∀ op, instr.op = some op → op.isTerminal = true →
      property (result op instr.param)) :
    property ((BoolStack.run (program.map (command truth result)) []).getD default) := by
  have halts : ∀ target, .halt target ∈ program.map (command truth result) →
      property target := by
    intro target member
    rcases mem_map.mp member with ⟨instr, listed, halt⟩
    unfold command at halt
    split at halt
    · rename_i op known
      have isTerminal : op.isTerminal = true := by
        cases op <;> first
          | rfl
          | cases halt
      rw [Op.stackCommand_terminal isTerminal] at halt
      cases halt
      exact targets instr listed op known isTerminal
    · cases halt
  have selected := BoolStack.run_target halts []
  cases ended : BoolStack.run (program.map (command truth result)) [] with
  | none => exact atEnd
  | some target => exact selected target ended

end Walk

def Reported (slots : List ℕ) (slot : ℕ) : Prop :=
  slot ≠ 0 → slot ∈ slots

namespace RouterCfg

def mentionedSlots (cfg : RouterCfg) : Checked (List ℕ) :=
  mentionedBytecodeSlots routerSlots
    [cfg.dialTCP, cfg.listenTCP, cfg.dialUDP, cfg.routeUDP, cfg.lookup]

theorem result_mentioned {instr : Instr} (listed : instr ∈ program) {op : Op}
    (known : instr.op = some op) {slots : List ℕ} (reports : ∀ slot, 0 < slot → slot ≤ routerSlots →
      Mentions ([] : List (SnifferRouteAction Unit)) program slot → slot ∈ slots) :
    Reported slots (result op instr.param) := by
  intro nonzero
  cases op with
  | slot =>
    simp only [result, bytecodeParamInt] at nonzero ⊢
    split_ifs at nonzero ⊢ with negative large
    · exact absurd rfl nonzero
    · exact absurd rfl nonzero
    · exact reports _ (pos_of_ne_zero nonzero) (by simpa using large)
        ⟨instr, listed, .slot, known, rfl⟩
  | _ => exact absurd rfl nonzero

theorem select_reported {rules : BytecodeRules} {cfg : RouterCfg}
    (built : newBytecodeRouterCfg rules = .ok cfg) :
    ∃ slots, cfg.mentionedSlots = .ok slots ∧ slots.Pairwise (· < ·) ∧
      ∀ call storage, ∃ slot, cfg.select call storage = .ok slot ∧ Reported slots slot := by
  rcases newBytecodeRouterCfg_ok built with ⟨_, _, valid⟩
  have decodes : ∀ program, ∃ instrs, decode (cfg.code program) = .ok instrs := by
    intro program
    rcases valid program with ⟨name, hasLAddr, lookup, accepted⟩
    exact decode_of_validated (mapError_eq_ok_iff.mp accepted)
  choose instrs decoded using decodes
  have all : Forall₂ (fun code program => decode code = .ok program)
      [cfg.dialTCP, cfg.listenTCP, cfg.dialUDP, cfg.routeUDP, cfg.lookup]
      ([.dialTCP, .listenTCP, .dialUDP, .routeUDP, .lookup].map instrs) :=
    .cons (decoded .dialTCP) (.cons (decoded .listenTCP) (.cons (decoded .dialUDP)
      (.cons (decoded .routeUDP) (.cons (decoded .lookup) .nil))))
  rcases mentionedBytecodeSlotsWithRoutes_spec all with ⟨slots, computed, increasing, reports⟩
  refine ⟨slots, computed, increasing, fun call storage => ?_⟩
  rcases valid call.program with ⟨name, hasLAddr, lookup, accepted⟩
  rcases validateBytecode_ok (mapError_eq_ok_iff.mp accepted) with ⟨last, accepted⟩
  rcases bytecodeAddrStringOps_ok accepted with ⟨stringOps, marked⟩
  let ev := eval call.program.method call.network call.laddr call.raddr storage stringOps
  have same : cfg.select call storage =
      execLoop (step cfg.tables ev) (fun _ => 0) (cfg.code call.program) 0 [] := by
    rw [select_eq, exec, marked, ok_bind]
    rfl
  have finished := (interprets cfg.tables ev).exec 0 (fun _ _ _ => validateOp_sound) accepted
    (decoded call.program)
  refine ⟨_, same.trans finished,
    run_getD_target (Reported slots) (fun nonzero => absurd rfl nonzero) ?_⟩
  intro instr listed op known _
  refine result_mentioned listed known fun slot positive within mentioned =>
    (reports slot).mpr ⟨positive, within, instrs call.program, ?_, mentioned⟩
  cases call <;> simp [RouterCall.program]

end RouterCfg

namespace SnifferControls

variable {Factory Mutation : Type}

def eval (call : SnifferCall) (storage : Option (Netip.Addr → List Text))
    (stringOps : AddrStringOps) : Eval :=
  { call with
    laddr := newAddrCache call.laddr storage stringOps.local
    raddr := newAddrCache call.raddr storage stringOps.remote }

def mentionedSlots (cfg : SnifferControls Factory Mutation) : Checked (List ℕ) :=
  mentionedBytecodeSlotsWithRoutes maxSnifferBytecodeSlot cfg.routeActions
    [cfg.control, cfg.sniffControl]

variable {cfg : SnifferControls Factory Mutation} {slots : List ℕ}

theorem action_mentioned {instr : Instr} (listed : instr ∈ program) {op : Op}
    (known : instr.op = some op) (reports : ∀ slot, 0 < slot → slot ≤ maxSnifferBytecodeSlot →
      Mentions cfg.routeActions program slot → slot ∈ slots) :
    Reported slots (cfg.action op instr.param).slot := by
  intro nonzero
  cases op with
  | slot =>
    simp only [action, bytecodeParamInt] at nonzero ⊢
    split_ifs at nonzero ⊢ with negative large
    · exact absurd rfl nonzero
    · exact absurd rfl nonzero
    · exact reports _ (pos_of_ne_zero nonzero) (by simpa using large)
        ⟨instr, listed, .slot, known, rfl⟩
  | route =>
    simp only [action] at nonzero ⊢
    cases found : cfg.routeActions[instr.param]? with
    | none =>
      rw [found] at nonzero
      exact absurd rfl nonzero
    | some routed =>
      rw [found] at nonzero
      refine reports _ (pos_of_ne_zero nonzero) (Nat.le_of_lt_succ routed.slot.toNat_lt)
        ⟨instr, listed, .route, known, ?_⟩
      simp [slotOfOp, found]
  | _ => exact absurd rfl nonzero

theorem exec_reported {classifiers routeActions : ℕ} {name : String} {phase : SnifferProgram}
    {code : List UInt8} (accepted : validateBytecode name code
      (validateOp cfg.tables classifiers routeActions name phase) = .ok ())
    (decoded : decode code = .ok program)
    (reports : ∀ slot, 0 < slot → slot ≤ maxSnifferBytecodeSlot →
      Mentions cfg.routeActions program slot → slot ∈ slots) (call : SnifferCall) (result : ℤ)
    (storage : Option (Netip.Addr → List Text)) :
    ∃ action, cfg.exec code call result storage = .ok action ∧ Reported slots action.slot := by
  rcases validateBytecode_ok accepted with ⟨last, accepted⟩
  rcases bytecodeAddrStringOps_ok accepted with ⟨stringOps, marked⟩
  have same : cfg.exec code call result storage =
      execLoop (cfg.step (eval call storage stringOps) result) (fun _ => reject) code 0 [] := by
    rw [exec, marked, ok_bind]
    rfl
  have finished := (cfg.interprets (eval call storage stringOps) result).exec reject
    (fun _ _ _ => validateOp_sound) accepted decoded
  refine ⟨_, same.trans finished,
    run_getD_target (fun action : SnifferAction Mutation => Reported slots action.slot)
    (fun nonzero => absurd rfl nonzero) ?_⟩
  intro instr listed op known _
  exact action_mentioned listed known reports

theorem actions_reported {library : TextLibrary} {rules : SnifferBytecodeRules Factory Mutation}
    (built : newBytecodeSnifferControls library rules = .ok cfg) :
    ∃ slots, cfg.mentionedSlots = .ok slots ∧ slots.Pairwise (· < ·) ∧
      (∀ call storage, ∃ action,
        cfg.controlAction call storage = .ok action ∧ Reported slots action.slot) ∧
      ∀ call failed result storage, ∃ action,
        cfg.sniffControlAction call failed result storage = .ok action ∧
          Reported slots action.slot := by
  rcases of_bind built with ⟨checked, _, built⟩
  rcases of_bind built with ⟨tables, _, built⟩
  rcases of_bind built with ⟨_, control, built⟩
  rcases of_bind built with ⟨_, sniffControl, built⟩
  cases built
  rcases decode_of_validated (mapError_eq_ok_iff.mp control) with ⟨first, decodedFirst⟩
  rcases decode_of_validated (mapError_eq_ok_iff.mp sniffControl) with ⟨second, decodedSecond⟩
  rcases mentionedBytecodeSlotsWithRoutes_spec (.cons decodedFirst (.cons decodedSecond .nil)) with
    ⟨slots, computed, increasing, reports⟩
  have rejects : Reported slots (reject : SnifferAction Mutation).slot :=
    fun nonzero => absurd rfl nonzero
  refine ⟨slots, computed, increasing, fun call storage => ?_, fun call failed result storage => ?_⟩
  · cases call with
    | none => exact ⟨reject, rfl, rejects⟩
    | some call =>
      exact exec_reported (mapError_eq_ok_iff.mp control) decodedFirst
        (fun slot positive within mentioned =>
          (reports slot).mpr ⟨positive, within, first, by simp, mentioned⟩) call noMatch storage
  · cases call with
    | none => exact ⟨reject, by cases failed <;> rfl, rejects⟩
    | some call =>
      cases failed with
      | true => exact ⟨reject, rfl, rejects⟩
      | false =>
        exact exec_reported (mapError_eq_ok_iff.mp sniffControl) decodedSecond
          (fun slot positive within mentioned =>
            (reports slot).mpr ⟨positive, within, second, by simp, mentioned⟩) call result
          storage

end SnifferControls

def SplitBytecodeRules.mentionedSlots {Rule : Type} (rules : SplitBytecodeRules Rule) :
    Checked (List ℕ) :=
  mentionedBytecodeSlots routerSlots [rules.route]

namespace SplitRouter

variable {Rule : Type} {rules : SplitBytecodeRules Rule} {router : SplitRouter} {state : SplitState}

theorem decode_of_built (built : newBytecodeSplitRouter rules = .ok (.ok (router, state))) :
    decode rules.route = .ok router.routeProgram := by
  unfold newBytecodeSplitRouter at built
  split at built
  · cases built
  · rcases of_bind built with ⟨stringOps, _, built⟩
    rcases of_bind built with ⟨⟨program, depth⟩, compiled, built⟩
    rcases of_bind built with ⟨segments, _, built⟩
    rcases of_bind compiled with ⟨decoded, read, compiled⟩
    cases compiled
    split at built
    · cases built
    · cases built
      exact read

theorem routeAll_reported (built : newBytecodeSplitRouter rules = .ok (.ok (router, state))) :
    ∃ slots, rules.mentionedSlots = .ok slots ∧ slots.Pairwise (· < ·) ∧
      ∀ world calls, ∃ answers after,
        (router.routeAll world calls).run state = .ok (answers, after) ∧
          ∀ slot ∈ answers, Reported slots slot := by
  rcases newBytecodeSplitRouter_spec built with ⟨constructed, _⟩
  rcases mentionedBytecodeSlotsWithRoutes_spec (.cons (decode_of_built built) .nil) with
    ⟨slots, collected, increasing, reports⟩
  have selected : ∀ world call packet,
      Reported slots (router.context world call packet).slot := by
    intro world call packet
    refine constructed.slot_property (Reported slots) (fun nonzero => absurd rfl nonzero) ?_
    intro instr listed known within nonzero
    exact (reports _).mpr ⟨pos_of_ne_zero nonzero, within, _, mem_singleton.mpr rfl,
      instr, listed, .slot, known, rfl⟩
  refine ⟨slots, collected, increasing, fun world calls => ?_⟩
  rcases routeAll_property built (Reported slots) (fun nonzero => absurd rfl nonzero)
    (selected world) calls with ⟨answers, after, finished, reported, _⟩
  exact ⟨answers, after, finished, reported⟩

end SplitRouter

/-- Whatever rules the three constructors accept, the reported slots are strictly increasing
and contain every slot other than 0 that a call can return: of the five methods of a router,
of both controls of a sniffer, and of a split router after any calls. -/
theorem mentionedSlots_complete :
    (∀ (rules : BytecodeRules) (cfg : RouterCfg), newBytecodeRouterCfg rules = .ok cfg →
      ∃ slots, cfg.mentionedSlots = .ok slots ∧ slots.Pairwise (· < ·) ∧
        ∀ call storage, ∃ slot, cfg.select call storage = .ok slot ∧
          (slot ≠ 0 → slot ∈ slots)) ∧ (∀ (Factory Mutation : Type) (library : TextLibrary)
        (rules : SnifferBytecodeRules Factory Mutation) (cfg : SnifferControls Factory Mutation),
      newBytecodeSnifferControls library rules = .ok cfg →
      ∃ slots, cfg.mentionedSlots = .ok slots ∧ slots.Pairwise (· < ·) ∧
        (∀ call storage, ∃ action, cfg.controlAction call storage = .ok action ∧
          (action.slot ≠ 0 → action.slot ∈ slots)) ∧
        ∀ call failed result storage, ∃ action,
          cfg.sniffControlAction call failed result storage = .ok action ∧
            (action.slot ≠ 0 → action.slot ∈ slots)) ∧
    (∀ (Rule : Type) (rules : SplitBytecodeRules Rule) (router : SplitRouter) (state : SplitState),
      newBytecodeSplitRouter rules = .ok (.ok (router, state)) →
      ∃ slots, rules.mentionedSlots = .ok slots ∧ slots.Pairwise (· < ·) ∧
        ∀ world calls, ∃ answers after,
          (router.routeAll world calls).run state = .ok (answers, after) ∧
            ∀ slot ∈ answers, slot ≠ 0 → slot ∈ slots) :=
  ⟨fun _ _ => RouterCfg.select_reported, fun _ _ _ _ _ => SnifferControls.actions_reported,
    fun _ _ _ _ => SplitRouter.routeAll_reported⟩

theorem mentionedSlots_complete_sample :
    ∃ cfg controls router state,
      newBytecodeRouterCfg dialRules = .ok cfg ∧ cfg.mentionedSlots = .ok [7] ∧
      newBytecodeSnifferControls asciiLibrary.toTextLibrary routeActionRules = .ok controls ∧
      controls.mentionedSlots = .ok [200] ∧
      newBytecodeSplitRouter sampleSplitRules = .ok (.ok (router, state)) ∧
      sampleSplitRules.mentionedSlots = .ok [3] ∧
      (∀ call storage, ∃ slot, cfg.select call storage = .ok slot ∧ (slot ≠ 0 → slot ∈ [7])) ∧
      (∀ call storage, ∃ action, controls.controlAction call storage = .ok action ∧
        (action.slot ≠ 0 → action.slot ∈ [200])) ∧
      ∀ world calls, ∃ answers after,
        (router.routeAll world calls).run state = .ok (answers, after) ∧
          ∀ slot ∈ answers, slot ≠ 0 → slot ∈ [3] := by
  have reportsRouter : ((newBytecodeRouterCfg dialRules).toOption.bind fun cfg =>
      cfg.mentionedSlots.toOption) = some [7] := by decide +kernel
  have reportsControls : ((newBytecodeSnifferControls asciiLibrary.toTextLibrary
      routeActionRules).toOption.bind fun controls => controls.mentionedSlots.toOption) =
        some [200] := by decide +kernel
  have reportsSplit : sampleSplitRules.mentionedSlots.toOption = some [3] := by decide +kernel
  rcases Option.bind_eq_some_iff.mp reportsRouter with ⟨cfg, built, reportsCfg⟩
  rcases Option.bind_eq_some_iff.mp reportsControls with ⟨controls, builtControls, reportsActions⟩
  rcases sampleSplitRules_built with ⟨router, state, _, _, splitBuilt, _⟩
  rcases mentionedSlots_complete with ⟨ofRouter, ofSniffer, ofSplit⟩
  rcases ofRouter _ cfg (toOption_eq_some built) with ⟨slots, computed, _, selects⟩
  cases (toOption_eq_some reportsCfg).symm.trans computed
  rcases ofSniffer _ _ _ _ controls (toOption_eq_some builtControls) with
    ⟨slots, computedControls, _, acts, _⟩
  cases (toOption_eq_some reportsActions).symm.trans computedControls
  rcases ofSplit _ _ router state splitBuilt with ⟨slots, computedSplit, _, routes⟩
  cases (toOption_eq_some reportsSplit).symm.trans computedSplit
  exact ⟨cfg, controls, router, state, toOption_eq_some built, computed,
    toOption_eq_some builtControls, computedControls, splitBuilt, computedSplit, selects, acts,
    routes⟩

end Gonnect.Routing
