import Gonnect.Foundation.StraightLine
import Mathlib.Tactic.Cases

/-!
# Routing bytecode: opcodes, parameters and the stack-depth check

A routing program is a byte string. Each instruction is an opcode byte and a parameter of
zero, one or two bytes. The validators read parameters with a bounds check and refuse
unknown opcodes; the interpreters read them without a check and skip unknown opcodes, so
every read of theirs may fault. Running the bytes is running the list of decoded
instructions (`execLoop_eq_run`).
-/

namespace Gonnect.Routing

open Checked StraightLine

inductive Op where
  | drop | slot | pushTrue | pushFalse | not | and | or
  | net4 | net6 | udp | tcp | fqdn | lfqdn
  | addrS | laddrS | addrRe | laddrRe | addr4 | laddr4 | addr6 | laddr6
  | snet4 | lsnet4 | snet6 | lsnet6 | port | lport | rule
  | dial | listen | lookup
  | intercept | sniff | sniffNone | route
  | backend | qtype | qclass | opcode
deriving DecidableEq, Repr

namespace Op

def all : List Op :=
  [drop, slot, pushTrue, pushFalse, not, and, or, net4, net6, udp, tcp, fqdn, lfqdn,
    addrS, laddrS, addrRe, laddrRe, addr4, laddr4, addr6, laddr6,
    snet4, lsnet4, snet6, lsnet6, port, lport, rule, dial, listen, lookup,
    intercept, sniff, sniffNone, route, backend, qtype, qclass, opcode]

def ofByte (byte : UInt8) : Option Op :=
  all[byte.toNat]?

def toByte (op : Op) : UInt8 :=
  UInt8.ofNat op.ctorIdx

@[simp] theorem ofByte_toByte (op : Op) : ofByte op.toByte = some op := by
  cases op <;> rfl

def isLAddr : Op → Bool
  | lfqdn | laddrS | laddrRe | laddr4 | laddr6 | lsnet4 | lsnet6 | lport => true
  | _ => false

def isSplitOnly : Op → Bool
  | rule => true
  | _ => false

def isSnifferOnly : Op → Bool
  | intercept | sniff | sniffNone | route => true
  | _ => false

def isDNSOnly : Op → Bool
  | backend | qtype | qclass | opcode => true
  | _ => false

def isRouterMethod : Op → Bool
  | dial | listen | lookup => true
  | _ => false

end Op

inductive ParamKind where
  | none
  | uint8
  | uint16
deriving DecidableEq, Repr

/-- The width of an opcode's parameter, as both readers know it. -/
def Op.paramKind : Op → ParamKind
  | .drop | .pushTrue | .pushFalse | .not | .and | .or | .net4 | .net6 | .udp | .tcp | .fqdn
  | .lfqdn | .dial | .listen | .lookup | .intercept | .sniffNone => .none
  | .slot => .uint8
  | .addrS | .laddrS | .addrRe | .laddrRe | .addr4 | .laddr4 | .addr6 | .laddr6
  | .snet4 | .lsnet4 | .snet6 | .lsnet6 | .port | .lport | .rule | .sniff | .route | .backend
  | .qtype | .qclass | .opcode => .uint16

/-- What the validators report, with the data of the message. -/
inductive BytecodeError where
  | missingParameter (name : String) (offset : ℕ) (kind : ParamKind)
  | unknownOpcode (name : String) (offset : ℕ) (op : UInt8)
  | stackUnderflow (name : String) (offset : ℕ)
  | stackDepth (name : String) (depth : ℕ)
  | notValidFor (name : String) (offset : ℕ) (op : Op) (target : String)
  /-- A local-address opcode where there is no local address. -/
  | localAddress (name : String) (offset : ℕ) (forLookup : Bool)
  | slotOutOfRange (name : String) (offset param limit : ℕ)
  | indexOutOfRange (name : String) (offset : ℕ) (table : String) (param size : ℕ)
deriving DecidableEq, Repr

/-- `readBytecodeParam`: the parameter and the position after it. -/
def readBytecodeParam (name : String) (code : List UInt8) (pc : ℕ) (byte : UInt8) :
    Except BytecodeError (Op × ℕ × ℕ) :=
  match Op.ofByte byte with
  | none => .error (.unknownOpcode name (pc - 1) byte)
  | some op =>
    match op.paramKind with
    | .none => .ok (op, 0, pc)
    | .uint8 =>
      match code[pc]? with
      | none => .error (.missingParameter name (pc - 1) .uint8)
      | some param => .ok (op, param.toNat, pc + 1)
    | .uint16 =>
      match code[pc]?, code[pc + 1]? with
      | some low, some high => .ok (op, low.toNat + 256 * high.toNat, pc + 2)
      | _, _ => .error (.missingParameter name (pc - 1) .uint16)

def readBytecodeParamUnchecked (code : List UInt8) (pc : ℕ) (byte : UInt8) : Checked (ℕ × ℕ) :=
  match (Op.ofByte byte).map Op.paramKind with
  | some .uint8 => do
      let param ← index code pc
      .ok (param.toNat, pc + 1)
  | some .uint16 => do
      let param ← leUint16 (← windowFrom code pc)
      .ok (param, pc + 2)
  | _ => .ok (0, pc)

variable {name : String} {code : List UInt8} {pc next param : ℕ} {byte : UInt8}

variable {op : Op} {validateOp : ℕ → Op → ℕ → Except BytecodeError Unit}
  {effect : Op → ℕ → Option ℕ}

theorem readBytecodeParam_advances
    (read : readBytecodeParam name code pc byte = .ok (op, param, next)) : pc ≤ next := by
  unfold readBytecodeParam at read
  split at read
  · cases read
  · split at read
    · cases read; omega
    · split at read <;> cases read; omega
    · split at read <;> cases read; omega

theorem readBytecodeParamUnchecked_advances
    (read : readBytecodeParamUnchecked code pc byte = .ok (param, next)) : pc ≤ next := by
  unfold readBytecodeParamUnchecked at read
  split at read
  · rcases of_bind read with ⟨_, _, equal⟩
    cases equal; omega
  · rcases of_bind read with ⟨_, _, inner⟩
    rcases of_bind inner with ⟨_, _, equal⟩
    cases equal; omega
  · cases read; omega

theorem readBytecodeParam_unchecked
    (read : readBytecodeParam name code pc byte = .ok (op, param, next)) :
    Op.ofByte byte = some op ∧ readBytecodeParamUnchecked code pc byte = .ok (param, next) := by
  unfold readBytecodeParam at read
  unfold readBytecodeParamUnchecked
  split at read
  · cases read
  · rename_i known isKnown
    simp only [isKnown, Option.map_some]
    split at read
    · rename_i kind
      cases read
      simp [kind]
    · rename_i kind
      split at read
      · cases read
      · rename_i value found
        cases read
        simp [kind, index, found]
    · rename_i kind
      split at read
      · rename_i low high foundLow foundHigh
        cases read
        have inside : pc ≤ code.length := by
          have := (List.getElem?_eq_some_iff.mp foundLow).1
          omega
        simp [kind, windowFrom_eq_ok inside, leUint16, index, foundLow, foundHigh]
      · cases read

/-- A fetched instruction. The interpreters skip a byte that is no opcode. -/
structure Instr where
  op : Option Op
  param : ℕ
deriving DecidableEq, Repr

/-- The first lines of every interpreter loop: the instruction at a position and the
position after it. -/
def fetch (code : List UInt8) (pc : ℕ) : Checked (Instr × ℕ) := do
  let byte ← index code pc
  let (param, next) ← readBytecodeParamUnchecked code (pc + 1) byte
  .ok (⟨Op.ofByte byte, param⟩, next)

theorem fetch_advances {instr : Instr} (fetched : fetch code pc = .ok (instr, next)) :
    pc < next := by
  rcases of_bind fetched with ⟨byte, _, rest⟩
  rcases of_bind rest with ⟨⟨param, after⟩, read, equal⟩
  have advanced := readBytecodeParamUnchecked_advances read
  cases equal
  omega

def decodeLoop (code : List UInt8) (pc : ℕ) : Checked (List Instr) :=
  if pc < code.length then
    match _fetched : fetch code pc with
    | .error fault => .error fault
    | .ok (instr, next) => do
        let rest ← decodeLoop code next
        .ok (instr :: rest)
  else
    .ok []
termination_by code.length - pc
decreasing_by
  have := fetch_advances _fetched
  omega

def decode (code : List UInt8) : Checked (List Instr) :=
  decodeLoop code 0

section Exec

variable {Memory Result : Type} (step : Op → ℕ → Memory → Checked (Outcome Memory Result))
  (finish : Memory → Result)

/-- One instruction; a byte that is no opcode matches no case of the switch. -/
def Instr.perform (instr : Instr) (memory : Memory) : Checked (Outcome Memory Result) :=
  match instr.op with
  | some op => step op instr.param memory
  | none => .ok (.next memory)

def execLoop (code : List UInt8) (pc : ℕ) (memory : Memory) : Checked Result :=
  if pc < code.length then
    match _fetched : fetch code pc with
    | .error fault => .error fault
    | .ok (instr, next) => do
        match ← instr.perform step memory with
        | .next after => execLoop code next after
        | .halt result => .ok result
  else
    .ok (finish memory)
termination_by code.length - pc
decreasing_by
  have := fetch_advances _fetched
  omega

variable {step finish}

theorem execLoop_eq_run {code : List UInt8} {pc : ℕ} {program : List Instr} {memory : Memory}
    (decoded : decodeLoop code pc = .ok program) :
    execLoop step finish code pc memory =
      run (fun instr => instr.perform step) finish program memory := by
  fun_induction decodeLoop code pc generalizing program memory with
  | case1 pc inside fault fetched => cases decoded
  | case2 pc inside instr next fetched ih =>
    rcases of_bind decoded with ⟨rest, decodedRest, equal⟩
    cases equal
    unfold execLoop
    split_ifs
    split
    · rename_i fault faulted
      cases fetched.symm.trans faulted
    · rename_i same after fetchedAgain
      cases fetched.symm.trans fetchedAgain
      congr 1
      funext outcome
      cases outcome with
      | next after => exact ih decodedRest
      | halt result => rfl
  | case3 pc outside =>
    cases decoded
    unfold execLoop run
    rw [if_neg outside]

end Exec

/-- The switch of `validateBytecode` on the depth: no depth after a stack underflow. -/
def depthEffect (op : Op) (depth : ℕ) : Option ℕ :=
  match op with
  | .drop | .slot | .intercept | .route | .backend => if depth < 1 then none else some (depth - 1)
  | .not => if depth < 1 then none else some depth
  | .and | .or => if depth < 2 then none else some (depth - 1)
  | _ => some (depth + 1)

/-- The loop shared by `validateBytecode` and `validatePredicate`, which differ in the
switch on the depth. The result is the depth after the last instruction. -/
def validateLoop (name : String) (validateOp : ℕ → Op → ℕ → Except BytecodeError Unit)
    (effect : Op → ℕ → Option ℕ) (code : List UInt8) (pc depth : ℕ) : Except BytecodeError ℕ :=
  match _inside : code[pc]? with
  | none => .ok depth
  | some byte =>
    match _read : readBytecodeParam name code (pc + 1) byte with
    | .error error => .error error
    | .ok (op, param, next) =>
      match validateOp pc op param with
      | .error error => .error error
      | .ok () =>
        match effect op depth with
        | none => .error (.stackUnderflow name pc)
        | some after => validateLoop name validateOp effect code next after
termination_by code.length - pc
decreasing_by
  have := readBytecodeParam_advances _read
  have := (List.getElem?_eq_some_iff.mp _inside).1
  omega

def validateBytecode (name : String) (code : List UInt8)
    (validateOp : ℕ → Op → ℕ → Except BytecodeError Unit) : Except BytecodeError Unit := do
  let _ ← validateLoop name validateOp depthEffect code 0 0
  .ok ()

/-- What a validator asks of one instruction: an opcode that it accepts with this
parameter, and enough operands on the stack. -/
def Instr.Valid (accepts : Op → ℕ → Prop) (effect : Op → ℕ → Option ℕ) (instr : Instr)
    (before after : ℕ) : Prop :=
  ∃ op, instr.op = some op ∧ accepts op instr.param ∧ effect op before = some after

theorem validateLoop_decodes {accepts : Op → ℕ → Prop}
    (sound : ∀ pc op param, validateOp pc op param = .ok () → accepts op param) {depth last : ℕ}
    (accepted : validateLoop name validateOp effect code pc depth = .ok last) :
    ∃ program, decodeLoop code pc = .ok program ∧
      Checks (Instr.Valid accepts effect) program depth last := by
  fun_induction validateLoop name validateOp effect code pc depth with
  | case1 pc depth outside =>
    cases accepted
    refine ⟨[], ?_, .nil⟩
    unfold decodeLoop
    rw [if_neg (by simpa using outside)]
  | case2 pc depth byte inside error read
  | case3 pc depth byte inside op param next read error rejected
  | case4 pc depth byte inside op param next read valid underflow => cases accepted
  | case5 pc depth byte inside op param next read valid after enough ih =>
    rcases ih accepted with ⟨rest, decoded, checks⟩
    rcases readBytecodeParam_unchecked read with ⟨known, unchecked⟩
    have fetched : fetch code pc = .ok (⟨some op, param⟩, next) := by
      simp [fetch, index, inside, unchecked, known]
    refine ⟨⟨some op, param⟩ :: rest, ?_, .cons ⟨op, rfl, sound _ _ _ valid, enough⟩ checks⟩
    unfold decodeLoop
    rw [if_pos (List.getElem?_eq_some_iff.mp inside).1]
    split
    · rename_i fault faulted
      cases fetched.symm.trans faulted
    · rename_i instr after fetchedAgain
      cases fetched.symm.trans fetchedAgain
      simp [decoded]

/-- The rule for the safety of an interpreter: its program passed the validator, and
each instruction that the validator accepts, run on a memory that the depth describes,
does not fault and ends as the next depth says. -/
theorem execLoop_sound {Memory Result : Type}
    {step : Op → ℕ → Memory → Checked (Outcome Memory Result)} {finish : Memory → Result}
    (accepts : Op → ℕ → Prop) (describes : ℕ → Memory → Prop) (wanted : Result → Prop)
    (sound : ∀ pc op param, validateOp pc op param = .ok () → accepts op param)
    (stepSound : ∀ op param before after memory, accepts op param → effect op before = some after →
      describes before memory →
        ∃ outcome, step op param memory = .ok outcome ∧ outcome.Described describes wanted after)
    {last : ℕ} {memory : Memory}
    (accepted : validateLoop name validateOp effect code 0 0 = .ok last)
    (initial : describes 0 memory)
    (finishSound : ∀ final, describes last final → wanted (finish final)) :
    ∃ result, execLoop step finish code 0 memory = .ok result ∧ wanted result := by
  rcases validateLoop_decodes sound accepted with ⟨program, decoded, checks⟩
  rw [execLoop_eq_run decoded]
  refine run_sound ?_ checks initial finishSound
  rintro instr before after state ⟨op, known, allowed, enough⟩ described
  simp only [Instr.perform, known]
  exact stepSound op instr.param before after state allowed enough described

end Gonnect.Routing
