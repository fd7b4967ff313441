import Gonnect.Routing.Bytecode

/-!
# Assembled programs

The parser writes an instruction as the byte of its opcode and its parameter with the
low byte first. What it writes is what the interpreters fetch.
-/

namespace Gonnect.Routing

open Checked List

/-- The bytes that `appendOp` appends for an operation and its parameter. -/
def Op.assemble (op : Op) (param : ℕ) : List UInt8 :=
  match op.paramKind with
  | .none => [op.toByte]
  | .uint8 => [op.toByte, UInt8.ofNat param]
  | .uint16 => [op.toByte, UInt8.ofNat param, UInt8.ofNat (param / 256)]

def Op.fits (op : Op) (param : ℕ) : Prop :=
  match op.paramKind with
  | .none => param = 0
  | .uint8 => param < 256
  | .uint16 => param < 65536

structure Command where
  op : Op
  param : ℕ
deriving DecidableEq, Repr

namespace Command

def instr (command : Command) : Instr :=
  ⟨some command.op, command.param⟩

def assemble (program : List Command) : List UInt8 :=
  program.flatMap fun command => command.op.assemble command.param

theorem assemble_nil : assemble [] = [] := rfl

theorem assemble_cons (command : Command) (program : List Command) :
    assemble (command :: program) = command.op.assemble command.param ++ assemble program :=
  rfl

theorem assemble_append (front back : List Command) :
    assemble (front ++ back) = assemble front ++ assemble back := by
  simp [assemble]

theorem fetch_assemble (front back : List UInt8) {op : Op} {param : ℕ} (fits : op.fits param) :
    fetch (front ++ (op.assemble param ++ back)) front.length =
      .ok (⟨some op, param⟩, front.length + (op.assemble param).length) := by
  cases kind : op.paramKind with
  | none =>
    simp only [Op.fits, kind] at fits
    subst fits
    simp [Op.assemble, kind, fetch, index, readBytecodeParamUnchecked]
  | uint8 =>
    simp only [Op.fits, kind] at fits
    have low : param % 256 = param := Nat.mod_eq_of_lt fits
    simp [Op.assemble, kind, fetch, index, readBytecodeParamUnchecked, low]
  | uint16 =>
    simp only [Op.fits, kind] at fits
    have joined : param % 256 + 256 * (param / 256 % 256) = param := by omega
    have inside : front.length + 1 ≤
        (front ++ (op.assemble param ++ back)).length := by
      simp [Op.assemble, kind]
    have window : windowFrom (front ++ (op.assemble param ++ back)) (front.length + 1) =
        .ok (UInt8.ofNat param :: UInt8.ofNat (param / 256) :: back) := by
      rw [windowFrom_eq_ok inside]
      simp [Op.assemble, kind, drop_append]
    have byte : index (front ++ (op.assemble param ++ back)) front.length = .ok op.toByte := by
      simp [Op.assemble, kind, index]
    have length : (op.assemble param).length = 3 := by simp [Op.assemble, kind]
    have word : leUint16 (UInt8.ofNat param :: UInt8.ofNat (param / 256) :: back) = .ok param := by
      simp [leUint16, index, joined]
    simp [fetch, byte, readBytecodeParamUnchecked, kind, window, word, length]

variable {program : List Command}

theorem decodeLoop_assemble (fits : ∀ command ∈ program, command.op.fits command.param)
    (front : List UInt8) :
    decodeLoop (front ++ assemble program) front.length = .ok (program.map Command.instr) := by
  induction program generalizing front with
  | nil =>
    unfold decodeLoop
    simp [assemble_nil]
  | cons command program ih =>
    have fetched := fetch_assemble front (assemble program) (fits command mem_cons_self)
    have rest := ih
      (fun other isMember => fits other (mem_cons_of_mem _ isMember))
      (front ++ command.op.assemble command.param)
    rw [append_assoc, length_append] at rest
    have nonempty : 0 < (command.op.assemble command.param).length := by
      unfold Op.assemble
      split <;> simp
    rw [assemble_cons]
    unfold decodeLoop
    rw [if_pos (by simp only [length_append]; omega)]
    split
    · rename_i fault faulted
      cases fetched.symm.trans faulted
    · rename_i instr next fetchedAgain
      cases fetched.symm.trans fetchedAgain
      simp only [rest, ok_bind]
      rfl

theorem decode_assemble (fits : ∀ command ∈ program, command.op.fits command.param) :
    decode (assemble program) = .ok (program.map Command.instr) :=
  decodeLoop_assemble fits []

end Command

end Gonnect.Routing
