import Mathlib.Data.UInt
import Mathlib.Tactic.Ring

/-!
# Big-endian byte strings

A byte string is read as a number with its first byte most significant. For strings of one
length the reading is injective and keeps the order, so a development may compute with bytes
as a program does and argue about numbers.
-/

namespace Gonnect.BigEndian

open List

def ofBytes : List UInt8 → ℕ
  | [] => 0
  | byte :: rest => byte.toNat * 256 ^ rest.length + ofBytes rest

def toBytes (value : ℕ) : List UInt8 :=
  if value = 0 then [] else toBytes (value / 256) ++ [UInt8.ofNat value]
termination_by value
decreasing_by omega

def padLeft (width : ℕ) (bytes : List UInt8) : List UInt8 :=
  replicate (width - bytes.length) 0 ++ bytes

@[simp]
theorem ofBytes_nil : ofBytes [] = 0 := rfl

theorem ofBytes_cons (byte : UInt8) (rest : List UInt8) :
    ofBytes (byte :: rest) = byte.toNat * 256 ^ rest.length + ofBytes rest := rfl

theorem ofBytes_append (front back : List UInt8) :
    ofBytes (front ++ back) = ofBytes front * 256 ^ back.length + ofBytes back := by
  induction front with
  | nil => simp
  | cons byte front ih =>
    rw [cons_append, ofBytes_cons, ofBytes_cons, ih, length_append, pow_add]
    ring

theorem ofBytes_lt (bytes : List UInt8) : ofBytes bytes < 256 ^ bytes.length := by
  induction bytes with
  | nil => simp
  | cons byte rest ih =>
    have byteBound : byte.toNat < 256 := byte.toNat_lt
    have scaled : (byte.toNat + 1) * 256 ^ rest.length ≤ 256 * 256 ^ rest.length :=
      Nat.mul_le_mul_right _ byteBound
    rw [ofBytes_cons, length_cons, pow_succ]
    rw [add_mul] at scaled
    omega

theorem ofBytes_replicate_zero (count : ℕ) : ofBytes (replicate count 0) = 0 := by
  induction count with
  | zero => rfl
  | succ count ih => simpa [replicate_succ, ofBytes_cons] using ih

@[simp]
theorem ofBytes_padLeft (width : ℕ) (bytes : List UInt8) :
    ofBytes (padLeft width bytes) = ofBytes bytes := by
  rw [padLeft, ofBytes_append, ofBytes_replicate_zero]
  simp

@[simp]
theorem ofBytes_toBytes (value : ℕ) : ofBytes (toBytes value) = value := by
  induction value using Nat.strong_induction_on with
  | _ value ih =>
    rw [toBytes]
    split
    · rename_i zero
      exact zero.symm
    · have smaller : value / 256 < value := by omega
      rw [ofBytes_append, ih _ smaller]
      simp only [ofBytes_cons, ofBytes_nil, length_cons, length_nil, UInt8.toNat_ofNat']
      omega

theorem length_toBytes_le {value width : ℕ} (bound : value < 256 ^ width) :
    (toBytes value).length ≤ width := by
  induction width generalizing value with
  | zero =>
    have zero : value = 0 := by simpa using bound
    rw [zero, toBytes]
    simp
  | succ width ih =>
    rw [toBytes]
    split
    · simp
    · have quotient : value / 256 < 256 ^ width := by
        apply Nat.div_lt_of_lt_mul
        omega
      have shorter := ih quotient
      rw [length_append]
      simpa using shorter

variable {bytes left right : List UInt8}

theorem length_padLeft {width : ℕ} (fits : bytes.length ≤ width) :
    (padLeft width bytes).length = width := by
  rw [padLeft, length_append, length_replicate]
  omega

theorem leading_lt_iff {base high low high' low' : ℕ} (bound : low < base) (bound' : low' < base) :
    high * base + low < high' * base + low' ↔ high < high' ∨ high = high' ∧ low < low' := by
  rcases Nat.lt_trichotomy high high' with less | rfl | greater
  · have step : (high + 1) * base ≤ high' * base := Nat.mul_le_mul_right _ less
    rw [add_mul] at step
    omega
  · omega
  · have step : (high' + 1) * base ≤ high * base := Nat.mul_le_mul_right _ greater
    rw [add_mul] at step
    omega

theorem lt_iff_ofBytes_lt (length : left.length = right.length) :
    left < right ↔ ofBytes left < ofBytes right := by
  induction left generalizing right with
  | nil =>
    have empty : right = [] := eq_nil_of_length_eq_zero length.symm
    simp [empty]
  | cons byte left ih =>
    rcases right with _ | ⟨other, right⟩
    · simp at length
    · have lengths : left.length = right.length := by simpa using length
      have leftBound := ofBytes_lt left
      rw [lengths] at leftBound
      rw [cons_lt_cons_iff, ofBytes_cons, ofBytes_cons, lengths,
        leading_lt_iff leftBound (ofBytes_lt right), ih lengths, UInt8.lt_iff_toNat_lt,
        UInt8.toNat_inj]

theorem ofBytes_injective (length : left.length = right.length)
    (value : ofBytes left = ofBytes right) : left = right := by
  apply List.le_antisymm
  · exact List.not_lt.mp fun less => ((lt_iff_ofBytes_lt length.symm).mp less).ne value.symm
  · exact List.not_lt.mp fun less => ((lt_iff_ofBytes_lt length).mp less).ne value

theorem padLeft_toBytes_eq {width value : ℕ} (length : bytes.length = width)
    (denotes : ofBytes bytes = value) : padLeft width (toBytes value) = bytes := by
  have bound := ofBytes_lt bytes
  rw [denotes, length] at bound
  apply ofBytes_injective
  · rw [length, length_padLeft (length_toBytes_le bound)]
  · rw [ofBytes_padLeft, ofBytes_toBytes, denotes]

end Gonnect.BigEndian
