import Mathlib.Tactic.NormNum
import Gonnect.Foundation.BigEndian

/-!
# The addresses of Go's `net` package

An `IP` is a byte slice, and a `nil` slice is the empty list. A slice of sixteen bytes may
still be an IPv4 address, behind a fixed prefix of twelve bytes, so the functions that look
at addresses convert first.

A mask in canonical form has leading ones and then zeros only. Applying it to an address of
the same length rounds the address down to a multiple of the block size
(`ofBytes_maskBytes`).
-/

namespace Gonnect.Net

open BigEndian List

abbrev IP := List UInt8

abbrev IPMask := List UInt8

structure IPNet where
  ip : IP
  mask : IPMask
  deriving DecidableEq

inductive Family where
  | v4
  | v6
  deriving DecidableEq, Repr

def Family.bytes : Family → ℕ
  | .v4 => 4
  | .v6 => 16

def Family.bits (family : Family) : ℕ :=
  8 * family.bytes

def v4InV6Prefix : List UInt8 :=
  [0, 0, 0, 0, 0, 0, 0, 0, 0, 0, 0xff, 0xff]

def to4 (ip : IP) : Option IP :=
  if ip.length = 4 then
    some ip
  else if ip.length = 16 ∧ ip.take 12 = v4InV6Prefix then
    some (ip.drop 12)
  else
    none

def to16 (ip : IP) : Option IP :=
  if ip.length = 4 then
    some (v4InV6Prefix ++ ip)
  else if ip.length = 16 then
    some ip
  else
    none

/-- `IP.Equal`: an IPv4 address and its sixteen byte form are equal. -/
def ipEqual (left right : IP) : Bool :=
  if left.length = right.length then
    left = right
  else if left.length = 4 ∧ right.length = 16 then
    right.take 12 = v4InV6Prefix ∧ left = right.drop 12
  else if left.length = 16 ∧ right.length = 4 then
    left.take 12 = v4InV6Prefix ∧ left.drop 12 = right
  else
    false

def maskBytes (ip : IP) (mask : IPMask) : IP :=
  zipWith (· &&& ·) ip mask

def ipMask (ip : IP) (mask : IPMask) : Option IP :=
  let mask :=
    if mask.length = 16 ∧ ip.length = 4 ∧ mask.take 12 = replicate 12 0xff then
      mask.drop 12
    else
      mask
  let ip :=
    if mask.length = 4 ∧ ip.length = 16 ∧ ip.take 12 = v4InV6Prefix then
      ip.drop 12
    else
      ip
  if ip.length = mask.length then some (maskBytes ip mask) else none

/-- Shift the leading ones of a byte out; eight shifts leave nothing. -/
def shiftOutOnes : ℕ → UInt8 → ℕ × UInt8
  | 0, byte => (0, byte)
  | fuel + 1, byte =>
    if byte &&& 0x80 ≠ 0 then
      let (ones, rest) := shiftOutOnes fuel (byte <<< 1)
      (ones + 1, rest)
    else
      (0, byte)

def simpleMaskLength : IPMask → Option ℕ
  | [] => some 0
  | byte :: rest =>
    if byte = 0xff then
      (simpleMaskLength rest).map (· + 8)
    else
      let (ones, remaining) := shiftOutOnes 8 byte
      if remaining ≠ 0 then
        none
      else if rest.all (· == 0) then
        some ones
      else
        none

/-- `IPMask.Size`: the leading ones and the length in bits. -/
def maskSize (mask : IPMask) : ℕ × ℕ :=
  match simpleMaskLength mask with
  | some ones => (ones, mask.length * 8)
  | none => (0, 0)

def cidrMaskBytes : ℕ → ℕ → IPMask
  | 0, _ => []
  | length + 1, ones =>
    if 8 ≤ ones then
      0xff :: cidrMaskBytes length (ones - 8)
    else
      ~~~((0xff : UInt8) >>> UInt8.ofNat ones) :: cidrMaskBytes length 0

/-- `CIDRMask` for a prefix length that fits in the family. -/
def cidrMask (ones : ℕ) (family : Family) : IPMask :=
  cidrMaskBytes family.bytes ones

def networkNumberAndMask (network : IPNet) : Option (IP × IPMask) :=
  match to4 network.ip with
  | some ip =>
    if network.mask.length = 4 then
      some (ip, network.mask)
    else if network.mask.length = 16 then
      some (ip, network.mask.drop 12)
    else
      none
  | none =>
    if network.ip.length = 16 ∧ network.mask.length = 16 then
      some (network.ip, network.mask)
    else
      none

def contains (network : IPNet) (ip : IP) : Bool :=
  match networkNumberAndMask network with
  | none => ip.length = 0
  | some (number, mask) =>
    let ip := (to4 ip).getD ip
    ip.length = number.length ∧ maskBytes number mask = maskBytes ip mask

variable {ip converted : IP} {mask : IPMask} {ones : ℕ}

theorem to4_length (found : to4 ip = some converted) : converted.length = 4 := by
  simp only [to4] at found
  split_ifs at found with four sixteen
  · cases found
    exact four
  · cases found
    rw [length_drop]
    omega

theorem to16_length (found : to16 ip = some converted) : converted.length = 16 := by
  simp only [to16] at found
  split_ifs at found with four sixteen
  · cases found
    simp [v4InV6Prefix, four]
  · cases found
    exact sixteen

theorem byte_forall {property : UInt8 → Prop}
    (all : ∀ index : Fin 256, property (UInt8.ofNat index)) (byte : UInt8) : property byte := by
  have found := all ⟨byte.toNat, byte.toNat_lt⟩
  rwa [UInt8.ofNat_toNat] at found

theorem and_full : ∀ byte : UInt8, byte &&& 0xff = byte := by
  apply byte_forall
  decide +kernel

theorem shiftOutOnes_spec (byte : UInt8) (notFull : byte ≠ 0xff)
    (cleared : (shiftOutOnes 8 byte).2 = 0) :
    (shiftOutOnes 8 byte).1 < 8 ∧
      byte = ~~~((0xff : UInt8) >>> UInt8.ofNat (shiftOutOnes 8 byte).1) := by
  revert byte
  apply byte_forall
  decide +kernel

theorem and_maskByte (ones : Fin 8) (byte : UInt8) :
    (byte &&& ~~~((0xff : UInt8) >>> UInt8.ofNat ones)).toNat =
      byte.toNat / 2 ^ (8 - ones.val) * 2 ^ (8 - ones.val) := by
  revert byte
  apply byte_forall
  revert ones
  decide +kernel

theorem shiftOutOnes_maskByte (ones : Fin 8) :
    shiftOutOnes 8 (~~~((0xff : UInt8) >>> UInt8.ofNat ones)) = (ones.val, 0) ∧
      ~~~((0xff : UInt8) >>> UInt8.ofNat ones) ≠ 0xff := by
  revert ones
  decide +kernel

theorem maskBytes_length {ip : IP} (length : ip.length = mask.length) :
    (maskBytes ip mask).length = mask.length := by
  simp [maskBytes, length]

theorem ofBytes_maskBytes_zero (ip : IP) (mask : IPMask) (zero : mask.all (· == 0) = true) :
    ofBytes (maskBytes ip mask) = 0 := by
  induction mask generalizing ip with
  | nil => simp [maskBytes]
  | cons byte rest ih =>
    simp only [all_cons, Bool.and_eq_true, beq_iff_eq] at zero
    rcases zero with ⟨rfl, zeroRest⟩
    cases ip with
    | nil => rfl
    | cons head tail =>
      have tailZero := ih tail zeroRest
      simp only [maskBytes] at tailZero ⊢
      simp [ofBytes_cons, tailZero]

theorem round_down_front {block base : ℕ} (divides : block ∣ base) (high low : ℕ) :
    (high * base + low) / block * block = high * base + low / block * block := by
  rcases divides with ⟨count, rfl⟩
  rcases Nat.eq_zero_or_pos block with rfl | positive
  · simp
  · have split : high * (block * count) + low = low + block * (high * count) := by ring
    rw [split, Nat.add_mul_div_left _ _ positive]
    ring

theorem ofBytes_maskBytes {ip : IP} (simple : simpleMaskLength mask = some ones)
    (length : ip.length = mask.length) :
    ones ≤ 8 * mask.length ∧
      ofBytes (maskBytes ip mask) =
        ofBytes ip / 2 ^ (8 * mask.length - ones) * 2 ^ (8 * mask.length - ones) := by
  induction mask generalizing ip ones with
  | nil =>
    simp only [simpleMaskLength, Option.some.injEq] at simple
    subst simple
    have empty : ip = [] := eq_nil_of_length_eq_zero length
    subst empty
    exact ⟨Nat.zero_le _, rfl⟩
  | cons byte rest ih =>
    rcases ip with _ | ⟨head, tail⟩
    · simp at length
    have lengths : tail.length = rest.length := by simpa using length
    have masked : (maskBytes tail rest).length = rest.length := maskBytes_length lengths
    have step : maskBytes (head :: tail) (byte :: rest) = (head &&& byte) :: maskBytes tail rest :=
      rfl
    simp only [simpleMaskLength] at simple
    split_ifs at simple with full remaining zero
    · rcases Option.map_eq_some_iff.mp simple with ⟨restOnes, restSimple, rfl⟩
      rcases ih restSimple lengths with ⟨bound, value⟩
      have headFull : head &&& byte = head := by
        rw [full]
        exact and_full head
      have bits : 8 * (byte :: rest).length - (restOnes + 8) = 8 * rest.length - restOnes := by
        simp only [length_cons]
        omega
      have divides : 2 ^ (8 * rest.length - restOnes) ∣ 256 ^ rest.length := by
        rw [show (256 : ℕ) = 2 ^ 8 from rfl, ← pow_mul]
        exact pow_dvd_pow 2 (Nat.sub_le _ _)
      refine ⟨by simp only [length_cons]; omega, ?_⟩
      rw [step, bits, ofBytes_cons, ofBytes_cons, headFull, masked, value, lengths,
        round_down_front divides]
    · cases simple
      rcases shiftOutOnes_spec byte full (by simpa using remaining) with ⟨small, shape⟩
      have headMasked := and_maskByte ⟨_, small⟩ head
      rw [← shape] at headMasked
      have bits : 2 ^ (8 * (byte :: rest).length - (shiftOutOnes 8 byte).1) =
          256 ^ rest.length * 2 ^ (8 - (shiftOutOnes 8 byte).1) := by
        rw [show (256 : ℕ) = 2 ^ 8 from rfl, ← pow_mul, ← pow_add]
        congr 1
        simp only [length_cons]
        omega
      have tailBound := ofBytes_lt tail
      rw [lengths] at tailBound
      have quotient : (head.toNat * 256 ^ rest.length + ofBytes tail) / 256 ^ rest.length =
          head.toNat := by
        rw [add_comm, Nat.add_mul_div_right _ _ (by positivity),
          Nat.div_eq_of_lt tailBound, zero_add]
      refine ⟨by simp only [length_cons]; omega, ?_⟩
      rw [step, bits, ofBytes_cons, ofBytes_cons, headMasked, masked, lengths,
        ofBytes_maskBytes_zero tail rest zero, ← Nat.div_div_eq_div_mul, quotient]
      ring

@[simp]
theorem cidrMaskBytes_length (length ones : ℕ) : (cidrMaskBytes length ones).length = length := by
  induction length generalizing ones with
  | zero => rfl
  | succ length ih =>
    simp only [cidrMaskBytes]
    split_ifs
    · simp [ih]
    · simp [ih]

theorem cidrMaskBytes_zero (length : ℕ) : cidrMaskBytes length 0 = replicate length 0 := by
  induction length with
  | zero => rfl
  | succ length ih =>
    simp only [cidrMaskBytes, ih, replicate_succ]
    rfl

theorem simpleMaskLength_cidrMaskBytes {length ones : ℕ} (bound : ones ≤ 8 * length) :
    simpleMaskLength (cidrMaskBytes length ones) = some ones := by
  induction length generalizing ones with
  | zero =>
    have zero : ones = 0 := by omega
    rw [zero]
    rfl
  | succ length ih =>
    simp only [cidrMaskBytes]
    split_ifs with large
    · simp only [simpleMaskLength, if_true]
      rw [ih (by omega), Option.map_some, Nat.sub_add_cancel large]
    · rcases shiftOutOnes_maskByte ⟨ones, by omega⟩ with ⟨shifted, notFull⟩
      simp only at shifted notFull
      simp [simpleMaskLength, notFull, shifted, cidrMaskBytes_zero]

theorem maskSize_cidrMask {family : Family} (bound : ones ≤ family.bits) :
    maskSize (cidrMask ones family) = (ones, family.bits) := by
  have simple : simpleMaskLength (cidrMaskBytes family.bytes ones) = some ones :=
    simpleMaskLength_cidrMaskBytes bound
  simp [maskSize, cidrMask, simple, Family.bits, mul_comm]

end Gonnect.Net
