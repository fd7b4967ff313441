import Gonnect.Subnet.Network

/-!
# The bounds of a network

`Range` takes the address of a network for its first address and adds the number of the
other addresses. `Contains` masks both addresses, and reads them with `To4` first. The two
agree on a network without host bits, unless the last address of an IPv6 network stands for
an IPv4 address.
-/

namespace Gonnect.Subnet

open BigEndian Net Option

structure Bounds (network : IPNet) (first last : IP) : Prop where
  firstInside : contains network first = true
  lastInside : contains network last = true
  between : ∀ ip, contains network ip = true →
    ofBytes ((to4 first).getD first) ≤ ofBytes ((to4 ip).getD ip) ∧
      ofBytes ((to4 ip).getD ip) ≤ ofBytes ((to4 last).getD last)

/-- The networks for which `Range` is right: the last address of an IPv6 network is outside of
`::ffff:0:0/96`. A malformed network contains the address `nil`, and its range is `nil` if its
own address is malformed. -/
def RangeFits (network : IPNet) (hostBits : ℕ) : Prop :=
  match networkNumberAndMask network with
  | none => to16 network.ip = none
  | some (number, _) => 2 ^ hostBits ∣ ofBytes number ∧
    if number.length = 4 then
      hostBits ≤ 32
    else
      ofBytes number + (2 ^ hostBits - 1) < 0xffff * 2 ^ 32 ∨
        0x10000 * 2 ^ 32 ≤ ofBytes number + (2 ^ hostBits - 1)

variable {network : IPNet} {number last : IP} {mask : IPMask} {ones : ℕ}

section Parts

variable (parts : networkNumberAndMask network = some (number, mask))
  (simple : simpleMaskLength mask = some ones)

include parts simple

theorem Bounds.aligned (bounds : Bounds network number last)
    (own : (to4 number).getD number = number)
    (rounded : (to4 (maskBytes number mask)).getD (maskBytes number mask) = maskBytes number mask) :
    2 ^ (8 * mask.length - ones) ∣ ofBytes number ∧
      ((to4 last).getD last).length = number.length := by
  have length := (networkNumberAndMask_some parts).2.1
  have masked := (ofBytes_maskBytes simple length).2
  have inside : contains network (maskBytes number mask) = true := by
    rw [contains_iff parts simple, rounded, masked, Nat.mul_div_cancel _ (by positivity)]
    exact ⟨(maskBytes_length length).trans length.symm, rfl⟩
  have least := (bounds.between _ inside).1
  rw [own, rounded, masked] at least
  have whole := (Nat.div_mul_le_self _ _).antisymm least
  exact ⟨Dvd.intro_left _ whole, ((contains_iff parts simple).mp bounds.lastInside).1⟩

theorem bounds_of_aligned (own : (to4 number).getD number = number)
    (aligned : 2 ^ (8 * mask.length - ones) ∣ ofBytes number)
    (lastOwn : (to4 last).getD last = last) (lastLength : last.length = number.length)
    (lastValue : ofBytes last = ofBytes number + (2 ^ (8 * mask.length - ones) - 1)) :
    Bounds network number last := by
  have positive : 0 < 2 ^ (8 * mask.length - ones) := by positivity
  refine ⟨?_, ?_, ?_⟩
  · rw [contains_aligned parts simple aligned, own]
    exact ⟨rfl, by omega, by omega⟩
  · rw [contains_aligned parts simple aligned, lastOwn, lastValue]
    exact ⟨lastLength, by omega, by omega⟩
  · intro ip inside
    have within := ((contains_aligned parts simple aligned).mp inside).2
    rw [own, lastOwn, lastValue]
    omega

end Parts

theorem simpleMaskLength_drop (simple : simpleMaskLength mask = some ones) (count : ℕ) :
    simpleMaskLength (mask.drop count) = some (ones - 8 * count) := by
  induction count generalizing mask ones with
  | zero => exact simple
  | succ count ih =>
    cases mask with
    | nil =>
      cases simple
      simp [simpleMaskLength]
    | cons byte rest =>
      have step : simpleMaskLength rest = some (ones - 8) := by
        simp only [simpleMaskLength] at simple
        split_ifs at simple with full cleared zero
        · rcases map_eq_some_iff.mp simple with ⟨restOnes, restSimple, rfl⟩
          rw [restSimple, Nat.add_sub_cancel]
        · cases simple
          have small := (shiftOutOnes_spec byte full (by simpa using cleared)).1
          rw [Nat.sub_eq_zero_of_le small.le]
          cases rest with
          | nil => rfl
          | cons next later =>
            simp only [List.all_cons, Bool.and_eq_true, beq_iff_eq] at zero
            rw [zero.1, simpleMaskLength, zero.2]
            rfl
      rw [List.drop_succ_cons, ih step]
      congr 1
      omega

theorem round_native {value : ℕ} (hostBits : ℕ)
    (outside : value < 0xffff * 2 ^ 32 ∨ 0x10000 * 2 ^ 32 ≤ value) :
    value / 2 ^ hostBits * 2 ^ hostBits < 0xffff * 2 ^ 32 ∨
      0x10000 * 2 ^ 32 ≤ value / 2 ^ hostBits * 2 ^ hostBits := by
  rcases outside with below | above
  · exact .inl ((Nat.div_mul_le_self _ _).trans_lt below)
  have near : value < value / 2 ^ hostBits * 2 ^ hostBits + 2 ^ hostBits :=
    Nat.lt_div_mul_add (by positivity)
  have divides := dvd_mul_left (2 ^ hostBits) (value / 2 ^ hostBits)
  by_contra inside
  rw [not_or, not_lt, not_le] at inside
  -- The end of the mapped addresses is a multiple of the block, or lies in the first one.
  rcases le_total hostBits 48 with small | large
  · have next := add_le_of_dvd divides (pow_dvd_pow 2 small) inside.2
    omega
  · have whole := Nat.le_of_dvd (by omega) divides
    have huge : 2 ^ 48 ≤ 2 ^ hostBits := Nat.pow_le_pow_right (by decide) large
    omega

theorem range_first : (range network).1 = ((to4 network.ip).or (to16 network.ip)).getD [] := by
  cases short : to4 network.ip with
  | some ip4 =>
    have length := to4_length short
    simp [range, short, to16_four length, to4_mapped length]
  | none =>
    cases long : to16 network.ip with
    | some ip => simp [range, short, long, to16_sixteen (to16_length long)]
    | none => simp [range, short, long, show to16 [] = none from rfl]

/-- With more than 32 host bits the last address is no IPv4 address any more. -/
theorem overflow_native : ∀ hostBits ≤ 128, 32 < hostBits →
    to4 ((padLeft 16 (toBytes (ofBytes (v4InV6Prefix ++ [0, 0, 0, 0]) +
      (2 ^ hostBits - 1)))).take 16) = none := by
  decide +kernel

section Contiguous

variable (contiguous : simpleMaskLength network.mask = some ones)

include contiguous

theorem maskSize_of_simple : maskSize network.mask = (ones, 8 * network.mask.length) := by
  simp [maskSize, contiguous, mul_comm]

theorem bounds_iff_of_to4 (parts : networkNumberAndMask network = some (number, mask))
    (converted : to4 network.ip = some number) :
    Bounds network number (range network).2 ↔
      2 ^ (8 * network.mask.length - ones) ∣ ofBytes number ∧
        8 * network.mask.length - ones ≤ 32 := by
  have size := maskSize_of_simple contiguous
  have length := to4_length converted
  have own : ∀ {ip : IP}, ip.length = 4 → (to4 ip).getD ip = ip := by
    intro ip four
    simp [to4, four]
  have shortMask : ∃ short, simpleMaskLength mask = some short ∧ mask.length = 4 ∧
      network.mask.length ≤ 16 ∧
      8 * mask.length - short = min (8 * network.mask.length - ones) 32 := by
    simp only [networkNumberAndMask, converted] at parts
    split_ifs at parts with four sixteen
    · cases parts
      exact ⟨ones, contiguous, four, by omega, by omega⟩
    · cases parts
      have dropped : (network.mask.drop 12).length = 4 := by rw [List.length_drop, sixteen]
      exact ⟨ones - 8 * 12, simpleMaskLength_drop contiguous 12, dropped, by omega, by omega⟩
  rcases shortMask with ⟨short, simple, maskLength, maskBound, host⟩
  have lengths := length.trans maskLength.symm
  constructor
  · intro bounds
    rcases bounds.aligned parts simple (own length)
      (own ((maskBytes_length lengths).trans maskLength)) with ⟨aligned, lastLength⟩
    rw [host] at aligned
    by_cases small : 8 * network.mask.length - ones ≤ 32
    · rw [min_eq_left small] at aligned
      exact ⟨aligned, small⟩
    rw [min_eq_right (by omega)] at aligned
    have below := ofBytes_lt number
    rw [length] at below
    have zero : number = [0, 0, 0, 0] :=
      ofBytes_injective length (Nat.eq_zero_of_dvd_of_lt aligned below)
    have overflow := overflow_native _ (by omega) (not_le.mp small)
    have empty : (range network).2 = [] := by
      simp [range, converted, size, zero, to16, v4InV6Prefix] at overflow ⊢
      simp [overflow]
    rw [empty, length] at lastLength
    cases lastLength
  · rintro ⟨aligned, small⟩
    rw [min_eq_left small] at host
    have mapped : 2 ^ (8 * network.mask.length - ones) ∣ ofBytes (v4InV6Prefix ++ number) := by
      rw [ofBytes_append, length]
      exact Nat.dvd_add (Dvd.dvd.mul_left (pow_dvd_pow 2 small) _) aligned
    rcases range_of_to4 converted size (mapped_block_small length mapped) with
      ⟨last, equal, lastLength, lastValue⟩
    rw [equal]
    rw [← host] at aligned lastValue
    exact bounds_of_aligned parts simple (own length) aligned (own lastLength)
      (lastLength.trans length.symm) lastValue

theorem bounds_iff_of_native (length : network.ip.length = 16)
    (maskLength : network.mask.length = 16) (native : to4 network.ip = none) :
    Bounds network network.ip (range network).2 ↔
      2 ^ (8 * network.mask.length - ones) ∣ ofBytes network.ip ∧
        (ofBytes network.ip + (2 ^ (8 * network.mask.length - ones) - 1) < 0xffff * 2 ^ 32 ∨
          0x10000 * 2 ^ 32 ≤ ofBytes network.ip + (2 ^ (8 * network.mask.length - ones) - 1)) := by
  have size := maskSize_of_simple contiguous
  have lengths := length.trans maskLength.symm
  have own : (to4 network.ip).getD network.ip = network.ip := by rw [native, getD_none]
  have parts := networkNumberAndMask_self own lengths (.inr length)
  rcases ofBytes_maskBytes contiguous lengths with ⟨onesBound, masked⟩
  have maskedLength := (maskBytes_length lengths).trans maskLength
  have lastOf (aligned : 2 ^ (8 * network.mask.length - ones) ∣ ofBytes network.ip) :
      ∃ last, (range network).2 = last ∧ last.length = 16 ∧
        ofBytes last = ofBytes network.ip + (2 ^ (8 * network.mask.length - ones) - 1) := by
    have bound := ofBytes_lt network.ip
    rw [length] at bound
    have block : 2 ^ (8 * network.mask.length - ones) ∣ 2 ^ 128 := pow_dvd_pow 2 (by omega)
    have room := add_le_of_dvd aligned block bound
    have positive : 0 < 2 ^ (8 * network.mask.length - ones) := by positivity
    rcases range_of_not_to4 length native size (by omega) with ⟨last, equal, lastLength, lastValue⟩
    exact ⟨last, congrArg Prod.snd equal, lastLength, lastValue⟩
  constructor
  · intro bounds
    have rounded : to4 (maskBytes network.ip network.mask) = none := by
      rw [native_iff maskedLength, masked]
      exact round_native _ ((native_iff length).mp native)
    rcases bounds.aligned parts contiguous own
      (by rw [rounded, getD_none]) with ⟨aligned, sameLength⟩
    refine ⟨aligned, ?_⟩
    rcases lastOf aligned with ⟨last, equal, lastLength, lastValue⟩
    rw [← lastValue, ← native_iff lastLength]
    rw [equal] at sameLength
    cases short : to4 last with
    | none => rfl
    | some ip4 =>
      rw [short, getD_some, to4_length short, length] at sameLength
      cases sameLength
  · rintro ⟨aligned, outside⟩
    rcases lastOf aligned with ⟨last, equal, lastLength, lastValue⟩
    rw [← lastValue, ← native_iff lastLength] at outside
    rw [equal]
    exact bounds_of_aligned parts contiguous own aligned (by rw [outside, getD_none])
      (lastLength.trans length.symm) lastValue

/-- `Range` returns the bounds of exactly the networks with a contiguous mask that have no host
bits and whose last address is of their own family. -/
theorem range_bounds_iff : Bounds network (range network).1 (range network).2 ↔
    RangeFits network (8 * network.mask.length - ones) := by
  unfold RangeFits
  cases parts : networkNumberAndMask network with
  | none =>
    have inside : ∀ ip, contains network ip = true ↔ ip = [] := by simp [contains, parts]
    constructor
    · intro bounds
      have empty := (inside _).mp bounds.firstInside
      rw [range_first, to4] at empty
      rw [to16] at empty ⊢
      split_ifs at empty ⊢ <;> simp_all
    · intro malformed
      have short : to4 network.ip = none := by
        simp only [to16] at malformed
        split_ifs at malformed
        simp_all [to4]
      have both : range network = ([], []) := by
        simp [range, short, malformed, show to16 [] = none from rfl]
      rw [both]
      refine ⟨(inside _).mpr rfl, (inside _).mpr rfl, ?_⟩
      intro ip accepted
      rw [(inside ip).mp accepted]
      exact ⟨le_rfl, le_rfl⟩
  | some pair =>
    rw [range_first]
    cases converted : to4 network.ip with
    | some ip4 =>
      have number : pair.1 = ip4 := by
        simp only [networkNumberAndMask, converted] at parts
        split_ifs at parts <;> cases parts <;> rfl
      subst number
      dsimp only [some_or, getD_some]
      rw [bounds_iff_of_to4 contiguous parts converted, if_pos (to4_length converted)]
    | none =>
      simp only [networkNumberAndMask, converted] at parts
      split_ifs at parts with lengths
      cases parts
      dsimp only
      rw [none_or, to16_sixteen lengths.1, getD_some,
        bounds_iff_of_native contiguous lengths.1 lengths.2 converted, if_neg (by omega)]

end Contiguous

/-- The range of `10.0.0.5/24` leaves out an address of the network and has one too many. -/
theorem range_with_host_bits :
    range ⟨[10, 0, 0, 5], [255, 255, 255, 0]⟩ = ([10, 0, 0, 5], [10, 0, 1, 4]) ∧
      contains ⟨[10, 0, 0, 5], [255, 255, 255, 0]⟩ [10, 0, 0, 0] = true ∧
      contains ⟨[10, 0, 0, 5], [255, 255, 255, 0]⟩ [10, 0, 1, 4] = false := by
  decide +kernel

theorem range_bounds_iff_ten :
    Bounds ⟨[10, 0, 0, 0], [255, 255, 255, 0]⟩ (range ⟨[10, 0, 0, 0], [255, 255, 255, 0]⟩).1
      (range ⟨[10, 0, 0, 0], [255, 255, 255, 0]⟩).2 :=
  (@range_bounds_iff ⟨[10, 0, 0, 0], [255, 255, 255, 0]⟩ 24 rfl).mpr ⟨by decide, by decide⟩

end Gonnect.Subnet
