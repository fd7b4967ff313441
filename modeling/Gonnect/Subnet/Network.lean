import Gonnect.Foundation.Interval
import Gonnect.Net.IP

/-!
# Networks and the blocks of addresses they denote

`normalizeIPNet`, `Range` and `normalizeSubnet` turn a `net.IPNet` into the numbers of its
first and last address. They go through byte slices of four and of sixteen bytes on the way,
and `Range` computes in sixteen bytes even for IPv4.

A `Cidr` is what such a value means: a family, a prefix length and an aligned first address.
Normalizing succeeds exactly on the networks that denote a `Cidr`, and yields its numbers.
-/

namespace Gonnect.Subnet

open BigEndian Net Option Family

def familyOfBits (bits : ℕ) : Option Family :=
  if bits = 32 then some .v4 else if bits = 128 then some .v6 else none

def normalizeIPForBits (ip : IP) : Family → Option IP
  | .v4 => to4 ip
  | .v6 => to16 ip

def normalizeIPNet (network : IPNet) : Option (IP × IPMask × Family) := do
  let bits ← familyOfBits (maskSize network.mask).2
  let ip ← normalizeIPForBits network.ip bits
  return ((ipMask ip network.mask).getD [], network.mask, bits)

def range (network : IPNet) : IP × IP :=
  let first := ((to4 network.ip).or (to16 network.ip)).getD []
  let first := (to16 first).getD []
  let (ones, bits) := maskSize network.mask
  let offset := 2 ^ (bits - ones) - 1
  let lastBytes := padLeft first.length (toBytes (ofBytes first + offset))
  let last := lastBytes.take first.length
  if (to4 network.ip).isSome then
    ((to4 first).getD [], (to4 last).getD [])
  else
    (first, last)

def ipToInt (ip : IP) : ℕ :=
  ofBytes ip

def intToIP (value : ℕ) (bits : Family) : IP :=
  let size := bits.bytes
  let bytes := toBytes value
  padLeft size (bytes.drop (bytes.length - size))

/-- `reservedSubnet`; its reference count is kept by the table that holds it. -/
structure ReservedSubnet where
  network : IPNet
  bits : Family
  prefixLen : ℕ
  start : ℕ
  stop : ℕ
  deriving DecidableEq

def normalizeSubnet (subnet : Option IPNet) : Option ReservedSubnet := do
  let subnet ← subnet
  let (ip, mask, bits) ← normalizeIPNet subnet
  let network : IPNet := ⟨ip, mask⟩
  let (first, last) := range network
  return {
    network := network
    bits := bits
    prefixLen := (maskSize mask).1
    start := ipToInt ((normalizeIPForBits first bits).getD [])
    stop := ipToInt ((normalizeIPForBits last bits).getD []) }

/-- The map key joins the parts with slashes; neither number contains one. -/
structure SubnetKey where
  bits : Family
  prefixLen : ℕ
  ip : IP
  deriving DecidableEq

def subnetMapKey (network : IPNet) (bits : Family) (prefixLen : ℕ) : SubnetKey :=
  ⟨bits, prefixLen, network.ip⟩

def ReservedSubnet.key (reserved : ReservedSubnet) : SubnetKey :=
  subnetMapKey reserved.network reserved.bits reserved.prefixLen

def subnetSize (bits : Family) (prefixLen : ℕ) : ℕ :=
  2 ^ (bits.bits - prefixLen)

def subnetEnd (start size : ℕ) : ℕ :=
  start + size - 1

/-- A block of addresses that a prefix length describes. -/
@[ext]
structure Cidr where
  family : Family
  prefixLen : ℕ
  start : ℕ
  prefixLen_le : prefixLen ≤ family.bits
  aligned : subnetSize family prefixLen ∣ start
  start_lt : start < 2 ^ family.bits
  deriving DecidableEq

variable {left right : Cidr}

namespace Cidr

def size (cidr : Cidr) : ℕ :=
  subnetSize cidr.family cidr.prefixLen

def interval (cidr : Cidr) : Interval :=
  Interval.block cidr.start cidr.size

def Disjoint (left right : Cidr) : Prop :=
  left.family = right.family → ¬left.interval.Overlaps right.interval

def Inside (inner outer : Cidr) : Prop :=
  inner.family = outer.family ∧ outer.start ≤ inner.start ∧
    inner.interval.last ≤ outer.interval.last

theorem Disjoint.symm (disjoint : left.Disjoint right) :
    right.Disjoint left := by
  intro sameFamily overlap
  exact disjoint sameFamily.symm overlap.symm

def Contains (cidr host : Cidr) : Prop :=
  cidr.family = host.family ∧ cidr.start ≤ host.start ∧ host.start ≤ cidr.interval.last

/-- `net.IP` identifies an IPv4 address with its IPv4-mapped form, so that both families lie in
one space. -/
def embed (family : Family) (interval : Interval) : Interval :=
  match family with
  | .v4 => ⟨0xffff * 2 ^ 32 + interval.first, 0xffff * 2 ^ 32 + interval.last⟩
  | .v6 => interval

def Overlaps (left right : Cidr) : Prop :=
  (embed left.family left.interval).Overlaps (embed right.family right.interval)

instance (left right : Cidr) : Decidable (left.Overlaps right) :=
  inferInstanceAs (Decidable (Interval.Overlaps _ _))

theorem embed_overlaps (family : Family) (left right : Interval) :
    (embed family left).Overlaps (embed family right) ↔ left.Overlaps right := by
  cases family with
  | v4 => simp only [embed, Interval.Overlaps, Nat.add_le_add_iff_left]
  | v6 => rfl

theorem overlaps_iff (same : left.family = right.family) :
    left.Overlaps right ↔ left.interval.Overlaps right.interval := by
  rw [Overlaps, same, embed_overlaps]

def toIPNet (cidr : Cidr) : IPNet where
  ip := intToIP cidr.start cidr.family
  mask := cidrMask cidr.prefixLen cidr.family

end Cidr

def Denotes (subnet : Option IPNet) (cidr : Cidr) : Prop :=
  match subnet with
  | none => False
  | some network =>
    maskSize network.mask = (cidr.prefixLen, cidr.family.bits) ∧
      (normalizeIPForBits network.ip cidr.family).map
          (fun ip => ofBytes ip / cidr.size * cidr.size) =
        some cidr.start

instance (subnet : Option IPNet) (cidr : Cidr) : Decidable (Denotes subnet cidr) := by
  unfold Denotes
  cases subnet <;> infer_instance

structure ReservedSubnet.Represents (reserved : ReservedSubnet) (cidr : Cidr) : Prop where
  bits : reserved.bits = cidr.family
  prefixLen : reserved.prefixLen = cidr.prefixLen
  start : reserved.start = cidr.start
  stop : reserved.stop = cidr.interval.last
  length : reserved.network.ip.length = cidr.family.bytes
  value : ofBytes reserved.network.ip = cidr.start
  mask : maskSize reserved.network.mask = (cidr.prefixLen, cidr.family.bits)

theorem familyOfBits_bits (family : Family) : familyOfBits family.bits = some family := by
  cases family <;> rfl

variable {mask : IPMask} {ip4 : IP} {ones : ℕ} {family : Family} {subnet : Option IPNet}
  {network : IPNet} {bits : ℕ} {ip : IP}

theorem familyOfBits_eq (found : familyOfBits bits = some family) : bits = family.bits := by
  simp only [familyOfBits] at found
  split_ifs at found with four six
  · cases found
    exact four
  · cases found
    exact six

theorem normalizeIPForBits_length {normalized : IP}
    (found : normalizeIPForBits ip family = some normalized) :
    normalized.length = family.bytes := by
  cases family with
  | v4 => exact to4_length found
  | v6 => exact to16_length found

theorem normalizeIPForBits_self {ip : IP} {family : Family} (length : ip.length = family.bytes) :
    normalizeIPForBits ip family = some ip := by
  cases family with
  | v4 =>
    simp only [Family.bytes] at length
    simp [normalizeIPForBits, to4, length]
  | v6 =>
    simp only [Family.bytes] at length
    simp [normalizeIPForBits, to16, length]

theorem ipMask_of_length (length : ip.length = mask.length) :
    ipMask ip mask = some (maskBytes ip mask) := by
  have noShorten : ¬(mask.length = 16 ∧ ip.length = 4 ∧ mask.take 12 = List.replicate 12 0xff) := by
    rintro ⟨sixteen, four, _⟩
    omega
  have noConvert : ¬(mask.length = 4 ∧ ip.length = 16 ∧ ip.take 12 = v4InV6Prefix) := by
    rintro ⟨four, sixteen, _⟩
    omega
  simp only [ipMask, if_neg noShorten, if_neg noConvert, if_pos length]

theorem maskSize_family (size : maskSize mask = (ones, family.bits)) :
    simpleMaskLength mask = some ones ∧ mask.length = family.bytes := by
  simp only [maskSize] at size
  cases simple : simpleMaskLength mask with
  | none =>
    rw [simple] at size
    cases family <;> simp [bits, Family.bytes] at size
  | some found =>
    rw [simple] at size
    simp only [Prod.mk.injEq, bits] at size
    rcases size with ⟨rfl, length⟩
    exact ⟨rfl, by omega⟩

theorem two_pow_bits (family : Family) : 2 ^ family.bits = 256 ^ family.bytes := by
  cases family <;> rfl

variable (cidr : Cidr)

theorem Cidr.last_lt : cidr.interval.last < 2 ^ cidr.family.bits := by
  have inside : cidr.start + cidr.size ≤ 2 ^ cidr.family.bits :=
    add_le_of_dvd cidr.aligned (pow_dvd_pow 2 (Nat.sub_le _ _)) cidr.start_lt
  have positive : 0 < 2 ^ cidr.family.bits := by positivity
  simp only [interval, Interval.block]
  omega

theorem Cidr.size_pos : 0 < cidr.size := by
  simp only [size, subnetSize]
  positivity

theorem to4_mapped (length : ip.length = 4) : to4 (v4InV6Prefix ++ ip) = some ip := by
  have sixteen : (v4InV6Prefix ++ ip).length = 16 := by simp [v4InV6Prefix, length]
  have notFour : ¬(v4InV6Prefix ++ ip).length = 4 := by omega
  rw [to4, if_neg notFour, if_pos ⟨sixteen, rfl⟩]
  rfl

theorem to16_four (length : ip.length = 4) : to16 ip = some (v4InV6Prefix ++ ip) := by
  rw [to16, if_pos length]

theorem to16_sixteen (length : ip.length = 16) : to16 ip = some ip := by
  rw [to16, if_neg (by omega), if_pos length]

theorem eq_mapped_of_to4 (length : ip.length = 16) (converted : to4 ip = some ip4) :
    ip = v4InV6Prefix ++ ip4 := by
  simp only [to4] at converted
  split_ifs at converted with four mapped
  · omega
  · cases converted
    rw [← mapped.2, List.take_append_drop]

theorem networkNumberAndMask_some {number : IP}
    (parts : networkNumberAndMask network = some (number, mask)) :
    number = (to4 network.ip).getD network.ip ∧ number.length = mask.length ∧
      (number.length = 4 ∨ number.length = 16) := by
  simp only [networkNumberAndMask] at parts
  cases converted : to4 network.ip with
  | some ip4 =>
    have length := to4_length converted
    simp only [converted] at parts
    split_ifs at parts with four sixteen
    · cases parts
      exact ⟨rfl, by omega, .inl length⟩
    · cases parts
      exact ⟨rfl, by rw [List.length_drop]; omega, .inl length⟩
  | none =>
    simp only [converted] at parts
    split_ifs at parts with lengths
    cases parts
    exact ⟨rfl, by omega, .inr lengths.1⟩

theorem networkNumberAndMask_self (form : (to4 network.ip).getD network.ip = network.ip)
    (lengths : network.ip.length = network.mask.length)
    (valid : network.ip.length = 4 ∨ network.ip.length = 16) :
    networkNumberAndMask network = some (network.ip, network.mask) := by
  cases converted : to4 network.ip with
  | some ip4 =>
    have four := to4_length converted
    rw [converted, getD_some] at form
    subst form
    simp [networkNumberAndMask, converted, ← lengths, four]
  | none =>
    have sixteen : network.ip.length = 16 := by
      apply valid.resolve_left
      intro four
      simp [to4, four] at converted
    simp [networkNumberAndMask, converted, ← lengths, sixteen]

theorem contains_iff {number : IP} (parts : networkNumberAndMask network = some (number, mask))
    (simple : simpleMaskLength mask = some ones) : contains network ip = true ↔
      ((to4 ip).getD ip).length = number.length ∧
        ofBytes ((to4 ip).getD ip) / 2 ^ (8 * mask.length - ones) =
          ofBytes number / 2 ^ (8 * mask.length - ones) := by
  have length := (networkNumberAndMask_some parts).2.1
  simp only [contains, parts, decide_eq_true_eq]
  refine and_congr_right ?_
  intro same
  have numberMasked := (ofBytes_maskBytes simple length).2
  have masked := (ofBytes_maskBytes simple (same.trans length)).2
  constructor
  · intro equal
    rw [equal, masked] at numberMasked
    exact Nat.eq_of_mul_eq_mul_right (by positivity) numberMasked
  · intro equal
    apply ofBytes_injective
    · rw [maskBytes_length length, maskBytes_length (same.trans length)]
    · exact numberMasked.trans (equal ▸ masked.symm)

theorem contains_aligned {number : IP} (parts : networkNumberAndMask network = some (number, mask))
    (simple : simpleMaskLength mask = some ones)
    (aligned : 2 ^ (8 * mask.length - ones) ∣ ofBytes number) :
    contains network ip = true ↔ ((to4 ip).getD ip).length = number.length ∧
      ofBytes number ≤ ofBytes ((to4 ip).getD ip) ∧
        ofBytes ((to4 ip).getD ip) ≤ ofBytes number + 2 ^ (8 * mask.length - ones) - 1 := by
  rw [contains_iff parts simple, Nat.div_eq_iff (by positivity), Nat.div_mul_cancel aligned]

theorem native_iff (length : ip.length = 16) :
    to4 ip = none ↔ ofBytes ip < 0xffff * 2 ^ 32 ∨ 0x10000 * 2 ^ 32 ≤ ofBytes ip := by
  have split : ofBytes ip = ofBytes (ip.take 12) * 256 ^ 4 + ofBytes (ip.drop 12) := by
    rw [← List.take_append_drop 12 ip, ofBytes_append]
    simp [length]
  have low := ofBytes_lt (ip.drop 12)
  rw [List.length_drop, length] at low
  have front : ip.take 12 = v4InV6Prefix ↔ ofBytes (ip.take 12) = 0xffff := by
    constructor
    · intro equal
      rw [equal]
      rfl
    · exact fun value => ofBytes_injective (by simp [length, v4InV6Prefix]) value
  rw [to4, if_neg (by omega)]
  simp only [length, front, true_and, ite_eq_right_iff, reduceCtorEq, imp_false]
  omega

theorem range_of_to4 (converted : to4 network.ip = some ip4)
    (size : maskSize network.mask = (ones, bits))
    (bound : ofBytes ip4 + (2 ^ (bits - ones) - 1) < 256 ^ 4) :
    ∃ last, range network = (ip4, last) ∧ last.length = 4 ∧
      ofBytes last = ofBytes ip4 + (2 ^ (bits - ones) - 1) := by
  have length := to4_length converted
  let last := padLeft 4 (toBytes (ofBytes ip4 + (2 ^ (bits - ones) - 1)))
  have lastLength : last.length = 4 := length_padLeft (length_toBytes_le bound)
  have lastValue : ofBytes last = ofBytes ip4 + (2 ^ (bits - ones) - 1) := by simp [last]
  have firstLength : (v4InV6Prefix ++ ip4).length = 16 := by simp [v4InV6Prefix, length]
  have lastBytes : padLeft 16 (toBytes (ofBytes (v4InV6Prefix ++ ip4) + (2 ^ (bits - ones) - 1))) =
      v4InV6Prefix ++ last := by
    apply padLeft_toBytes_eq
    · simp [v4InV6Prefix, lastLength]
    · rw [ofBytes_append, ofBytes_append, lastLength, length, lastValue, add_assoc]
  have fullTake : (v4InV6Prefix ++ last).take 16 = v4InV6Prefix ++ last := by
    apply List.take_of_length_le
    simp [v4InV6Prefix, lastLength]
  refine ⟨last, ?_, lastLength, lastValue⟩
  simp [range, converted, size, to16_four length, firstLength, lastBytes, fullTake,
    to4_mapped length, to4_mapped lastLength]

theorem range_of_not_to4 (length : network.ip.length = 16) (native : to4 network.ip = none)
    (size : maskSize network.mask = (ones, bits))
    (bound : ofBytes network.ip + (2 ^ (bits - ones) - 1) < 256 ^ 16) :
    ∃ last, range network = (network.ip, last) ∧ last.length = 16 ∧
      ofBytes last = ofBytes network.ip + (2 ^ (bits - ones) - 1) := by
  let last := padLeft 16 (toBytes (ofBytes network.ip + (2 ^ (bits - ones) - 1)))
  have lastLength : last.length = 16 := length_padLeft (length_toBytes_le bound)
  have lastValue : ofBytes last = ofBytes network.ip + (2 ^ (bits - ones) - 1) := by simp [last]
  refine ⟨last, ?_, lastLength, lastValue⟩
  simp only [range, native, size, none_or, to16_sixteen length, getD_some,
    length, isSome_none, Bool.false_eq_true, if_false, Prod.mk.injEq, true_and]
  apply List.take_of_length_le
  exact lastLength.le

theorem mapped_block_small {hostBits : ℕ} (length : ip4.length = 4)
    (aligned : 2 ^ hostBits ∣ ofBytes (v4InV6Prefix ++ ip4)) :
    ofBytes ip4 + (2 ^ hostBits - 1) < 256 ^ 4 := by
  have value : ofBytes (v4InV6Prefix ++ ip4) = 0xffff * 2 ^ 32 + ofBytes ip4 := by
    rw [ofBytes_append, length]
    rfl
  have ip4Bound := ofBytes_lt ip4
  rw [length] at ip4Bound
  rw [value] at aligned
  have small : hostBits ≤ 32 := by
    by_contra large
    have divides : 2 ^ 33 ∣ 0xffff * 2 ^ 32 + ofBytes ip4 :=
      (pow_dvd_pow 2 (by omega)).trans aligned
    omega
  have blockDivides : 2 ^ hostBits ∣ 2 ^ 32 := pow_dvd_pow 2 small
  have partDivides : 2 ^ hostBits ∣ ofBytes ip4 :=
    (Nat.dvd_add_right (Dvd.dvd.mul_left blockDivides _)).mp aligned
  have inside := add_le_of_dvd partDivides blockDivides ip4Bound
  have positive : 0 < 2 ^ hostBits := by positivity
  omega

open Cidr

theorem range_spec {network : IPNet} {cidr : Cidr}
    (length : network.ip.length = cidr.family.bytes) (value : ofBytes network.ip = cidr.start)
    (mask : maskSize network.mask = (cidr.prefixLen, cidr.family.bits)) :
    ∃ last, normalizeIPForBits (range network).1 cidr.family = some network.ip ∧
      normalizeIPForBits (range network).2 cidr.family = some last ∧
      last.length = cidr.family.bytes ∧ ofBytes last = cidr.interval.last := by
  have sizePositive := cidr.size_pos
  have lastBound := cidr.last_lt
  have lastEq : cidr.interval.last =
      ofBytes network.ip + (2 ^ (cidr.family.bits - cidr.prefixLen) - 1) := by
    simp only [interval, Interval.block, size, subnetSize] at sizePositive ⊢
    omega
  rw [lastEq, two_pow_bits] at lastBound
  cases family : cidr.family with
  | v4 =>
    rw [family] at length mask lastBound
    have own : to4 network.ip = some network.ip := normalizeIPForBits_self length
    rcases range_of_to4 own mask lastBound with ⟨last, equal, lastLength, lastValue⟩
    rw [family] at lastEq
    rw [equal]
    exact ⟨last, own, normalizeIPForBits_self lastLength, lastLength, lastValue.trans lastEq.symm⟩
  | v6 =>
    rw [family] at length mask lastBound lastEq
    cases converted : to4 network.ip with
    | some ip4 =>
      have ip4Length := to4_length converted
      have mapped := eq_mapped_of_to4 length converted
      have aligned : 2 ^ (v6.bits - cidr.prefixLen) ∣ ofBytes (v4InV6Prefix ++ ip4) := by
        rw [← mapped, value, ← family]
        exact cidr.aligned
      have small := mapped_block_small ip4Length aligned
      rcases range_of_to4 converted mask small with ⟨last, equal, lastLength, lastValue⟩
      rw [equal]
      refine ⟨v4InV6Prefix ++ last, ?_, to16_four lastLength, ?_, ?_⟩
      · rw [normalizeIPForBits, to16_four ip4Length, ← mapped]
      · simp [v4InV6Prefix, lastLength, Family.bytes]
      · rw [lastEq, mapped, ofBytes_append, ofBytes_append, lastLength, ip4Length, lastValue,
          add_assoc]
    | none =>
      rcases range_of_not_to4 length converted mask lastBound with
        ⟨last, equal, lastLength, lastValue⟩
      rw [equal]
      exact ⟨last, to16_sixteen length, to16_sixteen lastLength, lastLength,
        lastValue.trans lastEq.symm⟩

def blockAround (family : Family) (ones value : ℕ) (ones_le : ones ≤ family.bits)
    (value_lt : value < 2 ^ family.bits) : Cidr where
  family := family
  prefixLen := ones
  start := value / subnetSize family ones * subnetSize family ones
  prefixLen_le := ones_le
  aligned := dvd_mul_left _ _
  start_lt := lt_of_le_of_lt (Nat.div_mul_le_self _ _) value_lt

theorem normalizeIPNet_some (normalized : normalizeIPNet network = some (ip, mask, family)) :
    mask = network.mask ∧ ∃ cidr : Cidr, cidr.family = family ∧ Denotes (some network) cidr ∧
      ip.length = family.bytes ∧ ofBytes ip = cidr.start ∧
      maskSize mask = (cidr.prefixLen, family.bits) := by
  simp only [normalizeIPNet, bind_eq_bind, bind_eq_some_iff, pure_def,
    Option.some.injEq, Prod.mk.injEq] at normalized
  rcases normalized with ⟨found, bits, plain, normal, rfl, rfl, rfl⟩
  have size : maskSize network.mask = ((maskSize network.mask).1, found.bits) := by
    rw [← familyOfBits_eq bits]
  rcases maskSize_family size with ⟨simple, maskLength⟩
  have plainLength := normalizeIPForBits_length normal
  have lengths : plain.length = network.mask.length := by omega
  rcases ofBytes_maskBytes simple lengths with ⟨onesBound, masked⟩
  have plainBound := ofBytes_lt plain
  rw [plainLength, ← two_pow_bits] at plainBound
  rw [maskLength] at onesBound masked
  refine ⟨rfl, blockAround found (maskSize network.mask).1 (ofBytes plain) onesBound plainBound,
    rfl, ⟨size, ?_⟩, ?_, ?_, size⟩
  · simp [blockAround, Cidr.size, normal]
  · rw [ipMask_of_length lengths, getD_some, maskBytes_length lengths, maskLength]
  · rw [ipMask_of_length lengths, getD_some, masked]
    rfl

theorem normalizeIPNet_none (malformed : normalizeIPNet network = none) (cidr : Cidr) :
    ¬Denotes (some network) cidr := by
  rintro ⟨size, start⟩
  rcases map_eq_some_iff.mp start with ⟨ip, normal, _⟩
  simp [normalizeIPNet, size, familyOfBits_bits, normal] at malformed

theorem Denotes.unique (first : Denotes subnet left)
    (second : Denotes subnet right) : left = right := by
  cases subnet with
  | none => exact first.elim
  | some network =>
    rcases first with ⟨leftSize, leftStart⟩
    rcases second with ⟨rightSize, rightStart⟩
    rw [leftSize, Prod.mk.injEq] at rightSize
    rcases rightSize with ⟨prefixLen, bits⟩
    have family : left.family = right.family := by
      cases leftFamily : left.family <;> cases rightFamily : right.family <;>
        simp_all [Family.bits, Family.bytes]
    have size : left.size = right.size := by
      rw [size, size, family, prefixLen]
    rw [← family, ← size, leftStart] at rightStart
    exact Cidr.ext family prefixLen (Option.some.inj rightStart)

theorem Denotes.iff_eq {block cidr : Cidr} (denotes : Denotes subnet block) :
    Denotes subnet cidr ↔ block = cidr :=
  ⟨denotes.unique, fun same => same ▸ denotes⟩

theorem normalizeSubnet_some {reserved : ReservedSubnet}
    (normalized : normalizeSubnet subnet = some reserved) :
    ∃ cidr, Denotes subnet cidr ∧ reserved.Represents cidr := by
  cases subnet with
  | none => simp [normalizeSubnet] at normalized
  | some network =>
    simp only [normalizeSubnet, bind_eq_bind, bind_some, bind_eq_some_iff,
      pure_def, Option.some.injEq] at normalized
    rcases normalized with ⟨⟨ip, mask, bits⟩, normal, rfl⟩
    rcases normalizeIPNet_some normal with ⟨rfl, cidr, rfl, denotes, length, value, size⟩
    rcases @range_spec ⟨ip, network.mask⟩ cidr length value size with
      ⟨last, first, lastNormal, lastLength, lastValue⟩
    refine ⟨cidr, denotes, rfl, ?_, ?_, ?_, length, value, size⟩
    · simp [size]
    · simp [first, ipToInt, value]
    · simp [lastNormal, ipToInt, lastValue]

theorem normalizeSubnet_none (malformed : normalizeSubnet subnet = none) (cidr : Cidr) :
    ¬Denotes subnet cidr := by
  cases subnet with
  | none => exact id
  | some network =>
    apply normalizeIPNet_none
    cases normal : normalizeIPNet network with
    | none => rfl
    | some parts => simp [normalizeSubnet, normal] at malformed

theorem Cidr.Inside.prefixLen_le {inner outer : Cidr} (inside : inner.Inside outer) :
    outer.prefixLen ≤ inner.prefixLen := by
  rcases inside with ⟨family, starts, ends⟩
  have outerPositive := outer.size_pos
  simp only [interval, Interval.block] at ends
  by_contra shorter
  have outerBound := outer.prefixLen_le
  have exponents : outer.family.bits - outer.prefixLen < inner.family.bits - inner.prefixLen := by
    rw [family]
    omega
  have strict : outer.size < inner.size := Nat.pow_lt_pow_right (by norm_num) exponents
  omega

def Cidr.within (outer : Cidr) (prefixLen start : ℕ) (prefixLen_le : prefixLen ≤ outer.family.bits)
    (aligned : subnetSize outer.family prefixLen ∣ start) (start_le : start ≤ outer.interval.last) :
    Cidr where
  family := outer.family
  prefixLen := prefixLen
  start := start
  prefixLen_le := prefixLen_le
  aligned := aligned
  start_lt := lt_of_le_of_lt start_le outer.last_lt

def Cidr.key (cidr : Cidr) : SubnetKey :=
  ⟨cidr.family, cidr.prefixLen, intToIP cidr.start cidr.family⟩

theorem intToIP_spec {value : ℕ} {family : Family} (bound : value < 2 ^ family.bits) :
    (intToIP value family).length = family.bytes ∧ ofBytes (intToIP value family) = value := by
  rw [two_pow_bits] at bound
  have short := length_toBytes_le bound
  have noCut : (toBytes value).length - family.bytes = 0 := by omega
  simp only [intToIP, noCut, List.drop_zero]
  exact ⟨length_padLeft short, by simp⟩

theorem intToIP_ofBytes {ip : IP} {family : Family} (length : ip.length = family.bytes) :
    intToIP (ofBytes ip) family = ip := by
  have bound : ofBytes ip < 2 ^ family.bits := by
    rw [two_pow_bits, ← length]
    exact ofBytes_lt ip
  rcases intToIP_spec bound with ⟨ownLength, value⟩
  exact ofBytes_injective (by rw [ownLength, length]) value

theorem Cidr.key_injective (equal : left.key = right.key) : left = right := by
  simp only [key, SubnetKey.mk.injEq] at equal
  rcases equal with ⟨family, prefixLen, ip⟩
  apply Cidr.ext family prefixLen
  rw [← (intToIP_spec left.start_lt).2, ip, (intToIP_spec right.start_lt).2]

theorem Cidr.key_inj : left.key = right.key ↔ left = right :=
  ⟨key_injective, congrArg key⟩

theorem ReservedSubnet.Represents.key {reserved : ReservedSubnet} {cidr : Cidr}
    (represents : reserved.Represents cidr) : reserved.key = cidr.key := by
  have ip : intToIP cidr.start cidr.family = reserved.network.ip := by
    rw [← represents.value, intToIP_ofBytes represents.length]
  simp [ReservedSubnet.key, subnetMapKey, Cidr.key, represents.bits, represents.prefixLen, ip]

theorem denotes_toIPNet : Denotes (some cidr.toIPNet) cidr := by
  rcases intToIP_spec cidr.start_lt with ⟨length, value⟩
  refine ⟨maskSize_cidrMask cidr.prefixLen_le, ?_⟩
  simp only [toIPNet, normalizeIPForBits_self length, map_some, value]
  exact congrArg some (Nat.div_mul_cancel cidr.aligned)

end Gonnect.Subnet
