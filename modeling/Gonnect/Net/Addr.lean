import Gonnect.Foundation.BigEndian

/-!
# The addresses of Go's `net/netip` package

Unlike an address of package `net`, an `Addr` is a value that is compared with `==`, knows
its family and may carry a zone. The zero `Addr` is no address. A `Prefix` without a length
is an invalid one; a valid prefix has a length that fits its address, and no zone, since the
package does not export the fields.
-/

namespace Gonnect.Netip

open BigEndian

inductive Addr where
  | zero
  | v4 (value : BitVec 32)
  | v6 (value : BitVec 128) (zone : String)
deriving DecidableEq, Repr

namespace Addr

def isValid : Addr → Bool
  | .zero => false
  | _ => true

def is4 : Addr → Bool
  | .v4 _ => true
  | _ => false

def is6 : Addr → Bool
  | .v6 _ _ => true
  | _ => false

def bitLen : Addr → ℕ
  | .zero => 0
  | .v4 _ => 32
  | .v6 _ _ => 128

def zone : Addr → String
  | .v6 _ zone => zone
  | _ => ""

/-- `As4` read as a big-endian number, for an IPv4 address. -/
def as4 : Addr → Option (BitVec 32)
  | .v4 value => some value
  | _ => none

/-- `Unmap` takes an IPv4 address out of its IPv6 form. -/
def unmap : Addr → Addr
  | .v6 value zone =>
    if value >>> 32 = 0xffff#128 then .v4 (value.truncate 32) else .v6 value zone
  | addr => addr

def asSlice : Addr → List UInt8
  | .zero => []
  | .v4 value => padLeft 4 (toBytes value.toNat)
  | .v6 value _ => padLeft 16 (toBytes value.toNat)

end Addr

def addrFrom4 (data : List UInt8) : Addr :=
  .v4 (BitVec.ofNat 32 (ofBytes data))

def addrFrom16 (data : List UInt8) : Addr :=
  .v6 (BitVec.ofNat 128 (ofBytes data)) ""

variable {data : List UInt8}

theorem toNat_ofNat_ofBytes {width : ℕ} (length : 8 * data.length = width) :
    (BitVec.ofNat width (ofBytes data)).toNat = ofBytes data := by
  have bound := ofBytes_lt data
  rw [BitVec.toNat_ofNat]
  apply Nat.mod_eq_of_lt
  rwa [← length, Nat.pow_mul]

theorem asSlice_addrFrom4 (length : data.length = 4) : (addrFrom4 data).asSlice = data := by
  apply padLeft_toBytes_eq length
  exact (toNat_ofNat_ofBytes (by omega)).symm

theorem asSlice_addrFrom16 (length : data.length = 16) : (addrFrom16 data).asSlice = data := by
  apply padLeft_toBytes_eq length
  exact (toNat_ofNat_ofBytes (by omega)).symm

structure Prefix where
  addr : Addr
  /-- No length when the prefix is not valid. -/
  length : Option ℕ
  fits : ∀ bits ∈ length, addr.isValid ∧ addr.zone = "" ∧ bits ≤ addr.bitLen
deriving DecidableEq

namespace Prefix

def isValid (subnet : Prefix) : Bool :=
  subnet.length.isSome

/-- `Contains`: the bits that remain after shifting away the host part agree. -/
def contains (subnet : Prefix) (ip : Addr) : Bool :=
  match subnet.length, subnet.addr, ip with
  | some bits, .v4 base, .v4 value => (value ^^^ base) >>> (32 - bits) == 0
  | some bits, .v6 base _, .v6 value zone =>
    zone == "" && (value ^^^ base) >>> (128 - bits) == 0
  | _, _, _ => false

end Prefix

end Gonnect.Netip
