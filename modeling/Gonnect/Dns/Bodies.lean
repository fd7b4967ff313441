import Gonnect.Dns.Wire

/-!
# Records that the parser delivers

`Unpack` stores the data of the bodies that the parser of package `dnsmessage` delivers, and
a later `Pack` gives the builder the same bodies, with one exception: a text record becomes
an unknown body of its type, with the same bytes on the wire.
-/

namespace Gonnect.Dns

open Checked List BigEndian Body

/-- A name that the parser delivers. It does not deliver labels with a dot in them. -/
def IsName (name : Text) : Prop :=
  name.length ≤ 255 ∧ ∃ labels, Labels labels ∧ (∀ label ∈ labels, label.length ≤ 63) ∧
    name = if labels = [] then [dot] else labels.flatMap (· ++ [dot])

/-- The bodies that the parser delivers for records of a type. -/
inductive Parsed (library : WireLibrary) : UInt16 → Body → Prop
  | a {addr : List UInt8} (length : addr.length = 4) : Parsed library typeA (.a addr)
  | aaaa {addr : List UInt8} (length : addr.length = 16) : Parsed library typeAAAA (.aaaa addr)
  | cname {name : Text} (isName : IsName name) : Parsed library typeCNAME (.cname name)
  | ns {name : Text} (isName : IsName name) : Parsed library typeNS (.ns name)
  | ptr {name : Text} (isName : IsName name) : Parsed library typePTR (.ptr name)
  | mx (pref : UInt16) {name : Text} (isName : IsName name) :
    Parsed library typeMX (.mx pref name)
  | srv (priority weight port : UInt16) {target : Text} (isName : IsName target) :
    Parsed library typeSRV (.srv priority weight port target)
  | soa {soa : SOA} (ns : IsName soa.ns) (mbox : IsName soa.mbox) :
    Parsed library typeSOA (.soa soa)
  | txt {segments : List Text} (short : ∀ segment ∈ segments, segment.length ≤ 255) :
    Parsed library typeTXT (.txt segments)
  | opt {options : List WireOption} (short : ∀ option ∈ options, option.data.length < 65536) :
    Parsed library typeOPT (.opt options)
  | unknown {rtype : UInt16} (data : List UInt8)
    (undecoded : library.decodes rtype data = some false)
    (other : rtype ∉ [typeA, typeAAAA, typeCNAME, typeNS, typePTR, typeMX, typeSRV, typeSOA,
      typeTXT, typeOPT]) : Parsed library rtype (.unknown rtype data)

def Body.handed : Body → Body
  | .txt segments => .unknown typeTXT (segments.flatMap counted)
  | body => body

variable {name : Text} {rest : List UInt8}

theorem counted_length {label : Text} (short : label.length ≤ 255) :
    (UInt8.ofNat label.length).toNat = label.length := by
  rw [UInt8.toNat_ofNat']
  omega

theorem txtSegments_flatMap_counted {segments : List Text}
    (short : ∀ segment ∈ segments, segment.length ≤ 255) :
    txtSegments (segments.flatMap counted) = some segments := by
  induction segments with
  | nil => rw [flatMap_nil, txtSegments]
  | cons segment later ih =>
    have length := counted_length (short segment mem_cons_self)
    have split := ih fun other member => short other (mem_cons_of_mem segment member)
    rw [flatMap_cons, counted, cons_append, txtSegments, length, if_neg (by simp),
      drop_left, split, take_left]
    rfl

theorem unpackWireNameData_flatMap_counted {labels : List Text} (valid : Labels labels)
    (short : ∀ label ∈ labels, label.length ≤ 63) :
    unpackWireNameData (labels.flatMap counted ++ 0 :: rest) name =
      .ok (if name ++ labels.flatMap (· ++ [dot]) = [] then [dot]
        else name ++ labels.flatMap (· ++ [dot]), rest) := by
  induction labels generalizing name with
  | nil => simp [unpackWireNameData]
  | cons label later ih =>
    have bound := short label mem_cons_self
    have length := counted_length (show label.length ≤ 255 by omega)
    have nonempty := length_pos_iff.mpr (valid.nonempty label mem_cons_self)
    have nonzero : UInt8.ofNat label.length ≠ 0 := by
      intro zero
      rw [zero] at length
      exact absurd length (by simpa using nonempty.ne)
    have unpacked := @ih (name ++ label ++ [dot])
      ⟨fun other member => valid.nonempty other (mem_cons_of_mem label member),
        fun other member => valid.noDot other (mem_cons_of_mem label member)⟩
      fun other member => short other (mem_cons_of_mem label member)
    rw [flatMap_cons, counted, cons_append, cons_append, append_assoc,
      unpackWireNameData, if_neg nonzero, length, if_neg (by simp; omega), take_left,
      if_neg (valid.noDot label mem_cons_self), drop_left, unpacked]
    simp only [flatMap_cons, append_assoc]

theorem IsName.absolute (isName : IsName name) : name.getLast? = some dot := by
  rcases isName with ⟨-, labels, -, -, rfl⟩
  split_ifs with root
  · rfl
  · rw [flatMap_dot root, getLast?_concat]

theorem IsName.length_pos (isName : IsName name) : 0 < name.length := by
  have absolute := isName.absolute
  cases name with
  | nil => cases absolute
  | cons first later => simp

theorem IsName.wireName (isName : IsName name) : wireName name = .ok name := by
  rw [Dns.wireName, (absName_eq_self_iff name).mpr isName.absolute, newName,
    if_neg (not_lt.mpr isName.1)]

theorem IsName.unpack (isName : IsName name) (dst : List UInt8) :
    ∃ written, appendWireNameData dst name = dst ++ written ∧
      ∀ rest, unpackWireNameData (written ++ rest) [] = .ok (name, rest) := by
  rcases isName with ⟨-, labels, valid, short, rfl⟩
  refine ⟨labels.flatMap counted ++ [0], ?_, ?_⟩
  · split_ifs with root
    · simp [root, appendWireNameData]
    · rw [valid.append root, append_assoc]
  · intro rest
    rw [append_assoc, singleton_append, unpackWireNameData_flatMap_counted valid short]
    cases labels <;> simp

theorem length_putUint32 (value : UInt32) : (putUint32 value).length = 4 :=
  length_padLeft (length_toBytes_le value.toNat_lt)

theorem uint32At_putUint32 (value : UInt32) : uint32At (putUint32 value ++ rest) 0 = value := by
  rw [uint32At, drop_zero, take_left' (length_putUint32 value), putUint32,
    ofBytes_padLeft, ofBytes_toBytes, UInt32.ofNat_toNat]

theorem uint32At_skip (value : UInt32) (offset : ℕ) :
    uint32At (putUint32 value ++ rest) (offset + 4) = uint32At rest offset := by
  have length := length_putUint32 value
  rw [uint32At, drop_append, drop_of_length_le (by omega), length, Nat.add_sub_cancel]
  rfl

theorem unpackSOAData_resourceData {soa : SOA} (ns : IsName soa.ns) (mbox : IsName soa.mbox) :
    unpackSOAData (resourceData (.soa soa)) = .ok soa := by
  rcases ns.unpack [] with ⟨front, frontWritten, unpackNS⟩
  rcases mbox.unpack front with ⟨back, backWritten, unpackMBox⟩
  have last := @uint32At_putUint32 [] soa.minTTL
  rw [append_nil] at last
  simp only [resourceData, frontWritten, backWritten, nil_append, append_assoc]
  apply bind_eq_ok_iff.mpr ⟨_, mapError_eq_ok_iff.mpr (unpackNS _), ?_⟩
  apply bind_eq_ok_iff.mpr ⟨_, mapError_eq_ok_iff.mpr (unpackMBox _), ?_⟩
  dsimp only
  rw [if_neg (by simp [length_putUint32])]
  apply bind_eq_ok_iff.mpr ⟨_, ns.wireName, ?_⟩
  apply bind_eq_ok_iff.mpr ⟨_, mbox.wireName, ?_⟩
  simp [uint32At_putUint32, uint32At_skip _ 0, uint32At_skip _ 4, uint32At_skip _ 8,
    uint32At_skip _ 12, last]

theorem unpackOPTData_resourceData {options : List WireOption}
    (short : ∀ option ∈ options, option.data.length < 65536) :
    unpackOPTData (resourceData (.opt options)) = .ok options := by
  induction options with
  | nil => rw [resourceData, flatMap_nil, unpackOPTData, if_pos length_nil]
  | cons option later ih =>
    have unpacked := ih fun other member => short other (mem_cons_of_mem option member)
    have bound := short option mem_cons_self
    have length : (UInt16.ofNat option.data.length).toNat = option.data.length := by
      rw [UInt16.toNat_ofNat']
      omega
    have written : resourceData (.opt (option :: later)) = putUint16 option.code ++
        putUint16 (UInt16.ofNat option.data.length) ++
          (option.data ++ resourceData (.opt later)) := by
      simp [resourceData]
    generalize resourceData (.opt (option :: later)) = data at written ⊢
    have code : uint16At data 0 = option.code := by
      rw [written]
      exact uint16At_putUint16 option.code [] _
    have size : uint16At data 2 = UInt16.ofNat option.data.length := by
      rw [written]
      exact uint16At_putUint16 _ (putUint16 option.code) _
    have behind : data.drop 4 = option.data ++ resourceData (.opt later) := by
      rw [written]
      rfl
    have room : 4 + option.data.length ≤ data.length := by
      simp [written, length_putUint16]
      omega
    rw [unpackOPTData, if_neg (by omega), if_neg (by omega), code, size, length]
    dsimp only
    rw [if_neg (by omega), ← drop_drop, behind, drop_left, unpacked, take_left]
    rfl

theorem rawTXTLoop_spec (data : List UInt8) :
    (rawTXTLoop data).flatten = data ∧ ∀ segment ∈ rawTXTLoop data, segment.length ≤ 255 := by
  fun_induction rawTXTLoop data with
  | case1 data empty => exact ⟨(length_eq_zero_iff.mp empty).symm, by simp⟩
  | case2 data nonempty ih =>
    refine ⟨?_, ?_⟩
    · rw [flatten_cons, ih.1, take_append_drop]
    · intro segment member
      rcases mem_cons.mp member with rfl | member
      · exact length_take_le 255 data
      · exact ih.2 segment member

theorem packResource_resourceData {library : WireLibrary} {rtype : UInt16} {body : Body}
    (parsed : Parsed library rtype body) :
    packResource rtype (resourceData body) = .ok body.handed ∧
      library.parsedBody body.handed = .ok body := by
  cases parsed with
  | a length | aaaa length => exact ⟨if_neg (not_not.mpr length), rfl⟩
  | cname isName | ns isName | ptr isName => exact ⟨congrArg (Except.map _) isName.wireName, rfl⟩
  | @mx pref name isName =>
    refine ⟨?_, rfl⟩
    have first : uint16At (putUint16 pref ++ name) 0 = pref := uint16At_putUint16 pref [] name
    have size : ¬(putUint16 pref ++ name).length < 3 := by
      have nonempty := isName.length_pos
      rw [length_append, length_putUint16]
      omega
    change (if (putUint16 pref ++ name).length < 3 then _ else
      (wireName name).map (mx (uint16At (putUint16 pref ++ name) 0))) = _
    rw [if_neg size, first, isName.wireName]
    rfl
  | @srv priority weight port target isName =>
    refine ⟨?_, rfl⟩
    generalize written : putUint16 priority ++ putUint16 weight ++ putUint16 port ++ target = data
    have first : uint16At data 0 = priority := by
      rw [← written]
      exact uint16At_putUint16 priority [] _
    have second : uint16At data 2 = weight := by
      rw [← written]
      exact uint16At_putUint16 weight (putUint16 priority) _
    have third : uint16At data 4 = port := by
      rw [← written]
      exact uint16At_putUint16 port (putUint16 priority ++ putUint16 weight) _
    have size : ¬data.length < 7 := by
      have nonempty := isName.length_pos
      simp only [← written, length_append, length_putUint16]
      omega
    have behind : data.drop 6 = target := by
      rw [← written]
      rfl
    rw [resourceData, written]
    change (if data.length < 7 then _ else (wireName (data.drop 6)).map
      (srv (uint16At data 0) (uint16At data 2) (uint16At data 4))) = _
    rw [if_neg size, behind, first, second, third, isName.wireName]
    rfl
  | soa ns mbox => exact ⟨congrArg (Except.map _) (unpackSOAData_resourceData ns mbox), rfl⟩
  | @txt segments short =>
    have split := txtSegments_flatMap_counted short
    constructor
    · change (if (txtSegments (segments.flatMap counted)).isSome then
        Except.ok (unknown typeTXT (segments.flatMap counted)) else _) = _
      rw [split]
      rfl
    · change Except.ok (txt ((txtSegments (segments.flatMap counted)).getD [])) = _
      rw [split]
      rfl
  | opt short => exact ⟨congrArg (Except.map _) (unpackOPTData_resourceData short), rfl⟩
  | unknown data undecoded other =>
    simp only [mem_cons, not_or] at other
    constructor
    · simp [packResource, other, handed, resourceData]
    · simp [WireLibrary.parsedBody, other, undecoded, handed]

/-- The builder is given every body that the parser has delivered: the body itself, or for a
text record an unknown body that the parser reads as this body. The readers of texts,
options and start-of-authority records invert their writers, and any data is cut into
segments. -/
theorem delivered_bodies_handed (library : WireLibrary) :
    (∀ rtype body, Parsed library rtype body →
      packResource rtype (resourceData body) = .ok body.handed ∧
        library.parsedBody body.handed = .ok body) ∧
    (∀ segments : List Text, (∀ segment ∈ segments, segment.length ≤ 255) →
      txtSegments (resourceData (.txt segments)) = some segments) ∧
    (∀ options : List WireOption, (∀ option ∈ options, option.data.length < 65536) →
      unpackOPTData (resourceData (.opt options)) = .ok options) ∧
    (∀ soa : SOA, IsName soa.ns → IsName soa.mbox →
      unpackSOAData (resourceData (.soa soa)) = .ok soa) ∧
    ∀ data, (rawTXTSegments data).flatten = data ∧
      ∀ segment ∈ rawTXTSegments data, segment.length ≤ 255 := by
  refine ⟨fun rtype body => packResource_resourceData, fun segments => txtSegments_flatMap_counted,
    fun options => unpackOPTData_resourceData, fun soa => unpackSOAData_resourceData, ?_⟩
  intro data
  unfold rawTXTSegments
  split_ifs with empty
  · exact ⟨(length_eq_zero_iff.mp empty).symm, by simp⟩
  · exact rawTXTLoop_spec data

theorem delivered_bodies_handed_mx :
    packResource typeMX (resourceData (.mx 10 [97, dot])) = .ok (.mx 10 [97, dot]) :=
  ((delivered_bodies_handed plainWire).1 typeMX (.mx 10 [97, dot]) (.mx 10
    ⟨by decide, [[97]], ⟨by simp, by simp [dot]⟩, by simp, rfl⟩)).1

/-- A text record of one segment is not handed to the builder as a text body. -/
theorem text_handed_as_unknown :
    Parsed plainWire typeTXT (.txt [[104, 105]]) ∧
      packResource typeTXT (resourceData (.txt [[104, 105]])) =
        .ok (.unknown typeTXT [2, 104, 105]) := by
  have parsed : Parsed plainWire typeTXT (.txt [[104, 105]]) := .txt (by simp)
  exact ⟨parsed, (packResource_resourceData parsed).1⟩

end Gonnect.Dns
