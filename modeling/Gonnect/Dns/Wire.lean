import Gonnect.Dns.Adapter
import Gonnect.Foundation.Checked

/-!
# Lookups behind a wire hop

`Pack` turns the data of each record into a typed body of package `dnsmessage`, and `Unpack`
turns bodies back into data. What the parser of the package reads is what the builder was
given, with the data of an unknown record decoded if the parser knows its type.

The data of a text record is the list of its segments, each behind its length; other data is
taken for one long text and comes back with lengths in front. `NewResolverProvider` writes
texts without lengths, so a lookup of texts notices.
-/

namespace Gonnect.Dns

open Checked List Resource BigEndian Except

def typeSOA : UInt16 := 6

def typeOPT : UInt16 := 41

structure SOA where
  ns : Text
  mbox : Text
  serial : UInt32
  refresh : UInt32
  retry : UInt32
  expire : UInt32
  minTTL : UInt32
deriving DecidableEq, Repr

structure WireOption where
  code : UInt16
  data : List UInt8
deriving DecidableEq, Repr

/-- `dnsmessage.ResourceBody` -/
inductive Body where
  | a (addr : List UInt8)
  | aaaa (addr : List UInt8)
  | cname (name : Text)
  | ns (name : Text)
  | ptr (name : Text)
  | mx (pref : UInt16) (name : Text)
  | srv (priority weight port : UInt16) (target : Text)
  | soa (soa : SOA)
  | txt (segments : List Text)
  | opt (options : List WireOption)
  | unknown (rtype : UInt16) (data : List UInt8)
  /-- A body of a type that this package does not know. -/
  | foreign
deriving DecidableEq, Repr

inductive NameDataError where
  | truncated
  | label
  | labelDot
deriving DecidableEq, Repr

inductive WireError where
  | invalidA
  | invalidAAAA
  | invalidMX
  | invalidSRV
  | soaNS (cause : NameDataError)
  | soaMBox (cause : NameDataError)
  | invalidSOA
  | invalidOPT
  | optionLength
  | name (name : Text)
  | builder
  | parser
deriving DecidableEq, Repr

variable (name : Text) (rr : Resource)

/-- `dnsmessage.NewName`, which has room for 255 bytes. -/
def newName : Except WireError Text :=
  if name.length > 255 then .error (.name name) else .ok name

def wireName : Except WireError Text :=
  newName (absName name)

variable (data : List UInt8)

def uint32At (offset : ℕ) : UInt32 :=
  UInt32.ofNat (ofBytes ((data.drop offset).take 4))

def putUint32 (value : UInt32) : List UInt8 :=
  padLeft 4 (toBytes value.toNat)

/-- The loop of `unpackWireNameData`: the name, and the data behind it. -/
def unpackWireNameData (data : List UInt8) (name : Text) :
    Except NameDataError (Text × List UInt8) :=
  match data with
  | [] => .error .truncated
  | length :: rest =>
    if length = 0 then
      .ok (if name = [] then [dot] else name, rest)
    else if length.toNat > 63 ∨ length.toNat > rest.length then
      .error .label
    else if dot ∈ rest.take length.toNat then
      .error .labelDot
    else
      unpackWireNameData (rest.drop length.toNat) (name ++ rest.take length.toNat ++ [dot])
termination_by data.length
decreasing_by
  simp only [length_cons, length_drop]
  omega

def counted (label : List UInt8) : List UInt8 :=
  UInt8.ofNat label.length :: label

def appendWireNameData (dst : List UInt8) (name : Text) : List UInt8 :=
  if name = [dot] then
    dst ++ [0]
  else
    dst ++ ((trimDot name).splitOn dot).flatMap counted ++ [0]

def unpackSOAData : Except WireError SOA := do
  let (nsText, rest) ← (unpackWireNameData data []).mapError .soaNS
  let (mboxText, rest) ← (unpackWireNameData rest []).mapError .soaMBox
  if rest.length ≠ 20 then
    .error .invalidSOA
  else do
    let ns ← wireName nsText
    let mbox ← wireName mboxText
    .ok
      { ns, mbox
        serial := uint32At rest 0
        refresh := uint32At rest 4
        retry := uint32At rest 8
        expire := uint32At rest 12
        minTTL := uint32At rest 16 }

def unpackOPTData (data : List UInt8) : Except WireError (List WireOption) :=
  if data.length = 0 then
    .ok []
  else if data.length < 4 then
    .error .invalidOPT
  else
    let length := (uint16At data 2).toNat
    if length > data.length - 4 then
      .error .optionLength
    else do
      let options ← unpackOPTData (data.drop (4 + length))
      .ok (⟨uint16At data 0, (data.drop 4).take length⟩ :: options)
termination_by data.length
decreasing_by
  simp only [length_drop]
  omega

def txtSegments (data : List UInt8) : Option (List Text) :=
  match data with
  | [] => some []
  | length :: rest =>
    if length.toNat > rest.length then
      none
    else
      (txtSegments (rest.drop length.toNat)).map (rest.take length.toNat :: ·)
termination_by data.length
decreasing_by
  simp only [length_cons, length_drop]
  omega

def rawTXTLoop (data : List UInt8) : List Text :=
  if data.length = 0 then
    []
  else
    data.take 255 :: rawTXTLoop (data.drop 255)
termination_by data.length
decreasing_by
  simp only [length_drop]
  omega

def rawTXTSegments : List Text :=
  if data.length = 0 then [[]] else rawTXTLoop data

def packResource (rtype : UInt16) (data : List UInt8) : Except WireError Body :=
  if rtype = typeA then
    if data.length ≠ 4 then .error .invalidA else .ok (.a data)
  else if rtype = typeAAAA then
    if data.length ≠ 16 then .error .invalidAAAA else .ok (.aaaa data)
  else if rtype = typeCNAME then
    (wireName data).map .cname
  else if rtype = typeNS then
    (wireName data).map .ns
  else if rtype = typePTR then
    (wireName data).map .ptr
  else if rtype = typeMX then
    if data.length < 3 then
      .error .invalidMX
    else
      (wireName (data.drop 2)).map (.mx (uint16At data 0))
  else if rtype = typeSRV then
    if data.length < 7 then
      .error .invalidSRV
    else
      (wireName (data.drop 6)).map (.srv (uint16At data 0) (uint16At data 2) (uint16At data 4))
  else if rtype = typeSOA then
    (unpackSOAData data).map .soa
  else if rtype = typeTXT then
    if (txtSegments data).isSome then
      .ok (.unknown rtype data)
    else
      .ok (.txt (rawTXTSegments data))
  else if rtype = typeOPT then
    (unpackOPTData data).map .opt
  else
    .ok (.unknown rtype data)

def resourceData : Body → List UInt8
  | .a addr => addr
  | .aaaa addr => addr
  | .cname name => name
  | .ns name => name
  | .ptr name => name
  | .mx pref name => putUint16 pref ++ name
  | .srv priority weight port target =>
    putUint16 priority ++ putUint16 weight ++ putUint16 port ++ target
  | .soa soa =>
    appendWireNameData (appendWireNameData [] soa.ns) soa.mbox ++ putUint32 soa.serial ++
      putUint32 soa.refresh ++ putUint32 soa.retry ++ putUint32 soa.expire ++ putUint32 soa.minTTL
  | .txt segments => segments.flatMap counted
  | .opt options => options.flatMap fun option =>
    putUint16 option.code ++ putUint16 (UInt16.ofNat option.data.length) ++ option.data
  | .unknown _ data => data
  | .foreign => []

structure WireResource where
  name : Text
  rtype : UInt16
  rclass : UInt16
  ttl : UInt32
  body : Body
deriving DecidableEq, Repr

structure WireMessage where
  id : UInt16
  response : Bool
  opcode : UInt8
  rcode : UInt8
  authoritative : Bool
  truncated : Bool
  recursionDesired : Bool
  recursionAvailable : Bool
  authenticatedData : Bool
  checkingDisabled : Bool
  questions : List Question
  answers : List WireResource
  authorities : List WireResource
  additionals : List WireResource
deriving DecidableEq, Repr

/-- Package `dnsmessage`, as far as it matters here. -/
structure WireLibrary where
  /-- Whether the builder finishes: labels have a length, and counts and lengths fit. -/
  builds : WireMessage → Bool
  /-- What the parser does with data of a type besides those of `packResource`: it fails, or it
  makes a body of its own, or it keeps the data. -/
  decodes : UInt16 → List UInt8 → Option Bool

def packRecord : Except WireError WireResource := do
  let name ← wireName rr.name
  let body ← packResource rr.rtype rr.data
  .ok ⟨name, rr.rtype, rr.rclass, rr.ttl, body⟩

def packQuestion (q : Question) : Except WireError Question := do
  let name ← wireName q.name
  .ok { q with name := name }

namespace WireLibrary

variable (library : WireLibrary)

def parsedBody : Body → Except WireError Body
  | .unknown rtype data =>
    if rtype = typeTXT then
      .ok (.txt ((txtSegments data).getD []))
    else
      match library.decodes rtype data with
      | none => .error .parser
      | some own => .ok (if own then .foreign else .unknown rtype data)
  | body => .ok body

/-- `Pack`, up to the bytes. -/
def pack (msg : Message) : Except WireError WireMessage := do
  let questions ← msg.questions.mapM packQuestion
  let answers ← msg.answers.mapM packRecord
  let authorities ← msg.authorities.mapM packRecord
  let additionals ← msg.additionals.mapM packRecord
  let wire : WireMessage :=
    { id := msg.id
      response := msg.response
      opcode := msg.opcode
      rcode := msg.rcode
      authoritative := msg.authoritative
      truncated := msg.truncated
      recursionDesired := msg.recursionDesired
      recursionAvailable := msg.recursionAvailable
      authenticatedData := msg.authenticatedData
      checkingDisabled := msg.checkingDisabled
      questions, answers, authorities, additionals }
  if library.builds wire then .ok wire else .error .builder

def unpackRecord (rr : WireResource) : Except WireError Resource := do
  let body ← library.parsedBody rr.body
  .ok ⟨rr.name, rr.rtype, rr.rclass, rr.ttl, resourceData body⟩

/-- `Unpack`, up to the bytes. -/
def unpack (wire : WireMessage) : Except WireError Message := do
  let answers ← wire.answers.mapM library.unpackRecord
  let authorities ← wire.authorities.mapM library.unpackRecord
  let additionals ← wire.additionals.mapM library.unpackRecord
  .ok {
    id := wire.id
    response := wire.response
    opcode := wire.opcode
    rcode := wire.rcode
    authoritative := wire.authoritative
    truncated := wire.truncated
    recursionDesired := wire.recursionDesired
    recursionAvailable := wire.recursionAvailable
    authenticatedData := wire.authenticatedData
    checkingDisabled := wire.checkingDisabled
    questions := wire.questions
    answers, authorities, additionals }

/-- Every response of the first interface is accepted, and the second interface gives what
comes out of the hop. -/
def Hop (dns hopped : Interface) : Prop :=
  ∀ req, ∃ wire, library.pack (dns req) = .ok wire ∧ library.unpack wire = .ok (hopped req)

/-- The parser does not fail on the record. -/
def Parses (rr : Resource) : Prop :=
  rr.rtype ∈ [typeA, typeAAAA, typeCNAME, typeNS, typePTR, typeMX, typeSRV, typeSOA, typeTXT,
    typeOPT] ∨ (library.decodes rr.rtype rr.data).isSome

def Stable (rr : Resource) : Prop :=
  if rr.rtype = typeCNAME ∨ rr.rtype = typeNS ∨ rr.rtype = typePTR then
    absName rr.data = rr.data
  else if rr.rtype = typeMX then
    absName (rr.data.drop 2) = rr.data.drop 2
  else if rr.rtype = typeSRV then
    absName (rr.data.drop 6) = rr.data.drop 6
  else if rr.rtype = typeTXT then
    (txtSegments rr.data).isSome = true
  else if rr.rtype = typeA ∨ rr.rtype = typeAAAA ∨ rr.rtype = typeSOA ∨ rr.rtype = typeOPT then
    True
  else
    library.decodes rr.rtype rr.data = some true → rr.data = []

end WireLibrary

variable {data rest : List UInt8}

theorem putUint16_uint16At {offset : ℕ} (inside : offset + 2 ≤ data.length) :
    putUint16 (uint16At data offset) = (data.drop offset).take 2 := by
  have first : data.getD offset 0 = data[offset] := by
    simp [List.getD, show offset < data.length by omega]
  have second : data.getD (offset + 1) 0 = data[offset + 1] := by
    simp [List.getD, show offset + 1 < data.length by omega]
  rw [drop_eq_getElem_cons (by omega), drop_eq_getElem_cons (by omega), take_succ_cons,
    take_succ_cons, take_zero, putUint16, uint16At, first, second]
  have high := data[offset].toNat_lt
  have low := data[offset + 1].toNat_lt
  congr 1
  · apply UInt8.toNat_inj.mp
    simp only [UInt16.toNat_ofNat', UInt8.toNat_ofNat']
    omega
  · congr 1
    apply UInt8.toNat_inj.mp
    simp only [UInt16.toNat_ofNat', UInt8.toNat_ofNat']
    omega

theorem putUint32_uint32At {offset : ℕ} (inside : offset + 4 ≤ data.length) :
    putUint32 (uint32At data offset) = (data.drop offset).take 4 := by
  have length : ((data.drop offset).take 4).length = 4 := by
    rw [length_take, length_drop]
    omega
  have bound := ofBytes_lt ((data.drop offset).take 4)
  rw [length] at bound
  apply padLeft_toBytes_eq length
  rw [uint32At, UInt32.toNat_ofNat']
  exact (Nat.mod_eq_of_lt bound).symm

theorem counted_take {length : UInt8} (fits : length.toNat ≤ rest.length) :
    counted (rest.take length.toNat) ++ rest.drop length.toNat = length :: rest := by
  rw [counted, length_take, min_eq_left fits, UInt8.ofNat_toNat, cons_append,
    take_append_drop]

theorem flatMap_counted_txtSegments {segments : List Text}
    (split : txtSegments data = some segments) : segments.flatMap counted = data := by
  fun_induction txtSegments data generalizing segments with
  | case1 =>
    cases split
    rfl
  | case2 => cases split
  | case3 length rest fits ih =>
    rcases Option.map_eq_some_iff.mp split with ⟨later, found, rfl⟩
    rw [flatMap_cons, ih found, counted_take (by omega)]

theorem length_flatMap_counted (segments : List Text) :
    (segments.flatMap counted).length = (segments.map List.length).sum + segments.length := by
  induction segments with
  | nil => rfl
  | cons segment rest ih =>
    simp only [flatMap_cons, length_append, ih, counted,
      length_cons, map_cons, sum_cons]
    omega

theorem sum_length_rawTXTLoop (data : List UInt8) :
    ((rawTXTLoop data).map List.length).sum = data.length := by
  fun_induction rawTXTLoop data with
  | case1 data empty => exact empty.symm
  | case2 data nonempty ih =>
    rw [map_cons, sum_cons, ih, length_take, length_drop]
    omega

theorem flatMap_counted_rawTXTSegments (unsplit : txtSegments data = none) :
    (rawTXTSegments data).flatMap counted ≠ data := by
  intro same
  have nonempty : data.length ≠ 0 := by
    intro empty
    rw [length_eq_zero_iff.mp empty, txtSegments] at unsplit
    cases unsplit
  have lengths := congrArg List.length same
  rw [length_flatMap_counted, rawTXTSegments, if_neg nonempty, sum_length_rawTXTLoop] at lengths
  rw [rawTXTLoop, if_neg nonempty, length_cons] at lengths
  omega

theorem flatMap_unpackOPTData {options : List WireOption}
    (unpacked : unpackOPTData data = .ok options) : resourceData (.opt options) = data := by
  fun_induction unpackOPTData data generalizing options with
  | case1 data empty =>
    cases unpacked
    exact (length_eq_zero_iff.mp empty).symm
  | case2 | case3 => cases unpacked
  | case4 data nonempty long length fits =>
    rename_i ih
    rcases of_bind unpacked with ⟨later, found, same⟩
    cases same
    have taken : ((data.drop 4).take length).length = length := by
      rw [length_take, length_drop]
      omega
    have front : resourceData (.opt (⟨uint16At data 0, (data.drop 4).take length⟩ :: later)) =
        putUint16 (uint16At data 0) ++ putUint16 (uint16At data 2) ++ (data.drop 4).take length ++
          resourceData (.opt later) := by
      simp [resourceData, taken, length]
    rw [front, ih found, putUint16_uint16At (by omega),
      putUint16_uint16At (by omega), drop_zero, ← take_add, ← take_add,
      take_append_drop]

theorem absName_eq_self_iff : absName name = name ↔ name.getLast? = some dot := by
  unfold absName
  split_ifs with short absolute
  · rcases short with rfl | rfl <;> simp
  · simp [absolute]
  · simp [absolute]

theorem wireName_ok {name packed : Text} (accepted : wireName name = .ok packed) :
    packed = absName name := by
  unfold wireName newName at accepted
  split_ifs at accepted
  cases accepted
  rfl

structure Labels (labels : List Text) : Prop where
  nonempty : ∀ label ∈ labels, label ≠ []
  noDot : ∀ label ∈ labels, dot ∉ label

theorem unpackWireNameData_ok {name text : Text}
    (unpacked : unpackWireNameData data name = .ok (text, rest)) :
    ∃ labels, Labels labels ∧ data = labels.flatMap counted ++ 0 :: rest ∧
      text = if name ++ labels.flatMap (· ++ [dot]) = [] then [dot]
        else name ++ labels.flatMap (· ++ [dot]) := by
  fun_induction unpackWireNameData data name with
  | case1 | case3 | case4 => cases unpacked
  | case2 name rest =>
    cases unpacked
    exact ⟨[], ⟨by simp, by simp⟩, by simp, by simp⟩
  | case5 name length rest nonzero fits noDot ih =>
    rcases ih unpacked with ⟨labels, valid, split, named⟩
    have inside : length.toNat ≤ rest.length := by omega
    refine ⟨rest.take length.toNat :: labels, ⟨?_, ?_⟩, ?_, ?_⟩
    · intro label member
      rcases mem_cons.mp member with rfl | member
      · intro empty
        have taken := congrArg List.length empty
        rw [length_take, min_eq_left inside, length_nil] at taken
        exact nonzero (UInt8.toNat_inj.mp taken)
      · exact valid.nonempty label member
    · intro label member
      rcases mem_cons.mp member with rfl | member
      · exact noDot
      · exact valid.noDot label member
    · rw [flatMap_cons, append_assoc, ← split, counted_take inside]
    · rw [named]
      simp

theorem flatMap_dot {labels : List Text} (nonempty : labels ≠ []) :
    labels.flatMap (· ++ [dot]) = [dot].intercalate labels ++ [dot] := by
  induction labels with
  | nil => exact absurd rfl nonempty
  | cons label rest ih =>
    cases rest with
    | nil => simp [intercalate]
    | cons next later =>
      rw [flatMap_cons, ih (by simp)]
      simp [intercalate]

theorem Labels.append {labels : List Text} (valid : Labels labels) (nonempty : labels ≠ [])
    (dst : List UInt8) : appendWireNameData dst (labels.flatMap (· ++ [dot])) =
      dst ++ labels.flatMap counted ++ [0] := by
  have notRoot : labels.flatMap (· ++ [dot]) ≠ [dot] := by
    intro root
    have nonzero := congrArg List.length root
    cases labels with
    | nil => exact nonempty rfl
    | cons first later =>
      have positive := length_pos_iff.mpr (valid.nonempty first mem_cons_self)
      simp at nonzero
      omega
  rw [appendWireNameData, if_neg notRoot, flatMap_dot nonempty, trimDot_concat,
    splitOn_intercalate dot valid.noDot nonempty]

theorem appendWireNameData_unpack {text : Text}
    (unpacked : unpackWireNameData data [] = .ok (text, rest)) (dst : List UInt8) :
    absName text = text ∧ appendWireNameData dst text ++ rest = dst ++ data := by
  rcases unpackWireNameData_ok unpacked with ⟨labels, valid, rfl, named⟩
  rw [nil_append] at named
  by_cases root : labels = []
  · subst root
    subst named
    exact ⟨rfl, by simp [appendWireNameData]⟩
  have full := flatMap_dot root
  have written : text = labels.flatMap (· ++ [dot]) := by
    rw [named, full, if_neg (by simp)]
  refine ⟨(absName_eq_self_iff text).mpr ?_, ?_⟩
  · rw [written, full, getLast?_concat]
  · rw [written, valid.append root]
    simp

theorem resourceData_unpackSOAData {soa : SOA} (unpacked : unpackSOAData data = .ok soa) :
    resourceData (.soa soa) = data := by
  rcases of_bind unpacked with ⟨⟨nsText, afterNS⟩, readNS, unpacked⟩
  rcases of_bind unpacked with ⟨⟨mboxText, numbers⟩, readMBox, unpacked⟩
  dsimp only at unpacked
  by_cases size : numbers.length ≠ 20
  · rw [if_pos size] at unpacked
    cases unpacked
  rw [if_neg size] at unpacked
  rcases of_bind unpacked with ⟨ns, nsAccepted, unpacked⟩
  rcases of_bind unpacked with ⟨mbox, mboxAccepted, unpacked⟩
  cases unpacked
  rcases appendWireNameData_unpack (mapError_eq_ok_iff.mp readNS) [] with ⟨nsAbsolute, nsBack⟩
  rcases appendWireNameData_unpack (mapError_eq_ok_iff.mp readMBox) (appendWireNameData [] nsText)
    with ⟨mboxAbsolute, mboxBack⟩
  have five : putUint32 (uint32At numbers 0) ++ (putUint32 (uint32At numbers 4) ++
      (putUint32 (uint32At numbers 8) ++ (putUint32 (uint32At numbers 12) ++
        putUint32 (uint32At numbers 16)))) = numbers := by
    simp (disch := omega) only [← append_assoc, putUint32_uint32At, drop_zero, ← take_add]
    exact take_of_length_le (by omega)
  rw [wireName_ok nsAccepted, wireName_ok mboxAccepted, nsAbsolute, mboxAbsolute]
  simp only [resourceData, append_assoc]
  rw [five, mboxBack, nsBack, nil_append]

theorem map_wireName_ok {name : Text} {build : Text → Body} {body : Body}
    (packed : (wireName name).map build = .ok body) : body = build (absName name) := by
  rcases map_eq_ok_iff.mp packed with ⟨absolute, accepted, rfl⟩
  rw [wireName_ok accepted]

namespace WireLibrary

variable (library : WireLibrary) {body : Body}

theorem data_eq_of_binary {rtype : UInt16}
    (binary : rtype = typeA ∨ rtype = typeAAAA ∨ rtype = typeSOA ∨ rtype = typeOPT)
    (packed : packResource rtype data = .ok body) :
    (library.parsedBody body).map resourceData = .ok data := by
  rcases binary with rfl | rfl | rfl | rfl
  · change (if data.length ≠ 4 then _ else .ok (.a data)) = ok body at packed
    split_ifs at packed
    cases packed
    rfl
  · change (if data.length ≠ 16 then _ else .ok (.aaaa data)) = ok body at packed
    split_ifs at packed
    cases packed
    rfl
  · change (unpackSOAData data).map .soa = .ok body at packed
    rcases map_eq_ok_iff.mp packed with ⟨soa, unpacked, rfl⟩
    exact congrArg ok (resourceData_unpackSOAData unpacked)
  · change (unpackOPTData data).map .opt = .ok body at packed
    rcases map_eq_ok_iff.mp packed with ⟨options, unpacked, rfl⟩
    exact congrArg ok (flatMap_unpackOPTData unpacked)

theorem data_eq_of_name {rtype : UInt16}
    (isName : rtype = typeCNAME ∨ rtype = typeNS ∨ rtype = typePTR)
    (packed : packResource rtype data = .ok body) :
    (library.parsedBody body).map resourceData = .ok (absName data) := by
  rcases isName with rfl | rfl | rfl
  · have made : body = .cname (absName data) := map_wireName_ok packed
    rw [made]
    rfl
  · have made : body = .ns (absName data) := map_wireName_ok packed
    rw [made]
    rfl
  · have made : body = .ptr (absName data) := map_wireName_ok packed
    rw [made]
    rfl

theorem data_eq_of_mx (packed : packResource typeMX data = .ok body) :
    (library.parsedBody body).map resourceData =
      .ok (data.take 2 ++ absName (data.drop 2)) := by
  change (if data.length < 3 then _ else (wireName (data.drop 2)).map (.mx (uint16At data 0))) =
    ok body at packed
  split_ifs at packed with short
  rw [map_wireName_ok packed]
  change ok (putUint16 _ ++ _) = _
  rw [putUint16_uint16At (by omega), drop_zero]

theorem data_eq_of_srv (packed : packResource typeSRV data = .ok body) :
    (library.parsedBody body).map resourceData =
      .ok (data.take 6 ++ absName (data.drop 6)) := by
  change (if data.length < 7 then _ else (wireName (data.drop 6)).map
    (.srv (uint16At data 0) (uint16At data 2) (uint16At data 4))) = ok body at packed
  split_ifs at packed with short
  rw [map_wireName_ok packed]
  change ok (putUint16 _ ++ putUint16 _ ++ putUint16 _ ++ _) = _
  simp (disch := omega) only [putUint16_uint16At, drop_zero, ← take_add]

theorem data_eq_of_txt (packed : packResource typeTXT data = .ok body) :
    ∃ back, (library.parsedBody body).map resourceData = .ok back ∧
      (back = data ↔ (txtSegments data).isSome) := by
  change (if (txtSegments data).isSome then .ok (.unknown typeTXT data)
    else .ok (.txt (rawTXTSegments data))) = ok body at packed
  cases split : txtSegments data with
  | none =>
    rw [split] at packed
    cases packed
    exact ⟨_, rfl, iff_of_false (flatMap_counted_rawTXTSegments split) (by simp)⟩
  | some segments =>
    rw [split] at packed
    cases packed
    refine ⟨_, rfl, iff_of_true ?_ rfl⟩
    simp only [split, Option.getD_some, resourceData]
    exact flatMap_counted_txtSegments split

theorem take_append_absName_iff (data : List UInt8) (count : ℕ) :
    data.take count ++ absName (data.drop count) = data ↔
      absName (data.drop count) = data.drop count := by
  conv_lhs => rhs; rw [← take_append_drop count data]
  exact append_right_inj _

theorem data_eq_iff_stable {rr : Resource} (packed : packResource rr.rtype rr.data = .ok body) :
    (¬library.Parses rr ∧ ∃ error, library.parsedBody body = .error error) ∨
      library.Parses rr ∧ ∃ back, (library.parsedBody body).map resourceData = .ok back ∧
        (back = rr.data ↔ library.Stable rr) := by
  rcases rr with ⟨name, rtype, rclass, ttl, data⟩
  dsimp only [Stable, Parses] at packed ⊢
  by_cases isName : rtype = typeCNAME ∨ rtype = typeNS ∨ rtype = typePTR
  · rw [if_pos isName]
    refine .inr ⟨.inl ?_, _, library.data_eq_of_name isName packed, Iff.rfl⟩
    rcases isName with rfl | rfl | rfl <;> decide
  rw [if_neg isName]
  by_cases isMX : rtype = typeMX
  · subst isMX
    rw [if_pos rfl]
    exact .inr ⟨.inl (by decide), _, library.data_eq_of_mx packed, take_append_absName_iff _ _⟩
  rw [if_neg isMX]
  by_cases isSRV : rtype = typeSRV
  · subst isSRV
    rw [if_pos rfl]
    exact .inr ⟨.inl (by decide), _, library.data_eq_of_srv packed, take_append_absName_iff _ _⟩
  rw [if_neg isSRV]
  by_cases isTXT : rtype = typeTXT
  · subst isTXT
    rw [if_pos rfl]
    exact .inr ⟨.inl (by decide), library.data_eq_of_txt packed⟩
  rw [if_neg isTXT]
  by_cases binary : rtype = typeA ∨ rtype = typeAAAA ∨ rtype = typeSOA ∨ rtype = typeOPT
  · rw [if_pos binary]
    refine .inr ⟨.inl ?_, _, library.data_eq_of_binary binary packed, iff_of_true rfl trivial⟩
    rcases binary with rfl | rfl | rfl | rfl <;> decide
  rw [if_neg binary]
  simp only [not_or] at isName binary
  rw [packResource, if_neg binary.1, if_neg binary.2.1, if_neg isName.1, if_neg isName.2.1,
    if_neg isName.2.2, if_neg isMX, if_neg isSRV, if_neg binary.2.2.1, if_neg isTXT,
    if_neg binary.2.2.2] at packed
  cases packed
  rw [parsedBody, if_neg isTXT]
  rcases decoded : library.decodes rtype data with _ | _ | _
  · exact .inl ⟨by simp [isName, isMX, isSRV, isTXT, binary], .parser, rfl⟩
  · exact .inr ⟨.inr rfl, _, rfl, by simp [resourceData]⟩
  · exact .inr ⟨.inr rfl, _, rfl, by simp [resourceData, eq_comm]⟩

end WireLibrary

def Resource.value : UInt16 × List UInt8 :=
  (rr.rtype, rr.data)

/-- A reader of records that looks at types and data only. -/
def ReadsValues {α : Type} (read : List Resource → α) : Prop :=
  ∀ rrs copies : List Resource, copies.map value = rrs.map value →
    read copies = read rrs

theorem readsValues_map {α : Type} (read : List (UInt16 × List UInt8) → α) :
    ReadsValues fun rrs => read (rrs.map value) := by
  intro rrs copies same
  dsimp only
  rw [same]

theorem readsValues_ips : ReadsValues ipsFromResources := by
  have read := readsValues_map fun values => values.flatMap fun value =>
    (if value.1 = typeA ∧ value.2.length = 4 then [Net.v4InV6Prefix ++ value.2] else []) ++
      (if value.1 = typeAAAA ∧ value.2.length = 16 then [value.2] else [])
  simp only [flatMap_map] at read
  exact read

theorem readsValues_names : ReadsValues namesFromResources := by
  have read := readsValues_map fun values => values.map Prod.snd
  simp only [map_map] at read
  exact read

theorem readsValues_mx : ReadsValues fun rrs => rrs.filterMap mxFromResource := by
  have read := readsValues_map fun values => values.filterMap fun value =>
    if 2 ≤ value.2.length then some (⟨uint16At value.2 0, value.2.drop 2⟩ : MX) else none
  simp only [filterMap_map] at read
  exact read

theorem readsValues_srv : ReadsValues fun rrs => rrs.filterMap srvFromResource := by
  have read := readsValues_map fun values => values.filterMap fun value =>
    if 6 ≤ value.2.length then
      some (⟨uint16At value.2 0, uint16At value.2 2, uint16At value.2 4, value.2.drop 6⟩ : SRV)
    else none
  simp only [filterMap_map] at read
  exact read

def SameValues (resp copy : Message) : Prop :=
  copy.rcode = resp.rcode ∧ (resp.rcode = rcodeSuccess →
    copy.answers.map value = resp.answers.map value)

section SameLookups

variable {dns hopped : Interface} (same : ∀ req, SameValues (dns req) (hopped req))
  (nextID : UInt16)

include same

theorem queryRecords_same {α : Type} {read : List Resource → α} (reads : ReadsValues read)
    (rtype : UInt16) (name : Text) :
    (queryRecords hopped nextID rtype name).map read =
      (queryRecords dns nextID rtype name).map read := by
  let req : Message :=
    { id := nextID, recursionDesired := true, questions := [⟨absName name, rtype, classIN⟩] }
  rcases same req with ⟨rcode, answers⟩
  change (if (hopped req).rcode ≠ rcodeSuccess then _ else ok (hopped req).answers).map read =
    (if (dns req).rcode ≠ rcodeSuccess then _ else ok (dns req).answers).map read
  rw [rcode]
  by_cases failed : (dns req).rcode ≠ rcodeSuccess
  · rw [if_pos failed, if_pos failed]
  · rw [if_neg failed, if_neg failed, Except.map, Except.map,
      reads _ _ (answers (not_not.mp failed))]

theorem lookupFamily_same (rtype : UInt16) (skipped only : Bool) (host : Text) :
    lookupFamily hopped nextID rtype skipped only host =
      lookupFamily dns nextID rtype skipped only host := by
  have read := queryRecords_same same nextID readsValues_ips rtype host
  unfold lookupFamily
  cases copied : queryRecords hopped nextID rtype host <;>
    cases original : queryRecords dns nextID rtype host <;>
      simp_all [Except.map]

variable (library : AdapterLibrary)

theorem lookupIPVia_same (network host : Text) :
    lookupIPVia library hopped nextID network host =
      lookupIPVia library dns nextID network host := by
  unfold lookupIPVia
  simp [lookupFamily_same same]

theorem lookupCNAME_same (host : Text) :
    (newResolver library hopped nextID).lookupCNAME host =
      (newResolver library dns nextID).lookupCNAME host := by
  have first : ReadsValues fun rrs => (namesFromResources rrs).headD [] := by
    intro rrs copies values
    dsimp only
    rw [readsValues_names rrs copies values]
  have read := queryRecords_same same nextID first typeCNAME host
  have mapped : ∀ interface : Interface, (newResolver library interface nextID).lookupCNAME host =
      (queryRecords interface nextID typeCNAME host).map fun rrs =>
        (namesFromResources rrs).headD [] := by
    intro interface
    simp only [newResolver]
    cases queryRecords interface nextID typeCNAME host <;> rfl
  rw [mapped, mapped, read]

theorem newResolver_same : newResolver library hopped nextID = newResolver library dns nextID := by
  have cname := lookupCNAME_same same nextID library
  simp only [newResolver] at cname ⊢
  simp only [Resolver.mk.injEq]
  refine ⟨?_, ?_, ?_, ?_, ?_, ?_, ?_⟩
  · funext network host
    exact lookupIPVia_same same nextID library network host
  · funext addr
    exact queryRecords_same same nextID readsValues_names typePTR addr
  · funext host
    exact cname host
  · funext name
    exact queryRecords_same same nextID readsValues_names typeTXT name
  · funext name
    exact queryRecords_same same nextID readsValues_mx typeMX name
  · funext name
    exact queryRecords_same same nextID readsValues_names typeNS name
  · funext service proto name
    refine queryRecords_same same nextID (fun rrs copies values => ?_) typeSRV _
    exact congrArg (Prod.mk []) (readsValues_srv rrs copies values)

end SameLookups

theorem mapM_eq_ok_forall₂ {ε α β : Type} {f : α → Except ε β} {list : List α} {results : List β}
    (mapped : list.mapM f = .ok results) :
    Forall₂ (fun value result => f value = .ok result) list results := by
  induction list generalizing results with
  | nil =>
    cases mapped
    exact .nil
  | cons first rest ih =>
    rw [mapM_cons] at mapped
    rcases of_bind mapped with ⟨result, computed, mapped⟩
    rcases of_bind mapped with ⟨later, others, mapped⟩
    cases mapped
    exact .cons computed (ih others)

namespace WireLibrary

variable (library : WireLibrary)

/-- The record that comes back has the type, and the data exactly if it is stable. -/
structure Survives (rr back : Resource) : Prop where
  rtype : back.rtype = rr.rtype
  data : back.data = rr.data ↔ library.Stable rr

theorem unpackRecord_of_pack {rr : Resource} {packed : WireResource}
    (accepted : packRecord rr = .ok packed) :
    (¬library.Parses rr ∧ ∃ error, library.unpackRecord packed = .error error) ∨
      library.Parses rr ∧ ∃ back, library.unpackRecord packed = .ok back ∧
        library.Survives rr back := by
  rcases of_bind accepted with ⟨name, _, accepted⟩
  rcases of_bind accepted with ⟨body, bodyPacked, accepted⟩
  cases accepted
  refine (library.data_eq_iff_stable bodyPacked).imp ?_ ?_
  · rintro ⟨fails, error, parsed⟩
    exact ⟨fails, error, by rw [unpackRecord, parsed]; rfl⟩
  · rintro ⟨parses, back, mapped, stable⟩
    rcases map_eq_ok_iff.mp mapped with ⟨parsed, isParsed, rfl⟩
    refine ⟨parses, ⟨name, rr.rtype, rr.rclass, rr.ttl, resourceData parsed⟩, ?_, rfl, stable⟩
    rw [unpackRecord, isParsed]
    rfl

variable {rrs backs : List Resource} {packed : List WireResource}

theorem unpackRecords_of_pack
    (accepted : Forall₂ (fun rr wire => packRecord rr = .ok wire) rrs packed) :
    ((∃ rr ∈ rrs, ¬library.Parses rr) ∧ ∃ error, packed.mapM library.unpackRecord = .error error) ∨
      (∀ rr ∈ rrs, library.Parses rr) ∧ ∃ backs, packed.mapM library.unpackRecord = .ok backs ∧
        Forall₂ library.Survives rrs backs := by
  induction accepted with
  | nil => exact .inr ⟨by simp, [], rfl, .nil⟩
  | cons first _ ih =>
    simp only [mapM_cons, exists_mem_cons_iff, forall_mem_cons]
    rcases library.unpackRecord_of_pack first with
      ⟨fails, error, failed⟩ | ⟨parses, back, unpacked, survives⟩
    · exact .inl ⟨.inl fails, error, by rw [failed]; rfl⟩
    rcases ih with ⟨fails, error, failed⟩ | ⟨parse, backs, mapped, survive⟩
    · exact .inl ⟨.inr fails, error, by rw [unpacked, failed]; rfl⟩
    · exact .inr ⟨⟨parses, parse⟩, _, by rw [unpacked, mapped]; rfl, .cons survives survive⟩

/-- The parser reads the message exactly if it reads all of its records. -/
theorem unpack_of_pack {resp : Message} {wire : WireMessage}
    (accepted : library.pack resp = .ok wire) :
    ((∃ back, library.unpack wire = .ok back) ↔
      ∀ rr ∈ resp.answers ++ resp.authorities ++ resp.additionals, library.Parses rr) ∧
    ∀ back, library.unpack wire = .ok back →
      back.rcode = resp.rcode ∧ Forall₂ library.Survives resp.answers back.answers := by
  rcases of_bind accepted with ⟨_, _, accepted⟩
  rcases of_bind accepted with ⟨answers, packedAnswers, accepted⟩
  rcases of_bind accepted with ⟨authorities, packedAuthorities, accepted⟩
  rcases of_bind accepted with ⟨additionals, packedAdditionals, accepted⟩
  dsimp only at accepted
  split_ifs at accepted
  cases accepted
  simp only [unpack, forall_mem_append]
  rcases library.unpackRecords_of_pack (mapM_eq_ok_forall₂ packedAnswers) with
    ⟨⟨rr, member, fails⟩, error, failed⟩ | ⟨parse, backs, mapped, survive⟩
  · rw [failed]
    exact ⟨⟨nofun, fun all => absurd (all.1.1 rr member) fails⟩, nofun⟩
  rcases library.unpackRecords_of_pack (mapM_eq_ok_forall₂ packedAuthorities) with
    ⟨⟨rr, member, fails⟩, error, failed⟩ | ⟨alsoParse, _, alsoMapped, _⟩
  · rw [mapped, failed]
    exact ⟨⟨nofun, fun all => absurd (all.1.2 rr member) fails⟩, nofun⟩
  rcases library.unpackRecords_of_pack (mapM_eq_ok_forall₂ packedAdditionals) with
    ⟨⟨rr, member, fails⟩, error, failed⟩ | ⟨lastParse, _, lastMapped, _⟩
  · rw [mapped, alsoMapped, failed]
    exact ⟨⟨nofun, fun all => absurd (all.2 rr member) fails⟩, nofun⟩
  rw [mapped, alsoMapped, lastMapped]
  refine ⟨⟨fun _ => ⟨⟨parse, alsoParse⟩, lastParse⟩, fun _ => ⟨_, rfl⟩⟩, ?_⟩
  rintro _ ⟨⟩
  exact ⟨rfl, survive⟩

theorem data_eq_iff (survive : Forall₂ library.Survives rrs backs) :
    backs.map Resource.data = rrs.map Resource.data ↔ ∀ rr ∈ rrs, library.Stable rr := by
  induction survive with
  | nil => simp
  | cons first _ ih => rw [map_cons, map_cons, List.cons.injEq, ih, first.data, forall_mem_cons]

theorem value_eq (survive : Forall₂ library.Survives rrs backs)
    (stable : ∀ rr ∈ rrs, library.Stable rr) : backs.map value = rrs.map value := by
  induction survive with
  | nil => rfl
  | @cons rr back rrs backs first _ ih =>
    rw [map_cons, map_cons, Resource.value, first.rtype, first.data.mpr (stable rr mem_cons_self),
      ih fun other member => stable other (mem_cons_of_mem _ member)]
    rfl

end WireLibrary

/-- A wire hop goes through and changes no lookup, for a class of responses that the encoder
accepts, exactly if the parser reads every record of a response of the class and every answer
of a successful one is stable. -/
theorem wireHop_unchanged_iff (library : WireLibrary) (allowed : Message → Prop) :
    (∀ dns : Interface, (∀ req, allowed (dns req) ∧ ∃ wire, library.pack (dns req) = .ok wire) →
      ∃ hopped, library.Hop dns hopped ∧ ∀ (adapters : AdapterLibrary) (nextID : UInt16),
        newResolver adapters hopped nextID = newResolver adapters dns nextID) ↔
      ∀ resp, allowed resp → (∃ wire, library.pack resp = .ok wire) →
        (∀ rr ∈ resp.answers ++ resp.authorities ++ resp.additionals, library.Parses rr) ∧
          (resp.rcode = rcodeSuccess → ∀ rr ∈ resp.answers, library.Stable rr) := by
  constructor
  · intro unchanged resp isAllowed accepted
    rcases unchanged (fun _ => resp) fun _ => ⟨isAllowed, accepted⟩ with ⟨hopped, hop, same⟩
    rcases accepted with ⟨wire, packed⟩
    have unpacked (req : Message) : library.unpack wire = .ok (hopped req) := by
      rcases hop req with ⟨_, packedAgain, unpacked⟩
      cases packed.symm.trans packedAgain
      exact unpacked
    rcases library.unpack_of_pack packed with ⟨readable, read⟩
    refine ⟨readable.mp ⟨_, unpacked {}⟩, fun success => ?_⟩
    have copied (req : Message) := (read _ (unpacked req)).1.trans success
    let adapters : AdapterLibrary := ⟨fun _ => none, fun _ => [], fun _ _ => false⟩
    have texts := congrArg (fun resolver => resolver.lookupTXT []) (same adapters 0)
    simp only [newResolver, queryRecords, copied, success, ne_eq, not_true, if_false, Except.map,
      Except.ok.injEq] at texts
    exact (library.data_eq_iff (read _ (unpacked _)).2).mp texts
  · intro condition dns allowedAll
    have hops : ∀ req, ∃ back, ∃ wire, library.pack (dns req) = .ok wire ∧
        library.unpack wire = .ok back := by
      intro req
      rcases allowedAll req with ⟨isAllowed, wire, packed⟩
      rcases (library.unpack_of_pack packed).1.mpr
        (condition (dns req) isAllowed ⟨wire, packed⟩).1 with ⟨back, unpacked⟩
      exact ⟨back, wire, packed, unpacked⟩
    choose hopped hop using hops
    refine ⟨hopped, hop, fun adapters nextID => ?_⟩
    refine newResolver_same (fun req => ?_) nextID adapters
    rcases hop req with ⟨wire, packed, unpacked⟩
    rcases (library.unpack_of_pack packed).2 _ unpacked with ⟨rcode, survive⟩
    refine ⟨rcode, fun success => library.value_eq survive ?_⟩
    exact (condition (dns req) (allowedAll req).1 ⟨wire, packed⟩).2 success

def greetingResolver : Resolver where
  lookupIP _ _ := .error .notFound
  lookupAddr _ := .error .notFound
  lookupCNAME _ := .error .notFound
  lookupTXT _ := .ok [bytes "hello"]
  lookupMX _ := .error .notFound
  lookupNS _ := .error .notFound
  lookupSRV _ _ _ := .error .notFound

def plainWire : WireLibrary where
  builds _ := true
  decodes _ _ := some false

/-- What the provider of the resolver answers to a lookup of texts under `a.test`. -/
def greeting : Message :=
  newResolverProvider ⟨fun _ => none, fun _ => [], fun _ _ => false⟩ greetingResolver 60
    { id := 1, recursionDesired := true, questions := [⟨bytes "a.test.", typeTXT, classIN⟩] }

/-- The text comes back with its length in front. -/
theorem wireHop_counts_text :
    ∃ hopped : Interface, plainWire.Hop (fun _ => greeting) hopped ∧
      ∀ adapters,
        (newResolver adapters (fun _ => greeting) 1).lookupTXT (bytes "a.test") =
          .ok [bytes "hello"] ∧
        (newResolver adapters hopped 1).lookupTXT (bytes "a.test") = .ok [5 :: bytes "hello"] := by
  have packed : ((plainWire.pack greeting >>= plainWire.unpack).toOption.any fun back =>
      back.rcode == rcodeSuccess && back.answers.map Resource.data == [5 :: bytes "hello"]) =
        true := by
    decide +kernel
  rcases exists_of_any packed with ⟨back, hopped, right⟩
  rcases of_bind hopped with ⟨wire, accepted, unpacked⟩
  rcases Bool.and_eq_true_iff.mp right with ⟨rcode, data⟩
  refine ⟨fun _ => back, fun _ => ⟨wire, accepted, unpacked⟩, fun adapters => ⟨?_, ?_⟩⟩
  · rfl
  · simp only [newResolver, queryRecords, eq_of_beq rcode, ne_eq, not_true, if_false, Except.map]
    exact congrArg ok (eq_of_beq data)

end Gonnect.Dns
