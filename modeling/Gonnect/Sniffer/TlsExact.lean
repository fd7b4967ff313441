import Gonnect.Sniffer.Tls

/-!
# When the TLS classifier reads outside its buffer

The reads of the record and handshake headers and every read behind the session id length
are guarded. The length test in front of the session id is off by one: a body of exactly 34
bytes passes it and the read at offset 34 faults. `TruncatedHello` says in terms of the
stream alone that such a body arrives.

`Steady` says that the byte count the parser asks for is never too large: no shorter stream
gets another answer, and an answer that settles the result stays on every longer stream.
-/

namespace Gonnect.Sniffer

open Checked List Safe Except

variable (library : Library)

section

variable (data : List UInt8)

include data

theorem parseTLSServerNames_safe (offset : ℕ) (hostname : List UInt8) :
    Safe (parseTLSServerNames library data offset hostname) := by
  fun_induction parseTLSServerNames library data offset hostname with
  | case1 offset hostname inside missing | case3 offset hostname outside =>
    exact safe_ok _
  | case2 offset hostname inside present normalizedHypothesis skipHypothesis =>
    simp only [protocolHasBytes_iff, not_not] at present
    apply readAt ?_
    intro nameType
    apply readNumberAt reads_beUint16
    intro nameLen
    apply Safe.guard
    intro hasName
    simp only [protocolHasBytes_iff, not_or, not_not] at hasName
    apply Safe.ite
    · intro isHost
      apply skip
      apply readWindow ?_
      intro name nameLength
      split
      next => exact safe_ok _
      next normalized accepted => exact normalizedHypothesis nameLen normalized
    · intro other
      exact skipHypothesis nameLen

theorem parseTLSServerNameExtension_safe : Safe (parseTLSServerNameExtension library data) := by
  apply safe_guardBytes
  intro present
  apply readNumber reads_beUint16
  intro listLen
  apply skip
  exact parseTLSServerNames_safe library data 2 []

theorem parseTLSALPNProtocols_safe (offset : ℕ) (protocols : List (List UInt8)) :
    Safe (parseTLSALPNProtocols data offset protocols) := by
  fun_induction parseTLSALPNProtocols data offset protocols with
  | case1 offset protocols inside ih =>
    apply readAt ?_
    intro protocolLen
    apply Safe.guard
    intro present
    simp only [protocolHasBytes_iff, not_or, not_not] at present
    apply readWindow ?_
    intro protocol protocolLength
    exact ih protocolLen protocol
  | case2 offset protocols outside =>
    exact safe_ok _

theorem parseTLSALPNExtension_safe : Safe (parseTLSALPNExtension data) := by
  apply safe_guardBytes
  intro present
  apply readNumber reads_beUint16
  intro listLen
  apply skip
  exact parseTLSALPNProtocols_safe data 2 []

/-- The list has an odd length and is read from odd offsets, so a version has both bytes. -/
theorem parseTLSVersions_safe (offset : ℕ) (versions : List ℕ) (oddLength : data.length % 2 = 1)
    (oddOffset : offset % 2 = 1) : Safe (parseTLSVersions data offset versions) := by
  fun_induction parseTLSVersions data offset versions with
  | case1 offset versions inside ih =>
    apply readNumberAt reads_beUint16
    intro version
    exact ih version (by omega)
  | case2 offset versions outside =>
    exact safe_ok _

theorem parseTLSSupportedVersionsExtension_safe :
    Safe (parseTLSSupportedVersionsExtension data) := by
  apply Safe.guard
  intro longEnough
  apply readAt ?_
  intro listLen
  apply Safe.guard
  intro listed
  exact Safe.map (parseTLSVersions_safe data 1 [] (by omega) (by omega))

end

/-- What the record at the front of the bytes is: not there yet, malformed or of a length. -/
inductive RecordView where
  | short
  | malformed
  | record (length : ℕ)
deriving DecidableEq

theorem applyTLSExtension_safe (extensionType : ℕ) (extensionData : List UInt8)
    (info : TlsClientHelloInfo) :
    Safe (applyTLSExtension library extensionType extensionData info) := by
  unfold applyTLSExtension
  split
  next =>
    apply Safe.bind (parseTLSServerNameExtension_safe library extensionData)
    intro parsed read
    cases parsed <;> exact safe_ok _
  next =>
    apply Safe.bind (parseTLSALPNExtension_safe extensionData)
    intro parsed read
    cases parsed <;> exact safe_ok _
  next =>
    apply Safe.bind (parseTLSSupportedVersionsExtension_safe extensionData)
    intro parsed read
    cases parsed <;> exact safe_ok _
  next => exact safe_ok _
  next => exact safe_ok _

theorem parseTLSExtensions_safe (extensions : List UInt8) (offset : ℕ) (seen : List ℕ)
    (info : TlsClientHelloInfo) :
    Safe (parseTLSExtensions library extensions offset seen info) := by
  fun_induction parseTLSExtensions library extensions offset seen info with
  | case1 offset seen info inside missing | case3 offset seen info outside =>
    exact safe_ok _
  | case2 offset seen info inside present ih =>
    simp only [protocolHasBytes_iff, not_not] at present
    apply readNumberAt reads_beUint16
    intro extensionType
    apply readNumberAt reads_beUint16
    intro extensionLen
    apply skip
    apply safe_guardBytes
    intro hasData
    apply readWindow ?_
    intro extensionData dataLength
    apply Safe.bind (applyTLSExtension_safe library extensionType extensionData info)
    rintro (_ | next) applied
    · exact safe_ok _
    · exact ih extensionType extensionLen next

variable {body rest : List UInt8} {config : NormalizedTlsConfig} {memory : TlsMemory}

theorem parseTLSHelloTail_safe (long : 34 < body.length) (info : TlsClientHelloInfo) :
    Safe (parseTLSHelloTail library body info) := by
  apply readAt ?_
  intro sessionIDLen
  apply skip
  apply safe_guardBytes
  intro hasCipherLength
  apply readNumberAt reads_beUint16
  intro cipherSuitesLen
  apply skip
  apply safe_guardBytes
  intro hasCompressionLength
  apply readAt ?_
  intro compressionMethodsLen
  apply skip
  apply skip
  apply safe_guardBytes
  intro hasExtensionsLength
  apply readNumberAt reads_beUint16
  intro extensionsLen
  apply skip
  apply skip
  apply readFrom ?_
  intro extensions extensionsLength
  exact parseTLSExtensions_safe library extensions 0 [] info

theorem parseTLSHelloTail_fault (exactly : body.length = 34) (info : TlsClientHelloInfo) :
    parseTLSHelloTail library body info = .error .outOfRange := by
  simp [parseTLSHelloTail, index_eq_error (le_of_eq exactly)]

theorem validTLSRecordVersion_iff (major minor : UInt8) :
    validTLSRecordVersion (256 * major.toNat + minor.toNat) = true ↔ major = 3 ∧ minor ≤ 4 := by
  have bound := minor.toNat_lt
  simp only [validTLSRecordVersion, Bool.and_eq_true, decide_eq_true_eq, UInt8.le_iff_toNat_le,
    ← UInt8.toNat_inj, UInt8.toNat_ofNat]
  omega

theorem parseTLSClientHelloBody_fault_iff (body : List UInt8) :
    parseTLSClientHelloBody library body = .error .outOfRange ↔
      ∃ minor random, body = 3 :: minor :: random ∧ minor ≤ 4 ∧ random.length = 32 := by
  rcases body with _ | ⟨major, _ | ⟨minor, random⟩⟩
  · simp [parseTLSClientHelloBody]
  · simp [parseTLSClientHelloBody]
  by_cases short : (major :: minor :: random).length < 34
  · simp only [length_cons] at short
    have notExact : random.length ≠ 32 := by omega
    simp [parseTLSClientHelloBody, short, notExact]
  have version : (window (major :: minor :: random) 0 2 >>= beUint16) =
      .ok (256 * major.toNat + minor.toNat) := by
    simp [window, beUint16, index]
  have unfolded : parseTLSClientHelloBody library (major :: minor :: random) =
      if ¬validTLSRecordVersion (256 * major.toNat + minor.toNat) then .ok none
      else parseTLSHelloTail library (major :: minor :: random)
        { versions := [256 * major.toNat + minor.toNat] } := by
    unfold parseTLSClientHelloBody
    rw [if_neg short, ← bind_assoc, version]
    rfl
  rw [unfolded]
  by_cases accepted : validTLSRecordVersion (256 * major.toNat + minor.toNat) = true
  · have parts := (validTLSRecordVersion_iff major minor).mp accepted
    rw [if_neg (not_not.mpr accepted)]
    by_cases exactly : random.length = 32
    · rw [parseTLSHelloTail_fault library (by simp [exactly])]
      simp [parts, exactly]
    · have long : 34 < (major :: minor :: random).length := by
        simp only [length_cons] at short ⊢
        omega
      rcases parseTLSHelloTail_safe library long
        { versions := [256 * major.toNat + minor.toNat] } with ⟨result, parsed⟩
      simp [parsed, exactly]
  · rw [if_pos accepted]
    have parts := mt (validTLSRecordVersion_iff major minor).mpr accepted
    simp only [reduceCtorEq, List.cons.injEq, false_iff, not_exists, not_and]
    rintro other tail ⟨isMajor, isMinor, _⟩ bounded
    exact absurd ⟨isMajor, isMinor ▸ bounded⟩ parts

/-- A ClientHello of 34 bytes with an accepted version is at the front of the handshake bytes. -/
def TruncatedHello (handshake : List UInt8) : Prop :=
  ∃ minor random, handshake = 1 :: 0 :: 0 :: 34 :: 3 :: minor :: random ∧ minor ≤ 4 ∧
    32 ≤ random.length

variable {data handshake : List UInt8} {recordOffset length : ℕ} {state : State}
  {parse : List UInt8 → Checked TlsParse} {outcome : Checked TlsParse}

theorem TruncatedHello.length_le (truncated : TruncatedHello handshake) :
    38 ≤ handshake.length := by
  rcases truncated with ⟨minor, random, rfl, accepted, enough⟩
  simp only [length_cons]
  omega

def helloBytes (second third fourth : UInt8) : ℕ :=
  65536 * second.toNat + 256 * third.toNat + fourth.toNat

theorem helloBytes_eq_34_iff (second third fourth : UInt8) :
    helloBytes second third fourth = 34 ↔ second = 0 ∧ third = 0 ∧ fourth = 34 := by
  simp only [helloBytes, ← UInt8.toNat_inj, UInt8.toNat_ofNat]
  omega

theorem truncatedHello_cons_iff (first second third fourth : UInt8) (rest : List UInt8) :
    TruncatedHello (first :: second :: third :: fourth :: rest) ↔
      first = 1 ∧ helloBytes second third fourth = 34 ∧
        ∃ minor random, rest = 3 :: minor :: random ∧ minor ≤ 4 ∧ 32 ≤ random.length := by
  rw [helloBytes_eq_34_iff]
  constructor
  · rintro ⟨minor, random, equal, accepted, enough⟩
    rcases equal with ⟨rfl, rfl, rfl, rfl, rfl⟩
    exact ⟨rfl, ⟨rfl, rfl, rfl⟩, minor, random, rfl, accepted, enough⟩
  · rintro ⟨rfl, ⟨rfl, rfl, rfl⟩, minor, random, rfl, accepted, enough⟩
    exact ⟨minor, random, rfl, accepted, enough⟩

theorem length_field_read (first second third fourth : UInt8) (rest : List UInt8) :
    (window (first :: second :: third :: fourth :: rest) 1 4 >>= beUint24) =
      .ok (helloBytes second third fourth) := by
  simp [window, beUint24, index, helloBytes]

theorem exists_four (enough : 4 ≤ handshake.length) :
    ∃ first second third fourth rest, handshake = first :: second :: third :: fourth :: rest := by
  match handshake, enough with
  | first :: second :: third :: fourth :: rest, _ =>
    exact ⟨first, second, third, fourth, rest, rfl⟩

theorem checkTLSClientHelloHeader_short (short : handshake.length < 4) :
    checkTLSClientHelloHeader handshake =
      .ok (if handshake = [] ∨ handshake.head? = some 1 then .needMore else .mismatch) := by
  rcases handshake with _ | ⟨first, rest⟩
  · simp [checkTLSClientHelloHeader]
  · have small : rest.length + 1 < tlsHandshakeHeaderBytes := by
      simpa [tlsHandshakeHeaderBytes] using short
    by_cases isHello : first = 1
    · simp [checkTLSClientHelloHeader, index, isHello, small]
    · simp [checkTLSClientHelloHeader, index, isHello]

theorem checkTLSClientHelloHeader_four (first second third fourth : UInt8) (rest : List UInt8) :
    checkTLSClientHelloHeader (first :: second :: third :: fourth :: rest) =
      .ok (if first ≠ 1 ∨ helloBytes second third fourth = 0 then .mismatch
        else if rest.length < helloBytes second third fourth then .needMore else .matched) := by
  have long : ¬(first :: second :: third :: fourth :: rest).length < tlsHandshakeHeaderBytes := by
    simp [tlsHandshakeHeaderBytes]
  have shifted : (first :: second :: third :: fourth :: rest).length <
      tlsHandshakeHeaderBytes + helloBytes second third fourth ↔
        rest.length < helloBytes second third fourth := by
    simp only [length_cons, tlsHandshakeHeaderBytes]
    omega
  unfold checkTLSClientHelloHeader
  rw [if_neg (by simp)]
  simp only [index_cons_zero, ok_bind]
  by_cases isHello : first = 1
  · subst isHello
    rw [if_neg (not_not.mpr rfl), if_neg long, ← bind_assoc, length_field_read]
    simp only [ok_bind, shifted, ne_eq, not_true_eq_false, false_or, pure_eq_ok]
    split_ifs <;> rfl
  · simp [isHello]

theorem checkTLSClientHelloHeader_safe (handshake : List UInt8) :
    Safe (checkTLSClientHelloHeader handshake) := by
  rcases lt_or_ge handshake.length 4 with short | enough
  · exact ⟨_, checkTLSClientHelloHeader_short short⟩
  · rcases exists_four enough with ⟨first, second, third, fourth, rest, rfl⟩
    exact ⟨_, checkTLSClientHelloHeader_four first second third fourth rest⟩

theorem checkTLSClientHelloHeader_settled
    (checked : checkTLSClientHelloHeader handshake = .ok state) (final : state ≠ .needMore)
    (more : List UInt8) : checkTLSClientHelloHeader (handshake ++ more) = .ok state := by
  rcases lt_or_ge handshake.length 4 with short | enough
  · rw [checkTLSClientHelloHeader_short short, ok.injEq] at checked
    rcases handshake with _ | ⟨first, rest⟩
    · exact absurd checked.symm final
    · by_cases isHello : first = 1
      · simp only [isHello, head?_cons, or_true, if_true] at checked
        exact absurd checked.symm final
      · rw [← checked]
        simp [checkTLSClientHelloHeader, index, isHello]
  · rcases exists_four enough with ⟨first, second, third, fourth, rest, rfl⟩
    simp only [cons_append, checkTLSClientHelloHeader_four, ok.injEq] at checked ⊢
    by_cases wrong : first ≠ 1 ∨ helloBytes second third fourth = 0
    · rwa [if_pos wrong] at checked ⊢
    rw [if_neg wrong] at checked ⊢
    by_cases incomplete : rest.length < helloBytes second third fourth
    · rw [if_pos incomplete] at checked
      exact absurd checked.symm final
    · rw [if_neg incomplete] at checked
      rwa [if_neg (by simp only [length_append]; omega)]

theorem checkTLSClientHelloHeader_truncated (truncated : TruncatedHello handshake) :
    checkTLSClientHelloHeader handshake = .ok .matched := by
  rcases truncated with ⟨minor, random, rfl, _, enough⟩
  have size : helloBytes 0 0 34 = 34 := rfl
  rw [checkTLSClientHelloHeader_four, size, if_neg (by simp), if_neg (by simp; omega)]

theorem not_truncated_of_mismatch (checked : checkTLSClientHelloHeader handshake = .ok .mismatch)
    (more : List UInt8) : ¬TruncatedHello (handshake ++ more) := by
  intro truncated
  have settled := checkTLSClientHelloHeader_settled checked (by simp) more
  cases settled.symm.trans (checkTLSClientHelloHeader_truncated truncated)

theorem not_truncated_of_needMore (checked : checkTLSClientHelloHeader handshake = .ok .needMore) :
    ¬TruncatedHello handshake := by
  intro truncated
  cases checked.symm.trans (checkTLSClientHelloHeader_truncated truncated)

theorem matched_iff_shape (checked : checkTLSClientHelloHeader handshake = .ok .matched) :
    ∃ second third fourth rest, handshake = 1 :: second :: third :: fourth :: rest ∧
      helloBytes second third fourth ≤ rest.length := by
  rcases lt_or_ge handshake.length 4 with short | enough
  · rw [checkTLSClientHelloHeader_short short] at checked
    split_ifs at checked <;> cases checked
  · rcases exists_four enough with ⟨first, second, third, fourth, rest, rfl⟩
    rw [checkTLSClientHelloHeader_four] at checked
    by_cases wrong : first ≠ 1 ∨ helloBytes second third fourth = 0
    · rw [if_pos wrong] at checked
      cases checked
    · rw [if_neg wrong] at checked
      rw [not_or, not_not] at wrong
      rcases wrong with ⟨rfl, positive⟩
      refine ⟨second, third, fourth, rest, rfl, ?_⟩
      split_ifs at checked with incomplete
      · cases checked
      · exact Nat.le_of_not_lt incomplete

theorem parseTLSWholeHello_eq {second third fourth : UInt8}
    (complete : helloBytes second third fourth ≤ rest.length) :
    parseTLSWholeHello library (1 :: second :: third :: fourth :: rest) =
      (parseTLSClientHelloBody library (rest.take (helloBytes second third fourth)) >>= fun parsed =>
        match parsed with
        | none => .ok .mismatch
        | some info => .ok (.matched info)) := by
  have body : window (1 :: second :: third :: fourth :: rest) tlsHandshakeHeaderBytes
      (tlsHandshakeHeaderBytes + helloBytes second third fourth) =
        .ok (rest.take (helloBytes second third fourth)) := by
    rw [window_eq_ok (by omega) (by simp only [length_cons, tlsHandshakeHeaderBytes]; omega)]
    simp [tlsHandshakeHeaderBytes, add_comm 4, take_succ_cons]
  unfold parseTLSWholeHello
  rw [← bind_assoc, length_field_read]
  simp only [ok_bind, body]
  rfl

theorem parseTLSWholeHello_fault_iff (checked : checkTLSClientHelloHeader handshake = .ok .matched)
    (more : List UInt8) :
    parseTLSWholeHello library handshake = .error .outOfRange ↔
      TruncatedHello (handshake ++ more) := by
  rcases matched_iff_shape checked with ⟨second, third, fourth, rest, rfl, complete⟩
  have faults : parseTLSWholeHello library (1 :: second :: third :: fourth :: rest) =
      .error .outOfRange ↔
        parseTLSClientHelloBody library (rest.take (helloBytes second third fourth)) =
          .error .outOfRange := by
    rw [parseTLSWholeHello_eq library complete, bind_eq_error_iff]
    constructor
    · rintro (fault | ⟨_ | info, parsed, impossible⟩)
      · exact fault
      · cases impossible
      · cases impossible
    · exact .inl
  rw [faults, parseTLSClientHelloBody_fault_iff]
  simp only [cons_append, truncatedHello_cons_iff, true_and]
  constructor
  · rintro ⟨minor, random, equal, accepted, exactly⟩
    have size : helloBytes second third fourth = 34 := by
      have lengths := congrArg List.length equal
      simp only [length_take, length_cons, exactly] at lengths
      omega
    refine ⟨size, minor, random ++ (rest.drop 34 ++ more), ?_, accepted, ?_⟩
    · have whole := take_append_drop 34 rest
      rw [← size, equal, size] at whole
      calc
        rest ++ more = 3 :: minor :: random ++ rest.drop 34 ++ more := by rw [whole]
        _ = 3 :: minor :: (random ++ (rest.drop 34 ++ more)) := by simp
    · simp only [length_append]
      omega
  · rintro ⟨size, minor, random, equal, accepted, enough⟩
    rw [size] at complete ⊢
    refine ⟨minor, random.take 32, ?_, accepted, ?_⟩
    · rw [← take_append_of_le_length complete, equal]
      simp
    · simp only [length_take]
      omega

/-- A handshake record has type 22, an accepted version and between 1 and 2^14 bytes. -/
def recordView : List UInt8 → RecordView
  | kind :: major :: minor :: high :: low :: _ =>
    if kind = 22 ∧ (major = 3 ∧ minor ≤ 4) ∧
        256 * high.toNat + low.toNat ≠ 0 ∧ 256 * high.toNat + low.toNat ≤ 2 ^ 14 then
      .record (256 * high.toNat + low.toNat)
    else
      .malformed
  | _ => .short

theorem length_of_recordView (view : recordView data = .record length) :
    5 ≤ data.length ∧ 0 < length := by
  match data, view with
  | kind :: major :: minor :: high :: low :: rest, view =>
    simp only [recordView] at view
    split_ifs at view with wellFormed
    cases view
    simp only [length_cons]
    omega

theorem recordView_append (enough : 5 ≤ data.length) (more : List UInt8) :
    recordView (data ++ more) = recordView data := by
  match data, enough with
  | kind :: major :: minor :: high :: low :: rest, _ => rfl

theorem recordView_short_iff : recordView data = .short ↔ data.length < 5 := by
  match data with
  | [] | [_] | [_, _] | [_, _, _] | [_, _, _, _] => simp [recordView]
  | kind :: major :: minor :: high :: low :: rest =>
    simp only [recordView, length_cons]
    split_ifs <;> simp

def handshakeOf (data : List UInt8) : List UInt8 :=
  match _view : recordView data with
  | .record length => (data.drop 5).take length ++ handshakeOf (data.drop (5 + length))
  | .malformed => []
  | .short => []
termination_by data.length
decreasing_by
  have sizes := length_of_recordView _view
  simp only [length_drop]
  omega

theorem handshakeOf_eq (data : List UInt8) :
    handshakeOf data =
      match recordView data with
      | .record length => (data.drop 5).take length ++ handshakeOf (data.drop (5 + length))
      | .malformed => []
      | .short => [] := by
  rw [handshakeOf]
  split <;> simp only [*]

theorem handshakeOf_short (short : data.length < 5) : handshakeOf data = [] := by
  rw [handshakeOf_eq, recordView_short_iff.mpr short]

theorem handshakeOf_malformed (view : recordView data = .malformed) : handshakeOf data = [] := by
  rw [handshakeOf_eq, view]

theorem exists_five (enough : 5 ≤ data.length) :
    ∃ kind major minor high low rest, data = kind :: major :: minor :: high :: low :: rest := by
  match data, enough with
  | kind :: major :: minor :: high :: low :: rest, _ =>
    exact ⟨kind, major, minor, high, low, rest, rfl⟩

theorem fragment_read {start : ℕ} (inside : start ≤ data.length) (length : ℕ) :
    window data start (min (start + length) data.length) = .ok ((data.drop start).take length) := by
  rw [window_eq_ok (by omega) (by omega), drop_take, ok.injEq, take_eq_take_iff,
    length_drop]
  omega

def recordStep (data handshake : List UInt8) (recordOffset length : ℕ) : Checked TlsParse := do
  let joined := handshake ++ ((data.drop recordOffset).drop 5).take length
  match ← checkTLSClientHelloHeader joined with
  | .mismatch => return .mismatch
  | .matched => parseTLSWholeHello library joined
  | .needMore =>
    if data.length < recordOffset + 5 + length then
      return .needMore (← tlsClientHelloNeedBytes joined handshake.length (recordOffset + 5)
        (recordOffset + 5 + length))
    else
      parseTLSRecords library data joined (recordOffset + 5 + length)

theorem parseTLSRecords_eq (data handshake : List UInt8) (recordOffset : ℕ) :
    parseTLSRecords library data handshake recordOffset =
      match recordView (data.drop recordOffset) with
      | .short => .ok (.needMore (recordOffset + 5))
      | .malformed => .ok .mismatch
      | .record length => recordStep library data handshake recordOffset length := by
  have five : tlsRecordHeaderBytes = 5 := rfl
  by_cases short : data.length < recordOffset + tlsRecordHeaderBytes
  · have view : recordView (data.drop recordOffset) = .short := by
      rw [recordView_short_iff, length_drop]
      omega
    rw [view, parseTLSRecords, if_pos short]
    rfl
  · have enough : 5 ≤ (data.drop recordOffset).length := by
      simp only [length_drop]
      omega
    rcases exists_five enough with ⟨kind, major, minor, high, low, rest, dropped⟩
    have header : window data recordOffset (recordOffset + tlsRecordHeaderBytes) =
        .ok [kind, major, minor, high, low] := by
      rw [window_eq_ok (by omega) (by omega), drop_take, dropped]
      simp [tlsRecordHeaderBytes]
    have version : (window [kind, major, minor, high, low] 1 3 >>= beUint16) =
        .ok (256 * major.toNat + minor.toNat) := by
      simp [window, beUint16, index]
    have size : (window [kind, major, minor, high, low] 3 5 >>= beUint16) =
        .ok (256 * high.toNat + low.toNat) := by
      simp [window, beUint16, index]
    rw [parseTLSRecords, if_neg short, header, dropped]
    have bounded : 256 * high.toNat + low.toNat ≠ 0 ∧ 256 * high.toNat + low.toNat ≤ 2 ^ 14 ↔
        ¬(256 * high.toNat + low.toNat = 0 ∨
          tlsPlaintextMaxBytes < 256 * high.toNat + low.toNat) := by
      simp only [tlsPlaintextMaxBytes]
      omega
    simp only [ok_bind, index_cons_zero, recordView, bounded, ← validTLSRecordVersion_iff]
    by_cases isHandshake : kind = 22
    · subst isHandshake
      rw [if_neg (not_not.mpr rfl), ← bind_assoc, version]
      simp only [ok_bind, true_and]
      by_cases accepted : validTLSRecordVersion (256 * major.toNat + minor.toNat) = true
      · rw [if_neg (not_not.mpr accepted), ← bind_assoc, size]
        simp only [ok_bind, accepted, true_and]
        by_cases bad : 256 * high.toNat + low.toNat = 0 ∨
            tlsPlaintextMaxBytes < 256 * high.toNat + low.toNat
        · rw [if_pos bad, if_neg (not_not.mpr bad)]
          rfl
        · rw [if_neg bad, if_pos bad, fragment_read (by omega)]
          have arrived (stop : ℕ) : (min stop data.length < stop) = (data.length < stop) :=
            propext (by omega)
          simp only [ok_bind, arrived, five, ← drop_drop]
          rfl
      · simp [accepted]
    · simp [isHandshake]

theorem tlsNeededHandshakeBytes_steady
    (checked : checkTLSClientHelloHeader handshake = .ok .needMore) :
    ∃ needed, handshake.length < needed ∧
      ∀ more, handshake.length + more.length < needed →
        checkTLSClientHelloHeader (handshake ++ more) = .ok .needMore ∧
        tlsNeededHandshakeBytes (handshake ++ more) = .ok needed := by
  rcases lt_or_ge handshake.length 4 with short | enough
  · rcases handshake with _ | ⟨first, rest⟩
    · refine ⟨1, Nat.one_pos, ?_⟩
      intro more few
      have nothing : more = [] := by
        simpa using few
      rw [nothing]
      exact ⟨rfl, rfl⟩
    · refine ⟨4, short, ?_⟩
      intro more few
      have stillShort : (first :: rest ++ more).length < 4 := by
        simpa only [length_append] using few
      rw [checkTLSClientHelloHeader_short short] at checked
      rw [checkTLSClientHelloHeader_short stillShort]
      refine ⟨by simpa using checked, ?_⟩
      have present : ¬(first :: rest ++ more).length < 1 := by simp
      simp only [tlsNeededHandshakeBytes, if_neg present]
      exact if_pos stillShort
  · rcases exists_four enough with ⟨first, second, third, fourth, rest, rfl⟩
    rw [checkTLSClientHelloHeader_four, ok.injEq] at checked
    by_cases wrong : first ≠ 1 ∨ helloBytes second third fourth = 0
    · simp [if_pos wrong] at checked
    rw [if_neg wrong] at checked
    by_cases incomplete : rest.length < helloBytes second third fourth
    · refine ⟨4 + helloBytes second third fourth, by simp only [length_cons]; omega, ?_⟩
      intro more few
      simp only [length_cons] at few
      have stillIncomplete : (rest ++ more).length < helloBytes second third fourth := by
        simp only [length_append]
        omega
      simp only [cons_append, checkTLSClientHelloHeader_four, if_neg wrong,
        if_pos stillIncomplete, true_and]
      rw [tlsNeededHandshakeBytes, if_neg (by simp), if_neg (by simp [tlsHandshakeHeaderBytes]),
        ← bind_assoc, length_field_read]
      rfl
    · simp [if_neg incomplete] at checked

theorem parseTLSWholeHello_ne_needMore (handshake : List UInt8) (needBytes : ℕ) :
    parseTLSWholeHello library handshake ≠ .ok (.needMore needBytes) := by
  intro parsed
  simp only [parseTLSWholeHello, bind_eq_ok_iff] at parsed
  rcases parsed with ⟨_, _, _, _, _, _, _ | info, _, impossible⟩
  · cases impossible
  · cases impossible

theorem parseTLSWholeHello_append (checked : checkTLSClientHelloHeader handshake = .ok .matched)
    (more : List UInt8) :
    parseTLSWholeHello library (handshake ++ more) = parseTLSWholeHello library handshake := by
  rcases matched_iff_shape checked with ⟨second, third, fourth, rest, rfl, complete⟩
  have stillComplete : helloBytes second third fourth ≤ (rest ++ more).length := by
    simp only [length_append]
    omega
  rw [parseTLSWholeHello_eq library complete]
  simp only [cons_append]
  rw [parseTLSWholeHello_eq library stillComplete, take_append_of_le_length complete]

/-- What an outcome on `data` says about the outcomes on its continuations. -/
def Steady (parse : List UInt8 → Checked TlsParse) (data : List UInt8) : Checked TlsParse → Prop
  | .ok (.needMore needBytes) => data.length < needBytes ∧
      ∀ more, data.length + more.length < needBytes →
        parse (data ++ more) = .ok (.needMore needBytes)
  | outcome => ∀ more, parse (data ++ more) = outcome

theorem Steady.of_settled (settled : ∀ needBytes, outcome ≠ .ok (.needMore needBytes))
    (same : ∀ more, parse (data ++ more) = outcome) : Steady parse data outcome := by
  rcases outcome with fault | needBytes | _ | info
  · exact same
  · exact absurd rfl (settled needBytes)
  · exact same
  · exact same

theorem Steady.congr {other : List UInt8 → Checked TlsParse}
    (same : ∀ more, other (data ++ more) = parse (data ++ more))
    (steady : Steady parse data outcome) : Steady other data outcome := by
  rcases outcome with fault | needBytes | _ | info
  · exact fun more => (same more).trans (steady more)
  · exact ⟨steady.1, fun more few => (same more).trans (steady.2 more few)⟩
  · exact fun more => (same more).trans (steady more)
  · exact fun more => (same more).trans (steady more)

/-- The byte count of the next decision, from the handshake bytes that it needs. -/
def needBytesFor (needed carried fragmentStart fragmentEnd : ℕ) : ℕ :=
  if fragmentStart + (needed - carried) ≤ fragmentEnd then
    fragmentStart + (needed - carried)
  else
    fragmentEnd + 5

theorem tlsClientHelloNeedBytes_eq {joined : List UInt8} {needed carried : ℕ}
    (computed : tlsNeededHandshakeBytes joined = .ok needed) (missing : carried < needed)
    (fragmentStart fragmentEnd : ℕ) :
    tlsClientHelloNeedBytes joined carried fragmentStart fragmentEnd =
      .ok (needBytesFor needed carried fragmentStart fragmentEnd) := by
  have positive : 0 < needed - carried := by omega
  simp only [tlsClientHelloNeedBytes, computed, ok_bind, positive, true_and, needBytesFor]
  split_ifs <;> rfl

section

variable (inside : recordOffset ≤ data.length)
  (view : recordView (data.drop recordOffset) = .record length)

include inside view

theorem joined_append (handshake more : List UInt8) :
    handshake ++ (((data ++ more).drop recordOffset).drop 5).take length =
      handshake ++ ((data.drop recordOffset).drop 5).take length ++
        more.take (recordOffset + 5 + length - data.length) := by
  have header := (length_of_recordView view).1
  rw [drop_append_of_le_length inside, drop_append_of_le_length header,
    take_append, append_assoc, length_drop, length_drop]
  simp only [length_drop] at header
  congr 3
  omega

theorem parseTLSRecords_record (handshake more : List UInt8) :
    parseTLSRecords library (data ++ more) handshake recordOffset =
      recordStep library (data ++ more) handshake recordOffset length := by
  simp [parseTLSRecords_eq, drop_append_of_le_length inside,
    recordView_append (length_of_recordView view).1, view]

theorem recordStep_waits (incomplete : data.length < recordOffset + 5 + length)
    (checked : checkTLSClientHelloHeader
      (handshake ++ ((data.drop recordOffset).drop 5).take length) = .ok .needMore) :
    Steady (fun longer => parseTLSRecords library longer handshake recordOffset) data
      (recordStep library data handshake recordOffset length) := by
  have header := (length_of_recordView view).1
  rcases tlsNeededHandshakeBytes_steady checked with ⟨needed, missing, goesOn⟩
  have joinedLength : (handshake ++ ((data.drop recordOffset).drop 5).take length).length =
      handshake.length + (data.length - recordOffset - 5) := by
    simp only [length_append, length_take, length_drop]
    omega
  simp only [length_drop] at header
  have carried : handshake.length < needed := by omega
  have joinedEq := joined_append inside view handshake
  generalize countEq : needBytesFor needed handshake.length (recordOffset + 5)
    (recordOffset + 5 + length) = count
  have unfoldedCount := countEq
  unfold needBytesFor at unfoldedCount
  -- the record is still incomplete: the header test and the count do not change
  have waits (more : List UInt8) (few : data.length + more.length < count)
      (still : data.length + more.length < recordOffset + 5 + length) :
      recordStep library (data ++ more) handshake recordOffset length = .ok (.needMore count) := by
    have all : more.take (recordOffset + 5 + length - data.length) = more :=
      take_of_length_le (by omega)
    rcases goesOn more (by split_ifs at unfoldedCount <;> omega) with ⟨open_, computed⟩
    rw [← length_append] at still
    simp only [recordStep, joinedEq, all, open_, ok_bind, if_pos still,
      tlsClientHelloNeedBytes_eq computed carried, countEq, pure_eq_ok]
  have now : recordStep library data handshake recordOffset length = .ok (.needMore count) := by
    have first := waits [] (by split_ifs at unfoldedCount <;> simp only [length_nil] <;> omega)
      (by simpa using incomplete)
    simpa only [append_nil] using first
  rw [now]
  refine ⟨by split_ifs at unfoldedCount <;> omega, ?_⟩
  intro more few
  dsimp only
  rw [parseTLSRecords_record library inside view]
  by_cases still : data.length + more.length < recordOffset + 5 + length
  · exact waits more few still
  -- the record is complete but does not complete the header: the next one is asked for
  · have next : count = recordOffset + 5 + length + 5 := by
      split_ifs at unfoldedCount <;> omega
    have partLength : (more.take (recordOffset + 5 + length - data.length)).length =
        recordOffset + 5 + length - data.length := by
      rw [length_take]
      omega
    rcases goesOn (more.take (recordOffset + 5 + length - data.length))
      (by split_ifs at unfoldedCount <;> omega) with ⟨open_, _⟩
    have short : recordView ((data ++ more).drop (recordOffset + 5 + length)) = .short := by
      rw [recordView_short_iff, length_drop, length_append]
      omega
    rw [← length_append] at still
    simp only [recordStep, joinedEq, open_, ok_bind, if_neg still, parseTLSRecords_eq, short, next]

theorem recordStep_steady (continued : ∀ joined, recordOffset + 5 + length ≤ data.length →
      Steady (fun longer => parseTLSRecords library longer joined (recordOffset + 5 + length)) data
        (parseTLSRecords library data joined (recordOffset + 5 + length))) :
    Steady (fun longer => parseTLSRecords library longer handshake recordOffset) data
      (recordStep library data handshake recordOffset length) := by
  have joinedEq := joined_append inside view handshake
  have again (more : List UInt8) := parseTLSRecords_record library inside view handshake more
  rcases checkTLSClientHelloHeader_safe
    (handshake ++ ((data.drop recordOffset).drop 5).take length) with ⟨_ | _ | _, checked⟩
  · by_cases incomplete : data.length < recordOffset + 5 + length
    · exact recordStep_waits library inside view incomplete checked
    · have complete : recordOffset + 5 + length ≤ data.length := Nat.le_of_not_lt incomplete
      have nothing (more : List UInt8) :
          more.take (recordOffset + 5 + length - data.length) = [] := by
        rw [Nat.sub_eq_zero_of_le complete, take_zero]
      have stepped (more : List UInt8) :
          recordStep library (data ++ more) handshake recordOffset length =
            parseTLSRecords library (data ++ more)
              (handshake ++ ((data.drop recordOffset).drop 5).take length)
              (recordOffset + 5 + length) := by
        have arrived : ¬(data ++ more).length < recordOffset + 5 + length := by
          simp only [length_append]
          omega
        simp only [recordStep, joinedEq, nothing, append_nil, checked, ok_bind, if_neg arrived]
      have now := stepped []
      rw [append_nil] at now
      rw [now]
      exact (continued _ complete).congr fun more => (again more).trans (stepped more)
  · have stepped (more : List UInt8) :
        recordStep library (data ++ more) handshake recordOffset length =
          parseTLSWholeHello library
            (handshake ++ ((data.drop recordOffset).drop 5).take length) := by
      simp only [recordStep, joinedEq, ok_bind, checkTLSClientHelloHeader_settled checked (by simp)]
      exact parseTLSWholeHello_append library checked _
    have now := stepped []
    rw [append_nil] at now
    rw [now]
    exact Steady.of_settled (parseTLSWholeHello_ne_needMore library _)
      fun more => (again more).trans (stepped more)
  · have stepped (more : List UInt8) :
        recordStep library (data ++ more) handshake recordOffset length = .ok .mismatch := by
      simp only [recordStep, joinedEq, ok_bind,
        checkTLSClientHelloHeader_settled checked (by simp), pure_eq_ok]
    have now := stepped []
    rw [append_nil] at now
    rw [now]
    exact fun more => (again more).trans (stepped more)

end

theorem parseTLSRecords_steady (handshake : List UInt8) (inside : recordOffset ≤ data.length) :
    Steady (fun longer => parseTLSRecords library longer handshake recordOffset) data
      (parseTLSRecords library data handshake recordOffset) := by
  induction remaining : data.length - recordOffset using Nat.strong_induction_on
    generalizing handshake recordOffset with
  | _ remaining ih =>
    rw [parseTLSRecords_eq]
    match view : recordView (data.drop recordOffset) with
    | .short =>
      have short := recordView_short_iff.mp view
      simp only [length_drop] at short
      refine ⟨by omega, ?_⟩
      intro more few
      have stillShort : recordView ((data ++ more).drop recordOffset) = .short := by
        rw [recordView_short_iff, length_drop, length_append]
        omega
      simp [parseTLSRecords_eq, stillShort]
    | .malformed =>
      have long : 5 ≤ (data.drop recordOffset).length := by
        by_contra short
        rw [recordView_short_iff.mpr (by omega)] at view
        cases view
      intro more
      simp [parseTLSRecords_eq, drop_append_of_le_length inside, recordView_append long, view]
    | .record length =>
      apply recordStep_steady library inside view
      intro joined complete
      exact ih _ (by omega) joined complete rfl

theorem parseTLSClientHello_steady (data : List UInt8) :
    Steady (parseTLSClientHello library) data (parseTLSClientHello library data) :=
  parseTLSRecords_steady library [] (Nat.zero_le _)

theorem recordStep_fault_iff (view : recordView (data.drop recordOffset) = .record length)
    (continued : ∀ joined, checkTLSClientHelloHeader joined = .ok .needMore →
      recordOffset + 5 + length ≤ data.length →
      (parseTLSRecords library data joined (recordOffset + 5 + length) = .error .outOfRange ↔
        TruncatedHello (joined ++ handshakeOf (data.drop (recordOffset + 5 + length))))) :
    recordStep library data handshake recordOffset length = .error .outOfRange ↔
      TruncatedHello (handshake ++ handshakeOf (data.drop recordOffset)) := by
  have later : (data.drop recordOffset).drop (5 + length) =
      data.drop (recordOffset + 5 + length) := by
    rw [drop_drop, add_assoc]
  simp only [handshakeOf_eq (data.drop recordOffset), view]
  rw [later, ← append_assoc]
  unfold recordStep
  generalize handshake ++ ((data.drop recordOffset).drop 5).take length = joined
  rcases checkTLSClientHelloHeader_safe joined with ⟨_ | _ | _, checked⟩
  · simp only [checked, ok_bind]
    by_cases incomplete : data.length < recordOffset + 5 + length
    · rcases tlsNeededHandshakeBytes_steady checked with ⟨needed, missing, goesOn⟩
      have computed := (goesOn [] missing).2
      rw [append_nil] at computed
      rw [if_pos incomplete, handshakeOf_short (by simp; omega), append_nil]
      refine iff_of_false ?_ (not_truncated_of_needMore checked)
      simp only [tlsClientHelloNeedBytes, computed, ok_bind]
      split_ifs <;> simp
    · rw [if_neg incomplete]
      exact continued joined checked (Nat.le_of_not_lt incomplete)
  · simp only [checked, ok_bind]
    exact parseTLSWholeHello_fault_iff library checked _
  · simp only [checked, ok_bind]
    exact iff_of_false (by simp) (not_truncated_of_mismatch checked _)

theorem parseTLSRecords_fault_iff (inside : recordOffset ≤ data.length)
    (checked : checkTLSClientHelloHeader handshake = .ok .needMore) :
    parseTLSRecords library data handshake recordOffset = .error .outOfRange ↔
      TruncatedHello (handshake ++ handshakeOf (data.drop recordOffset)) := by
  have quiet := not_truncated_of_needMore checked
  induction remaining : data.length - recordOffset using Nat.strong_induction_on
    generalizing handshake recordOffset with
  | _ remaining ih =>
    rw [parseTLSRecords_eq]
    match view : recordView (data.drop recordOffset) with
    | .short | .malformed => simp [handshakeOf_eq, view, quiet]
    | .record length =>
      have sizes := length_of_recordView view
      apply recordStep_fault_iff library view
      intro joined openHeader complete
      exact ih _ (by omega) complete openHeader (not_truncated_of_needMore openHeader) rfl

theorem parseTLSClientHello_fault_iff (data : List UInt8) :
    parseTLSClientHello library data = .error .outOfRange ↔ TruncatedHello (handshakeOf data) :=
  parseTLSRecords_fault_iff library (Nat.zero_le _) rfl

theorem TruncatedHello.append (library : Library)
    (truncated : TruncatedHello (handshakeOf data)) (more : List UInt8) :
    TruncatedHello (handshakeOf (data ++ more)) := by
  have steady := parseTLSClientHello_steady library data
  rw [(parseTLSClientHello_fault_iff library data).mpr truncated] at steady
  exact (parseTLSClientHello_fault_iff library _).mp (steady more)

theorem matchClientHello_safe (config : NormalizedTlsConfig) (info : TlsClientHelloInfo) :
    Safe (matchClientHello config info) := by
  apply skip
  apply skip
  apply skip
  apply Safe.bind (config.hostname.matchValue_safe info.sniHostname)
  intro hostnameMatches read
  apply skip
  exact config.alpn.matchAny_safe info.alpnProtocols

end Gonnect.Sniffer
