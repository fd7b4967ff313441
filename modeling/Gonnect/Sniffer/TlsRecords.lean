import Gonnect.Sniffer.BufferSafety

/-!
# ClientHello messages in several records

A handshake message may be cut into records anywhere, also inside its own header. The parser
joins the fragments again, and the classifier sees the message as it would in one record. It
faults on a message that ends behind the random value, in one record or in several.
-/

namespace Gonnect.Sniffer

open Checked List

structure HandshakeRecord where
  minor : UInt8
  fragment : List UInt8
  accepted : minor ≤ 4
  nonempty : fragment ≠ []
  small : fragment.length ≤ tlsPlaintextMaxBytes

def HandshakeRecord.encode (record : HandshakeRecord) : List UInt8 :=
  22 :: 3 :: record.minor :: UInt8.ofNat (record.fragment.length / 256) ::
    UInt8.ofNat record.fragment.length :: record.fragment

def IsClientHello (hello : List UInt8) : Prop :=
  ∃ second third fourth body, hello = 1 :: second :: third :: fourth :: body ∧
    body.length = helloBytes second third fourth

variable (library : Library) (config : NormalizedTlsConfig)

def tlsFeedAll : TlsMemory → List (List UInt8) → Checked (TlsMemory × State)
  | memory, [] => .ok (memory, .needMore)
  | memory, chunk :: chunks => do
    let (next, state) ← tlsFeed library config memory chunk
    if state = .needMore then tlsFeedAll next chunks else .ok (next, state)

def tlsOutcome (memory : TlsMemory) (chunks : List (List UInt8)) :
    Checked (State × TlsClientHelloInfo) :=
  (tlsFeedAll library config memory chunks).map fun result => (result.2, result.1.info)

def tlsConclusion : TlsParse → Checked (State × TlsClientHelloInfo)
  | .matched info => do
    let accepted ← matchClientHello config info
    return (State.ofBool accepted, info)
  | _ => .ok (.mismatch, {})

def parseWhole (hello : List UInt8) : Checked TlsParse := do
  match ← checkTLSClientHelloHeader hello with
  | .matched => parseTLSWholeHello library hello
  | _ => .ok .mismatch

theorem HandshakeRecord.length_encode (record : HandshakeRecord) :
    record.encode.length = 5 + record.fragment.length := by
  simp only [encode, length_cons]
  omega

theorem HandshakeRecord.recordView_encode (record : HandshakeRecord) (more : List UInt8) :
    recordView (record.encode ++ more) = .record record.fragment.length := by
  have size : 256 * (record.fragment.length / 256 % 256) + record.fragment.length % 256 =
      record.fragment.length := by
    have small := record.small
    simp only [tlsPlaintextMaxBytes] at small
    omega
  have some : record.fragment.length ≠ 0 := by simpa using record.nonempty
  have small := record.small
  simp [recordView, encode, size, some, record.accepted, tlsPlaintextMaxBytes] at small ⊢
  exact small

theorem parseTLSRecords_encode (records : List HandshakeRecord) (front carried : List UInt8)
    (isOpen : checkTLSClientHelloHeader carried = .ok .needMore)
    (final : checkTLSClientHelloHeader (carried ++ records.flatMap (·.fragment)) ≠ .ok .needMore) :
    parseTLSRecords library (front ++ records.flatMap (·.encode)) carried front.length =
      parseWhole library (carried ++ records.flatMap (·.fragment)) := by
  induction records generalizing front carried with
  | nil => simp [isOpen] at final
  | cons record records ih =>
    simp only [flatMap_cons] at final ⊢
    generalize frames : records.flatMap (·.encode) = rest at ih ⊢
    have size := record.length_encode
    have joined : ((record.encode ++ rest).drop 5).take record.fragment.length =
        record.fragment := by
      simp [HandshakeRecord.encode]
    rw [parseTLSRecords_eq, drop_left, record.recordView_encode]
    simp only [recordStep, drop_left, joined]
    rw [← append_assoc carried] at final ⊢
    rcases checkTLSClientHelloHeader_safe (carried ++ record.fragment) with ⟨state, checked⟩
    cases state with
    | needMore =>
      have arrived : ¬(front ++ (record.encode ++ rest)).length <
          front.length + 5 + record.fragment.length := by
        simp only [length_append, size]
        omega
      have next := ih (front ++ record.encode) _ checked final
      rw [← next]
      simp only [checked, ok_bind, if_neg arrived]
      rw [append_assoc, length_append, size, add_assoc]
    | mismatch | matched =>
      have kept := checkTLSClientHelloHeader_settled checked (by simp)
        (records.flatMap (·.fragment))
      simp only [parseWhole, checked, kept, ok_bind]
      first | rfl | rw [parseTLSWholeHello_append library checked]

theorem IsClientHello.final {hello : List UInt8} (isHello : IsClientHello hello) :
    checkTLSClientHelloHeader hello ≠ .ok .needMore := by
  rcases isHello with ⟨second, third, fourth, body, rfl, length⟩
  rw [checkTLSClientHelloHeader_four, if_neg (by omega : ¬body.length < _)]
  split_ifs <;> simp

theorem parseWhole_settled (hello : List UInt8) (needBytes : ℕ) :
    parseWhole library hello ≠ .ok (.needMore needBytes) := by
  rcases checkTLSClientHelloHeader_safe hello with ⟨state, checked⟩
  simp only [parseWhole, checked, ok_bind]
  cases state with
  | matched => exact parseTLSWholeHello_ne_needMore library hello needBytes
  | mismatch | needMore => simp

theorem tlsFeedAll_eq (memory : TlsMemory) (chunks : List (List UInt8)) {data : List UInt8}
    (settled : ∀ needBytes, parseTLSClientHello library data ≠ .ok (.needMore needBytes))
    (fits : data.length ≤ config.maxClientHelloBytes) (rest : memory.buf ++ chunks.flatten = data)
    (few : memory.buf.length < memory.needBytes) (asked : memory.needBytes ≤ data.length)
    (fresh : memory.info = {}) :
    tlsOutcome library config memory chunks =
      parseTLSClientHello library data >>= tlsConclusion config := by
  induction chunks generalizing memory with
  | nil =>
    rw [flatten_nil, append_nil] at rest
    rw [rest] at few
    omega
  | cons chunk chunks ih =>
    rw [flatten_cons, ← append_assoc] at rest
    have shorter := congrArg List.length rest
    rw [length_append] at shorter
    have short : memory.Short config := ⟨by omega, few⟩
    have kept : (memory.buf ++ chunk).take config.maxClientHelloBytes = memory.buf ++ chunk :=
      take_of_length_le (by omega)
    rw [tlsOutcome, tlsFeedAll, tlsFeed_eq library short (by omega), kept, tlsLook]
    generalize memory.buf ++ chunk = buf at rest shorter
    have steady := parseTLSClientHello_steady library buf
    have unfilled : ∀ needBytes, buf.length < needBytes → needBytes ≤ data.length →
        buf.length ≠ config.maxClientHelloBytes := by
      omega
    by_cases few : buf.length < memory.needBytes
    · simp only [if_pos few, if_neg (unfilled _ few asked)]
      exact ih { memory with buf := buf } rest few asked fresh
    simp only [if_neg few]
    rcases parsed : parseTLSClientHello library buf with fault | needBytes | _ | info
    · rw [parsed] at steady
      rw [← rest, steady chunks.flatten]
      rfl
    · rw [parsed] at steady
      have asked : needBytes ≤ data.length := by
        by_contra later
        have still := steady.2 chunks.flatten (by omega)
        rw [rest] at still
        exact settled needBytes still
      have inside : ¬(config.maxClientHelloBytes < needBytes ∨
          buf.length = config.maxClientHelloBytes) := by
        have := unfilled _ steady.1 asked
        omega
      simp only [ok_bind, if_neg inside]
      exact ih { memory with buf := buf, needBytes := needBytes } rest steady.1 asked fresh
    · rw [parsed] at steady
      rw [← rest, steady chunks.flatten]
      simp [tlsConclusion, Except.map, fresh]
    · rw [parsed] at steady
      rw [← rest, steady chunks.flatten]
      rcases matchClientHello_safe config info with ⟨accepted, matched⟩
      simp only [ok_bind, tlsConclusion, matched]
      cases accepted <;> rfl

theorem encode_length (records : List HandshakeRecord) :
    (records.flatMap (·.encode)).length =
      5 * records.length + (records.flatMap (·.fragment)).length := by
  induction records with
  | nil => rfl
  | cons record records ih =>
    rw [flatMap_cons, length_append, ih, record.length_encode, flatMap_cons,
      length_append, length_cons]
    omega

theorem tlsFeedAll_records {records : List HandshakeRecord} {chunks : List (List UInt8)}
    (isHello : IsClientHello (records.flatMap (·.fragment)))
    (fits : (records.flatMap (·.encode)).length ≤ config.maxClientHelloBytes)
    (fed : chunks.flatten = records.flatMap (·.encode)) :
    tlsOutcome library config {} chunks =
      parseWhole library (records.flatMap (·.fragment)) >>= tlsConclusion config := by
  have parsed := parseTLSRecords_encode library records [] [] rfl isHello.final
  have some : 5 ≤ (records.flatMap (·.encode)).length := by
    rcases records with _ | ⟨record, records⟩
    · rcases isHello with ⟨_, _, _, _, equal, _⟩
      cases equal
    · rw [encode_length, length_cons]
      omega
  rw [nil_append, nil_append] at parsed
  rw [← parsed]
  refine tlsFeedAll_eq library config {} chunks ?_ fits fed (by decide) some rfl
  intro needBytes
  rw [parseTLSClientHello]
  exact parsed ▸ parseWhole_settled library _ needBytes

theorem parseWhole_fault_iff {hello : List UInt8} :
    parseWhole library hello = .error .outOfRange ↔ TruncatedHello hello := by
  rcases checkTLSClientHelloHeader_safe hello with ⟨state, checked⟩
  simp only [parseWhole, checked, ok_bind]
  cases state with
  | matched => simpa using parseTLSWholeHello_fault_iff library checked []
  | mismatch => simpa using not_truncated_of_mismatch checked []
  | needMore => simpa using not_truncated_of_needMore checked

/-- A ClientHello that is not truncated leads to a verdict. -/
theorem conclusion_exists {hello : List UInt8} (whole : ¬TruncatedHello hello) :
    ∃ verdict info, verdict ≠ .needMore ∧
      (parseWhole library hello >>= tlsConclusion config) = .ok (verdict, info) := by
  cases parsed : parseWhole library hello with
  | error fault =>
    cases fault
    exact absurd ((parseWhole_fault_iff library).mp parsed) whole
  | ok parse =>
    cases parse with
    | matched info =>
      rcases matchClientHello_safe config info with ⟨accepted, matched⟩
      refine ⟨State.ofBool accepted, info, ?_, by simp [tlsConclusion, matched]⟩
      cases accepted <;> simp [State.ofBool]
    | mismatch | needMore => exact ⟨.mismatch, {}, by simp, rfl⟩

/-- For every way of cutting a ClientHello into records and the stream into chunks, the
classifier comes to the verdict and the information that it comes to for one record, exactly if
the ClientHello does not end behind its random value. -/
theorem tls_records_alike_iff (whole : HandshakeRecord) (records : List HandshakeRecord)
    (isHello : IsClientHello whole.fragment) (cut : records.flatMap (·.fragment) = whole.fragment)
    (fits : (records.flatMap (·.encode)).length ≤ config.maxClientHelloBytes)
    (chunks single : List (List UInt8)) (fed : chunks.flatten = records.flatMap (·.encode))
    (fedSingle : single.flatten = whole.encode) :
    (∃ verdict info, verdict ≠ .needMore ∧
      tlsOutcome library config {} chunks = .ok (verdict, info) ∧
        tlsOutcome library config {} single = .ok (verdict, info)) ↔
      ¬TruncatedHello whole.fragment := by
  have alone : [whole].flatMap (·.fragment) = whole.fragment := by simp
  have many := tlsFeedAll_records library config (cut ▸ isHello) fits fed
  have one := @tlsFeedAll_records library config [whole] single (alone ▸ isHello)
    (by
      rcases records with _ | ⟨record, records⟩
      · exact absurd cut.symm whole.nonempty
      · rw [encode_length, cut] at fits
        rw [encode_length, alone]
        simp only [length_cons, length_nil] at fits ⊢
        omega)
    (by simpa using fedSingle)
  rw [alone] at one
  rw [many, one, cut]
  constructor
  · rintro ⟨verdict, info, _, concluded, _⟩ truncated
    rw [(parseWhole_fault_iff library).mpr truncated] at concluded
    cases concluded
  · intro notTruncated
    rcases conclusion_exists library config notTruncated with ⟨verdict, info, settled, concluded⟩
    exact ⟨verdict, info, settled, concluded, concluded⟩

/-- A version, a random value, a cipher suite and a compression method. -/
def suiteBody : List UInt8 :=
  [3, 3] ++ replicate 32 7 ++ [0, 0, 2, 0x13, 1, 1, 0]

/-- The message is cut inside its header and comes in three chunks. -/
theorem tls_records_alike_suite : ∃ verdict info, verdict ≠ .needMore ∧
    tlsOutcome plainLibrary (normalizeTLSConfig plainLibrary {}) {}
      [[22, 3, 1, 0], [2, 1, 0, 22, 3], [1, 0, 43, 0, 41] ++ suiteBody] = .ok (verdict, info) ∧
    tlsOutcome plainLibrary (normalizeTLSConfig plainLibrary {}) {}
      [[22, 3, 1, 0, 45, 1, 0, 0, 41] ++ suiteBody] = .ok (verdict, info) := by
  refine (tls_records_alike_iff plainLibrary (normalizeTLSConfig plainLibrary {})
    ⟨1, [1, 0, 0, 41] ++ suiteBody, by decide, by simp, by decide⟩
    [⟨1, [1, 0], by decide, by simp, by decide⟩,
      ⟨1, [0, 41] ++ suiteBody, by decide, by simp, by decide⟩]
    ⟨0, 0, 41, suiteBody, rfl, rfl⟩ rfl (by decide) _ _ (by decide) (by decide)).mpr ?_
  rintro ⟨_, _, same, _⟩
  cases same

/-- The ClientHello that ends behind its random value faults, in one record and in two. -/
theorem truncated_records_fault :
    ¬Safe (tlsOutcome plainLibrary (normalizeTLSConfig plainLibrary {}) {} [shortHello]) ∧
      ¬Safe (tlsOutcome plainLibrary (normalizeTLSConfig plainLibrary {}) {}
        [[22, 3, 1, 0, 2, 1, 0, 22, 3, 1, 0, 36, 0, 34, 3, 3] ++ replicate 32 0]) := by
  decide +kernel

end Gonnect.Sniffer
