import Gonnect.Sniffer.Classifier

/-!
# No classifier reads outside its buffer, except one

A protocol classifier never faults, whatever the bytes and the cuts of a stream are, unless
it is a TLS classifier and the stream carries a truncated ClientHello within its limit; then
it does fault, whatever the cuts are. A combination faults only through such a TLS
classifier inside it.
-/

namespace Gonnect.Sniffer

open Checked List Classifier

namespace Classifier

def run (library : Library) : Classifier → List (List UInt8) → Checked Classifier
  | classifier, [] => .ok classifier
  | classifier, chunk :: chunks => do
      let (next, _) ← classifier.feed library chunk
      run library next chunks

variable (children : List Classifier) (library : Library)

def newAnd : Classifier :=
  .and children (children.map fun _ => .needMore) .needMore

def newOr : Classifier :=
  .or children (children.map fun _ => .needMore) .needMore

def newNot (child : Classifier) : Classifier :=
  .not child .needMore

def newLimit (bound : ℕ) (child : Classifier) : Classifier :=
  .limit bound 0 child .needMore

variable {chunks : List (List UInt8)}

theorem run_safe :
    ∀ {classifier : Classifier}, classifier.Ready chunks.flatten →
      Safe (classifier.run library chunks) := by
  induction chunks with
  | nil =>
    intro classifier ready
    exact safe_ok _
  | cons chunk chunks ih =>
    intro classifier ready
    rcases feed_ready library classifier ready with ⟨next, state, fed, kept⟩
    simp only [run, fed, ok_bind]
    exact ih kept

theorem readyAll_fresh {rest : List UInt8} {children : List Classifier}
    (ready : ∀ child ∈ children, child.Ready rest) :
    ReadyAll rest children (children.map fun _ => .needMore) := by
  induction children with
  | nil => simp [ReadyAll]
  | cons child children ih =>
    refine ⟨fun _ => ready child (by simp), ?_⟩
    exact ih fun other isChild => ready other (by simp [isChild])

theorem run_tls_fault {config : NormalizedTlsConfig} :
    ∀ {memory : TlsMemory}, memory.Waiting config →
      TruncatedHello (handshakeOf
        ((memory.buf ++ chunks.flatten).take config.maxClientHelloBytes)) →
      (leaf (.tls config memory) .needMore).run library chunks = .error .outOfRange := by
  induction chunks with
  | nil =>
    intro memory waiting truncated
    simp only [flatten_nil, append_nil, take_of_length_le waiting.fits] at truncated
    exact absurd truncated waiting.quiet
  | cons chunk chunks ih =>
    intro memory waiting truncated
    rw [flatten_cons] at truncated
    rcases tlsFeed_truncated library waiting truncated with fault | ⟨next, fed, waits, buffered⟩
    · simp [run, feed, Leaf.feed, fault]
    · simp only [run, feed, Leaf.feed, fed, ok_bind, pure_eq_ok, ne_eq, not_true_eq_false, if_false]
      apply ih waits
      rwa [buffered, append_assoc]

end Classifier

inductive Protocol where
  | literal (want : List UInt8)
  | ssh
  | http2
  | amqp
  | mqtt
  | postgresql
  | mongoDB
  | redis
  | proxyProtocolV1
  | proxyProtocolV2
  | proxyProtocol
  | socks4
  | socks5
  | socks
  | dnsOverTCP (maxMessageBytes : ℕ)
  | rtsp
  | sip
  | stun
  | rdp
  | smb
  | ldap
  | cassandra
  | memcachedBinary
  | memcachedASCII
  | memcached
  | http (config : HttpConfig)
  | tls (config : NormalizedTlsConfig)

variable {stream : List UInt8}

namespace Protocol

def newLiteral (text : String) : Classifier :=
  .leaf (.literal (bytes text) 0) .needMore

def newPrefix (kind : PrefixKind) : Classifier :=
  .leaf (.protocolPrefix kind []) .needMore

def newHeader (kind : HeaderKind) : Classifier :=
  .leaf (.header kind []) .needMore

def newLine (kind : LineKind) : Classifier :=
  .leaf (.line kind []) .needMore

def newSocks5 : Classifier :=
  .leaf (.socks5 ⟨[], 2⟩) .needMore

def classifier : Protocol → Classifier
  | .literal want => .leaf (.literal want 0) .needMore
  | .ssh => newLiteral "SSH-"
  | .http2 => newLiteral "PRI * HTTP/2.0\r\n\r\nSM\r\n\r\n"
  | .amqp => .newOr [newLiteral "AMQP\x00\x00\x09\x01", newLiteral "AMQP\x00\x01\x00\x00",
      newLiteral "AMQP\x03\x01\x00\x00"]
  | .mqtt => newPrefix .mqtt
  | .postgresql => newHeader .postgresql
  | .mongoDB => newHeader .mongoDB
  | .redis => newPrefix .redis
  | .proxyProtocolV1 => newLiteral "PROXY "
  | .proxyProtocolV2 => newHeader .proxyProtocolV2
  | .proxyProtocol => .newOr [newLiteral "PROXY ", newHeader .proxyProtocolV2]
  | .socks4 => newHeader .socks4
  | .socks5 => newSocks5
  | .socks => .newOr [newHeader .socks4, newSocks5]
  | .dnsOverTCP maxMessageBytes => .leaf (.dnsOverTCP maxMessageBytes []) .needMore
  | .rtsp => newLine .rtsp
  | .sip => newLine .sip
  | .stun => newPrefix .stun
  | .rdp => newPrefix .rdp
  | .smb => newPrefix .smb
  | .ldap => newPrefix .ldap
  | .cassandra => newPrefix .cassandra
  | .memcachedBinary => newPrefix .memcachedBinary
  | .memcachedASCII => newLine .memcachedASCII
  | .memcached => .newOr [newPrefix .memcachedBinary, newLine .memcachedASCII]
  | .http config => .leaf (.http config {}) .needMore
  | .tls config => .leaf (.tls config {}) .needMore

/-- The stream carries a truncated ClientHello within the limit of a TLS classifier. -/
def TruncatedBy (stream : List UInt8) : Protocol → Prop
  | .tls config => TruncatedHello (handshakeOf (stream.take config.maxClientHelloBytes))
  | _ => False

theorem ready_literal (want rest : List UInt8) :
    (leaf (.literal want 0) .needMore).Ready rest := by
  intro _
  by_cases empty : want.length = 0
  · exact .inl empty
  · exact .inr (pos_of_ne_zero empty)

theorem ready_newOr {rest : List UInt8} {children : List Classifier}
    (ready : ∀ child ∈ children, child.Ready rest) : (newOr children).Ready rest :=
  fun _ => readyAll_fresh ready

theorem classifier_ready {protocol : Protocol} (whole : ¬protocol.TruncatedBy stream) :
    protocol.classifier.Ready stream := by
  cases protocol with
  | literal want => exact ready_literal want stream
  | ssh | http2 | proxyProtocolV1 => exact ready_literal _ stream
  | amqp | proxyProtocol | socks | memcached =>
    apply ready_newOr
    simp only [mem_cons, not_mem_nil, or_false, forall_eq_or_imp, forall_eq]
    and_intros <;> first | exact ready_literal _ stream | exact fun _ => trivial
  | dnsOverTCP maxMessageBytes => exact fun _ => Nat.add_pos_left Nat.two_pos _
  | tls config => exact fun _ => ⟨TlsMemory.waiting_initial config, whole⟩
  | _ => exact fun _ => trivial

end Protocol

inductive Assembled (Allowed : Protocol → Prop) : Classifier → Prop where
  | protocol (protocol : Protocol) (allowed : Allowed protocol) :
      Assembled Allowed protocol.classifier
  | and (children : List Classifier) (parts : ∀ child ∈ children, Assembled Allowed child) :
      Assembled Allowed (.newAnd children)
  | or (children : List Classifier) (parts : ∀ child ∈ children, Assembled Allowed child) :
      Assembled Allowed (.newOr children)
  | not (child : Classifier) (part : Assembled Allowed child) : Assembled Allowed (.newNot child)
  | limit (bound : ℕ) (child : Classifier) (part : Assembled Allowed child) :
      Assembled Allowed (.newLimit bound child)
  | sized (child : Classifier) (part : Assembled Allowed child) : Assembled Allowed (.sized child)

variable {classifier : Classifier}

theorem Assembled.mono {Allowed Other : Protocol → Prop}
    (wider : ∀ protocol, Allowed protocol → Other protocol)
    (assembled : Assembled Allowed classifier) : Assembled Other classifier := by
  induction assembled with
  | protocol protocol allowed => exact .protocol protocol (wider protocol allowed)
  | and children parts hypothesis => exact .and children hypothesis
  | or children parts hypothesis => exact .or children hypothesis
  | not child part hypothesis => exact .not child hypothesis
  | limit bound child part hypothesis => exact .limit bound child hypothesis
  | sized child part hypothesis => exact .sized child hypothesis

open Protocol

theorem Assembled.ready {classifier : Classifier}
    (assembled : Assembled (fun protocol => ¬protocol.TruncatedBy stream) classifier) :
    classifier.Ready stream := by
  induction assembled with
  | protocol protocol whole => exact classifier_ready whole
  | and children parts ready | or children parts ready =>
    exact fun _ => readyAll_fresh ready
  | not child part ready => exact fun _ => ready
  | limit bound child part ready => exact fun _ => ⟨Nat.zero_le _, ready⟩
  | sized child part ready => exact ready

theorem Assembled.ready_nil (assembled : Assembled (fun _ => True) classifier) :
    classifier.Ready [] := by
  refine (assembled.mono fun protocol _ truncated => ?_).ready
  cases protocol with
  | tls config =>
    exact (TlsMemory.waiting_initial config).quiet (by simpa [TruncatedBy] using truncated)
  | _ => exact truncated

/--
A protocol classifier gets through a stream without a read outside its buffers
exactly when the stream does not carry a truncated ClientHello for it. A
combination gets through when this holds for every protocol in it.
-/
theorem classifiers_read_inside_iff (library : Library) (chunks : List (List UInt8)) :
    (∀ protocol : Protocol, Safe (protocol.classifier.run library chunks) ↔
      ¬protocol.TruncatedBy chunks.flatten) ∧
    ∀ classifier,
      Assembled (fun protocol => ¬protocol.TruncatedBy chunks.flatten) classifier →
        Safe (classifier.run library chunks) := by
  refine ⟨?_, fun classifier assembled => run_safe library assembled.ready⟩
  intro protocol
  constructor
  · intro safe truncated
    cases protocol with
    | tls config =>
      have fault := run_tls_fault library (TlsMemory.waiting_initial config) truncated
      rw [classifier, fault] at safe
      exact not_safe_error _ safe
    | _ => exact truncated
  · intro whole
    exact run_safe library (classifier_ready whole)

def plainLibrary : Library where
  parseURL _ := none
  toLower text := text

def shortHello : List UInt8 :=
  [22, 3, 1, 0, 38] ++ [1, 0, 0, 34] ++ [3, 3] ++ replicate 32 0

theorem tls_or_ssh_assembled : Assembled (fun protocol => ¬protocol.TruncatedBy (bytes "SSH-2.0"))
    (newOr [(tls (normalizeTLSConfig plainLibrary {})).classifier,
      ssh.classifier]) := by
  apply Assembled.or
  simp only [mem_cons, not_mem_nil, or_false, forall_eq_or_imp, forall_eq]
  refine ⟨Assembled.protocol _ ?_, Assembled.protocol _ (fun truncated => truncated)⟩
  intro truncated
  have long := TruncatedHello.length_le truncated
  rw [handshakeOf_malformed (by decide)] at long
  simp at long

/-- An opening that is no TLS record is read by a TLS alternative without a fault. -/
theorem tls_or_ssh_reads_inside :
    Safe ((newOr [(tls (normalizeTLSConfig plainLibrary {})).classifier,
      ssh.classifier]).run plainLibrary [bytes "SS", bytes "H-2.0"]) := by
  apply (classifiers_read_inside_iff plainLibrary [bytes "SS", bytes "H-2.0"]).2
  exact tls_or_ssh_assembled

/-- The default TLS classifier faults on the record `shortHello`, fed in one call. -/
theorem short_hello_faults :
    ¬Safe ((tls (normalizeTLSConfig plainLibrary {})).classifier.run plainLibrary
      [shortHello]) := by
  decide +kernel

end Gonnect.Sniffer
