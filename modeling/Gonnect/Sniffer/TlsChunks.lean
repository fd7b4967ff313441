import Gonnect.Sniffer.TlsExact

/-!
# The TLS classifier fed in one chunk or in several

The classifier parses its buffer again only when it holds the number of bytes that the last
attempt asked for. Because the parser is `Steady`, a call that skips it returns what it
would have returned, and so does a call that gives up because the number is beyond the
limit. So the cuts of the stream make no difference, also to a fault.
-/

namespace Gonnect.Sniffer

open Checked List Except

variable (library : Library) (config : NormalizedTlsConfig)

structure TlsMemory.Short (memory : TlsMemory) : Prop where
  fits : memory.buf.length ≤ config.maxClientHelloBytes
  few : memory.buf.length < memory.needBytes

theorem TlsMemory.short_initial : ({} : TlsMemory).Short config :=
  ⟨Nat.zero_le _, by decide⟩

def tlsVerdict (size : ℕ) : TlsParse → Checked State
  | .needMore needBytes =>
    .ok (if config.maxClientHelloBytes < needBytes ∨ size = config.maxClientHelloBytes then
      .mismatch else .needMore)
  | .mismatch => .ok .mismatch
  | .matched info => (matchClientHello config info).map State.ofBool

theorem tlsLook_reported (memory : TlsMemory) (data : List UInt8) :
    reported (tlsLook library config { memory with buf := data }) =
      if data.length < memory.needBytes then
        .ok (if data.length = config.maxClientHelloBytes then .mismatch else .needMore)
      else
        parseTLSClientHello library data >>= tlsVerdict config data.length := by
  unfold tlsLook
  by_cases few : data.length < memory.needBytes
  · simp only [if_pos few]
    split_ifs <;> rfl
  simp only [if_neg few]
  rcases parseTLSClientHello library data with fault | needBytes | _ | info
  · rfl
  · simp only [ok_bind, tlsVerdict]
    split_ifs <;> rfl
  · rfl
  · rcases matchClientHello_safe config info with ⟨accepted, matched⟩
    simp only [ok_bind, tlsVerdict, matched]
    rfl

structure TlsMemory.Waiting (memory : TlsMemory) : Prop extends memory.Short config where
  patient : ∀ more, TruncatedHello (handshakeOf (memory.buf ++ more)) →
    memory.needBytes ≤ memory.buf.length + more.length

theorem TlsMemory.waiting_initial : ({} : TlsMemory).Waiting config where
  toShort := TlsMemory.short_initial config
  patient := by
    intro more truncated
    by_contra tooFew
    have long := truncated.length_le
    simp only [nil_append, length_nil, zero_add, tlsRecordHeaderBytes] at long tooFew
    rw [handshakeOf_short (by omega)] at long
    simp at long

variable {data : List UInt8} {state : State} {config} {memory next : TlsMemory}

theorem tlsLook_needMore
    (looked : tlsLook library config { memory with buf := data } = .ok (next, .needMore)) :
    data.length ≠ config.maxClientHelloBytes ∧
      ((data.length < memory.needBytes ∧ next = { memory with buf := data }) ∨
        ∃ needBytes ≤ config.maxClientHelloBytes, memory.needBytes ≤ data.length ∧
          parseTLSClientHello library data = .ok (.needMore needBytes) ∧
          next = { memory with buf := data, needBytes := needBytes }) := by
  unfold tlsLook at looked
  by_cases few : data.length < memory.needBytes
  · simp only [if_pos few] at looked
    by_cases full : data.length = config.maxClientHelloBytes
    · simp [if_pos full] at looked
    · simp only [if_neg full, pure_eq_ok, ok.injEq, Prod.mk.injEq, and_true] at looked
      exact ⟨full, .inl ⟨few, looked.symm⟩⟩
  simp only [if_neg few] at looked
  rcases parsed : parseTLSClientHello library data with fault | needBytes | _ | info
  · simp [parsed] at looked
  · simp only [parsed, ok_bind] at looked
    by_cases beyond : config.maxClientHelloBytes < needBytes ∨
        data.length = config.maxClientHelloBytes
    · simp [if_pos beyond] at looked
    · simp only [if_neg beyond, pure_eq_ok, ok.injEq, Prod.mk.injEq, and_true] at looked
      rw [not_or] at beyond
      exact ⟨beyond.2, .inr ⟨needBytes, Nat.le_of_not_lt beyond.1, Nat.le_of_not_lt few, rfl,
        looked.symm⟩⟩
  · simp [parsed] at looked
  · rcases matchClientHello_safe config info with ⟨accepted, matched⟩
    cases accepted <;> simp [parsed, matched, State.ofBool] at looked

theorem tlsLook_settled
    (looked : reported (tlsLook library config { memory with buf := data }) = .ok state)
    (final : state ≠ .needMore) {more : List UInt8}
    (fits : data.length + more.length ≤ config.maxClientHelloBytes) :
    reported (tlsLook library config { memory with buf := data ++ more }) = .ok state := by
  by_cases full : data.length = config.maxClientHelloBytes
  · have nothing : more = [] := eq_nil_of_length_eq_zero (by omega)
    rwa [nothing, append_nil]
  rw [tlsLook_reported] at looked ⊢
  rw [length_append]
  by_cases few : data.length < memory.needBytes
  · rw [if_pos few, if_neg full, ok.injEq] at looked
    exact absurd looked.symm final
  rw [if_neg few] at looked
  rw [if_neg (by omega)]
  have steady := parseTLSClientHello_steady library data
  rcases parsed : parseTLSClientHello library data with fault | needBytes | _ | info
  · rw [parsed] at looked
    cases looked
  · rw [parsed] at looked steady
    simp only [ok_bind, tlsVerdict, full, or_false, ok.injEq] at looked
    by_cases beyond : config.maxClientHelloBytes < needBytes
    · rw [steady.2 more (by omega)]
      simp only [ok_bind, tlsVerdict, beyond, true_or, if_true] at looked ⊢
      rw [looked]
    · rw [if_neg beyond] at looked
      exact absurd looked.symm final
  · rw [parsed] at looked steady
    rw [steady more]
    exact looked
  · rw [parsed] at looked steady
    rw [steady more]
    exact looked

theorem tlsLook_waits (fits : data.length ≤ config.maxClientHelloBytes)
    (looked : tlsLook library config { memory with buf := data } = .ok (next, .needMore)) :
    next.buf = data ∧ next.Short config ∧ data.length ≠ config.maxClientHelloBytes ∧
      ∀ more, data.length + more.length ≤ config.maxClientHelloBytes →
        reported (tlsLook library config { memory with buf := data ++ more }) =
          reported (tlsLook library config { next with buf := data ++ more }) := by
  rcases tlsLook_needMore library looked with
    ⟨notFull, ⟨few, rfl⟩ | ⟨needBytes, reach, enough, parsed, rfl⟩⟩
  · exact ⟨rfl, ⟨fits, few⟩, notFull, fun more _ => rfl⟩
  have steady := parseTLSClientHello_steady library data
  rw [parsed] at steady
  refine ⟨rfl, ⟨fits, steady.1⟩, notFull, ?_⟩
  intro more moreFits
  rw [tlsLook_reported, tlsLook_reported, if_neg (by simp only [length_append]; omega)]
  by_cases still : (data ++ more).length < needBytes
  · rw [if_pos still]
    rw [length_append] at still ⊢
    rw [steady.2 more still]
    have inside : ¬config.maxClientHelloBytes < needBytes := by omega
    simp [ok_bind, tlsVerdict, inside]
  · rw [if_neg still]

theorem tlsFeed_full (short : memory.Short config)
    (full : memory.buf.length = config.maxClientHelloBytes) (chunk : List UInt8) :
    reported (tlsFeed library config memory chunk) = .ok .mismatch := by
  unfold tlsFeed
  rw [appendBounded_eq short.fits]
  simp only [ok_bind, full, and_true]
  by_cases empty : chunk = []
  · have unchanged : (memory.buf ++ chunk).take config.maxClientHelloBytes = memory.buf := by
      rw [empty, append_nil, take_of_length_le short.fits]
    simp only [empty, ne_eq, not_true_eq_false, if_false]
    rw [empty] at unchanged
    rw [unchanged, tlsLook_reported, if_pos short.few, if_pos full]
  · simp only [ne_eq, empty, not_false_eq_true, if_true]
    rfl

theorem tlsFeed_eq (short : memory.Short config)
    (room : memory.buf.length ≠ config.maxClientHelloBytes) (chunk : List UInt8) :
    tlsFeed library config memory chunk = tlsLook library config
      { memory with buf := (memory.buf ++ chunk).take config.maxClientHelloBytes } := by
  have notFull : ¬(chunk ≠ [] ∧ memory.buf.length = config.maxClientHelloBytes) :=
    fun both => room both.2
  simp [tlsFeed, appendBounded_eq short.fits, if_neg notFull, ok_bind]

theorem tlsFeed_resume {front : List UInt8} (short : memory.Short config)
    (fed : tlsFeed library config memory front = .ok (next, state)) (back : List UInt8) :
    reported (tlsFeed library config memory (front ++ back)) =
      resume state (reported (tlsFeed library config next back)) ∧
    (state = .needMore → next.Short config) := by
  by_cases full : memory.buf.length = config.maxClientHelloBytes
  · have mismatched := tlsFeed_full library short full front
    rw [fed, reported_ok, ok.injEq] at mismatched
    subst mismatched
    exact ⟨by rw [tlsFeed_full library short full, resume_final (by simp)], by simp⟩
  rw [tlsFeed_eq library short full] at fed ⊢
  rw [← append_assoc]
  generalize memory.buf ++ front = data at fed
  have within : ((data.take config.maxClientHelloBytes).length) ≤ config.maxClientHelloBytes := by
    simp
  have prolonged : (data ++ back).take config.maxClientHelloBytes =
      data.take config.maxClientHelloBytes ++
        back.take (config.maxClientHelloBytes - data.length) := take_append
  have prolongedFits : (data.take config.maxClientHelloBytes).length +
      (back.take (config.maxClientHelloBytes - data.length)).length ≤
        config.maxClientHelloBytes := by
    simp only [length_take]
    omega
  by_cases more : state = .needMore
  · subst more
    rcases tlsLook_waits library within fed with ⟨buffered, nextShort, notFull, same⟩
    have whole : data.take config.maxClientHelloBytes = data := by
      apply take_of_length_le
      simp only [length_take] at notFull
      omega
    refine ⟨?_, fun _ => nextShort⟩
    rw [prolonged, same _ prolongedFits, ← prolonged, resume_needMore,
      tlsFeed_eq library nextShort (by rw [buffered]; exact notFull), buffered, whole]
  · refine ⟨?_, fun isOpen => absurd isOpen more⟩
    rw [resume_final more, prolonged]
    exact tlsLook_settled library (by rw [fed, reported_ok]) more prolongedFits

section

variable (waiting : memory.Waiting config)

include waiting

theorem TlsMemory.Waiting.quiet : ¬TruncatedHello (handshakeOf memory.buf) := by
  intro truncated
  have bound := waiting.patient [] (by simpa using truncated)
  have few := waiting.few
  simp only [length_nil] at bound
  omega

theorem tlsFeed_safe_iff (chunk : List UInt8) :
    Safe (tlsFeed library config memory chunk) ↔
      ¬TruncatedHello (handshakeOf ((memory.buf ++ chunk).take config.maxClientHelloBytes)) := by
  rw [← safe_reported]
  by_cases full : memory.buf.length = config.maxClientHelloBytes
  · rw [tlsFeed_full library waiting.toShort full, ← full, take_left]
    exact iff_of_true (safe_ok _) waiting.quiet
  rw [tlsFeed_eq library waiting.toShort full, tlsLook_reported]
  by_cases few : ((memory.buf ++ chunk).take config.maxClientHelloBytes).length < memory.needBytes
  · rw [if_pos few]
    refine iff_of_true (safe_ok _) fun truncated => ?_
    rw [take_append, take_of_length_le waiting.fits] at truncated few
    have bound := waiting.patient _ truncated
    rw [length_append] at few
    omega
  · rw [if_neg few, ← parseTLSClientHello_fault_iff library]
    rcases parseTLSClientHello library _ with ⟨⟨⟩⟩ | needBytes | _ | info
    · simp
    · simp [tlsVerdict]
    · simp [tlsVerdict]
    · rcases matchClientHello_safe config info with ⟨accepted, matched⟩
      simp [tlsVerdict, matched, Except.map]

theorem tlsFeed_waits {chunk : List UInt8}
    (fed : tlsFeed library config memory chunk = .ok (next, .needMore)) :
    next.Waiting config ∧ next.buf = memory.buf ++ chunk ∧
      (memory.buf ++ chunk).length < config.maxClientHelloBytes := by
  have room : memory.buf.length ≠ config.maxClientHelloBytes := by
    intro full
    have mismatched := tlsFeed_full library waiting.toShort full chunk
    rw [fed] at mismatched
    cases mismatched
  rw [tlsFeed_eq library waiting.toShort room] at fed
  rcases tlsLook_waits library (by simp) fed with ⟨_, short, notFull, _⟩
  have below : (memory.buf ++ chunk).length < config.maxClientHelloBytes := by
    simp only [length_take] at notFull
    omega
  rw [take_of_length_le below.le] at fed
  rcases tlsLook_needMore library fed with ⟨_, ⟨_, rfl⟩ | ⟨needBytes, _, _, parsed, rfl⟩⟩
  · refine ⟨⟨short, fun more truncated => ?_⟩, rfl, below⟩
    have bound := waiting.patient (chunk ++ more) (by rwa [← append_assoc])
    simpa [add_assoc] using bound
  · refine ⟨⟨short, fun more truncated => ?_⟩, rfl, below⟩
    have steady := parseTLSClientHello_steady library (memory.buf ++ chunk)
    rw [parsed] at steady
    by_contra few
    have again := steady.2 more (Nat.lt_of_not_le few)
    rw [(parseTLSClientHello_fault_iff library _).mpr truncated] at again
    cases again

theorem tlsFeed_truncated {chunk rest : List UInt8}
    (truncated : TruncatedHello
      (handshakeOf ((memory.buf ++ (chunk ++ rest)).take config.maxClientHelloBytes))) :
    tlsFeed library config memory chunk = .error .outOfRange ∨
      ∃ next, tlsFeed library config memory chunk = .ok (next, .needMore) ∧
        next.Waiting config ∧ next.buf = memory.buf ++ chunk := by
  cases fed : tlsFeed library config memory chunk with
  | error fault => exact .inl rfl
  | ok result =>
    rcases result with ⟨next, state⟩
    have isOpen : state = .needMore := by
      by_contra final
      have same := (tlsFeed_resume library waiting.toShort fed rest).1
      rw [resume_final final] at same
      refine (tlsFeed_safe_iff library waiting (chunk ++ rest)).mp ?_ truncated
      rw [← safe_reported, same]
      exact safe_ok _
    subst isOpen
    rcases tlsFeed_waits library waiting fed with ⟨waits, buffered, _⟩
    exact .inr ⟨next, rfl, waits, buffered⟩

end

end Gonnect.Sniffer
