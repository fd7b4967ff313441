import Gonnect.Sniffer.Protocols

/-!
# Feeding in one chunk or in several

When the front of a chunk leaves the result open, the classifier after it reports on the
back what the classifier before it reports on both (`resume`).

The byte loops satisfy it whatever their step does: only the test at the end of a chunk has
to agree with what the step does with one byte more. The classifier of DNS over TCP buffers
whole chunks instead, and looks at the buffer as far as its limit goes.
-/

namespace Gonnect.Sniffer

open Checked List Except

variable {Memory : Type} {maxMessageBytes : ℕ} {buf : List UInt8} {state : State}

theorem feedLoop_resume {step : Memory → UInt8 → Checked (Memory × State)} {finish : Memory → State}
    (agrees : ∀ memory byte, finish memory ≠ .needMore →
      ∃ next, step memory byte = .ok (next, finish memory)) (back : List UInt8) :
    ∀ front memory next state, feedLoop step finish memory front = .ok (next, state) →
      reported (feedLoop step finish memory (front ++ back)) =
        resume state (reported (feedLoop step finish next back)) := by
  intro front
  induction front with
  | nil =>
    intro memory next state fed
    rcases fed with ⟨rfl, rfl⟩
    rw [nil_append]
    by_cases more : finish memory = .needMore
    · rw [more, resume_needMore]
    · rw [resume_final more]
      rcases back with _ | ⟨byte, rest⟩
      · rfl
      · rcases agrees memory byte more with ⟨next, stepped⟩
        simp [feedLoop, stepped, more]
  | cons byte rest ih =>
    intro memory next state fed
    rcases of_bind fed with ⟨⟨middle, reached⟩, stepped, continued⟩
    by_cases more : reached = .needMore
    · subst more
      have same : feedLoop step finish memory (byte :: rest ++ back) =
          feedLoop step finish middle (rest ++ back) := by
        simp [feedLoop, stepped]
      rw [same]
      exact ih middle next state continued
    · simp only [if_neg more, pure_eq_ok, ok.injEq, Prod.mk.injEq] at continued
      rcases continued with ⟨rfl, rfl⟩
      rw [resume_final more]
      simp [feedLoop, stepped, more]

theorem boundedFinish_final {maxBytes : ℕ} (final : boundedFinish maxBytes buf ≠ .needMore) :
    buf.length = maxBytes ∧ boundedFinish maxBytes buf = .mismatch := by
  by_cases full : buf.length = maxBytes
  · exact ⟨full, if_pos full⟩
  · exact absurd (if_neg full) final

/-- What a look at the buffered bytes reports: the length field, then the whole message. -/
def dnsOverTCPLook (maxMessageBytes : ℕ) (data : List UInt8) : Checked State :=
  if data.length < 2 then
    .ok .needMore
  else if wordAt data 0 < dnsHeaderBytes ∨ maxMessageBytes < wordAt data 0 then
    .ok .mismatch
  else if data.length < 2 + wordAt data 0 then
    .ok .needMore
  else
    (validDNSOverTCPQuery ((data.take (2 + wordAt data 0)).drop 2)).map State.ofBool

theorem dnsOverTCPFeed_eq (room : buf.length < 2 + maxMessageBytes) (chunk : List UInt8) :
    dnsOverTCPFeed maxMessageBytes buf chunk =
      (dnsOverTCPLook maxMessageBytes ((buf ++ chunk).take (2 + maxMessageBytes))).map
        fun state => ((buf ++ chunk).take (2 + maxMessageBytes), state) := by
  have two : dnsOverTCPLengthBytes = 2 := rfl
  have notFull : ¬(chunk ≠ [] ∧ buf.length = 2 + maxMessageBytes) := by omega
  simp only [dnsOverTCPFeed, two, appendBounded_eq room.le, if_neg notFull, ok_bind]
  generalize (buf ++ chunk).take (2 + maxMessageBytes) = data
  by_cases short : data.length < 2
  · simp [dnsOverTCPLook, short, Except.map]
  have lengthRead : (window data 0 2 >>= beUint16) = .ok (wordAt data 0) :=
    window_uint16 rfl (by omega)
  rw [if_neg short, ← bind_assoc, lengthRead]
  simp only [dnsOverTCPLook, if_neg short, ok_bind]
  by_cases bad : wordAt data 0 < dnsHeaderBytes ∨ maxMessageBytes < wordAt data 0
  · simp [bad, Except.map]
  by_cases incomplete : data.length < 2 + wordAt data 0
  · simp [bad, incomplete, Except.map]
  rcases validDNSOverTCPQuery_safe ((data.take (2 + wordAt data 0)).drop 2) with ⟨valid, looked⟩
  rw [if_neg bad, if_neg bad, if_neg incomplete, if_neg incomplete,
    window_eq_ok (by omega) (by omega), ok_bind, looked]
  rfl

theorem dnsOverTCPLook_needMore {data : List UInt8}
    (looked : dnsOverTCPLook maxMessageBytes data = .ok .needMore) :
    data.length < 2 + maxMessageBytes := by
  unfold dnsOverTCPLook at looked
  split_ifs at looked with short bad incomplete
  · omega
  · cases looked
  · omega
  · rcases validDNSOverTCPQuery_safe ((data.take (2 + wordAt data 0)).drop 2) with ⟨valid, isValid⟩
    rw [isValid] at looked
    cases valid <;> cases looked

theorem dnsOverTCPLook_settled {data : List UInt8}
    (looked : dnsOverTCPLook maxMessageBytes data = .ok state) (final : state ≠ .needMore)
    (more : List UInt8) : dnsOverTCPLook maxMessageBytes (data ++ more) = .ok state := by
  by_cases short : data.length < 2
  · simp only [dnsOverTCPLook, if_pos short, ok.injEq] at looked
    exact absurd looked.symm final
  have word : wordAt (data ++ more) 0 = wordAt data 0 := by
    rw [← wordAt_take (Nat.lt_of_not_le (by omega : ¬data.length ≤ 1)), take_left]
  have stillLong : ¬(data ++ more).length < 2 := by
    simp only [length_append]
    omega
  simp only [dnsOverTCPLook, if_neg short, if_neg stillLong, word] at looked ⊢
  by_cases bad : wordAt data 0 < dnsHeaderBytes ∨ maxMessageBytes < wordAt data 0
  · rwa [if_pos bad] at looked ⊢
  rw [if_neg bad] at looked ⊢
  by_cases incomplete : data.length < 2 + wordAt data 0
  · simp only [if_pos incomplete, ok.injEq] at looked
    exact absurd looked.symm final
  have stillComplete : ¬(data ++ more).length < 2 + wordAt data 0 := by
    simp only [length_append]
    omega
  rw [if_neg incomplete] at looked
  rwa [if_neg stillComplete, take_append_of_le_length (by omega)]

theorem dnsOverTCPFeed_resume {front next : List UInt8} (room : buf.length < 2 + maxMessageBytes)
    (fed : dnsOverTCPFeed maxMessageBytes buf front = .ok (next, state)) (back : List UInt8) :
    reported (dnsOverTCPFeed maxMessageBytes buf (front ++ back)) =
      resume state (reported (dnsOverTCPFeed maxMessageBytes next back)) ∧
    (state = .needMore → next.length < 2 + maxMessageBytes) := by
  rw [dnsOverTCPFeed_eq room, ← append_assoc]
  rw [dnsOverTCPFeed_eq room] at fed
  generalize buf ++ front = data at fed
  rcases looked : dnsOverTCPLook maxMessageBytes (data.take (2 + maxMessageBytes)) with _ | outcome
  · rw [looked] at fed
    cases fed
  rw [looked] at fed
  simp only [Except.map, Except.ok.injEq, Prod.mk.injEq] at fed
  rcases fed with ⟨rfl, rfl⟩
  by_cases more : outcome = .needMore
  · subst more
    have notFull := dnsOverTCPLook_needMore looked
    have whole : data.take (2 + maxMessageBytes) = data := by
      apply take_of_length_le
      simp only [length_take] at notFull
      omega
    rw [whole] at notFull ⊢
    exact ⟨by rw [dnsOverTCPFeed_eq notFull, resume_needMore], fun _ => notFull⟩
  · refine ⟨?_, fun isOpen => absurd isOpen more⟩
    rw [resume_final more, take_append, dnsOverTCPLook_settled looked more]
    rfl

end Gonnect.Sniffer
