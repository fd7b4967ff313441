import Gonnect.Sniffer.ChunkFree

/-!
# The classifiers of request headers

Four classifiers test every beginning of a header of fixed size, and a validator the full header.
The tests of a beginning are implied by the validator, except for two bytes of SMB headers.
-/

namespace Gonnect.Sniffer

open Checked List PrefixKind

theorem feedLoop_matched_iff {size : ℕ} {matchPrefix : List UInt8 → Checked State}
    {buf : List UInt8} (fits : buf.length ≤ size) (rest : List UInt8) :
    reported (feedLoop (protocolPrefixStep size matchPrefix) (boundedFinish size) buf rest) =
        .ok .matched ↔
      ∃ k < rest.length, buf.length + k < size ∧
        matchPrefix (buf ++ rest.take (k + 1)) = .ok .matched ∧
        ∀ j < k, matchPrefix (buf ++ rest.take (j + 1)) = .ok .needMore := by
  induction rest generalizing buf with
  | nil =>
    simp only [feedLoop, boundedFinish, reported_ok]
    split_ifs <;> simp
  | cons byte rest ih =>
    by_cases full : buf.length = size
    · simp [feedLoop, protocolPrefixStep, full]
    · have room : buf.length < size := by omega
      have later := @ih (buf ++ [byte]) (by simpa using Nat.succ_le_of_lt room)
      simp only [append_assoc, singleton_append, length_append, length_singleton] at later
      simp only [feedLoop, protocolPrefixStep, if_neg full, length_cons, Nat.exists_lt_succ_left,
        Nat.forall_lt_succ_left, take_succ_cons, take_zero]
      cases looked : matchPrefix (buf ++ [byte]) with
      | error fault => simp
      | ok state => cases state <;> simp [later, room, add_assoc, add_comm 1]

inductive RequestHeader where
  | rdp
  | smb
  | cassandra
  | memcachedBinary

namespace RequestHeader

def kind : RequestHeader → PrefixKind
  | rdp => .rdp
  | smb => .smb
  | cassandra => .cassandra
  | memcachedBinary => .memcachedBinary

def valid : RequestHeader → List UInt8 → Checked Bool
  | rdp => validRDPConnectionRequestHeader
  | smb => validSMBOverTCPRequestHeader
  | cassandra => validCassandraRequestHeader
  | memcachedBinary => validMemcachedBinaryHeader

def StartsLikeSMB (header : List UInt8) : Prop :=
  byteAt header 0 = 0 ∧ byteAt header 1 &&& 0xfe = 0

variable {request : RequestHeader} {header data : List UInt8} {n : ℕ}

theorem ofBool_eq_matched {accepted : Bool} : State.ofBool accepted = .matched ↔ accepted := by
  cases accepted <;> simp [State.ofBool]

theorem of_matched (matched : request.kind.matchPrefix data = .ok .matched) :
    request.kind.maxBytes ≤ data.length ∧ request.valid data = .ok true ∧
      (request = smb → StartsLikeSMB data) := by
  cases request <;> simp [kind, valid, matchPrefix, maxBytes,
    matchRDPConnectionRequestPrefix, matchSMBOverTCPRequestPrefix, bind_eq_ok_iff, ite_eq_iff,
    matchCassandraRequestHeaderPrefix, matchMemcachedBinaryHeaderPrefix,
    ofBool_eq_matched] at matched ⊢
  case smb =>
    rcases matched with ⟨_, first, second, _, long, accepted⟩
    have present : 24 ≤ data.length := long
    simp (disch := omega) [whenPresent, index_eq_byteAt] at first second
    exact ⟨long, accepted, first, second (by omega)⟩
  case cassandra =>
    rcases matched with ⟨_, _, _, _, _, _, long, accepted⟩
    exact ⟨long, accepted⟩
  all_goals simp [matched]

theorem of_valid (full : header.length = request.kind.maxBytes)
    (accepted : request.valid header = .ok true) (starts : request = smb → StartsLikeSMB header)
    (started : 0 < n) (within : n ≤ request.kind.maxBytes) :
    request.kind.matchPrefix (header.take n) =
      .ok (if n < request.kind.maxBytes then .needMore else .matched) := by
  have present : (header.take n).length = n := by simp; omega
  have reads {i : ℕ} (inside : i < n) : index (header.take n) i = .ok (byteAt header i) := by
    rw [index_take inside, index_eq_byteAt (by omega)]
  have windows {low high : ℕ} (inside : high ≤ n) :
      window (header.take n) low high = window header low high :=
    window_take inside (by omega)
  have tail : (if n < request.kind.maxBytes then .ok .needMore else do
      .ok (State.ofBool (← request.valid (header.take n))) : Checked State) =
      .ok (if n < request.kind.maxBytes then .needMore else .matched) := by
    rcases within.lt_or_eq with short | rfl
    · rw [if_pos short, if_pos short]
    · simp [take_of_length_le full.le, accepted, State.ofBool]
  cases request <;> simp only [kind, valid, matchPrefix, maxBytes,
    rdpConnectionRequestMinBytes, smbOverTCPRequestMinBytes, cassandraRequestHeaderBytes,
    memcachedBinaryHeaderBytes] at *
  case rdp =>
    simp (disch := omega) [validRDPConnectionRequestHeader, full, rdpConnectionRequestMinBytes,
      index_eq_byteAt, bind_eq_ok_iff, ite_eq_iff] at accepted
    rcases accepted with
      ⟨⟨version, reserved, code⟩, part, found, length, read, ⟨long, cotp, _⟩, _⟩
    have passes : rdpBadPrefix (header.take n) = .ok false := by
      rw [rdpBadPrefix, present]
      split <;> simp (disch := omega) [UInt8.le_iff_toNat_le, rdpConnectionRequestMinBytes,
        not_lt.mpr long, *]
    simp [matchRDPConnectionRequestPrefix, passes, started.ne', present,
      rdpConnectionRequestMinBytes]
    exact tail
  case smb =>
    simp (disch := omega) [validSMBOverTCPRequestHeader, full, smbOverTCPRequestMinBytes,
      bind_eq_ok_iff, ite_eq_iff] at accepted
    rcases accepted with ⟨_, _, _, _, _, _, name, found, same⟩
    have known : ¬(name ≠ bytes "\xffSMB" ∧ name ≠ bytes "\xfeSMB") := by
      rcases same with ⟨same, _⟩ | ⟨_, same, _⟩ <;> simp [same]
    rcases starts trivial with ⟨first, second⟩
    by_cases two : 2 ≤ n <;> by_cases eight : 8 ≤ n <;>
      simp (disch := omega) [matchSMBOverTCPRequestPrefix, whenPresent, present, reads, windows,
        found, two, eight, started.ne', first, second, known, smbOverTCPRequestMinBytes] <;>
      exact tail
  case cassandra =>
    simp (disch := omega) [validCassandraRequestHeader, full, cassandraRequestHeaderBytes,
      index_eq_byteAt, bind_eq_ok_iff, ite_eq_iff] at accepted
    rcases accepted with ⟨⟨version, flags⟩, _, _, _, _, _, opcode⟩
    have known : ¬(byteAt header 4 ≠ 1 ∧ byteAt header 4 ≠ 5) := by
      split at opcode <;> simp_all
    by_cases two : 2 ≤ n <;> by_cases five : 5 ≤ n <;>
      simp (disch := omega) [matchCassandraRequestHeaderPrefix, whenPresent, present, reads, two,
        five, version, flags, started.ne', known, cassandraRequestHeaderBytes] <;>
      exact tail
  case memcachedBinary =>
    simp (disch := omega) [validMemcachedBinaryHeader, full, memcachedBinaryHeaderBytes,
      index_eq_byteAt, ite_eq_iff] at accepted
    rcases accepted with ⟨⟨magic, dataType⟩, rest⟩
    have known : memcachedBinaryRequestOpcodeRules (byteAt header 1) ≠ none := by
      split at rest <;> simp_all
    by_cases two : 2 ≤ n <;> by_cases six : 6 ≤ n <;>
      simp (disch := omega) [matchMemcachedBinaryHeaderPrefix, whenPresent, present, reads, two,
        six, magic, dataType, started.ne', known, memcachedBinaryHeaderBytes] <;>
      exact tail

/-- The classifier reads the header only, and matches what the validator accepts, unless an SMB
header fails the tests that the validator does not repeat. -/
theorem matched_iff_valid (request : RequestHeader) (library : Library) (header extra : List UInt8)
    (full : header.length = request.kind.maxBytes) :
    (reported ((Leaf.protocolPrefix request.kind []).feed library (header ++ extra)) =
        .ok .matched ↔ request.valid header = .ok true) ↔
      (request = smb → request.valid header = .ok true → StartsLikeSMB header) := by
  have matched : reported ((Leaf.protocolPrefix request.kind []).feed library (header ++ extra)) =
      .ok .matched ↔
      request.valid header = .ok true ∧ (request = smb → StartsLikeSMB header) := by
    refine (reported_wrap _ fun buf _ => Leaf.protocolPrefix request.kind buf).congr_left.trans
      ((feedLoop_matched_iff (Nat.zero_le _) _).trans ⟨?_, ?_⟩)
    · rintro ⟨k, _, within, answered, _⟩
      rcases of_matched answered with ⟨long, accepted⟩
      rw [length_nil, zero_add] at within
      rw [nil_append, take_append_of_le_length (by omega)] at long accepted
      rwa [take_of_length_le (by rw [length_take] at long; omega)] at accepted
    · rintro ⟨accepted, starts⟩
      have positive : 0 < request.kind.maxBytes := by cases request <;> decide
      refine ⟨request.kind.maxBytes - 1, by simp; omega, by simp; omega, ?_, fun j inside => ?_⟩
      · have last := of_valid full accepted starts positive le_rfl
        simpa [Nat.sub_add_cancel positive, full, take_of_length_le full.le] using last
      · have more := of_valid full accepted starts (Nat.succ_pos j) (by omega)
        rw [nil_append, take_append_of_le_length (by omega), more, if_pos (by omega)]
  rw [matched]
  tauto

theorem matched_iff_valid_options :
    let header : List UInt8 := [4, 0, 0, 0, 5, 0, 0, 0, 0]
    reported ((Leaf.protocolPrefix .cassandra []).feed plainLibrary (header ++ [7])) =
      .ok .matched ↔ validCassandraRequestHeader header = .ok true :=
  (matched_iff_valid cassandra plainLibrary _ [7] rfl).mpr nofun

/-- A message type that is not zero is accepted by the validator only. -/
theorem smb_type_one_rejected :
    let header : List UInt8 := [1, 0, 0, 32, 0xff, 0x53, 0x4d, 0x42, 0x72] ++ replicate 15 0
    validSMBOverTCPRequestHeader header = .ok true ∧
      reported ((Leaf.protocolPrefix .smb []).feed plainLibrary header) = .ok .mismatch := by
  decide +kernel

end RequestHeader

end Gonnect.Sniffer
