import Gonnect.Sniffer.Feed

/-!
# The protocol classifiers

The matchers of the protocols with a small binary or textual opening: MQTT,
PostgreSQL, MongoDB, Redis, PROXY version 2, SOCKS and DNS over TCP. Each reads
its buffer through checked accesses. A matcher returns the state for the bytes
so far, a header test returns a Boolean for the full header.
-/

namespace Gonnect.Sniffer

open Checked Safe Finset

def mqttConnectMaxPrefixBytes : ℕ := 17

/-- The bytes of the length field from `offset` on: value, last offset, complete, valid. -/
def parseMQTTRemainingLength (data : List UInt8) (offset value multiplier : ℕ) :
    Checked (ℕ × ℕ × Bool × Bool) :=
  if offset < data.length then do
    let encoded ← index data offset
    let value := value + (encoded &&& 0x7f).toNat * multiplier
    if encoded &&& 0x80 = 0 then
      return (value, offset, true, true)
    if offset = 4 then
      return (0, 0, false, false)
    parseMQTTRemainingLength data (offset + 1) value (multiplier * 128)
  else
    return (0, 0, false, true)
termination_by data.length - offset

def validMQTTConnectFlags (flags : UInt8) : Bool :=
  if flags &&& 0x01 ≠ 0 then false
  else if flags &&& 0x40 ≠ 0 ∧ flags &&& 0x80 = 0 then false
  else
    let willFlag := flags &&& 0x04 ≠ 0
    let willQoS := (flags >>> 3) &&& 0x03
    let willRetain := flags &&& 0x20 ≠ 0
    if ¬willFlag ∧ (willQoS ≠ 0 ∨ willRetain) then false
    else willQoS ≠ 3

def matchMQTTConnectPrefix (data : List UInt8) : Checked State := do
  if data.length = 0 then
    return .needMore
  if (← index data 0) ≠ 0x10 then
    return .mismatch
  let (remainingLength, lengthBytes, complete, valid) ← parseMQTTRemainingLength data 1 0 1
  if ¬valid then
    return .mismatch
  if ¬complete then
    return .needMore
  if remainingLength < 10 then
    return .mismatch
  let variableHeaderOffset := 1 + lengthBytes
  if ¬protocolHasBytes data variableHeaderOffset 2 then
    return .needMore
  let nameLen ← beUint16 (← windowFrom data variableHeaderOffset)
  if nameLen ≠ 4 ∧ nameLen ≠ 6 then
    return .mismatch
  let minVariableHeaderBytes := 2 + nameLen + 1 + 1 + 2
  if remainingLength < minVariableHeaderBytes then
    return .mismatch
  let headerBytes := variableHeaderOffset + minVariableHeaderBytes
  if ¬protocolHasBytes data 0 headerBytes then
    return .needMore
  let nameOffset := variableHeaderOffset + 2
  let name ← window data nameOffset (nameOffset + nameLen)
  let level ← index data (nameOffset + nameLen)
  let flags ← index data (nameOffset + nameLen + 1)
  if ¬validMQTTConnectFlags flags then
    return .mismatch
  if name = bytes "MQIsdp" then
    return State.ofBool (level = 3 ∧ minVariableHeaderBytes + 2 ≤ remainingLength)
  if name = bytes "MQTT" then
    let minRemainingLength := minVariableHeaderBytes + 2 + if level = 5 then 1 else 0
    return State.ofBool ((level = 4 ∨ level = 5) ∧ minRemainingLength ≤ remainingLength)
  return .mismatch

variable (data header message : List UInt8)

theorem parseMQTTRemainingLength_safe (offset value multiplier : ℕ) :
    Safe (parseMQTTRemainingLength data offset value multiplier) := by
  fun_induction parseMQTTRemainingLength data offset value multiplier with
  | case1 offset value multiplier inside ih =>
    apply Safe.bind (safe_index.mpr inside)
    intro encoded read
    apply Safe.ite
    · intro last
      exact safe_ok _
    · intro further
      apply Safe.ite
      · intro tooLong
        exact safe_ok _
      · intro room
        apply ih
  | case2 offset value multiplier outside =>
    exact safe_ok _

theorem matchMQTTConnectPrefix_safe : Safe (matchMQTTConnectPrefix data) := by
  apply Safe.guard
  intro nonempty
  apply readAt ?_
  intro packetType
  apply skip
  apply Safe.bind (parseMQTTRemainingLength_safe data 1 0 1)
  rintro ⟨remainingLength, lengthBytes, complete, valid⟩ parsed
  apply skip
  apply skip
  apply skip
  apply safe_guardBytes
  intro hasNameLength
  apply readNumberAt reads_beUint16
  intro nameLen
  apply skip
  apply skip
  apply safe_guardBytes
  intro hasHeader
  apply readWindow ?_
  intro name nameLength
  apply readAt ?_
  intro level
  apply readAt ?_
  intro flags
  apply skip
  apply skip
  apply skip
  exact safe_ok _

inductive HeaderKind where
  | postgresql
  | mongoDB
  | proxyProtocolV2
  | socks4
deriving DecidableEq

def postgresqlHeaderBytes : ℕ := 8

def postgresqlPacketLength : Checked ℕ := do
  beUint32 (← window header 0 4)

def postgresqlShortPacket : Checked Bool := do
  if header.length = 4 then
    return (← postgresqlPacketLength header) < 8
  return false

def validPostgreSQLStartupHeader : Checked Bool := do
  if header.length ≠ postgresqlHeaderBytes then
    return false
  let length ← postgresqlPacketLength header
  let code ← beUint32 (← window header 4 8)
  match code with
  | 196608 => return postgresqlHeaderBytes < length
  | 80877103 => return length = postgresqlHeaderBytes
  | 80877104 => return length = postgresqlHeaderBytes
  | 80877102 => return length = 16
  | _ => return false

theorem postgresqlPacketLength_safe {header : List UInt8} (enough : 4 ≤ header.length) :
    Safe (postgresqlPacketLength header) := by
  apply readWindow ?_
  intro part partLength
  rw [← bind_pure (beUint32 part)]
  apply readNumber reads_beUint32
  intro value
  exact safe_ok _

theorem postgresqlShortPacket_safe : Safe (postgresqlShortPacket header) := by
  apply Safe.ite
  · intro four
    exact Safe.map (postgresqlPacketLength_safe (by omega))
  · intro other
    exact safe_ok _

theorem validPostgreSQLStartupHeader_safe : Safe (validPostgreSQLStartupHeader header) := by
  apply Safe.guard
  intro full
  simp only [postgresqlHeaderBytes, not_not] at full
  apply Safe.bind (postgresqlPacketLength_safe (by omega))
  intro length read
  apply readNumberAt reads_beUint32
  intro code
  split <;> exact safe_ok _

def mongoDBHeaderBytes : ℕ := 16

def mongoDBMessageLength : Checked ℕ := do
  leUint32 (← window header 0 4)

def mongoDBShortMessage : Checked Bool := do
  if header.length = 4 then
    return (← mongoDBMessageLength header) < mongoDBHeaderBytes
  return false

def validMongoDBClientOpcode (opcode : ℕ) : Bool :=
  opcode ∈ [2001, 2002, 2004, 2005, 2006, 2007, 2012, 2013]

def validMongoDBHeader : Checked Bool := do
  if header.length ≠ mongoDBHeaderBytes then
    return false
  if (← mongoDBMessageLength header) < mongoDBHeaderBytes then
    return false
  let responseTo ← leUint32 (← window header 8 12)
  let opcode ← leUint32 (← window header 12 16)
  return responseTo = 0 && validMongoDBClientOpcode opcode

theorem mongoDBMessageLength_safe {header : List UInt8} (enough : 4 ≤ header.length) :
    Safe (mongoDBMessageLength header) := by
  apply readWindow ?_
  intro part partLength
  rw [← bind_pure (leUint32 part)]
  apply readNumber reads_leUint32
  intro value
  exact safe_ok _

theorem mongoDBShortMessage_safe : Safe (mongoDBShortMessage header) := by
  apply Safe.ite
  · intro four
    exact Safe.map (mongoDBMessageLength_safe (by omega))
  · intro other
    exact safe_ok _

theorem validMongoDBHeader_safe : Safe (validMongoDBHeader header) := by
  apply Safe.guard
  intro full
  simp only [mongoDBHeaderBytes, not_not] at full
  apply Safe.bind (mongoDBMessageLength_safe (by omega))
  intro length read
  apply skip
  apply readNumberAt reads_leUint32
  intro responseTo
  apply readNumberAt reads_leUint32
  intro opcode
  exact safe_ok _

def redisRESPMaxDecimalDigits : ℕ := 10

def redisRESPCommandMaxBytes : ℕ := 128

def redisRESPRequestMaxPrefixBytes : ℕ :=
  1 + redisRESPMaxDecimalDigits + 2 + 1 + redisRESPMaxDecimalDigits + 2 +
    redisRESPCommandMaxBytes + 2

/-- The decimal number that ends with CRLF, from position `i` on, and the offset after it. -/
def parsePositiveDecimalCRLF (data : List UInt8) (maxDigits i digits value : ℕ) :
    Checked (ℕ × ℕ × State) :=
  if i < data.length then do
    let byte ← index data i
    if 48 ≤ byte ∧ byte ≤ 57 then
      if digits = maxDigits then
        return (0, 0, .mismatch)
      parsePositiveDecimalCRLF data maxDigits (i + 1) (digits + 1)
        (value * 10 + (byte - 48).toNat)
    else if byte = 13 then
      if digits = 0 then
        return (0, 0, .mismatch)
      if i + 1 = data.length then
        return (0, 0, .needMore)
      if (← index data (i + 1)) ≠ 10 ∨ value = 0 then
        return (0, 0, .mismatch)
      return (value, i + 2, .matched)
    else
      return (0, 0, .mismatch)
  else
    return (0, 0, .needMore)
termination_by data.length - i

def validRedisCommandName (command : List UInt8) : Bool :=
  command.length ≠ 0 && command.all fun byte => !(byte ≤ 32 || byte = 0x7f)

def matchRedisRESPRequestPrefix (data : List UInt8) : Checked State := do
  if data.length = 0 then
    return .needMore
  if (← index data 0) ≠ 42 then
    return .mismatch
  let (_, offset, state) ← parsePositiveDecimalCRLF data redisRESPMaxDecimalDigits 1 0 0
  if state ≠ .matched then
    return state
  if ¬protocolHasBytes data offset 1 then
    return .needMore
  if (← index data offset) ≠ 36 then
    return .mismatch
  let (bulkLen, offset, state) ←
    parsePositiveDecimalCRLF data redisRESPMaxDecimalDigits (offset + 1) 0 0
  if state ≠ .matched then
    return state
  if redisRESPCommandMaxBytes < bulkLen then
    return .mismatch
  if ¬protocolHasBytes data offset (bulkLen + 2) then
    return .needMore
  let command ← window data offset (offset + bulkLen)
  if ¬validRedisCommandName command then
    return .mismatch
  if (← index data (offset + bulkLen)) ≠ 13 then
    return .mismatch
  if (← index data (offset + bulkLen + 1)) ≠ 10 then
    return .mismatch
  return .matched

theorem parsePositiveDecimalCRLF_safe (maxDigits i digits value : ℕ) :
    Safe (parsePositiveDecimalCRLF data maxDigits i digits value) := by
  fun_induction parsePositiveDecimalCRLF data maxDigits i digits value with
  | case1 i digits value inside ih =>
    apply readAt ?_
    intro byte
    apply Safe.ite
    · intro digit
      apply skip
      apply ih
    · intro notDigit
      apply Safe.ite
      · intro lineEnd
        apply skip
        apply Safe.guard
        intro hasNext
        apply readAt ?_
        intro next
        apply skip
        exact safe_ok _
      · intro other
        exact safe_ok _
  | case2 i digits value outside =>
    exact safe_ok _

theorem matchRedisRESPRequestPrefix_safe : Safe (matchRedisRESPRequestPrefix data) := by
  apply Safe.guard
  intro nonempty
  apply readAt ?_
  intro star
  apply skip
  apply Safe.bind (parsePositiveDecimalCRLF_safe data _ 1 0 0)
  rintro ⟨count, offset, state⟩ counted
  apply skip
  apply safe_guardBytes
  intro hasMarker
  apply readAt ?_
  intro marker
  apply skip
  apply Safe.bind (parsePositiveDecimalCRLF_safe data _ (offset + 1) 0 0)
  rintro ⟨bulkLen, start, bulkState⟩ measured
  apply skip
  apply skip
  apply safe_guardBytes
  intro hasCommand
  apply readWindow ?_
  intro command commandLength
  apply skip
  apply readAt ?_
  intro carriage
  apply skip
  apply readAt ?_
  intro feed
  apply skip
  exact safe_ok _

def proxyProtocolV2Signature : List UInt8 := bytes "\r\n\r\n\x00\r\nQUIT\n"

def proxyProtocolV2HeaderBytes : ℕ := 16

def proxyProtocolV2BadByte : Checked Bool := do
  let offset := header.length - 1
  if offset < proxyProtocolV2Signature.length then
    return (← index header offset) ≠ (← index proxyProtocolV2Signature offset)
  return false

def validProxyProtocolV2FamilyProtocol (family protocol : UInt8) : Bool :=
  match family with
  | 0 => protocol = 0
  | 1 | 2 | 3 => protocol = 1 ∨ protocol = 2
  | _ => false

def proxyProtocolV2AddressBytes (family : UInt8) : ℕ :=
  match family with
  | 1 => 12
  | 2 => 36
  | 3 => 216
  | _ => 0

def validProxyProtocolV2Header : Checked Bool := do
  if header.length ≠ proxyProtocolV2HeaderBytes then
    return false
  if (← window header 0 proxyProtocolV2Signature.length) ≠ proxyProtocolV2Signature then
    return false
  let versionCommand ← index header 12
  if versionCommand >>> 4 ≠ 2 then
    return false
  let command := versionCommand &&& 0x0f
  if command ≠ 0 ∧ command ≠ 1 then
    return false
  let familyProtocol ← index header 13
  let family := familyProtocol >>> 4
  let protocol := familyProtocol &&& 0x0f
  if ¬validProxyProtocolV2FamilyProtocol family protocol then
    return false
  if command = 0 then
    return true
  let payloadLen ← beUint16 (← window header 14 16)
  return proxyProtocolV2AddressBytes family ≤ payloadLen

theorem length_proxyProtocolV2Signature : proxyProtocolV2Signature.length = 12 := by
  decide

theorem proxyProtocolV2BadByte_safe (nonempty : header ≠ []) :
    Safe (proxyProtocolV2BadByte header) := by
  have positive : 0 < header.length := List.length_pos_iff.mpr nonempty
  apply Safe.ite
  · intro inside
    apply readAt ?_
    intro byte
    apply readAt ?_
    intro expected
    exact safe_ok _
  · intro after
    exact safe_ok _

theorem validProxyProtocolV2Header_safe : Safe (validProxyProtocolV2Header header) := by
  have signature := length_proxyProtocolV2Signature
  apply Safe.guard
  intro full
  simp only [proxyProtocolV2HeaderBytes, not_not] at full
  apply readWindow ?_
  intro part partLength
  apply skip
  apply readAt ?_
  intro versionCommand
  apply skip
  apply skip
  apply readAt ?_
  intro familyProtocol
  apply skip
  apply skip
  apply readNumberAt reads_beUint16
  intro payloadLen
  exact safe_ok _

def socks4HeaderBytes : ℕ := 8

def socks4BadByte : Checked Bool := do
  match header.length - 1 with
  | 0 => return (← index header 0) ≠ 4
  | 1 =>
    let command ← index header 1
    return command ≠ 1 ∧ command ≠ 2
  | _ => return false

def validSOCKS4Header : Checked Bool := do
  if header.length ≠ socks4HeaderBytes then
    return false
  if (← index header 0) ≠ 4 then
    return false
  let command ← index header 1
  if command ≠ 1 ∧ command ≠ 2 then
    return false
  if (← beUint16 (← window header 2 4)) = 0 then
    return false
  return (← window header 4 8).any fun byte => byte ≠ 0

theorem socks4BadByte_safe (nonempty : header ≠ []) : Safe (socks4BadByte header) := by
  have positive : 0 < header.length := List.length_pos_iff.mpr nonempty
  unfold socks4BadByte
  split
  next first =>
    apply readAt ?_
    intro version
    exact safe_ok _
  next second =>
    exact lastAt
  next later =>
    exact safe_ok _

theorem validSOCKS4Header_safe : Safe (validSOCKS4Header header) := by
  apply Safe.guard
  intro full
  simp only [socks4HeaderBytes, not_not] at full
  apply readAt ?_
  intro version
  apply skip
  apply readAt ?_
  intro command
  apply skip
  apply readNumberAt reads_beUint16
  intro port
  apply skip
  apply readWindow ?_
  intro addressPart addressLength
  exact safe_ok _

def socks5GreetingMinBytes : ℕ := 2

def socks5GreetingMaxBytes : ℕ := socks5GreetingMinBytes + 255

structure Socks5Memory where
  buf : List UInt8
  needBytes : ℕ

variable (memory : Socks5Memory) (maxMessageBytes : ℕ)

/-- The step of the SOCKS5 greeting: a version byte, a count and that many methods. -/
def socks5Step (byte : UInt8) : Checked (Socks5Memory × State) :=
  if memory.buf.length = memory.needBytes then
    .ok (memory, .needMore)
  else
    let buf := memory.buf ++ [byte]
    let settle (needBytes : ℕ) : Checked (Socks5Memory × State) :=
      .ok (⟨buf, needBytes⟩, if buf.length = needBytes then .matched else .needMore)
    match memory.buf.length with
    | 0 => if byte ≠ 5 then .ok (⟨buf, memory.needBytes⟩, .mismatch) else settle memory.needBytes
    | 1 => if byte = 0 then .ok (⟨buf, memory.needBytes⟩, .mismatch) else settle (2 + byte.toNat)
    | _ => settle memory.needBytes

theorem socks5Step_safe (byte : UInt8) : Safe (socks5Step memory byte) := by
  unfold socks5Step
  split
  · exact safe_ok _
  · dsimp only
    split
    · split <;> exact safe_ok _
    · split <;> exact safe_ok _
    · exact safe_ok _

def dnsOverTCPLengthBytes : ℕ := 2

def dnsHeaderBytes : ℕ := 12

def dnsOverTCPMaxMessageBytes : ℕ := 2 ^ 16 - 1

def defaultDNSOverTCPMessageMaxBytes : ℕ := 4096

/-- The limit of `DNSOverTCPWithConfig`; one that does not fit the length field ends the program. -/
def normalizeDNSOverTCPConfig : Option ℕ :=
  if dnsOverTCPMaxMessageBytes < maxMessageBytes then none
  else if maxMessageBytes = 0 then some defaultDNSOverTCPMessageMaxBytes
  else some maxMessageBytes

/--
The offset behind the name at `offset`. A pointer moves the reading position
without a bound of its own; the visited positions end the walk.
-/
def skipDNSName (message : List UInt8) (offset nameBytes returnOffset : ℕ)
    (visited : Finset ℕ) : Checked (ℕ × Bool) :=
  if start : protocolHasBytes message offset 1 ∧ offset ∉ visited then do
    let lengthByte ← index message offset
    let length := lengthByte.toNat
    if lengthByte &&& 0xc0 = 0 then
      if 255 < nameBytes + 1 then
        return (0, false)
      if length = 0 then
        return (if returnOffset ≠ 0 then returnOffset else offset + 1, true)
      if ¬protocolHasBytes message (offset + 1) length then
        return (0, false)
      if 255 < nameBytes + 1 + length then
        return (0, false)
      skipDNSName message (offset + 1 + length) (nameBytes + 1 + length) returnOffset
        (insert offset visited)
    else if lengthByte &&& 0xc0 = 0xc0 then
      if ¬protocolHasBytes message offset 2 then
        return (0, false)
      let pointer := (← beUint16 (← windowFrom message offset)) &&& 0x3fff
      if message.length ≤ pointer then
        return (0, false)
      skipDNSName message pointer nameBytes
        (if returnOffset = 0 then offset + 2 else returnOffset) (insert offset visited)
    else
      return (0, false)
  else
    return (0, false)
termination_by (Finset.range message.length \ visited).card
decreasing_by
  all_goals
    apply card_lt_card
    rw [ssubset_iff_of_subset (sdiff_subset_sdiff (Subset.refl _)
      (subset_insert _ _))]
    have inside := protocolHasBytes_iff.mp start.1
    exact ⟨offset, by simp [start.2]; omega, by simp⟩

def validDNSQuestions (message : List UInt8) : ℕ → ℕ → Checked Bool
  | 0, offset => return offset ≤ message.length
  | remaining + 1, offset => do
      let (offset, ok) ← skipDNSName message offset 0 0 ∅
      if ¬ok ∨ ¬protocolHasBytes message offset 4 then
        return false
      let qtype ← beUint16 (← windowFrom message offset)
      let qclass ← beUint16 (← windowFrom message (offset + 2))
      if qtype = 0 ∨ qclass = 0 then
        return false
      validDNSQuestions message remaining (offset + 4)

def validDNSOverTCPQuery (message : List UInt8) : Checked Bool := do
  if message.length < dnsHeaderBytes then
    return false
  let flags ← beUint16 (← window message 2 4)
  if flags &&& 0x8000 ≠ 0 then
    return false
  let opcode := (flags >>> 11) &&& 0x0f
  if 5 < opcode then
    return false
  let questionCount ← beUint16 (← window message 4 6)
  if questionCount = 0 then
    return false
  validDNSQuestions message questionCount dnsHeaderBytes

/-- The call of `dnsOverTCPClassifier` on a chunk while the result is open. -/
def dnsOverTCPFeed (buf chunk : List UInt8) : Checked (List UInt8 × State) := do
  match ← appendBounded (dnsOverTCPLengthBytes + maxMessageBytes) buf chunk with
  | none => return (buf, .mismatch)
  | some buf =>
    if buf.length < dnsOverTCPLengthBytes then
      return (buf, .needMore)
    let messageLen ← beUint16 (← window buf 0 dnsOverTCPLengthBytes)
    if messageLen < dnsHeaderBytes ∨ maxMessageBytes < messageLen then
      return (buf, .mismatch)
    let needBytes := dnsOverTCPLengthBytes + messageLen
    if buf.length < needBytes then
      return (buf, .needMore)
    let message ← window buf dnsOverTCPLengthBytes needBytes
    return (buf, State.ofBool (← validDNSOverTCPQuery message))

theorem skipDNSName_safe (offset nameBytes returnOffset : ℕ) (visited : Finset ℕ) :
    Safe (skipDNSName message offset nameBytes returnOffset visited) := by
  fun_induction skipDNSName message offset nameBytes returnOffset visited with
  | case1 offset nameBytes returnOffset visited start labelHypothesis pointerHypothesis =>
    have inside := protocolHasBytes_iff.mp start.1
    apply readAt ?_
    intro lengthByte
    apply Safe.ite
    · intro label
      apply skip
      apply skip
      apply Safe.guard
      intro present
      apply skip
      apply labelHypothesis
    · intro notLabel
      apply Safe.ite
      · intro isPointer
        apply safe_guardBytes
        intro present
        apply readNumberAt reads_beUint16
        intro target
        apply skip
        apply pointerHypothesis
      · intro reserved
        exact safe_ok _
  | case2 offset nameBytes returnOffset visited outside =>
    exact safe_ok _

theorem skipDNSName_behind {message : List UInt8} {offset nameBytes returnOffset next : ℕ}
    {visited : Finset ℕ}
    (skipped : skipDNSName message offset nameBytes returnOffset visited = .ok (next, true)) :
    returnOffset = 0 ∧ offset < next ∧ next ≤ message.length ∨
      returnOffset ≠ 0 ∧ next = returnOffset := by
  fun_induction skipDNSName message offset nameBytes returnOffset visited with
  | case1 offset nameBytes returnOffset visited start afterLabel afterPointer =>
    have inside := protocolHasBytes_iff.mp start.1
    rcases of_bind skipped with ⟨lengthByte, _, skipped⟩
    dsimp only at skipped
    split_ifs at skipped with label long ends returns present longer isPointer there first <;>
      try cases skipped
    · exact .inr ⟨returns, rfl⟩
    · omega
    · have found := afterLabel lengthByte skipped
      omega
    all_goals
      rw [protocolHasBytes_iff] at there
      rcases of_bind skipped with ⟨_, _, skipped⟩
      rcases of_bind skipped with ⟨target, _, skipped⟩
      have found := afterPointer target
      split_ifs at skipped
      · cases skipped
      · simp only [first, reduceDIte, false_and, false_or] at found
        have returned := found skipped
        omega
  | case2 => cases skipped

/-- `skipDNSName`; there are no bytes at a negative offset. -/
def skipDNSNameFrom (message : List UInt8) (offset : ℤ) : Checked (ℕ × Bool) :=
  if offset < 0 then pure (0, false) else skipDNSName message offset.toNat 0 0 ∅

/-- The walk over a name ends, also if pointers lead forward or in a cycle. A name that is
skipped ends behind its start and inside the message. -/
theorem skipDNSName_returns (message : List UInt8) (start : ℤ) :
    ∃ next ok, skipDNSNameFrom message start = .ok (next, ok) ∧
      (ok = true → start < next ∧ next ≤ message.length) := by
  unfold skipDNSNameFrom
  split_ifs with negative
  · exact ⟨0, false, rfl, by simp⟩
  · rcases skipDNSName_safe message start.toNat 0 0 ∅ with ⟨⟨next, ok⟩, skipped⟩
    refine ⟨next, ok, skipped, ?_⟩
    rintro rfl
    have behind := skipDNSName_behind skipped
    omega

theorem validDNSQuestions_safe :
    ∀ remaining offset, Safe (validDNSQuestions message remaining offset) := by
  intro remaining
  induction remaining with
  | zero =>
    intro offset
    exact safe_ok _
  | succ remaining ih =>
    intro offset
    apply Safe.bind (skipDNSName_safe message offset 0 0 ∅)
    rintro ⟨next, ok⟩ skipped
    apply Safe.guard
    intro present
    simp only [protocolHasBytes_iff, not_or, not_not] at present
    apply readNumberAt reads_beUint16
    intro qtype
    apply readNumberAt reads_beUint16
    intro qclass
    apply skip
    exact ih (next + 4)

theorem validDNSOverTCPQuery_safe : Safe (validDNSOverTCPQuery message) := by
  apply Safe.guard
  intro hasHeader
  simp only [dnsHeaderBytes, not_lt] at hasHeader
  apply readNumberAt reads_beUint16
  intro flags
  apply skip
  apply skip
  apply readNumberAt reads_beUint16
  intro questionCount
  apply skip
  exact validDNSQuestions_safe message questionCount dnsHeaderBytes

theorem dnsOverTCPFeed_safe (buf chunk : List UInt8) :
    Safe (dnsOverTCPFeed maxMessageBytes buf chunk) := by
  apply Safe.bind (appendBounded_safe _ buf chunk)
  rintro (_ | next) appended
  · exact safe_ok _
  · apply Safe.guard
    intro hasLength
    simp only [dnsOverTCPLengthBytes, not_lt] at hasLength
    apply readWindow ?_ (by decide) hasLength
    intro lengthPart lengthLength
    apply readNumber reads_beUint16
    intro messageLen
    apply skip
    apply Safe.guard
    intro complete
    apply readWindow ?_
    intro message messageLength
    exact Safe.map (validDNSOverTCPQuery_safe message)

end Gonnect.Sniffer
