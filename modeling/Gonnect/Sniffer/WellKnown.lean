import Gonnect.Sniffer.Feed

/-!
# The classifiers of well-known services

Matchers that see the bytes so far (STUN, RDP, SMB, LDAP, Cassandra and the
binary memcached protocol) and line tests that see a full CRLF line (RTSP, SIP
and the textual memcached protocol).
-/

namespace Gonnect.Sniffer

open Checked Safe State

inductive LineKind where
  | rtsp
  | sip
  | memcachedASCII
deriving DecidableEq

def crlfLineStep (maxBytes : ℕ) (valid : List UInt8 → Checked Bool) (line : List UInt8)
    (byte : UInt8) : Checked (List UInt8 × State) := do
  if line.length = maxBytes then
    return (line, .mismatch)
  if (← endsWithCarriage line) ∧ byte ≠ 10 then
    return (line, .mismatch)
  if (byte < 32 ∧ byte ≠ 13 ∧ byte ≠ 10) ∨ byte = 0x7f then
    return (line, .mismatch)
  let line := line ++ [byte]
  if byte ≠ 10 then
    return (line, .needMore)
  if line.length < 2 then
    return (line, .mismatch)
  if (← index line (line.length - 2)) ≠ 13 then
    return (line, .mismatch)
  let content ← window line 0 (line.length - 2)
  return (line, ofBool (← valid content))

theorem crlfLineStep_safe {maxBytes : ℕ} {valid : List UInt8 → Checked Bool}
    (safeValid : ∀ line, Safe (valid line)) (line : List UInt8) (byte : UInt8) :
    Safe (crlfLineStep maxBytes valid line byte) := by
  apply skip
  apply Safe.bind (endsWithCarriage_safe line)
  intro carriage read
  apply skip
  apply skip
  apply skip
  apply Safe.guard
  intro long
  apply readAt ?_
  intro beforeEnd
  apply skip
  apply readWindow ?_
  intro content contentLength
  exact Safe.map (safeValid content)

def rtspRequestLineMaxBytes : ℕ := 1024

def sipRequestLineMaxBytes : ℕ := 1024

def rtspRequestMethods : List String :=
  ["ANNOUNCE", "DESCRIBE", "GET_PARAMETER", "OPTIONS", "PAUSE", "PLAY", "PLAY_NOTIFY",
    "RECORD", "REDIRECT", "SETUP", "SET_PARAMETER", "TEARDOWN"]

def sipRequestMethods : List String :=
  ["ACK", "BYE", "CANCEL", "INFO", "INVITE", "MESSAGE", "NOTIFY", "OPTIONS", "PRACK",
    "PUBLISH", "REFER", "REGISTER", "SUBSCRIBE", "UPDATE"]

/-- Non-empty and without blanks, controls and DEL. -/
def validTextRequestTarget (target : List UInt8) : Bool :=
  target.length ≠ 0 && target.all fun byte => !(byte ≤ 32 || byte = 0x7f)

variable (data : List UInt8)

def lastIndexByte (byte : UInt8) : Option ℕ :=
  (data.reverse.findIdx? (· = byte)).map (data.length - 1 - ·)

def validTextRequestLine (methods : List String) (version : String) (line : List UInt8) :
    Checked Bool := do
  if line.count 32 ≠ 2 then
    return false
  match line.findIdx? (· = 32), lastIndexByte line 32 with
  | some firstSpace, some lastSpace =>
    if firstSpace = 0 ∨ lastSpace ≤ firstSpace + 1 ∨ lastSpace = line.length - 1 then
      return false
    let method ← window line 0 firstSpace
    let target ← window line (firstSpace + 1) lastSpace
    let gotVersion ← windowFrom line (lastSpace + 1)
    if gotVersion ≠ bytes version ∨ ¬validTextRequestTarget target then
      return false
    return methods.any fun known => method = bytes known
  | _, _ => return false

theorem lastIndexByte_lt {data : List UInt8} {byte : UInt8} {position : ℕ}
    (found : lastIndexByte data byte = some position) : position < data.length := by
  simp only [lastIndexByte, Option.map_eq_some_iff] at found
  rcases found with ⟨fromEnd, atEnd, rfl⟩
  have inside := (List.findIdx?_eq_some_iff_getElem.mp atEnd).1
  simp only [List.length_reverse] at inside
  omega

theorem validTextRequestLine_safe (methods : List String) (version : String)
    (line : List UInt8) : Safe (validTextRequestLine methods version line) := by
  apply skip
  split
  next firstSpace lastSpace first last =>
    have lastInside := lastIndexByte_lt last
    apply Safe.guard
    intro placed
    apply readWindow ?_
    intro method methodLength
    apply readWindow ?_
    intro target targetLength
    apply readFrom ?_
    intro gotVersion versionLength
    apply skip
    exact safe_ok _
  next =>
    exact safe_ok _

def stunHeaderBytes : ℕ := 20

def stunMagicCookie : ℕ := 0x2112a442

def validSTUNMessageType (messageType : ℕ) : Bool :=
  if messageType &&& 0xc000 ≠ 0 then false
  else
    let method := (messageType &&& 0x000f) ||| ((messageType &&& 0x00e0) >>> 1) |||
      ((messageType &&& 0x3e00) >>> 2)
    method ∈ [0x001, 0x002, 0x003, 0x004, 0x006, 0x007, 0x008, 0x009, 0x00a, 0x00b, 0x00c]

def matchSTUNHeaderPrefix : Checked State := do
  if data.length = 0 then
    return .needMore
  if (← index data 0) &&& 0xc0 ≠ 0 then
    return .mismatch
  if ← whenPresent data 2 (do return !validSTUNMessageType (← beUint16 data)) then
    return .mismatch
  if ← whenPresent data 4 (do
      let length ← beUint16 (← window data 2 4)
      return length % 4 ≠ 0) then
    return .mismatch
  if ← whenPresent data 8 (do
      let cookie ← beUint32 (← window data 4 8)
      return cookie ≠ stunMagicCookie) then
    return .mismatch
  if data.length < stunHeaderBytes then
    return .needMore
  return .matched

variable (header : List UInt8) (tokens : List (List UInt8))

theorem matchSTUNHeaderPrefix_safe : Safe (matchSTUNHeaderPrefix data) := by
  apply Safe.guard
  intro nonempty
  apply readAt ?_
  intro first
  apply skip
  apply check
  · intro present
    apply readNumber reads_beUint16 present
    intro messageType
    exact safe_ok _
  apply check
  · intro present
    apply readNumberAt reads_beUint16 (by omega) present
    intro length
    exact safe_ok _
  apply check
  · intro present
    apply readNumberAt reads_beUint32 (by omega) present
    intro cookie
    exact safe_ok _
  apply skip
  exact safe_ok _

def rdpConnectionRequestMinBytes : ℕ := 11

def rdpBadPrefix : Checked Bool := do
  match data.length with
  | 1 => return (← index data 0) ≠ 3
  | 2 => return (← index data 1) ≠ 0
  | 4 => return (← beUint16 (← window data 2 4)) < rdpConnectionRequestMinBytes
  | 5 => return (← index data 4) < 6
  | 6 => return (← index data 5) &&& 0xf0 ≠ 0xe0
  | _ => return false

def validRDPConnectionRequestHeader : Checked Bool := do
  if header.length ≠ rdpConnectionRequestMinBytes then
    return false
  if (← index header 0) ≠ 3 ∨ (← index header 1) ≠ 0 ∨ (← index header 5) &&& 0xf0 ≠ 0xe0 then
    return false
  let tpktLen ← beUint16 (← window header 2 4)
  let cotpHeaderBytes := (← index header 4).toNat + 1
  if tpktLen < rdpConnectionRequestMinBytes ∨ cotpHeaderBytes < 7 ∨
      tpktLen < cotpHeaderBytes + 4 then
    return false
  if (← beUint16 (← window header 6 8)) ≠ 0 then
    return false
  return (← index header 10) &&& 0xf0 = 0

def matchRDPConnectionRequestPrefix : Checked State := do
  if data.length = 0 then
    return .needMore
  if ← rdpBadPrefix data then
    return .mismatch
  if data.length < rdpConnectionRequestMinBytes then
    return .needMore
  return ofBool (← validRDPConnectionRequestHeader data)

theorem rdpBadPrefix_safe : Safe (rdpBadPrefix data) := by
  unfold rdpBadPrefix
  split
  next one =>
    exact lastAt
  next two =>
    exact lastAt
  next four =>
    apply readNumberAt reads_beUint16
    intro length
    exact safe_ok _
  next five =>
    exact lastAt
  next six =>
    exact lastAt
  next =>
    exact safe_ok _

theorem validRDPConnectionRequestHeader_safe : Safe (validRDPConnectionRequestHeader header) := by
  apply Safe.guard
  intro full
  simp only [rdpConnectionRequestMinBytes, not_not] at full
  apply readAt ?_
  intro version
  apply readAt ?_
  intro reserved
  apply readAt ?_
  intro code
  apply skip
  apply readNumberAt reads_beUint16
  intro tpktLen
  apply readAt ?_
  intro cotpLength
  apply skip
  apply readNumberAt reads_beUint16
  intro reference
  apply skip
  exact lastAt

theorem matchRDPConnectionRequestPrefix_safe : Safe (matchRDPConnectionRequestPrefix data) := by
  apply skip
  apply Safe.bind (rdpBadPrefix_safe data)
  intro bad looked
  apply skip
  apply skip
  exact Safe.map (validRDPConnectionRequestHeader_safe data)

inductive PrefixKind where
  | mqtt
  | redis
  | stun
  | rdp
  | smb
  | ldap
  | cassandra
  | memcachedBinary
deriving DecidableEq

def smbOverTCPRequestMinBytes : ℕ := 24

def validSMBOverTCPRequestHeader : Checked Bool := do
  if header.length ≠ smbOverTCPRequestMinBytes then
    return false
  let high := ((← index header 1) &&& 0x01).toNat
  let low ← beUint16 (← window header 2 4)
  let payloadLen := 65536 * high + low
  let protocolID ← window header 4 8
  if protocolID = bytes "\xffSMB" then
    return 32 ≤ payloadLen ∧ (← index header 8) = 0x72 ∧ (← index header 13) &&& 0x80 = 0
  if protocolID = bytes "\xfeSMB" then
    let structureSize ← leUint16 (← window header 8 10)
    let command ← leUint16 (← window header 16 18)
    let flags ← leUint32 (← window header 20 24)
    return 64 ≤ payloadLen ∧ structureSize = 64 ∧ command = 0 ∧ flags &&& 1 = 0
  return false

def matchSMBOverTCPRequestPrefix : Checked State := do
  if data.length = 0 then
    return .needMore
  if (← index data 0) ≠ 0 then
    return .mismatch
  if ← whenPresent data 2 (do return (← index data 1) &&& 0xfe ≠ 0) then
    return .mismatch
  if ← whenPresent data 8 (do
      let protocolID ← window data 4 8
      return protocolID ≠ bytes "\xffSMB" ∧ protocolID ≠ bytes "\xfeSMB") then
    return .mismatch
  if data.length < smbOverTCPRequestMinBytes then
    return .needMore
  return ofBool (← validSMBOverTCPRequestHeader data)

theorem validSMBOverTCPRequestHeader_safe : Safe (validSMBOverTCPRequestHeader header) := by
  apply Safe.guard
  intro full
  simp only [smbOverTCPRequestMinBytes, not_not] at full
  apply readAt ?_
  intro high
  apply readNumberAt reads_beUint16
  intro low
  apply readWindow ?_
  intro protocolID protocolLength
  apply Safe.ite
  · intro first
    apply readAt ?_
    intro command
    exact lastAt
  · intro notFirst
    apply Safe.ite
    · intro second
      apply readNumberAt reads_leUint16
      intro structureSize
      apply readNumberAt reads_leUint16
      intro command
      apply readNumberAt reads_leUint32
      intro flags
      exact safe_ok _
    · intro other
      exact safe_ok _

theorem matchSMBOverTCPRequestPrefix_safe : Safe (matchSMBOverTCPRequestPrefix data) := by
  apply Safe.guard
  intro nonempty
  apply readAt ?_
  intro messageType
  apply skip
  apply check
  · intro present
    exact lastAt
  apply check
  · intro present
    apply readWindow ?_
    intro protocolID protocolLength
    exact safe_ok _
  apply skip
  exact Safe.map (validSMBOverTCPRequestHeader_safe data)

def ldapMessagePrefixMaxBytes : ℕ := 16

/-- A BER length at `offset`: its value and the offset behind it. -/
def parseBERDefiniteLength (offset maxLengthOctets : ℕ) : Checked (ℕ × ℕ × State) := do
  if ¬protocolHasBytes data offset 1 then
    return (0, 0, .needMore)
  let first ← index data offset
  if first < 0x80 then
    return (first.toNat, offset + 1, .matched)
  if first = 0x80 ∨ first = 0xff then
    return (0, 0, .mismatch)
  let lengthOctets := (first &&& 0x7f).toNat
  if lengthOctets = 0 ∨ maxLengthOctets < lengthOctets then
    return (0, 0, .mismatch)
  if ¬protocolHasBytes data (offset + 1) lengthOctets then
    return (0, 0, .needMore)
  if (← index data (offset + 1)) = 0 then
    return (0, 0, .mismatch)
  let octets ← window data (offset + 1) (offset + 1 + lengthOctets)
  let value := octets.foldl (fun value byte => value * 256 + byte.toNat) 0
  return (value, offset + 1 + lengthOctets, .matched)

def validLDAPMessageID (encoded : List UInt8) : Checked Bool := do
  if encoded.length = 0 then
    return false
  if (← index encoded 0) &&& 0x80 ≠ 0 then
    return false
  return encoded.any fun byte => byte ≠ 0

def validLDAPClientProtocolOpTag (tag : UInt8) : Bool :=
  tag ∈ [0x60, 0x42, 0x63, 0x66, 0x68, 0x4a, 0x6c, 0x6e, 0x50, 0x77]

def matchLDAPMessagePrefix : Checked State := do
  if data.length = 0 then
    return .needMore
  if (← index data 0) ≠ 0x30 then
    return .mismatch
  let (messageLen, offset, state) ← parseBERDefiniteLength data 1 4
  if state ≠ .matched then
    return state
  if messageLen < 5 then
    return .mismatch
  if ¬protocolHasBytes data offset 1 then
    return .needMore
  if (← index data offset) ≠ 0x02 then
    return .mismatch
  let (messageIDLen, valueOffset, state) ← parseBERDefiniteLength data (offset + 1) 1
  if state ≠ .matched then
    return state
  if messageIDLen = 0 ∨ 5 < messageIDLen then
    return .mismatch
  if offset + messageLen < valueOffset + messageIDLen then
    return .mismatch
  if ¬protocolHasBytes data valueOffset messageIDLen then
    return .needMore
  let messageID ← window data valueOffset (valueOffset + messageIDLen)
  if ¬(← validLDAPMessageID messageID) then
    return .mismatch
  let opOffset := valueOffset + messageIDLen
  if offset + messageLen ≤ opOffset then
    return .mismatch
  if ¬protocolHasBytes data opOffset 1 then
    return .needMore
  return ofBool (validLDAPClientProtocolOpTag (← index data opOffset))

theorem parseBERDefiniteLength_safe (offset maxLengthOctets : ℕ) :
    Safe (parseBERDefiniteLength data offset maxLengthOctets) := by
  apply safe_guardBytes
  intro present
  apply readAt ?_
  intro first
  apply skip
  apply skip
  apply Safe.guard
  intro bounded
  apply Safe.guard
  intro hasOctets
  simp only [protocolHasBytes_iff, not_not, not_or] at hasOctets bounded
  apply readAt ?_
  intro leading
  apply skip
  apply readWindow ?_
  intro octets octetsLength
  exact safe_ok _

theorem validLDAPMessageID_safe (encoded : List UInt8) : Safe (validLDAPMessageID encoded) := by
  apply Safe.guard
  intro nonempty
  apply readAt ?_
  intro first
  apply skip
  exact safe_ok _

theorem matchLDAPMessagePrefix_safe : Safe (matchLDAPMessagePrefix data) := by
  apply Safe.guard
  intro nonempty
  apply readAt ?_
  intro sequenceTag
  apply skip
  apply Safe.bind (parseBERDefiniteLength_safe data 1 4)
  rintro ⟨messageLen, offset, state⟩ measured
  apply skip
  apply skip
  apply safe_guardBytes
  intro hasTag
  apply readAt ?_
  intro integerTag
  apply skip
  apply Safe.bind (parseBERDefiniteLength_safe data (offset + 1) 1)
  rintro ⟨messageIDLen, valueOffset, idState⟩ idMeasured
  apply skip
  apply skip
  apply skip
  apply safe_guardBytes
  intro hasID
  apply readWindow ?_
  intro messageID messageIDLength
  apply Safe.bind (validLDAPMessageID_safe messageID)
  intro validID idChecked
  apply skip
  apply skip
  apply safe_guardBytes
  intro hasOp
  exact lastAt

def cassandraRequestHeaderBytes : ℕ := 9

def validCassandraRequestVersion (version : UInt8) : Bool :=
  version = 3 ∨ version = 4 ∨ version = 5

def validCassandraRequestHeader : Checked Bool := do
  if header.length ≠ cassandraRequestHeaderBytes then
    return false
  if ¬validCassandraRequestVersion (← index header 0) ∨ (← index header 1) &&& 0xf0 ≠ 0 then
    return false
  let bodyLen ← beUint32 (← window header 5 9)
  if 2 ^ 31 - 1 < bodyLen then
    return false
  match ← index header 4 with
  | 0x01 => return 2 ≤ bodyLen
  | 0x05 => return bodyLen = 0
  | _ => return false

def matchCassandraRequestHeaderPrefix : Checked State := do
  if data.length = 0 then
    return .needMore
  if ¬validCassandraRequestVersion (← index data 0) then
    return .mismatch
  if ← whenPresent data 2 (do return (← index data 1) &&& 0xf0 ≠ 0) then
    return .mismatch
  if ← whenPresent data 5 (do
      let opcode ← index data 4
      return opcode ≠ 0x01 ∧ opcode ≠ 0x05) then
    return .mismatch
  if data.length < cassandraRequestHeaderBytes then
    return .needMore
  return ofBool (← validCassandraRequestHeader data)

theorem validCassandraRequestHeader_safe : Safe (validCassandraRequestHeader header) := by
  apply Safe.guard
  intro full
  simp only [cassandraRequestHeaderBytes, not_not] at full
  apply readAt ?_
  intro version
  apply readAt ?_
  intro flags
  apply skip
  apply readNumberAt reads_beUint32
  intro bodyLen
  apply skip
  apply readAt ?_
  intro opcode
  split <;> exact safe_ok _

theorem matchCassandraRequestHeaderPrefix_safe : Safe (matchCassandraRequestHeaderPrefix data) := by
  apply Safe.guard
  intro nonempty
  apply readAt ?_
  intro version
  apply skip
  apply check
  · intro present
    exact lastAt
  apply check
  · intro present
    exact lastAt
  apply skip
  exact Safe.map (validCassandraRequestHeader_safe data)

def memcachedBinaryHeaderBytes : ℕ := 24

inductive MemcachedBinaryKeyMode where
  | optional
  | required
  | forbidden
deriving DecidableEq

/-- The key mode and the two allowed lengths of the extras, for a known opcode. -/
def memcachedBinaryRequestOpcodeRules (opcode : UInt8) :
    Option (MemcachedBinaryKeyMode × ℕ × Option ℕ) :=
  if opcode ∈ ([0x00, 0x04, 0x09, 0x0c, 0x0d, 0x0e, 0x0f, 0x14, 0x19, 0x1a, 0x21, 0x22] :
      List UInt8) then some (.required, 0, none)
  else if opcode ∈ ([0x01, 0x02, 0x03, 0x11, 0x12, 0x13] : List UInt8) then
    some (.required, 8, none)
  else if opcode ∈ ([0x05, 0x06, 0x15, 0x16] : List UInt8) then some (.required, 20, none)
  else if opcode ∈ ([0x1c, 0x1d, 0x1e] : List UInt8) then some (.required, 4, none)
  else if opcode ∈ ([0x07, 0x0a, 0x0b, 0x17, 0x20] : List UInt8) then some (.forbidden, 0, none)
  else if opcode ∈ ([0x08, 0x18] : List UInt8) then some (.forbidden, 0, some 4)
  else if opcode = 0x1b then some (.forbidden, 4, none)
  else if opcode = 0x10 then some (.optional, 0, none)
  else none

def memcachedBinaryExtrasLengthOK (got wantA : ℕ) (wantB : Option ℕ) : Bool :=
  got = wantA ∨ wantB = some got

def memcachedBinaryKeyLengthOK (keyMode : MemcachedBinaryKeyMode) (keyLen : ℕ) : Bool :=
  match keyMode with
  | .required => 0 < keyLen
  | .forbidden => keyLen = 0
  | .optional => true

def validMemcachedBinaryHeader : Checked Bool := do
  if header.length ≠ memcachedBinaryHeaderBytes then
    return false
  if (← index header 0) ≠ 0x80 ∨ (← index header 5) ≠ 0 then
    return false
  match memcachedBinaryRequestOpcodeRules (← index header 1) with
  | none => return false
  | some (keyMode, extrasA, extrasB) =>
    let extrasLen := (← index header 4).toNat
    if ¬memcachedBinaryExtrasLengthOK extrasLen extrasA extrasB then
      return false
    let keyLen ← beUint16 (← window header 2 4)
    let bodyLen ← beUint32 (← window header 8 12)
    if bodyLen < keyLen + extrasLen then
      return false
    return memcachedBinaryKeyLengthOK keyMode keyLen

def matchMemcachedBinaryHeaderPrefix : Checked State := do
  if data.length = 0 then
    return .needMore
  if (← index data 0) ≠ 0x80 then
    return .mismatch
  if ← whenPresent data 2 (do
      return (memcachedBinaryRequestOpcodeRules (← index data 1)).isNone) then
    return .mismatch
  if ← whenPresent data 6 (do return (← index data 5) ≠ 0) then
    return .mismatch
  if data.length < memcachedBinaryHeaderBytes then
    return .needMore
  return ofBool (← validMemcachedBinaryHeader data)

theorem validMemcachedBinaryHeader_safe : Safe (validMemcachedBinaryHeader header) := by
  apply Safe.guard
  intro full
  simp only [memcachedBinaryHeaderBytes, not_not] at full
  apply readAt ?_
  intro magic
  apply readAt ?_
  intro dataType
  apply skip
  apply readAt ?_
  intro opcode
  split
  · exact safe_ok _
  · apply readAt ?_
    intro extras
    apply skip
    apply readNumberAt reads_beUint16
    intro keyLen
    apply readNumberAt reads_beUint32
    intro bodyLen
    apply skip
    exact safe_ok _

theorem matchMemcachedBinaryHeaderPrefix_safe : Safe (matchMemcachedBinaryHeaderPrefix data) := by
  apply Safe.guard
  intro nonempty
  apply readAt ?_
  intro magic
  apply skip
  apply check
  · intro present
    exact lastAt
  apply check
  · intro present
    exact lastAt
  apply skip
  exact Safe.map (validMemcachedBinaryHeader_safe data)

def memcachedASCIIRequestMaxBytes : ℕ := 512

def validMemcachedToken (token : List UInt8) : Bool :=
  token.length ≠ 0 && token.all fun byte => !(byte ≤ 32 || byte = 0x7f)

def validMemcachedKey (key : List UInt8) : Bool :=
  key.length ≤ 250 && validMemcachedToken key

def validMemcachedKeys : Bool :=
  tokens.length ≠ 0 && tokens.all validMemcachedKey

def validMemcachedDecimal (token : List UInt8) : Bool :=
  token.length ≠ 0 && token.length ≤ 20 && token.all fun byte => 48 ≤ byte && byte ≤ 57

def validMemcachedNoReply (baseTokens : ℕ) : Checked Bool := do
  if tokens.length ≠ baseTokens + 1 then
    return false
  return (← index tokens baseTokens) = bytes "noreply"

/-- The count of tokens of a command with `baseTokens` of them, with or without `noreply`. -/
def memcachedTokenCount (baseTokens : ℕ) : Checked Bool := do
  if tokens.length = baseTokens then
    return true
  validMemcachedNoReply tokens baseTokens

def validMemcachedStorageCommand (baseTokens : ℕ) : Checked Bool := do
  if ¬(← memcachedTokenCount tokens baseTokens) then
    return false
  if ¬validMemcachedKey (← index tokens 1) then
    return false
  return (← window tokens 2 baseTokens).all validMemcachedDecimal

/-- `delete` and `verbosity`: one argument of a given form. -/
def validMemcachedOneArgument (valid : List UInt8 → Bool) (tokens : List (List UInt8)) :
    Checked Bool := do
  if ¬(← memcachedTokenCount tokens 2) then
    return false
  return valid (← index tokens 1)

/-- `incr`, `decr` and `touch`: a key and a number. -/
def validMemcachedKeyAndNumber : Checked Bool := do
  if ¬(← memcachedTokenCount tokens 3) then
    return false
  if ¬validMemcachedKey (← index tokens 1) then
    return false
  return validMemcachedDecimal (← index tokens 2)

def validMemcachedFlushAll : Checked Bool := do
  match tokens.length with
  | 1 => return true
  | 2 =>
    let argument ← index tokens 1
    return argument = bytes "noreply" ∨ validMemcachedDecimal argument
  | 3 => return validMemcachedDecimal (← index tokens 1) ∧ (← index tokens 2) = bytes "noreply"
  | _ => return false

def validMemcachedASCIIRequestLine (line : List UInt8) : Checked Bool := do
  let tokens := line.splitOn 32
  if tokens.length = 0 ∨ tokens.any List.isEmpty then
    return false
  let command ← index tokens 0
  if command ∈ ["get", "gets"].map bytes then
    return 2 ≤ tokens.length && validMemcachedKeys (← windowFrom tokens 1)
  if command ∈ ["set", "add", "replace", "append", "prepend"].map bytes then
    validMemcachedStorageCommand tokens 5
  else if command = bytes "cas" then
    validMemcachedStorageCommand tokens 6
  else if command = bytes "delete" then
    validMemcachedOneArgument validMemcachedKey tokens
  else if command ∈ ["incr", "decr", "touch"].map bytes then
    validMemcachedKeyAndNumber tokens
  else if command = bytes "flush_all" then
    validMemcachedFlushAll tokens
  else if command = bytes "stats" then
    return (← windowFrom tokens 1).all validMemcachedToken
  else if command ∈ ["version", "quit"].map bytes then
    return tokens.length = 1
  else if command = bytes "verbosity" then
    validMemcachedOneArgument validMemcachedDecimal tokens
  else
    return false

theorem validMemcachedNoReply_safe (baseTokens : ℕ) :
    Safe (validMemcachedNoReply tokens baseTokens) := by
  apply Safe.guard
  intro counted
  exact lastAt

theorem memcachedTokenCount_safe (baseTokens : ℕ) :
    Safe (memcachedTokenCount tokens baseTokens) := by
  apply skip
  exact validMemcachedNoReply_safe tokens baseTokens

theorem le_length_of_memcachedTokenCount {tokens : List (List UInt8)} {baseTokens : ℕ}
    (counted : memcachedTokenCount tokens baseTokens = .ok true) : baseTokens ≤ tokens.length := by
  by_cases exactly : tokens.length = baseTokens
  · omega
  · by_cases withReply : tokens.length = baseTokens + 1
    · omega
    · simp [memcachedTokenCount, validMemcachedNoReply, exactly, withReply] at counted

theorem afterTokenCount {baseTokens : ℕ} {rest : Checked Bool}
    (safeRest : baseTokens ≤ tokens.length → Safe rest) :
    Safe (memcachedTokenCount tokens baseTokens >>= fun right =>
      if ¬right then pure false else rest) := by
  apply Safe.bind (memcachedTokenCount_safe tokens baseTokens)
  intro right counted
  apply Safe.guard
  intro isRight
  simp only [not_not] at isRight
  exact safeRest (le_length_of_memcachedTokenCount (isRight ▸ counted))

theorem validMemcachedStorageCommand_safe {baseTokens : ℕ} (base : 2 ≤ baseTokens) :
    Safe (validMemcachedStorageCommand tokens baseTokens) := by
  apply afterTokenCount
  intro enough
  apply readAt ?_
  intro key
  apply skip
  apply readWindow ?_ base enough
  intro numbers numbersLength
  exact safe_ok _

theorem validMemcachedOneArgument_safe (valid : List UInt8 → Bool)
    (tokens : List (List UInt8)) : Safe (validMemcachedOneArgument valid tokens) := by
  apply afterTokenCount
  intro enough
  exact lastAt

theorem validMemcachedKeyAndNumber_safe : Safe (validMemcachedKeyAndNumber tokens) := by
  apply afterTokenCount
  intro enough
  apply readAt ?_
  intro key
  apply skip
  exact lastAt

theorem validMemcachedFlushAll_safe : Safe (validMemcachedFlushAll tokens) := by
  unfold validMemcachedFlushAll
  split
  next one =>
    exact safe_ok _
  next two =>
    exact lastAt
  next three =>
    apply readAt ?_
    intro argument
    exact lastAt
  next =>
    exact safe_ok _

theorem validMemcachedASCIIRequestLine_safe (line : List UInt8) :
    Safe (validMemcachedASCIIRequestLine line) := by
  apply Safe.guard
  intro tokenized
  apply readAt ?_
  intro command
  apply Safe.ite
  · intro retrieval
    apply readFrom ?_
    intro keys keysLength
    exact safe_ok _
  intro _
  apply Safe.ite
  · intro storage
    exact validMemcachedStorageCommand_safe _ (by omega)
  intro _
  apply Safe.ite
  · intro compareAndSwap
    exact validMemcachedStorageCommand_safe _ (by omega)
  intro _
  apply Safe.ite
  · intro delete
    exact validMemcachedOneArgument_safe _ _
  intro _
  apply Safe.ite
  · intro counter
    exact validMemcachedKeyAndNumber_safe _
  intro _
  apply Safe.ite
  · intro flush
    exact validMemcachedFlushAll_safe _
  intro _
  apply Safe.ite
  · intro stats
    apply readFrom ?_
    intro arguments argumentsLength
    exact safe_ok _
  intro _
  apply Safe.guard
  intro _
  apply Safe.ite
  · intro verbosity
    exact validMemcachedOneArgument_safe _ _
  intro unknown
  exact safe_ok _

end Gonnect.Sniffer
