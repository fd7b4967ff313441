import Gonnect.Sniffer.Http

/-!
# The TLS ClientHello classifier

The stream is a sequence of records. The fragments of the handshake records are
joined until they hold a whole ClientHello, whose body is then taken apart:
legacy version, random, session id, cipher suites, compression methods and
extensions. Every length in it is chosen by the client.
-/

namespace Gonnect.Sniffer

open Checked

structure TlsClientHelloInfo where
  versions : List ℕ := []
  sniHostname : List UInt8 := []
  sniEncrypted : Bool := false
  alpnProtocols : List (List UInt8) := []

inductive TlsParse where
  | needMore (needBytes : ℕ)
  | mismatch
  | matched (info : TlsClientHelloInfo)

def tlsRecordHeaderBytes : ℕ := 5

def tlsHandshakeHeaderBytes : ℕ := 4

def tlsPlaintextMaxBytes : ℕ := 2 ^ 14

/-- Major version 3 and a minor version of SSL 3.0 up to TLS 1.3. -/
def validTLSRecordVersion (version : ℕ) : Bool :=
  version / 256 = 3 && version % 256 ≤ 4

section Extensions

variable (library : Library)

def normalizeTLSHostname (hostname : List UInt8) : Option (List UInt8) :=
  if hostname = [] ∨ hostname.getLast? = some 46 then
    none
  else if hostname.any fun byte =>
      byte ≤ 32 || byte = 0x7f || byte ∈ ([47, 92, 58, 91, 93, 64] : List UInt8) then
    none
  else
    some (library.toLower hostname)

def parseTLSServerNames (data : List UInt8) (offset : ℕ) (hostname : List UInt8) :
    Checked (Option (List UInt8)) :=
  if offset < data.length then do
    if ¬protocolHasBytes data offset 3 then
      return none
    let nameType ← index data offset
    let nameLen ← beUint16 (← windowFrom data (offset + 1))
    if nameLen = 0 ∨ ¬protocolHasBytes data (offset + 3) nameLen then
      return none
    if nameType = 0 then
      if hostname ≠ [] then
        return none
      let name ← window data (offset + 3) (offset + 3 + nameLen)
      match normalizeTLSHostname library name with
      | none => return none
      | some normalized => parseTLSServerNames data (offset + 3 + nameLen) normalized
    else
      parseTLSServerNames data (offset + 3 + nameLen) hostname
  else
    return some hostname
termination_by data.length - offset

variable (data : List UInt8)

def parseTLSServerNameExtension : Checked (Option (List UInt8)) := do
  if ¬protocolHasBytes data 0 2 then
    return none
  let listLen ← beUint16 data
  if listLen = 0 ∨ listLen ≠ data.length - 2 then
    return none
  parseTLSServerNames library data 2 []

def parseTLSALPNProtocols (data : List UInt8) (offset : ℕ) (protocols : List (List UInt8)) :
    Checked (Option (List (List UInt8))) :=
  if offset < data.length then do
    let protocolLen := (← index data offset).toNat
    if protocolLen = 0 ∨ ¬protocolHasBytes data (offset + 1) protocolLen then
      return none
    let protocol ← window data (offset + 1) (offset + 1 + protocolLen)
    parseTLSALPNProtocols data (offset + 1 + protocolLen) (protocols ++ [protocol])
  else
    return some protocols
termination_by data.length - offset

def parseTLSALPNExtension : Checked (Option (List (List UInt8))) := do
  if ¬protocolHasBytes data 0 2 then
    return none
  let listLen ← beUint16 data
  if listLen = 0 ∨ listLen ≠ data.length - 2 then
    return none
  parseTLSALPNProtocols data 2 []

def parseTLSVersions (data : List UInt8) (offset : ℕ) (versions : List ℕ) : Checked (List ℕ) :=
  if offset < data.length then do
    let version ← beUint16 (← windowFrom data offset)
    parseTLSVersions data (offset + 2) (versions ++ [version])
  else
    return versions
termination_by data.length - offset

def parseTLSSupportedVersionsExtension : Checked (Option (List ℕ)) := do
  if data.length < 3 then
    return none
  let listLen := (← index data 0).toNat
  if listLen < 2 ∨ listLen % 2 ≠ 0 ∨ listLen ≠ data.length - 1 then
    return none
  return some (← parseTLSVersions data 1 [])

def applyTLSExtension (extensionType : ℕ) (extensionData : List UInt8)
    (info : TlsClientHelloInfo) : Checked (Option TlsClientHelloInfo) := do
  match extensionType with
  | 0 =>
    match ← parseTLSServerNameExtension library extensionData with
    | none => return none
    | some hostname => return some { info with sniHostname := hostname }
  | 16 =>
    match ← parseTLSALPNExtension extensionData with
    | none => return none
    | some protocols => return some { info with alpnProtocols := protocols }
  | 43 =>
    match ← parseTLSSupportedVersionsExtension extensionData with
    | none => return none
    | some versions => return some { info with versions := versions }
  | 0xfe0d => return some { info with sniEncrypted := true }
  | _ => return some info

/-- The extensions from `offset` on; `seen` are the types met before. -/
def parseTLSExtensions (extensions : List UInt8) (offset : ℕ) (seen : List ℕ)
    (info : TlsClientHelloInfo) : Checked (Option TlsClientHelloInfo) :=
  if offset < extensions.length then do
    if ¬protocolHasBytes extensions offset 4 then
      return none
    let extensionType ← beUint16 (← windowFrom extensions offset)
    let extensionLen ← beUint16 (← windowFrom extensions (offset + 2))
    if extensionType ∈ seen then
      return none
    if ¬protocolHasBytes extensions (offset + 4) extensionLen then
      return none
    let extensionData ← window extensions (offset + 4) (offset + 4 + extensionLen)
    match ← applyTLSExtension library extensionType extensionData info with
    | none => return none
    | some info =>
      parseTLSExtensions extensions (offset + 4 + extensionLen) (extensionType :: seen) info
  else
    return some info
termination_by extensions.length - offset

end Extensions

section Hello

variable (library : Library) (body handshake : List UInt8)

def parseTLSHelloTail (info : TlsClientHelloInfo) : Checked (Option TlsClientHelloInfo) := do
  let sessionIDLen := (← index body 34).toNat
  if 32 < sessionIDLen ∨ ¬protocolHasBytes body 35 sessionIDLen then
    return none
  let offset := 35 + sessionIDLen
  if ¬protocolHasBytes body offset 2 then
    return none
  let cipherSuitesLen ← beUint16 (← windowFrom body offset)
  let offset := offset + 2
  if cipherSuitesLen < 2 ∨ cipherSuitesLen % 2 ≠ 0 ∨
      ¬protocolHasBytes body offset cipherSuitesLen then
    return none
  let offset := offset + cipherSuitesLen
  if ¬protocolHasBytes body offset 1 then
    return none
  let compressionMethodsLen := (← index body offset).toNat
  let offset := offset + 1
  if compressionMethodsLen = 0 ∨ ¬protocolHasBytes body offset compressionMethodsLen then
    return none
  let offset := offset + compressionMethodsLen
  if offset = body.length then
    return some info
  if ¬protocolHasBytes body offset 2 then
    return none
  let extensionsLen ← beUint16 (← windowFrom body offset)
  let offset := offset + 2
  if extensionsLen = 0 ∨ ¬protocolHasBytes body offset extensionsLen then
    return none
  if offset + extensionsLen ≠ body.length then
    return none
  let extensions ← windowFrom body offset
  parseTLSExtensions library extensions 0 [] info

def parseTLSClientHelloBody : Checked (Option TlsClientHelloInfo) := do
  if body.length < 34 then
    return none
  let legacyVersion ← beUint16 (← window body 0 2)
  if ¬validTLSRecordVersion legacyVersion then
    return none
  parseTLSHelloTail library body { versions := [legacyVersion] }

def checkTLSClientHelloHeader : Checked State := do
  if handshake.length = 0 then
    return .needMore
  if (← index handshake 0) ≠ 1 then
    return .mismatch
  if handshake.length < tlsHandshakeHeaderBytes then
    return .needMore
  let helloLength ← beUint24 (← window handshake 1 4)
  if helloLength = 0 then
    return .mismatch
  if handshake.length < tlsHandshakeHeaderBytes + helloLength then
    return .needMore
  return .matched

def tlsNeededHandshakeBytes : Checked ℕ := do
  if handshake.length < 1 then
    return 1
  if handshake.length < tlsHandshakeHeaderBytes then
    return tlsHandshakeHeaderBytes
  return tlsHandshakeHeaderBytes + (← beUint24 (← window handshake 1 4))

def tlsClientHelloNeedBytes (handshakeBeforeRecord fragmentStart fragmentEnd : ℕ) : Checked ℕ := do
  let neededHandshakeBytes ← tlsNeededHandshakeBytes handshake
  let neededInRecord := neededHandshakeBytes - handshakeBeforeRecord
  if 0 < neededInRecord ∧ fragmentStart + neededInRecord ≤ fragmentEnd then
    return fragmentStart + neededInRecord
  return fragmentEnd + tlsRecordHeaderBytes

def parseTLSWholeHello : Checked TlsParse := do
  let helloLength := tlsHandshakeHeaderBytes + (← beUint24 (← window handshake 1 4))
  let body ← window handshake tlsHandshakeHeaderBytes helloLength
  match ← parseTLSClientHelloBody library body with
  | none => return .mismatch
  | some info => return .matched info

/-- The loop of `parseTLSClientHello`, at a record boundary. -/
def parseTLSRecords (data handshake : List UInt8) (recordOffset : ℕ) : Checked TlsParse :=
  if data.length < recordOffset + tlsRecordHeaderBytes then
    return .needMore (recordOffset + tlsRecordHeaderBytes)
  else do
    let header ← window data recordOffset (recordOffset + tlsRecordHeaderBytes)
    if (← index header 0) ≠ 22 then
      return .mismatch
    if ¬validTLSRecordVersion (← beUint16 (← window header 1 3)) then
      return .mismatch
    let recordLength ← beUint16 (← window header 3 5)
    if recordLength = 0 ∨ tlsPlaintextMaxBytes < recordLength then
      return .mismatch
    let fragmentStart := recordOffset + tlsRecordHeaderBytes
    let fragmentEnd := fragmentStart + recordLength
    let availableEnd := min fragmentEnd data.length
    let joined := handshake ++ (← window data fragmentStart availableEnd)
    match ← checkTLSClientHelloHeader joined with
    | .mismatch => return .mismatch
    | .matched => parseTLSWholeHello library joined
    | .needMore =>
      if availableEnd < fragmentEnd then
        return .needMore
          (← tlsClientHelloNeedBytes joined handshake.length fragmentStart fragmentEnd)
      else
        parseTLSRecords data joined fragmentEnd
termination_by data.length - recordOffset
decreasing_by
  omega

def parseTLSClientHello (data : List UInt8) : Checked TlsParse :=
  parseTLSRecords library data [] 0

end Hello

inductive TlsFlag where
  | any
  | required
  | forbidden
deriving DecidableEq

def TlsFlag.matchValue (flag : TlsFlag) (value : Bool) : Bool :=
  match flag with
  | .any => true
  | .required => value
  | .forbidden => !value

/-- `tlsVersionMatcher.match`; an empty list of versions accepts everything. -/
def matchTLSVersions (wanted offered : List ℕ) : Bool :=
  wanted.length = 0 || wanted.any fun version => version ∈ offered

structure NormalizedTlsConfig where
  maxClientHelloBytes : ℕ
  versions : List ℕ
  sniAvailable : TlsFlag
  sniEncrypted : TlsFlag
  hostname : HttpStringMatcher
  alpn : HttpStringMatcher

/-- `TLSConfig`, for a limit that is not negative and flags that are in range. -/
structure TlsConfig where
  maxClientHelloBytes : ℕ := 0
  version : ℕ := 0
  versions : List ℕ := []
  sniAvailable : TlsFlag := .any
  sniEncrypted : TlsFlag := .any
  hostname : List UInt8 := []
  hostnames : List (List UInt8) := []
  hostnamePatterns : List (List UInt8) := []
  alpn : List UInt8 := []
  alpns : List (List UInt8) := []
  alpnPatterns : List (List UInt8) := []

section Feeding

variable (library : Library)

def normalizeTLSHostnamePattern (pattern : List UInt8) : List UInt8 :=
  (normalizeTLSHostname library pattern).getD (library.toLower pattern)

def normalizeTLSConfig (config : TlsConfig) : NormalizedTlsConfig where
  maxClientHelloBytes :=
    if config.maxClientHelloBytes = 0 then 64 * 1024 else config.maxClientHelloBytes
  versions := (config.version :: config.versions).filter (· ≠ 0)
  sniAvailable := config.sniAvailable
  sniEncrypted := config.sniEncrypted
  hostname := HttpStringMatcher.new config.hostname config.hostnames config.hostnamePatterns
    (normalizeTLSHostnamePattern library)
  alpn := HttpStringMatcher.new config.alpn config.alpns config.alpnPatterns id

structure TlsMemory where
  buf : List UInt8 := []
  needBytes : ℕ := tlsRecordHeaderBytes
  info : TlsClientHelloInfo := {}

variable (config : NormalizedTlsConfig)

def matchClientHello (info : TlsClientHelloInfo) : Checked Bool := do
  if ¬matchTLSVersions config.versions info.versions then
    return false
  if ¬config.sniAvailable.matchValue (info.sniHostname ≠ []) then
    return false
  if ¬config.sniEncrypted.matchValue info.sniEncrypted then
    return false
  if ¬(← config.hostname.matchValue info.sniHostname) then
    return false
  config.alpn.matchAny info.alpnProtocols

def tlsLook (memory : TlsMemory) : Checked (TlsMemory × State) := do
  if memory.buf.length < memory.needBytes then
    if memory.buf.length = config.maxClientHelloBytes then
      return (memory, .mismatch)
    return (memory, .needMore)
  match ← parseTLSClientHello library memory.buf with
  | .needMore needBytes =>
    let memory := { memory with needBytes := needBytes }
    if config.maxClientHelloBytes < needBytes ∨
        memory.buf.length = config.maxClientHelloBytes then
      return (memory, .mismatch)
    return (memory, .needMore)
  | .mismatch => return (memory, .mismatch)
  | .matched info =>
    let accepted ← matchClientHello config info
    return ({ memory with info := info }, State.ofBool accepted)

/-- The call of `tlsClassifier` on a chunk while the result is open. -/
def tlsFeed (memory : TlsMemory) (chunk : List UInt8) : Checked (TlsMemory × State) := do
  match ← appendBounded config.maxClientHelloBytes memory.buf chunk with
  | none => return (memory, .mismatch)
  | some buf => tlsLook library config { memory with buf := buf }

end Feeding

end Gonnect.Sniffer
