import Gonnect.Sniffer.Feed

/-!
# The HTTP request classifier and the string matchers

A request line is collected byte by byte and matched against the configured method, target
and version. With a configured hostname the header lines follow, up to the `Host` field. The
string matchers, which the TLS classifier uses too, compare with exact values and with glob
patterns. Nothing is assumed about the functions of `Library`.
-/

namespace Gonnect.Sniffer

open Checked Safe

inductive HttpGlobToken where
  | literal (byte : UInt8)
  | any
  | star
deriving DecidableEq, Repr

def HttpGlobToken.matchesByte (token : HttpGlobToken) (byte : UInt8) : Bool :=
  match token with
  | .any => true
  | .literal expected => expected = byte
  | .star => false

/-- The tokens of a pattern. The flag says that the last byte was an escape. -/
def compileHTTPGlobFrom : Bool → List UInt8 → List HttpGlobToken
  | false, [] => []
  | true, [] => [.literal 92]
  | true, byte :: rest => .literal byte :: compileHTTPGlobFrom false rest
  | false, byte :: rest =>
    if byte = 92 then compileHTTPGlobFrom true rest
    else if byte = 42 then .star :: compileHTTPGlobFrom false rest
    else if byte = 63 then .any :: compileHTTPGlobFrom false rest
    else .literal byte :: compileHTTPGlobFrom false rest

def compileHTTPGlob (pattern : List UInt8) : List HttpGlobToken :=
  compileHTTPGlobFrom false pattern

/-- The loop over the stars that may remain when the value is used up. -/
def skipTrailingStars (pattern : List HttpGlobToken) (patternIndex : ℕ) : Checked ℕ :=
  if patternIndex < pattern.length then do
    if (← index pattern patternIndex) = .star then
      skipTrailingStars pattern (patternIndex + 1)
    else
      return patternIndex
  else
    return patternIndex
termination_by pattern.length - patternIndex

def retriesLeft (value : List UInt8) : Option (ℕ × ℕ) → ℕ
  | none => value.length + 1
  | some (_, starValueIndex) => value.length - starValueIndex

/--
What is left of the work of the glob loop. A retry moves the last star on by one
byte of the value, which outweighs everything between two retries.
-/
def globWork (pattern : List HttpGlobToken) (value : List UInt8) (patternIndex valueIndex : ℕ)
    (star : Option (ℕ × ℕ)) : ℕ :=
  retriesLeft value star * (value.length + pattern.length + 1) +
    (value.length - valueIndex) + (pattern.length - patternIndex)

variable {pattern : List HttpGlobToken} {value : List UInt8}

theorem globWork_star {patternIndex valueIndex : ℕ} {star : Option (ℕ × ℕ)}
    (behind : ∀ last ∈ star, last.2 ≤ valueIndex) (present : patternIndex < pattern.length) :
    globWork pattern value (patternIndex + 1) valueIndex (some (patternIndex, valueIndex)) <
      globWork pattern value patternIndex valueIndex star := by
  have older : retriesLeft value (some (patternIndex, valueIndex)) ≤ retriesLeft value star := by
    rcases star with _ | ⟨starIndex, starValueIndex⟩
    · simp only [retriesLeft]
      omega
    · have before : starValueIndex ≤ valueIndex := behind (starIndex, starValueIndex) rfl
      simp only [retriesLeft]
      omega
  have product := Nat.mul_le_mul_right (value.length + pattern.length + 1) older
  simp only [globWork]
  omega

theorem globWork_retry {patternIndex valueIndex starIndex starValueIndex : ℕ}
    (behind : ∀ last ∈ some (starIndex, starValueIndex), last.2 ≤ valueIndex)
    (inside : valueIndex < value.length) :
    globWork pattern value (starIndex + 1) (starValueIndex + 1)
        (some (starIndex, starValueIndex + 1)) <
      globWork pattern value patternIndex valueIndex (some (starIndex, starValueIndex)) := by
  have before : starValueIndex ≤ valueIndex := behind (starIndex, starValueIndex) rfl
  have onward : value.length - starValueIndex = value.length - (starValueIndex + 1) + 1 := by
    omega
  simp only [globWork, retriesLeft, onward, Nat.succ_mul]
  omega

/-- `httpGlobPattern.match` from the given positions; `star` is the last star and its value. -/
def globLoop (pattern : List HttpGlobToken) (value : List UInt8) (patternIndex valueIndex : ℕ)
    (star : Option (ℕ × ℕ)) (behind : ∀ last ∈ star, last.2 ≤ valueIndex) : Checked Bool :=
  if inside : valueIndex < value.length then
    if present : patternIndex < pattern.length then do
      let token ← index pattern patternIndex
      let byte ← index value valueIndex
      if token.matchesByte byte then
        globLoop pattern value (patternIndex + 1) (valueIndex + 1) star
          fun last isLast => Nat.le_succ_of_le (behind last isLast)
      else if token = .star then
        globLoop pattern value (patternIndex + 1) valueIndex (some (patternIndex, valueIndex))
          (by simp)
      else
        match star, behind with
        | some (starIndex, starValueIndex), behind =>
          globLoop pattern value (starIndex + 1) (starValueIndex + 1)
            (some (starIndex, starValueIndex + 1)) (by simp)
        | none, _ => return false
    else
      match star, behind with
      | some (starIndex, starValueIndex), behind =>
        globLoop pattern value (starIndex + 1) (starValueIndex + 1)
          (some (starIndex, starValueIndex + 1)) (by simp)
      | none, _ => return false
  else do
    return (← skipTrailingStars pattern patternIndex) = pattern.length
termination_by globWork pattern value patternIndex valueIndex star
decreasing_by
  · simp only [globWork]
    omega
  · exact globWork_star behind present
  · exact globWork_retry behind inside
  · exact globWork_retry behind inside

def HttpGlobPattern.matchValue (pattern : List HttpGlobToken) (value : List UInt8) : Checked Bool :=
  globLoop pattern value 0 0 none (by simp)

variable (pattern)

theorem skipTrailingStars_safe (patternIndex : ℕ) :
    Safe (skipTrailingStars pattern patternIndex) := by
  fun_induction skipTrailingStars pattern patternIndex with
  | case1 patternIndex inside ih =>
    apply readAt ?_
    intro token
    apply Safe.ite
    · intro star
      exact ih
    · intro other
      exact safe_ok _
  | case2 patternIndex outside =>
    exact safe_ok _

variable (value)

theorem globLoop_safe (patternIndex valueIndex : ℕ) (star : Option (ℕ × ℕ))
    (behind : ∀ last ∈ star, last.2 ≤ valueIndex) :
    Safe (globLoop pattern value patternIndex valueIndex star behind) := by
  fun_induction globLoop pattern value patternIndex valueIndex star behind with
  | case1 patternIndex valueIndex star behind inside present matchHypothesis starHypothesis
      retryHypothesis =>
      apply readAt ?_
      intro token
      apply readAt ?_
      intro byte
      apply Safe.ite
      · intro matching
        exact matchHypothesis
      · intro differing
        apply Safe.ite
        · intro isStar
          exact starHypothesis
        · intro notStar
          split
          · exact retryHypothesis
          · exact safe_ok _
  | case2 patternIndex valueIndex inside absent starIndex starValueIndex behind _
      retryHypothesis =>
      exact retryHypothesis
  | case3 =>
    exact safe_ok _
  | case4 patternIndex valueIndex star behind outside =>
    exact Safe.map (skipTrailingStars_safe pattern patternIndex)

structure HttpStringMatcher where
  exact : List (List UInt8)
  patterns : List (List HttpGlobToken)

namespace HttpStringMatcher

/-- `newHTTPStringMatcher`; the empty strings are left out. -/
def new (exact : List UInt8) (exacts patterns : List (List UInt8))
    (canonicalize : List UInt8 → List UInt8) : HttpStringMatcher where
  exact := ((exact :: exacts).filter (· ≠ [])).map canonicalize
  patterns := (patterns.filter (· ≠ [])).map fun pattern =>
    compileHTTPGlob (canonicalize pattern)

variable (matcher : HttpStringMatcher)

def configured : Bool :=
  matcher.exact.length ≠ 0 || matcher.patterns.length ≠ 0

def matchValue (value : List UInt8) : Checked Bool := do
  if ¬matcher.configured then
    return true
  if value ∈ matcher.exact then
    return true
  matcher.patterns.anyM fun pattern => HttpGlobPattern.matchValue pattern value

def matchAny (values : List (List UInt8)) : Checked Bool := do
  if ¬matcher.configured then
    return true
  values.anyM matcher.matchValue

theorem anyM_safe {α : Type} {test : α → Checked Bool} (safeTest : ∀ element, Safe (test element))
    (elements : List α) : Safe (elements.anyM test) := by
  induction elements with
  | nil =>
    exact safe_ok _
  | cons element rest ih =>
    apply Safe.bind (safeTest element)
    rintro (_ | _) tested
    · exact ih
    · exact safe_ok _

theorem matchValue_safe : Safe (matcher.matchValue value) := by
  apply skip
  apply skip
  apply anyM_safe
  intro pattern
  exact globLoop_safe pattern value 0 0 none _

theorem matchAny_safe (values : List (List UInt8)) : Safe (matcher.matchAny values) := by
  apply skip
  exact anyM_safe matcher.matchValue_safe values

end HttpStringMatcher

/-- What `url.Parse` gives for a text that it accepts. -/
structure ParsedURL where
  isAbs : Bool
  host : List UInt8
  hasUser : Bool
  hostname : List UInt8

structure Library where
  parseURL : List UInt8 → Option ParsedURL
  toLower : List UInt8 → List UInt8

structure HttpConfig where
  maxRequestLineBytes : ℕ
  maxHeaderBytes : ℕ
  method : HttpStringMatcher
  url : HttpStringMatcher
  version : HttpStringMatcher
  hostname : HttpStringMatcher

/-- `HTTPConfig`, for limits that are not negative. -/
structure RawHttpConfig where
  maxRequestLineBytes : ℕ := 0
  maxHeaderBytes : ℕ := 0
  method : List UInt8 := []
  methods : List (List UInt8) := []
  url : List UInt8 := []
  urls : List (List UInt8) := []
  urlPatterns : List (List UInt8) := []
  version : List UInt8 := []
  versions : List (List UInt8) := []
  hostname : List UInt8 := []
  hostnames : List (List UInt8) := []
  hostnamePatterns : List (List UInt8) := []

def defaultHTTPRequestLineMaxBytes : ℕ := 4096

def defaultHTTPHeaderMaxBytes : ℕ := 8192

def normalizeHTTPConfig (library : Library) (config : RawHttpConfig) : HttpConfig where
  maxRequestLineBytes :=
    if config.maxRequestLineBytes = 0 then defaultHTTPRequestLineMaxBytes
    else config.maxRequestLineBytes
  maxHeaderBytes :=
    if config.maxHeaderBytes = 0 then defaultHTTPHeaderMaxBytes else config.maxHeaderBytes
  method := .new config.method config.methods [] id
  url := .new config.url config.urls config.urlPatterns id
  version := .new config.version config.versions [] id
  hostname := .new config.hostname config.hostnames config.hostnamePatterns library.toLower

theorem normalizeHTTPConfig_positive (library : Library) (config : RawHttpConfig) :
    0 < (normalizeHTTPConfig library config).maxRequestLineBytes ∧
      0 < (normalizeHTTPConfig library config).maxHeaderBytes := by
  simp only [normalizeHTTPConfig, defaultHTTPRequestLineMaxBytes, defaultHTTPHeaderMaxBytes]
  constructor <;> split_ifs <;> omega

structure HttpInfo where
  method : List UInt8 := []
  url : List UInt8 := []
  version : List UInt8 := []
  hostname : List UInt8 := []

inductive HttpParsePhase where
  | requestLine
  | header
deriving DecidableEq

structure HttpMemory where
  phase : HttpParsePhase := .requestLine
  line : List UInt8 := []
  headerBytes : ℕ := 0
  info : HttpInfo := {}

/-- `bytes.TrimSuffix` for a suffix of one byte. -/
def trimSuffixByte (data : List UInt8) (byte : UInt8) : List UInt8 :=
  if data.getLast? = some byte then data.dropLast else data

/-- `bytes.Cut` for a separator of one byte. -/
def cutByte (data : List UInt8) (byte : UInt8) : Option (List UInt8 × List UInt8) :=
  match data.span (· ≠ byte) with
  | (_, []) => none
  | (before, _ :: after) => some (before, after)

def isHTTPTokenByte (byte : UInt8) : Bool :=
  (48 ≤ byte && byte ≤ 57) || (65 ≤ byte && byte ≤ 90) || (97 ≤ byte && byte ≤ 122) ||
    byte ∈ bytes "!#$%&'*+-.^_\x60|~"

def validHTTPMethod (method : List UInt8) : Bool :=
  method.length ≠ 0 && method.all isHTTPTokenByte

def validHTTPRequestTarget (target : List UInt8) : Bool :=
  target.length ≠ 0 && target.all fun byte => !(byte ≤ 32 || byte = 0x7f)

def validHTTPVersion (version : List UInt8) : Checked Bool := do
  if ¬(bytes "HTTP/").isPrefixOf version ∨ version.length = (bytes "HTTP/").length then
    return false
  return (← windowFrom version (bytes "HTTP/").length).all fun byte =>
    !(byte ≤ 32 || byte = 0x7f)

/-- `bytes.EqualFold(name, "Host")` for a name of token bytes, which are all ASCII. -/
def isHostField (name : List UInt8) : Bool :=
  (name.map fun byte => if 65 ≤ byte ∧ byte ≤ 90 then byte + 32 else byte) = bytes "host"

/-- `bytes.Trim(value, " \t")` -/
def trimBlanks (value : List UInt8) : List UInt8 :=
  let blank (byte : UInt8) : Bool := byte = 32 || byte = 9
  ((value.dropWhile blank).reverse.dropWhile blank).reverse

section Classifier

variable (library : Library) (config : HttpConfig)

def normalizeHTTPHostname (host : List UInt8) : Option (List UInt8) :=
  if host = [] ∨ host.any (fun byte => byte ∈ ([32, 9, 13, 10] : List UInt8)) then
    none
  else
    match library.parseURL (bytes "//" ++ host) with
    | none => none
    | some parsed =>
      if parsed.host = [] ∨ parsed.hasUser ∨ parsed.hostname = [] then none
      else some (library.toLower parsed.hostname)

def hostnameFromAbsoluteRequestTarget (target : List UInt8) : Option (List UInt8) :=
  match library.parseURL target with
  | none => none
  | some parsed =>
    if ¬parsed.isAbs ∨ parsed.host = [] then none
    else normalizeHTTPHostname library parsed.host

def hostnameFromHostHeaderValue (value : List UInt8) : Option (List UInt8) :=
  let value := trimBlanks value
  if value.length = 0 then none else normalizeHTTPHostname library value

variable (memory : HttpMemory)

def matchRequestLine : Checked (HttpMemory × State) := do
  let line := trimSuffixByte (trimSuffixByte memory.line 10) 13
  match cutByte line 32 with
  | none => return (memory, .mismatch)
  | some (method, rest) =>
    if ¬validHTTPMethod method then
      return (memory, .mismatch)
    match cutByte rest 32 with
    | none => return (memory, .mismatch)
    | some (target, version) =>
      if ¬validHTTPRequestTarget target then
        return (memory, .mismatch)
      if ¬(← validHTTPVersion version) then
        return (memory, .mismatch)
      if ¬(← config.method.matchValue method) then
        return (memory, .mismatch)
      if ¬(← config.url.matchValue target) then
        return (memory, .mismatch)
      if ¬(← config.version.matchValue version) then
        return (memory, .mismatch)
      let info : HttpInfo := { method := method, url := target, version := version }
      let visible := hostnameFromAbsoluteRequestTarget library target
      if ¬config.hostname.configured then
        return ({ memory with info := { info with hostname := visible.getD [] } }, .matched)
      let headers : HttpMemory := { memory with info := info, phase := .header, line := [] }
      match visible with
      | none => return (headers, .needMore)
      | some hostname =>
        if ← config.hostname.matchValue hostname then
          return ({ memory with info := { info with hostname := hostname } }, .matched)
        return (headers, .needMore)

def matchHeaderLine : Checked (HttpMemory × State) := do
  let line := trimSuffixByte (trimSuffixByte memory.line 10) 13
  let memory := { memory with line := [] }
  if line.length = 0 then
    return (memory, .mismatch)
  match cutByte line 58 with
  | none => return (memory, .mismatch)
  | some (name, value) =>
    if ¬validHTTPMethod name then
      return (memory, .mismatch)
    if ¬isHostField name then
      return (memory, .needMore)
    match hostnameFromHostHeaderValue library value with
    | none => return (memory, .mismatch)
    | some hostname =>
      if ¬(← config.hostname.matchValue hostname) then
        return (memory, .mismatch)
      return ({ memory with info := { memory.info with hostname := hostname } }, .matched)

variable (byte : UInt8)

def feedRequestLineByte : Checked (HttpMemory × State) := do
  if memory.line.length = config.maxRequestLineBytes then
    return (memory, .mismatch)
  if (← endsWithCarriage memory.line) ∧ byte ≠ 10 then
    return (memory, .mismatch)
  if byte ≠ 13 ∧ byte ≠ 10 ∧ (byte < 32 ∨ byte = 0x7f) then
    return (memory, .mismatch)
  let memory := { memory with line := memory.line ++ [byte] }
  if byte = 10 then
    matchRequestLine library config memory
  else if memory.line.length = config.maxRequestLineBytes then
    return (memory, .mismatch)
  else
    return (memory, .needMore)

/-- The header line is looked at when its last byte is there. -/
def headerLineEnd : Checked (HttpMemory × State) :=
  if byte = 10 then matchHeaderLine library config memory else .ok (memory, .needMore)

def feedHeaderByte : Checked (HttpMemory × State) := do
  if memory.headerBytes = config.maxHeaderBytes then
    return (memory, .mismatch)
  if (← endsWithCarriage memory.line) ∧ byte ≠ 10 then
    return (memory, .mismatch)
  if byte ≠ 9 ∧ byte ≠ 13 ∧ byte ≠ 10 ∧ byte < 32 then
    return (memory, .mismatch)
  if byte = 0x7f then
    return (memory, .mismatch)
  let memory :=
    { memory with headerBytes := memory.headerBytes + 1, line := memory.line ++ [byte] }
  let (memory, state) ← headerLineEnd library config memory byte
  if state ≠ .needMore then
    return (memory, state)
  if memory.headerBytes = config.maxHeaderBytes then
    return (memory, .mismatch)
  return (memory, .needMore)

def httpStep : Checked (HttpMemory × State) :=
  match memory.phase with
  | .requestLine => feedRequestLineByte library config memory byte
  | .header => feedHeaderByte library config memory byte

theorem validHTTPVersion_safe (version : List UInt8) : Safe (validHTTPVersion version) := by
  apply Safe.guard
  intro started
  simp only [not_or, not_not, List.isPrefixOf_iff_prefix] at started
  apply readFrom ?_ started.1.length_le
  intro part partLength
  exact safe_ok _

theorem matchRequestLine_safe : Safe (matchRequestLine library config memory) := by
  unfold matchRequestLine
  dsimp only
  split
  next => exact safe_ok _
  next method rest cutMethod =>
    apply skip
    split
    next => exact safe_ok _
    next target version cutTarget =>
      apply skip
      apply Safe.bind (validHTTPVersion_safe version)
      intro validVersion versionRead
      apply skip
      apply Safe.bind (config.method.matchValue_safe method)
      intro methodMatches methodRead
      apply skip
      apply Safe.bind (config.url.matchValue_safe target)
      intro urlMatches urlRead
      apply skip
      apply Safe.bind (config.version.matchValue_safe version)
      intro versionMatches versionTested
      apply skip
      apply skip
      split
      next => exact safe_ok _
      next hostname visible =>
        apply Safe.bind (config.hostname.matchValue_safe hostname)
        intro hostnameMatches hostnameRead
        apply skip
        exact safe_ok _

theorem matchHeaderLine_safe : Safe (matchHeaderLine library config memory) := by
  apply skip
  split
  next => exact safe_ok _
  next name value cut =>
    apply skip
    apply skip
    split
    next => exact safe_ok _
    next hostname visible =>
      apply Safe.bind (config.hostname.matchValue_safe hostname)
      intro hostnameMatches hostnameRead
      apply skip
      exact safe_ok _

theorem feedRequestLineByte_safe : Safe (feedRequestLineByte library config memory byte) := by
  apply skip
  apply Safe.bind (endsWithCarriage_safe memory.line)
  intro carriage read
  apply skip
  apply skip
  apply Safe.ite
  · intro lineEnd
    exact matchRequestLine_safe library config _
  · intro inLine
    apply skip
    exact safe_ok _

theorem feedHeaderByte_safe : Safe (feedHeaderByte library config memory byte) := by
  apply skip
  apply Safe.bind (endsWithCarriage_safe memory.line)
  intro carriage read
  apply skip
  apply skip
  apply skip
  apply Safe.bind
  · apply Safe.ite
    · intro lineEnd
      exact matchHeaderLine_safe library config _
    · intro inLine
      exact safe_ok _
  rintro ⟨next, state⟩ lineRead
  apply skip
  apply skip
  exact safe_ok _

theorem httpStep_safe : Safe (httpStep library config memory byte) := by
  unfold httpStep
  split
  next => exact feedRequestLineByte_safe library config memory byte
  next => exact feedHeaderByte_safe library config memory byte

end Classifier

end Gonnect.Sniffer
