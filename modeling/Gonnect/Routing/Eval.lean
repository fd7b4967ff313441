import Gonnect.Foundation.Text
import Gonnect.Net.Addr
import Gonnect.Routing.Bytecode

/-!
# Tables, addresses and the predicates of routing programs

The predicates of a program look at the two endpoints of a call and at tables that the rules
bring along. Strings, regular expressions and addresses are named by a table index, so each
such predicate is a checked read of a table.

An `AddrInput` has the host, the address and the ports that the program sees, and a regular
expression is the set of the texts that it matches.
-/

namespace Gonnect.Routing

open Checked StraightLine Netip

abbrev Regexp := Text → Bool

structure IPv4Subnet where
  addr : BitVec 32
  bits : UInt8
deriving DecidableEq

/-- `IPv4Subnet.contains`; the shift count is an unsigned byte. -/
def IPv4Subnet.contains (subnet : IPv4Subnet) (addr : BitVec 32) : Bool :=
  if subnet.bits = 0 then
    true
  else
    let mask := BitVec.allOnes 32 <<< (32 - subnet.bits).toNat
    addr &&& mask == subnet.addr &&& mask

/-- The tables of a rule set. A regular expression may be missing here. -/
structure RawTables where
  strings : List Text
  regexps : List (Option Regexp)
  ipv4Addrs : List (BitVec 32)
  ipv4Subnets : List IPv4Subnet
  ipv6Addrs : List Addr
  ipv6Subnets : List Prefix

structure Tables where
  strings : List Text
  regexps : List Regexp
  ipv4Addrs : List (BitVec 32)
  ipv4Subnets : List IPv4Subnet
  ipv6Addrs : List Addr
  ipv6Subnets : List Prefix

inductive RuleError where
  | nilRegexp (position : ℕ)
  | subnetLength (position : ℕ) (bits : UInt8)
  | notIPv6Addr (position : ℕ) (addr : Addr)
  | notIPv6Subnet (position : ℕ) (subnet : Prefix)
  | bytecode (error : BytecodeError)
  | emptyClassifierName (position : ℕ)
  | spaceInClassifierName (position : ℕ) (name : Text)
  | classifierFactory (name : Text)
  | duplicateClassifier (name : Text)
  | emptyBackend (position : ℕ)
  | remapEndpoint (position endpoint : ℕ)
  | remapField (position field : ℕ)
  | remapText (position : ℕ) (field : String)
  | noSystem
  | ruleMatcher (position : ℕ)

def firstFailure {α : Type} (valid : α → Bool) (table : List α) : Option (ℕ × α) :=
  table.zipIdx.findSome? fun (entry, position) =>
    if valid entry then none else some (position, entry)

def validateTables (tables : RawTables) : Except RuleError Unit :=
  match firstFailure (fun subnet : IPv4Subnet => subnet.bits ≤ 32) tables.ipv4Subnets with
  | some (position, subnet) => .error (.subnetLength position subnet.bits)
  | none =>
    match firstFailure Addr.is6 tables.ipv6Addrs with
    | some (position, addr) => .error (.notIPv6Addr position addr)
    | none =>
      match firstFailure (fun subnet : Prefix => subnet.isValid && subnet.addr.is6)
          tables.ipv6Subnets with
      | some (position, subnet) => .error (.notIPv6Subnet position subnet)
      | none => .ok ()

/-- The loop that refuses a missing regular expression, and the check of the tables. -/
def RawTables.validate (tables : RawTables) : Except RuleError Tables :=
  match firstFailure Option.isSome tables.regexps with
  | some (position, _) => .error (.nilRegexp position)
  | none => do
      validateTables tables
      .ok { tables with regexps := tables.regexps.reduceOption }

/-- An endpoint as the program sees it. The port may depend on the network, since it may
be given by the name of a service. -/
structure AddrInput where
  host : Text
  ip : Addr
  port : Text → ℤ

/-- `addrCache`: an endpoint and, if the program looks at names at all, the names stored
for an address. -/
structure AddrCache where
  input : AddrInput
  reverseStorage : Option (Addr → List Text)

def newAddrCache (input : AddrInput) (storage : Option (Addr → List Text)) (reverse : Bool) :
    AddrCache where
  input := input
  reverseStorage := if reverse then storage else none

def dnsNameEqual (name want : Text) : Bool :=
  let dot := UInt8.ofNat '.'.toNat
  if name = want then
    true
  else if name.length = want.length + 1 then
    want.length > 0 && want.getLast? != some dot && name[want.length]? == some dot &&
      name.take want.length == want
  else if want.length = name.length + 1 then
    name.length > 0 && name.getLast? != some dot && want[name.length]? == some dot &&
      want.take name.length == name
  else
    false

def matchDNSNameRegexp (regexp : Regexp) (name : Text) : Bool :=
  let dot := UInt8.ofNat '.'.toNat
  if regexp name then
    true
  else if name.length > 1 ∧ name.getLast? = some dot ∧ name.dropLast.getLast? ≠ some dot then
    regexp name.dropLast
  else if name ≠ [] ∧ name.getLast? ≠ some dot then
    regexp (name ++ [dot])
  else
    false

namespace AddrCache

variable (addr : AddrCache)

def host : Text :=
  addr.input.host

def ip : Addr :=
  addr.input.ip

def port (network : Text) : ℤ :=
  addr.input.port network

def isFQDN : Bool :=
  addr.host != [] && !addr.ip.isValid

def isIPv4 : Bool :=
  addr.ip.is4

def isIPv6 : Bool :=
  addr.ip.is6

def matchIPv4 (want : BitVec 32) : Bool :=
  match addr.ip.as4 with
  | some value => value == want
  | none => false

def inIPv4Subnet (subnet : IPv4Subnet) : Bool :=
  match addr.ip.as4 with
  | some value => subnet.contains value
  | none => false

def ipv6 : Addr :=
  if addr.ip.is6 then addr.ip else .zero

def reverseDNSNames : List Text :=
  match addr.reverseStorage with
  | some names => if addr.ip.isValid then names addr.ip else []
  | none => []

def matchString (want : Text) : Bool :=
  addr.host == want || addr.reverseDNSNames.any (dnsNameEqual · want)

def matchRegexp (regexp : Regexp) : Bool :=
  regexp addr.host || addr.reverseDNSNames.any (matchDNSNameRegexp regexp)

end AddrCache

/-- `bytecodeEval`: the call that a program decides on. -/
structure Eval where
  network : Text
  laddr : AddrCache
  raddr : AddrCache
  isDial : Bool
  isListen : Bool
  isLookup : Bool

variable (network : Text)

def isNet4 : Bool :=
  hasSuffix network (bytes "4")

def isNet6 : Bool :=
  hasSuffix network (bytes "6")

def isTCPNet : Bool :=
  network == bytes "tcp" || network == bytes "tcp4" || network == bytes "tcp6"

def isUDPNet : Bool :=
  network == bytes "udp" || network == bytes "udp4" || network == bytes "udp6"

namespace Eval

def isNet4 (ev : Eval) : Bool :=
  if Routing.isNet4 ev.network then true
  else if Routing.isNet6 ev.network then false
  else ev.laddr.isIPv4 || ev.raddr.isIPv4

def isNet6 (ev : Eval) : Bool :=
  if Routing.isNet6 ev.network then true
  else if Routing.isNet4 ev.network then false
  else ev.laddr.isIPv6 || ev.raddr.isIPv6

def portNetwork (ev : Eval) : Text :=
  if isTCPNet ev.network then bytes "tcp"
  else if isUDPNet ev.network then bytes "udp"
  else ev.network

end Eval

def bytecodeParamIndex (param size : ℕ) : Option ℕ :=
  if size = 0 then none else if param ≥ size then none else some param

def bytecodeParamInt (param : ℕ) (limit : ℤ) : Option ℕ :=
  if limit < 0 then none else if param > limit then none else some param

/-- `idx, ok := bytecodeParamIndex(param, len(table)); ok && test(table[idx])` -/
def testEntry {α : Type} (table : List α) (param : ℕ) (test : α → Bool) : Checked Bool :=
  match bytecodeParamIndex param table.length with
  | none => .ok false
  | some idx => do
      let entry ← index table idx
      .ok (test entry)

/-- `port, ok := bytecodeParamInt(param, 0xffff); ok && actual == port` -/
def testPort (param : ℕ) (actual : ℤ) : Bool :=
  match bytecodeParamInt param 0xffff with
  | none => false
  | some port => actual == port

/-- The predicate cases that the switches of the router, the sniffer and the remapper
have in common. -/
def Tables.predicate (tables : Tables) (ev : Eval) (op : Op) (param : ℕ) : Option (Checked Bool) :=
  match op with
  | .net4 => some (.ok ev.isNet4)
  | .net6 => some (.ok ev.isNet6)
  | .udp => some (.ok (isUDPNet ev.network))
  | .tcp => some (.ok (isTCPNet ev.network))
  | .dial => some (.ok ev.isDial)
  | .listen => some (.ok ev.isListen)
  | .lookup => some (.ok ev.isLookup)
  | .fqdn => some (.ok ev.raddr.isFQDN)
  | .lfqdn => some (.ok ev.laddr.isFQDN)
  | .addrS => some (testEntry tables.strings param ev.raddr.matchString)
  | .laddrS => some (testEntry tables.strings param ev.laddr.matchString)
  | .addrRe => some (testEntry tables.regexps param ev.raddr.matchRegexp)
  | .laddrRe => some (testEntry tables.regexps param ev.laddr.matchRegexp)
  | .addr4 => some (testEntry tables.ipv4Addrs param ev.raddr.matchIPv4)
  | .laddr4 => some (testEntry tables.ipv4Addrs param ev.laddr.matchIPv4)
  | .addr6 => some (testEntry tables.ipv6Addrs param fun want => ev.raddr.ipv6 == want)
  | .laddr6 => some (testEntry tables.ipv6Addrs param fun want => ev.laddr.ipv6 == want)
  | .snet4 => some (testEntry tables.ipv4Subnets param ev.raddr.inIPv4Subnet)
  | .lsnet4 => some (testEntry tables.ipv4Subnets param ev.laddr.inIPv4Subnet)
  | .snet6 =>
    some (testEntry tables.ipv6Subnets param fun subnet => subnet.contains ev.raddr.ipv6)
  | .lsnet6 =>
    some (testEntry tables.ipv6Subnets param fun subnet => subnet.contains ev.laddr.ipv6)
  | .port => some (.ok (testPort param (ev.raddr.port ev.portNetwork)))
  | .lport => some (.ok (testPort param (ev.laddr.port ev.portNetwork)))
  | _ => none

theorem testEntry_ok {α : Type} (table : List α) (param : ℕ) (test : α → Bool) :
    ∃ value, testEntry table param test = .ok value := by
  unfold testEntry bytecodeParamIndex
  split_ifs with empty outside
  · exact ⟨_, rfl⟩
  · exact ⟨_, rfl⟩
  · simp only [index_eq_ok (Nat.lt_of_not_le outside), ok_bind]
    exact ⟨_, rfl⟩

/-- A predicate has a value whatever its parameter is: each interpreter tests the index
again before it uses it. -/
theorem Tables.predicate_ok (tables : Tables) (ev : Eval) (op : Op) (param : ℕ)
    {value : Checked Bool} (pushes : tables.predicate ev op param = some value) :
    ∃ result, value = .ok result := by
  unfold Tables.predicate at pushes
  split at pushes <;> cases pushes <;>
    first
      | exact ⟨_, rfl⟩
      | exact testEntry_ok _ _ _

abbrev Stack := List Bool

/-- `popBool`; the top of the stack comes first. -/
def popBool : Stack → Checked (Bool × Stack)
  | [] => .error .outOfRange
  | value :: rest => .ok (value, rest)

def pushStep (predicate : Op → Option (Checked Bool)) (op : Op) (stack : Stack) : Checked Stack :=
  match op with
  | .pushTrue => .ok (true :: stack)
  | .pushFalse => .ok (false :: stack)
  | .not => do
      let (value, rest) ← popBool stack
      .ok ((!value) :: rest)
  | .and => do
      let (b, rest) ← popBool stack
      let (a, rest) ← popBool rest
      .ok ((a && b) :: rest)
  | .or => do
      let (b, rest) ← popBool stack
      let (a, rest) ← popBool rest
      .ok ((a || b) :: rest)
  | op =>
    match predicate op with
    | some value => do
        let pushed ← value
        .ok (pushed :: stack)
    | none => .ok stack

def terminal {Result : Type} (stack : Stack) (result : Checked Result) :
    Checked (Outcome Stack Result) := do
  let (value, rest) ← popBool stack
  if value then
    let target ← result
    .ok (.halt target)
  else
    .ok (.next rest)

def Op.isTerminal : Op → Bool
  | .drop | .slot | .intercept | .route | .backend => true
  | _ => false

def Op.isLogic : Op → Bool
  | .pushTrue | .pushFalse | .not | .and | .or => true
  | _ => false

variable {op : Op} {stack : Stack}

theorem popBool_ok (nonempty : 0 < stack.length) :
    ∃ value rest, popBool stack = .ok (value, rest) ∧ rest.length + 1 = stack.length := by
  cases stack with
  | nil => cases nonempty
  | cons value rest => exact ⟨value, rest, rfl, rfl⟩

variable {predicate : Op → Option (Checked Bool)}

theorem pushStep_predicate {value : Bool} (isPredicate : op.isLogic = false)
    (pushes : predicate op = some (.ok value)) :
    pushStep predicate op stack = .ok (value :: stack) := by
  cases op <;> first
    | exact absurd isPredicate (by decide)
    | simp [pushStep, pushes]

theorem depthEffect_predicate {depth : ℕ} (notTerminal : op.isTerminal = false)
    (isPredicate : op.isLogic = false) : depthEffect op depth = some (depth + 1) := by
  cases op <;> first
    | rfl
    | exact absurd isPredicate (by decide)
    | exact absurd notTerminal (by decide)

theorem Op.isLogic_cases (isLogic : op.isLogic = true) :
    op = .pushTrue ∨ op = .pushFalse ∨ op = .not ∨ op = .and ∨ op = .or := by
  cases op <;> simp_all [Op.isLogic]

theorem pushStep_sound {after : ℕ} (notTerminal : op.isTerminal = false)
    (pushes : op.isLogic = false → ∃ value, predicate op = some (.ok value))
    (enough : depthEffect op stack.length = some after) :
    ∃ next, pushStep predicate op stack = .ok next ∧ next.length = after := by
  cases logic : op.isLogic with
  | false =>
    rcases pushes logic with ⟨value, pushed⟩
    rw [depthEffect_predicate notTerminal logic] at enough
    cases enough
    exact ⟨value :: stack, pushStep_predicate logic pushed, rfl⟩
  | true =>
    -- The operands are on the stack, since the depth check did not underflow.
    rcases Op.isLogic_cases logic with rfl | rfl | rfl | rfl | rfl <;>
      simp only [depthEffect] at enough
    · cases enough
      exact ⟨_, rfl, rfl⟩
    · cases enough
      exact ⟨_, rfl, rfl⟩
    · split_ifs at enough with empty
      cases enough
      rcases popBool_ok (not_lt.mp empty) with ⟨value, rest, popped, shorter⟩
      exact ⟨(!value) :: rest, by simp [pushStep, popped], shorter⟩
    all_goals
      split_ifs at enough with short
      cases enough
      rcases popBool_ok (by omega : 0 < stack.length) with ⟨b, rest, poppedB, shorterB⟩
      rcases popBool_ok (by omega : 0 < rest.length) with ⟨a, last, poppedA, shorterA⟩
      refine ⟨_, by simp only [pushStep, poppedB, poppedA, ok_bind]; rfl, ?_⟩
      simp only [List.length_cons]
      omega

theorem terminal_sound {Result : Type} {wanted : Result → Prop} {after : ℕ}
    {result : Checked Result} (isTerminal : op.isTerminal = true)
    (enough : depthEffect op stack.length = some after)
    (reached : ∃ target, result = .ok target ∧ wanted target) :
    ∃ outcome, terminal stack result = .ok outcome ∧
      outcome.Described (fun depth (stack : Stack) => stack.length = depth) wanted after := by
  have popped : 0 < stack.length ∧ after = stack.length - 1 := by
    cases op <;> cases isTerminal <;> simp only [depthEffect] at enough <;>
      split_ifs at enough with empty <;> cases enough <;> exact ⟨not_lt.mp empty, rfl⟩
  rcases popped with ⟨nonempty, rfl⟩
  rcases popBool_ok nonempty with ⟨value, rest, taken, shorter⟩
  rcases reached with ⟨target, rfl, good⟩
  cases value with
  | false =>
    refine ⟨.next rest, by simp [terminal, taken], ?_⟩
    simp only [Outcome.Described]
    omega
  | true => exact ⟨.halt target, by simp [terminal, taken], good⟩

end Gonnect.Routing
