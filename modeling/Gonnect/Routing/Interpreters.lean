import Gonnect.Routing.Eval

/-!
# The router, sniffer, remapper and DNS interpreters

Each interpreter has a validator of its own, which restricts the opcodes and checks every
table index and slot, and a switch of its own over the opcodes. A constructor is modelled up
to the configuration that it builds.

The answers of a DNS cache may change, so a call brings the names that the storage has for
an address at that time, or nothing when there is no storage. The network of a call is given
in lower case.
-/

namespace Gonnect.Routing

open Checked StraightLine Netip

structure TextLibrary where
  trimSpace : Text → Text
  equalFold : Text → Text → Bool
  /-- `parseHostIP(strings.Trim(text, "[]"))` -/
  parseHostIP : Text → Addr

def Tables.indexed (tables : Tables) : Op → Option (String × ℕ)
  | .addrS | .laddrS => some ("string", tables.strings.length)
  | .addrRe | .laddrRe => some ("regexp", tables.regexps.length)
  | .addr4 | .laddr4 => some ("IPv4 address", tables.ipv4Addrs.length)
  | .addr6 | .laddr6 => some ("IPv6 address", tables.ipv6Addrs.length)
  | .snet4 | .lsnet4 => some ("IPv4 subnet", tables.ipv4Subnets.length)
  | .snet6 | .lsnet6 => some ("IPv6 subnet", tables.ipv6Subnets.length)
  | _ => none

/-- The part of `validateOpIndex` that checks an index into a table. -/
def checkIndex (name : String) (pc param : ℕ) : Option (String × ℕ) → Except BytecodeError Unit
  | some (table, size) =>
    match bytecodeParamIndex param size with
    | some _ => .ok ()
    | none => .error (.indexOutOfRange name pc table param size)
  | none => .ok ()

structure AddrStringOps where
  remote : Bool
  «local» : Bool
deriving DecidableEq

def AddrStringOps.mark (op : Op) (_ : ℕ) (ops : AddrStringOps) :
    Checked (Outcome AddrStringOps AddrStringOps) :=
  match op with
  | .addrS | .addrRe => .ok (.next { ops with remote := true })
  | .laddrS | .laddrRe => .ok (.next { ops with «local» := true })
  | _ => .ok (.next ops)

/-- `bytecodeAddrStringOps`: whether the program looks at names of either endpoint. -/
def bytecodeAddrStringOps (code : List UInt8) : Checked AddrStringOps :=
  execLoop AddrStringOps.mark id code 0 ⟨false, false⟩

/-- Go's zero `addrInput`, which has neither a host nor a port. -/
def AddrInput.empty : AddrInput where
  host := []
  ip := .zero
  port := fun _ => -1

def routerSlots : ℕ := 16

structure BytecodeRules where
  tables : RawTables
  dialTCP : List UInt8
  listenTCP : List UInt8
  dialUDP : List UInt8
  routeUDP : List UInt8
  lookup : List UInt8

structure RouterCfg where
  tables : Tables
  dialTCP : List UInt8
  listenTCP : List UInt8
  dialUDP : List UInt8
  routeUDP : List UInt8
  lookup : List UInt8

inductive BytecodeMethod where
  | dial
  | listen
  | lookup
deriving DecidableEq, Repr

namespace RouterCfg

variable (tables : Tables) (name : String)

def validateOpIndex (pc : ℕ) (op : Op) (param : ℕ) : Except BytecodeError Unit :=
  match op with
  | .slot =>
    if param > routerSlots then .error (.slotOutOfRange name pc param routerSlots) else .ok ()
  | op => checkIndex name pc param (tables.indexed op)

def validateOp (hasLAddr lookup : Bool) (pc : ℕ) (op : Op) (param : ℕ) :
    Except BytecodeError Unit :=
  if !hasLAddr && op.isLAddr then
    .error (.localAddress name pc false)
  else if lookup && op.isLAddr then
    .error (.localAddress name pc true)
  else if op.isSplitOnly || op.isSnifferOnly || op.isDNSOnly then
    .error (.notValidFor name pc op "RouterCfg")
  else
    validateOpIndex tables name pc op param

def validateCode (code : List UInt8) (hasLAddr lookup : Bool) : Except RuleError Unit :=
  (validateBytecode name code (validateOp tables name hasLAddr lookup)).mapError .bytecode

def step (ev : Eval) (op : Op) (param : ℕ) (stack : Stack) : Checked (Outcome Stack ℕ) :=
  match op with
  | .drop => terminal stack (.ok 0)
  | .slot => terminal stack (.ok ((bytecodeParamInt param routerSlots).getD 0))
  | op => do
      let next ← pushStep (fun op => tables.predicate ev op param) op stack
      .ok (.next next)

def exec (code : List UInt8) (method : BytecodeMethod) (network : Text) (laddr raddr : AddrInput)
    (storage : Option (Addr → List Text)) : Checked ℕ := do
  let stringOps ← bytecodeAddrStringOps code
  let ev : Eval :=
    { network := network
      laddr := newAddrCache laddr storage stringOps.local
      raddr := newAddrCache raddr storage stringOps.remote
      isDial := method == .dial
      isListen := method == .listen
      isLookup := method == .lookup }
  execLoop (step tables ev) (fun _ => 0) code 0 []

end RouterCfg

open RouterCfg

def newBytecodeRouterCfg (rules : BytecodeRules) : Except RuleError RouterCfg := do
  let tables ← rules.tables.validate
  validateCode tables "DialTCP" rules.dialTCP true false
  validateCode tables "ListenTCP" rules.listenTCP true false
  validateCode tables "DialUDP" rules.dialUDP true false
  validateCode tables "RouteUDP" rules.routeUDP true false
  validateCode tables "Lookup" rules.lookup false true
  .ok { rules with tables := tables }

inductive RouterCall where
  | dialTCP (network : Text) (laddr raddr : AddrInput)
  | listenTCP (network : Text) (laddr : AddrInput)
  | dialUDP (network : Text) (laddr raddr : AddrInput)
  | routeUDP (network : Text) (laddr raddr : AddrInput)
  | lookup (network : Text) (address : AddrInput)

/-- `DialTCP`, `ListenTCP`, `DialUDP`, `RouteUDP` and `Lookup`. -/
def RouterCfg.select (cfg : RouterCfg) (call : RouterCall) (storage : Option (Addr → List Text)) :
    Checked ℕ :=
  match call with
  | .dialTCP network laddr raddr => exec cfg.tables cfg.dialTCP .dial network laddr raddr storage
  | .listenTCP network laddr => exec cfg.tables cfg.listenTCP .listen network laddr .empty storage
  | .dialUDP network laddr raddr => exec cfg.tables cfg.dialUDP .dial network laddr raddr storage
  | .routeUDP network laddr raddr => exec cfg.tables cfg.routeUDP .dial network laddr raddr storage
  | .lookup network address => exec cfg.tables cfg.lookup .lookup network .empty address storage

def maxSnifferBytecodeSlot : ℕ := 255

def rejectSlot : ℕ := 0

def noMatch : ℤ := -1

/-- A classifier as the caller supplies it; the factory may be missing. -/
structure NamedSniffClassifier (Factory : Type) where
  name : Text
  factory : Option Factory

structure SnifferRouteAction (Mutation : Type) where
  slot : UInt8
  mutation : Mutation

structure SnifferBytecodeRules (Factory Mutation : Type) where
  classifiers : List (NamedSniffClassifier Factory)
  tables : RawTables
  routeActions : List (SnifferRouteAction Mutation)
  control : List UInt8
  sniffControl : List UInt8

structure SnifferControls (Factory Mutation : Type) where
  classifiers : List (Text × Factory)
  tables : Tables
  routeActions : List (SnifferRouteAction Mutation)
  control : List UInt8
  sniffControl : List UInt8

structure SnifferAction (Mutation : Type) where
  slot : ℕ
  intercept : Bool
  mutation : Option Mutation

inductive SnifferProgram where
  | control
  | sniffControl
deriving DecidableEq, Repr

/-- The call that a control program decides on, with the operation class of
`snifferOperationClass` and the endpoints of `snifferCallAddresses`. -/
structure SnifferCall where
  network : Text
  laddr : AddrInput
  raddr : AddrInput
  isDial : Bool
  isListen : Bool
  isLookup : Bool

def normalizeSniffClassifierName (library : TextLibrary) (position : ℕ) (name : Text) :
    Except RuleError Text :=
  let trimmed := library.trimSpace name
  if trimmed = [] then
    .error (.emptyClassifierName position)
  else if trimmed.any fun byte => byte ∈ bytes " \t\r\n" then
    .error (.spaceInClassifierName position trimmed)
  else
    .ok trimmed

def validateClassifiers {Factory : Type} (library : TextLibrary) :
    List (NamedSniffClassifier Factory) → ℕ → List Text → Except RuleError (List (Text × Factory))
  | [], _, _ => .ok []
  | classifier :: rest, position, names => do
      let name ← normalizeSniffClassifierName library position classifier.name
      match classifier.factory with
      | none => .error (.classifierFactory name)
      | some factory =>
        if name ∈ names then
          .error (.duplicateClassifier name)
        else do
          let others ← validateClassifiers library rest (position + 1) (name :: names)
          .ok ((name, factory) :: others)

namespace SnifferControls

variable {Factory Mutation : Type} (tables : Tables) (cfg : SnifferControls Factory Mutation)

def validateOpIndex (classifiers routeActions : ℕ) (name : String) (pc : ℕ) (op : Op) (param : ℕ) :
    Except BytecodeError Unit :=
  match op with
  | .sniff => checkIndex name pc param (some ("sniff classifier", classifiers))
  | .route => checkIndex name pc param (some ("route action", routeActions))
  | op => checkIndex name pc param (tables.indexed op)

def validateOp (classifiers routeActions : ℕ) (name : String) (program : SnifferProgram) (pc : ℕ)
    (op : Op) (param : ℕ) : Except BytecodeError Unit :=
  if op = .rule ∨ op.isDNSOnly then
    .error (.notValidFor name pc op "Sniffer")
  else if program = .control ∧ (op = .sniff ∨ op = .sniffNone) then
    .error (.notValidFor name pc op "Sniffer control")
  else if program = .sniffControl ∧ op = .intercept then
    .error (.notValidFor name pc op "Sniffer sniff control")
  else
    validateOpIndex tables classifiers routeActions name pc op param

def reject : SnifferAction Mutation where
  slot := rejectSlot
  intercept := false
  mutation := none

def predicate (cfg : SnifferControls Factory Mutation) (ev : Eval) (result : ℤ) (op : Op)
    (param : ℕ) : Option (Checked Bool) :=
  match op with
  | .sniff =>
    some (.ok (match bytecodeParamInt param ((cfg.classifiers.length : ℤ) - 1) with
      | some idx => result == idx
      | none => false))
  | .sniffNone => some (.ok (result == noMatch))
  | op => cfg.tables.predicate ev op param

def step (ev : Eval) (result : ℤ) (op : Op) (param : ℕ) (stack : Stack) :
    Checked (Outcome Stack (SnifferAction Mutation)) :=
  match op with
  | .drop => terminal stack (.ok reject)
  | .slot =>
    terminal stack (.ok (match bytecodeParamInt param maxSnifferBytecodeSlot with
      | some slot => { reject with slot := slot }
      | none => reject))
  | .route =>
    terminal stack (match bytecodeParamIndex param cfg.routeActions.length with
      | some idx => do
          let action ← index cfg.routeActions idx
          .ok
            { slot := action.slot.toNat, intercept := false, mutation := some action.mutation }
      | none => .ok reject)
  | .intercept => terminal stack (.ok { reject with intercept := true })
  | op => do
      let next ← pushStep (fun op => cfg.predicate ev result op param) op stack
      .ok (.next next)

def exec (code : List UInt8) (call : SnifferCall) (result : ℤ)
    (storage : Option (Addr → List Text)) : Checked (SnifferAction Mutation) := do
  let stringOps ← bytecodeAddrStringOps code
  let ev : Eval :=
    { call with
      laddr := newAddrCache call.laddr storage stringOps.local
      raddr := newAddrCache call.raddr storage stringOps.remote }
  execLoop (cfg.step ev result) (fun _ => reject) code 0 []

/-- `Control`; there may be no call. -/
def controlAction (call : Option SnifferCall) (storage : Option (Addr → List Text)) :
    Checked (SnifferAction Mutation) :=
  match call with
  | none => .ok reject
  | some call => cfg.exec cfg.control call noMatch storage

/-- `SniffControl`: a sniff error rejects the call. -/
def sniffControlAction (call : Option SnifferCall) (failed : Bool) (result : ℤ)
    (storage : Option (Addr → List Text)) : Checked (SnifferAction Mutation) :=
  match call, failed with
  | some call, false => cfg.exec cfg.sniffControl call result storage
  | _, _ => .ok reject

end SnifferControls

def newBytecodeSnifferControls {Factory Mutation : Type} (library : TextLibrary)
    (rules : SnifferBytecodeRules Factory Mutation) :
    Except RuleError (SnifferControls Factory Mutation) := do
  let classifiers ← validateClassifiers library rules.classifiers 0 []
  let tables ← rules.tables.validate
  let validateOp :=
    SnifferControls.validateOp tables classifiers.length rules.routeActions.length
  (validateBytecode "SnifferControl" rules.control
    (validateOp "SnifferControl" .control)).mapError .bytecode
  (validateBytecode "SnifferSniffControl" rules.sniffControl
    (validateOp "SnifferSniffControl" .sniffControl)).mapError .bytecode
  .ok { rules with classifiers := classifiers, tables := tables }

inductive RemapEndpoint where
  | src
  | dst
  | invalid (value : ℕ)
deriving DecidableEq, Repr

inductive RemapField where
  | addrPort
  | addr
  | port
  | invalid (value : ℕ)
deriving DecidableEq, Repr

structure RemapAction where
  endpoint : RemapEndpoint
  field : RemapField
  addr : Text
  port : Text
deriving DecidableEq

/-- One rule; an empty predicate matches every call. -/
structure RemapperBytecodeRule where
  predicate : List UInt8
  action : RemapAction

structure RemapperBytecodeRules where
  tables : RawTables
  rules : List RemapperBytecodeRule

structure BytecodeRemapperRules where
  tables : Tables
  rules : List RemapperBytecodeRule

/-- The call that a rule is tested on, with the class of `remapOperationClass`. -/
structure RemapInfo where
  network : Text
  srcAddr : AddrInput
  dstAddr : AddrInput
  isDial : Bool
  isListen : Bool

def validateRemapAction (position : ℕ) (action : RemapAction) : Except RuleError Unit := do
  match action.endpoint with
  | .src | .dst => .ok ()
  | .invalid value => .error (.remapEndpoint position value)
  match action.field with
  | .addrPort =>
    if action.addr = [] ∨ action.port = [] then .error (.remapText position "ADDR_PORT")
    else .ok ()
  | .addr => if action.addr = [] then .error (.remapText position "ADDR") else .ok ()
  | .port => if action.port = [] then .error (.remapText position "PORT") else .ok ()
  | .invalid value => .error (.remapField position value)

namespace BytecodeRemapperRules

/-- The switch of `validatePredicate` on the depth, which has no terminals. -/
def predicateEffect (op : Op) (depth : ℕ) : Option ℕ :=
  match op with
  | .not => if depth < 1 then none else some depth
  | .and | .or => if depth < 2 then none else some (depth - 1)
  | _ => some (depth + 1)

variable (tables : Tables)

def validatePredicateOp (name : String) (pc : ℕ) (op : Op) (param : ℕ) :
    Except BytecodeError Unit :=
  match op with
  | .drop | .slot | .rule | .intercept | .sniff | .sniffNone | .route | .backend | .qtype | .qclass
  | .opcode => .error (.notValidFor name pc op "Remapper")
  | op => checkIndex name pc param (tables.indexed op)

def validatePredicate (name : String) (code : List UInt8) : Except BytecodeError Unit := do
  let depth ← validateLoop name (validatePredicateOp tables name) predicateEffect code 0 0
  if depth ≠ 1 then .error (.stackDepth name depth) else .ok ()

def validateRules (tables : Tables) : List RemapperBytecodeRule → ℕ → Except RuleError Unit
  | [], _ => .ok ()
  | rule :: rest, position => do
      validateRemapAction position rule.action
      if rule.predicate = [] then
        validateRules tables rest (position + 1)
      else
        (validatePredicate tables s!"Remapper rule {position}" rule.predicate).mapError .bytecode
        validateRules tables rest (position + 1)

/-- The predicate cases of the switch. A remapper never sees a lookup. -/
def predicate (tables : Tables) (ev : Eval) (op : Op) (param : ℕ) : Option (Checked Bool) :=
  match op with
  | .lookup => some (.ok false)
  | op => tables.predicate ev op param

def step (ev : Eval) (op : Op) (param : ℕ) (stack : Stack) : Checked (Outcome Stack Bool) := do
  let next ← pushStep (fun op => predicate tables ev op param) op stack
  .ok (.next next)

def exec (code : List UInt8) (info : RemapInfo) (storage : Option (Addr → List Text)) :
    Checked Bool := do
  let stringOps ← bytecodeAddrStringOps code
  let ev : Eval :=
    { network := info.network
      laddr := newAddrCache info.srcAddr storage stringOps.local
      raddr := newAddrCache info.dstAddr storage stringOps.remote
      isDial := info.isDial
      isListen := info.isListen
      isLookup := false }
  execLoop (step tables ev) (fun stack => stack == [true]) code 0 []

/-- The filter that `remapRules` makes of a rule, for a rule with a predicate. -/
def filter (cfg : BytecodeRemapperRules) (rule : RemapperBytecodeRule) (info : RemapInfo)
    (storage : Option (Addr → List Text)) : Checked Bool :=
  if rule.predicate = [] then .ok true else exec cfg.tables rule.predicate info storage

end BytecodeRemapperRules

def newBytecodeRemapRules (rules : RemapperBytecodeRules) :
    Except RuleError BytecodeRemapperRules := do
  let tables ← rules.tables.validate
  BytecodeRemapperRules.validateRules tables rules.rules 0
  .ok ⟨tables, rules.rules⟩

structure Question where
  name : Text
  type : UInt16
  «class» : UInt16
deriving DecidableEq

structure Message where
  questions : List Question
  opcode : UInt8
deriving DecidableEq

structure DNSBytecodeRules where
  backends : List Text
  tables : RawTables
  route : List UInt8

structure DNSRouteFunc where
  backends : List Text
  tables : Tables
  route : List UInt8

namespace DNSRouteFunc

def typeA : UInt16 := 1

def typeAAAA : UInt16 := 28

def validateOp (tables : Tables) (backends pc : ℕ) (op : Op) (param : ℕ) :
    Except BytecodeError Unit :=
  let invalid : BytecodeError := .notValidFor "DNSRoute" pc op "DNSRoute"
  if op.isLAddr ∨ op = .lport then .error invalid
  else if op.isRouterMethod || op.isSplitOnly || op.isSnifferOnly then .error invalid
  else
    match op with
    | .udp | .tcp | .port | .slot => .error invalid
    | .backend => checkIndex "DNSRoute" pc param (some ("backend", backends))
    | op => checkIndex "DNSRoute" pc param (tables.indexed op)

variable (library : TextLibrary)

def questionAddr (message : Option Message) : AddrCache :=
  let name := ((message.bind fun message => message.questions.head?).map Question.name).getD []
  { input := { host := name, ip := library.parseHostIP name, port := fun _ => -1 }
    reverseStorage := none }

def predicate (tables : Tables) (message : Option Message) (op : Op) (param : ℕ) :
    Option (Checked Bool) :=
  let question := message.bind fun message => message.questions.head?
  let addr := questionAddr library message
  match op with
  | .net4 => some (.ok (question.any fun question => question.type == typeA))
  | .net6 => some (.ok (question.any fun question => question.type == typeAAAA))
  | .fqdn => some (.ok addr.isFQDN)
  | .addrS => some (testEntry tables.strings param (library.equalFold addr.host))
  | .addrRe => some (testEntry tables.regexps param fun regexp => regexp addr.host)
  | .addr4 => some (testEntry tables.ipv4Addrs param addr.matchIPv4)
  | .addr6 => some (testEntry tables.ipv6Addrs param fun want => addr.ipv6 == want)
  | .snet4 => some (testEntry tables.ipv4Subnets param addr.inIPv4Subnet)
  | .snet6 => some (testEntry tables.ipv6Subnets param fun subnet => subnet.contains addr.ipv6)
  | .qtype =>
    some (.ok ((bytecodeParamInt param 0xffff).isSome &&
      question.any fun question => question.type.toNat == param))
  | .qclass =>
    some (.ok ((bytecodeParamInt param 0xffff).isSome &&
      question.any fun question => question.class.toNat == param))
  | .opcode =>
    some (.ok ((bytecodeParamInt param 0xffff).isSome &&
      message.any fun message => message.opcode.toNat == param))
  | _ => none

/-- The switch of `exec`; an empty name stands for no backend. -/
def step (cfg : DNSRouteFunc) (message : Option Message) (op : Op) (param : ℕ) (stack : Stack) :
    Checked (Outcome Stack Text) :=
  match op with
  | .drop => terminal stack (.ok [])
  | .backend =>
    terminal stack (match bytecodeParamIndex param cfg.backends.length with
      | some idx => index cfg.backends idx
      | none => .ok [])
  | op => do
      let next ← pushStep (fun op => predicate library cfg.tables message op param) op stack
      .ok (.next next)

def exec (cfg : DNSRouteFunc) (message : Option Message) : Checked Text :=
  execLoop (step library cfg message) (fun _ => []) cfg.route 0 []

end DNSRouteFunc

def validateBackends (backends : List Text) : Except RuleError Unit :=
  match firstFailure (fun name : Text => name != []) backends with
  | some (position, _) => .error (.emptyBackend position)
  | none => .ok ()

def newBytecodeDNSRouteFunc (rules : DNSBytecodeRules) : Except RuleError DNSRouteFunc := do
  validateBackends rules.backends
  let tables ← rules.tables.validate
  (validateBytecode "DNSRoute" rules.route
    (DNSRouteFunc.validateOp tables rules.backends.length)).mapError .bytecode
  .ok { rules with tables := tables }

end Gonnect.Routing
