import Gonnect.Foundation.Pool
import Gonnect.Routing.Assemble
import Gonnect.Routing.Interpreters
import Mathlib.Data.List.DropRight

/-!
# The rules language

A program of the rules language has an operation with its argument on each line. The parser
assembles the operations to bytecode and collects their texts, addresses and subnets in
tables. `NewBytecodeRulesProgram` cuts one program for all methods of a router behind each
`DROP` and `SLOT` and leaves out, for a method, the segments whose condition is false in
every call of the method.

The operations that only split routers and DNS routes have are refused by routers and
sniffers, so the parameter that the parser gives to one of them is left open.
-/

namespace Gonnect.Routing

open Netip

structure ParserLibrary extends TextLibrary where
  toUpper : Text → Text
  fields : Text → List Text
  /-- `strconv.ParseUint(text, 10, bits)` -/
  parseUint : Text → ℕ → Option ℕ
  compile : Text → Option Regexp
  parseAddr : Text → Option Addr
  parsePrefix : Text → Option Prefix
  masked : Prefix → Prefix
  /-- The parameter of an operation of a split router or a DNS route, if its argument is
  accepted. -/
  otherParam : Op → Text → Bool → Option ℕ

def trimAscii (text : Text) : Text :=
  let isSpace (byte : UInt8) : Bool := byte == 32 || (9 ≤ byte && byte ≤ 13)
  (text.dropWhile isSpace).rdropWhile isSpace

/-- `strconv.ParseUint(text, 10, bits)` -/
def parseDecimal (text : Text) (bits : ℕ) : Option ℕ :=
  let value := text.foldl (fun value byte => 10 * value + (byte.toNat - 48)) 0
  if text ≠ [] ∧ (text.all fun byte => 48 ≤ byte && byte ≤ 57) ∧ value < 2 ^ bits then some value
  else none

/-- The functions of the library for ASCII texts without addresses, subnets and regular
expressions. -/
def asciiLibrary : ParserLibrary where
  trimSpace := trimAscii
  equalFold first second := first == second
  parseHostIP _ := .zero
  toUpper text := text.map fun byte => if 97 ≤ byte && byte ≤ 122 then byte - 32 else byte
  fields text := (text.splitOn 32).filter (· ≠ [])
  parseUint := parseDecimal
  compile _ := none
  parseAddr _ := none
  parsePrefix _ := none
  masked := id
  otherParam _ _ _ := none

structure RuleLine where
  no : ℕ
  text : Text
deriving DecidableEq

def splitBytecodeRuleLines (src : Text) : List RuleLine :=
  (src.splitOn (UInt8.ofNat '\n'.toNat)).mapIdx fun i line =>
    ⟨i + 1, line.rdropWhile (· == UInt8.ofNat '\r'.toNat)⟩

def isBlank (byte : UInt8) : Bool :=
  byte == UInt8.ofNat ' '.toNat || byte == UInt8.ofNat '\t'.toNat

def splitRuleLine (line : Text) : Text × Text × Bool :=
  let line := line.dropWhile isBlank
  match line.dropWhile fun byte => !isBlank byte with
  | [] => (line, [], false)
  | _ :: arg => (line.takeWhile fun byte => !isBlank byte, arg, true)

def Op.name : Op → String
  | .drop => "DROP"
  | .slot => "SLOT"
  | .pushTrue => "TRUE"
  | .pushFalse => "FALSE"
  | .not => "NOT"
  | .and => "AND"
  | .or => "OR"
  | .net4 => "NET4"
  | .net6 => "NET6"
  | .udp => "UDP"
  | .tcp => "TCP"
  | .fqdn => "FQDN"
  | .lfqdn => "LFQDN"
  | .addrS => "ADDR_S"
  | .laddrS => "LADDR_S"
  | .addrRe => "ADDR_RE"
  | .laddrRe => "LADDR_RE"
  | .addr4 => "ADDR4"
  | .laddr4 => "LADDR4"
  | .addr6 => "ADDR6"
  | .laddr6 => "LADDR6"
  | .snet4 => "SNET4"
  | .lsnet4 => "LSNET4"
  | .snet6 => "SNET6"
  | .lsnet6 => "LSNET6"
  | .port => "PORT"
  | .lport => "LPORT"
  | .rule => "RULE"
  | .dial => "DIAL"
  | .listen => "LISTEN"
  | .lookup => "LOOKUP"
  | .intercept => "INTERCEPT"
  | .sniff => "SNIFF"
  | .sniffNone => "SNIFF_NONE"
  | .route => "ROUTE"
  | .backend => "BACKEND"
  | .qtype => "QTYPE"
  | .qclass => "QCLASS"
  | .opcode => "OPCODE"

def bytecodeOpByName (name : Text) : Option Op :=
  Op.all.find? fun op => bytes op.name == name

inductive ArgumentError where
  | unexpected (op : Op)
  | required (op : Op)
  | invalid (op : Op) (arg : Text)
  | tooManyEntries (op : Op)
  | outOfRange (op : Op) (value : ℕ)
  | classifier (error : RuleError)
  | emptySniffSpec
  | sniffConstructorName (name : Text)
  | sniffOption (field : Text)
  | sniffOptionKey (key : Text)
  | sniffOptionValue (key : Text)
  | unknownClassifier (name : Text)
  | unknownConstructor (name : Text)
  | constructor (name : Text)
  | nilConstructor (name : Text)
  | duplicateConstructor (name : Text)
  | nilFactory (constructorName : Text)
  | routeSlot (text : Text)
  | routeField (field : Text)
  | routeValue (key : Text)
  | duplicateRouteField (key : Text)
  | unknownRouteField (key : Text)

structure SniffClassifierOption where
  key : Text
  value : Text
deriving DecidableEq

/-- The canonical text of the options, and the factory, which may be missing. -/
abbrev SniffClassifierConstructor (Factory : Type) :=
  List SniffClassifierOption → Option (Text × Option Factory)

structure NamedSniffClassifierConstructor (Factory : Type) where
  name : Text
  constructor : Option (SniffClassifierConstructor Factory)

/-- `SnifferCallMutation`; a field that is not set is missing. -/
structure SnifferCallMutation where
  network : Option Text := none
  src : Option Text := none
  dst : Option Text := none
  srcAddr : Option Text := none
  srcPort : Option Text := none
  dstAddr : Option Text := none
  dstPort : Option Text := none
  host : Option Text := none
  service : Option Text := none
  proto : Option Text := none
deriving DecidableEq

deriving instance DecidableEq for SnifferRouteAction

/-- The tables of `bytecodeParser` for routers and sniffers. A slice and the map of its
positions are one table here, and the regular expressions are given by their texts. -/
structure BytecodeParser (Factory : Type) where
  strings : Pool Text 65536
  regexps : Pool Text 65536
  ipv4Addrs : Pool (BitVec 32) 65536
  ipv4Subnets : Pool IPv4Subnet 65536
  ipv6Addrs : Pool Addr 65536
  ipv6Subnets : Pool Prefix 65536
  sniffClassifiers : Pool (Text × Factory) 65536
  sniffConstructors : List (Text × SniffClassifierConstructor Factory)
  sniffSpecIndex : List (Text × UInt16)
  routeActions : Pool (SnifferRouteAction SnifferCallMutation) 65536

namespace BytecodeParser

variable {Factory : Type}

def new : BytecodeParser Factory where
  strings := .empty
  regexps := .empty
  ipv4Addrs := .empty
  ipv4Subnets := .empty
  ipv6Addrs := .empty
  ipv6Subnets := .empty
  sniffClassifiers := .empty
  sniffConstructors := []
  sniffSpecIndex := []
  routeActions := .empty

def requiredTextArg (op : Op) (arg : Text) (hasArg : Bool) : Except ArgumentError Text :=
  if !hasArg || arg == [] then .error (.required op) else .ok arg

def parseUintArg (library : ParserLibrary) (op : Op) (arg : Text) (hasArg : Bool) (bits : ℕ) :
    Except ArgumentError ℕ :=
  if !hasArg || library.trimSpace arg == [] then
    .error (.required op)
  else
    match library.parseUint (library.trimSpace arg) bits with
    | none => .error (.invalid op arg)
    | some value => .ok value

/-- The end of the functions for a table: the position of an entry, in the table with it. -/
def entryParam {α : Type} [DecidableEq α] (op : Op) (table : Pool α 65536) (entry : α) :
    Except ArgumentError (ℕ × Pool α 65536) :=
  match table.intern entry with
  | none => .error (.tooManyEntries op)
  | some result => .ok result

variable (library : ParserLibrary) (parser : BytecodeParser Factory) (op : Op) (arg : Text)
  (hasArg : Bool)

def stringParam : Except ArgumentError (ℕ × BytecodeParser Factory) := do
  let arg ← requiredTextArg op arg hasArg
  let (idx, table) ← entryParam op parser.strings arg
  .ok (idx, { parser with strings := table })

def regexpParam : Except ArgumentError (ℕ × BytecodeParser Factory) := do
  let arg ← requiredTextArg op arg hasArg
  if arg ∉ parser.regexps.entries ∧ (library.compile arg).isNone then
    .error (.invalid op arg)
  else
    let (idx, table) ← entryParam op parser.regexps arg
    .ok (idx, { parser with regexps := table })

def ipv4Param : Except ArgumentError (ℕ × BytecodeParser Factory) := do
  let text ← requiredTextArg op arg hasArg
  match (library.parseAddr (library.trimSpace text)).bind Addr.as4 with
  | none => .error (.invalid op arg)
  | some value =>
    let (idx, table) ← entryParam op parser.ipv4Addrs value
    .ok (idx, { parser with ipv4Addrs := table })

def ipv6Param : Except ArgumentError (ℕ × BytecodeParser Factory) := do
  let text ← requiredTextArg op arg hasArg
  match (library.parseAddr (library.trimSpace text)).filter Addr.is6 with
  | none => .error (.invalid op arg)
  | some addr =>
    let (idx, table) ← entryParam op parser.ipv6Addrs addr
    .ok (idx, { parser with ipv6Addrs := table })

/-- The entry that `ipv4SubnetParam` makes of a parsed prefix. -/
def ipv4SubnetEntry (subnet : Netip.Prefix) : Option IPv4Subnet := do
  let addr ← (library.masked subnet).addr.as4
  let bits ← subnet.length
  if bits > 255 then none else some ⟨addr, UInt8.ofNat bits⟩

def ipv4SubnetParam : Except ArgumentError (ℕ × BytecodeParser Factory) := do
  let text ← requiredTextArg op arg hasArg
  match ((library.parsePrefix (library.trimSpace text)).filter fun subnet =>
      subnet.addr.is4).bind (ipv4SubnetEntry library) with
  | none => .error (.invalid op arg)
  | some subnet =>
    let (idx, table) ← entryParam op parser.ipv4Subnets subnet
    .ok (idx, { parser with ipv4Subnets := table })

def ipv6SubnetParam : Except ArgumentError (ℕ × BytecodeParser Factory) := do
  let text ← requiredTextArg op arg hasArg
  match (library.parsePrefix (library.trimSpace text)).filter fun subnet => subnet.addr.is6 with
  | none => .error (.invalid op arg)
  | some subnet =>
    let (idx, table) ← entryParam op parser.ipv6Subnets (library.masked subnet)
    .ok (idx, { parser with ipv6Subnets := table })

def portParam : Except ArgumentError ℕ := do
  let value ← parseUintArg library op arg hasArg 16
  if value > 0xffff then .error (.outOfRange op value) else .ok value

def containsAny (text chars : Text) : Bool :=
  text.any fun byte => byte ∈ chars

/-- `strings.Cut(field, ":")` -/
def cutColon (field : Text) : Text × Text × Bool :=
  match field.dropWhile (· != UInt8.ofNat ':'.toNat) with
  | [] => (field, [], false)
  | _ :: value => (field.takeWhile (· != UInt8.ofNat ':'.toNat), value, true)

def normalizeSniffClassifierConstructorName (name : Text) : Except ArgumentError Text :=
  let trimmed := library.trimSpace name
  if trimmed == [] || containsAny trimmed (bytes " \t\r\n:") then
    .error (.sniffConstructorName trimmed)
  else
    .ok trimmed

def parseSniffOption (field : Text) : Except ArgumentError SniffClassifierOption :=
  let (key, value, found) := cutColon field
  let upper := library.toUpper key
  if !found || key == [] then .error (.sniffOption field)
  else if containsAny upper (bytes " \t\r\n:") then .error (.sniffOptionKey upper)
  else if value == [] then .error (.sniffOptionValue upper)
  else .ok ⟨upper, value⟩

def parseSniffClassifierSpec (arg : Text) :
    Except ArgumentError (Text × List SniffClassifierOption) :=
  match library.fields arg with
  | [] => .error .emptySniffSpec
  | name :: fields => do
      let name ← normalizeSniffClassifierConstructorName library name
      let options ← fields.mapM (parseSniffOption library)
      .ok (name, options)

def sniffIndex (name : Text) : Option ℕ :=
  parser.sniffClassifiers.entries.findIdx? fun classifier => classifier.1 == name

def addSniffClassifier (classifier : NamedSniffClassifier Factory) :
    Except ArgumentError (ℕ × BytecodeParser Factory) := do
  let name ← (normalizeSniffClassifierName library.toTextLibrary
    parser.sniffClassifiers.entries.length classifier.name).mapError .classifier
  match classifier.factory with
  | none => .error (.classifier (.classifierFactory name))
  | some factory =>
    if (parser.sniffIndex name).isSome then
      .error (.classifier (.duplicateClassifier name))
    else
      match parser.sniffClassifiers.push (name, factory) with
      | none => .error (.tooManyEntries .sniff)
      | some (idx, table) => .ok (idx, { parser with sniffClassifiers := table })

def setSniffClassifiers (classifiers : List (NamedSniffClassifier Factory)) :
    Except ArgumentError (BytecodeParser Factory) :=
  classifiers.foldlM (fun parser classifier => do
    let (_, parser) ← parser.addSniffClassifier library classifier
    .ok parser) parser

def addSniffClassifierConstructor (named : NamedSniffClassifierConstructor Factory) :
    Except ArgumentError (BytecodeParser Factory) := do
  let name ← normalizeSniffClassifierConstructorName library named.name
  match named.constructor with
  | none => .error (.nilConstructor name)
  | some constructor =>
    if (parser.sniffConstructors.lookup name).isSome then
      .error (.duplicateConstructor name)
    else
      .ok { parser with sniffConstructors := (name, constructor) :: parser.sniffConstructors }

/-- `nextInlineSniffClassifierName`: one of the names that are tried is free, since there
are more of them than classifiers. -/
def nextInlineSniffClassifierName : Text :=
  let count := parser.sniffClassifiers.entries.length
  (((List.range (count + 1)).map fun i => bytes s!"@inline-{count + i}").find? fun name =>
    (parser.sniffIndex name).isNone).getD []

def constructSniffClassifier (arg : Text) : Except ArgumentError (ℕ × BytecodeParser Factory) := do
  let (constructorName, options) ← parseSniffClassifierSpec library arg
  match parser.sniffConstructors.lookup constructorName with
  | none =>
    if options.isEmpty then .error (.unknownClassifier (library.trimSpace arg))
    else .error (.unknownConstructor constructorName)
  | some constructor =>
    match constructor options with
    | none => .error (.constructor constructorName)
    | some (_, none) => .error (.nilFactory constructorName)
    | some (canonical, some factory) =>
      let canonical := library.trimSpace canonical
      let specKey :=
        if canonical == [] then constructorName else constructorName ++ bytes " " ++ canonical
      match parser.sniffSpecIndex.lookup specKey with
      | some idx => .ok (idx.toNat, parser)
      | none => do
          let name := parser.nextInlineSniffClassifierName
          let (idx, parser) ← parser.addSniffClassifier library ⟨name, some factory⟩
          .ok (idx, { parser with
            sniffSpecIndex := (specKey, UInt16.ofNat idx) :: parser.sniffSpecIndex })

def namedClassifier (arg : Text) : Option ℕ :=
  match normalizeSniffClassifierName library.toTextLibrary 0 arg with
  | .error _ => none
  | .ok name => parser.sniffIndex name

def sniffParam : Except ArgumentError (ℕ × BytecodeParser Factory) := do
  let arg ← requiredTextArg op arg hasArg
  match parser.namedClassifier library arg with
  | some idx => .ok (idx, parser)
  | none => parser.constructSniffClassifier library arg

def setSnifferRouteField (mutation : SnifferCallMutation) (key value : Text) :
    Except ArgumentError SnifferCallMutation :=
  if key = bytes "NETWORK" then .ok { mutation with network := some value }
  else if key = bytes "SRC" then .ok { mutation with src := some value }
  else if key = bytes "DST" then .ok { mutation with dst := some value }
  else if key = bytes "SRC_ADDR" then .ok { mutation with srcAddr := some value }
  else if key = bytes "SRC_PORT" then .ok { mutation with srcPort := some value }
  else if key = bytes "DST_ADDR" then .ok { mutation with dstAddr := some value }
  else if key = bytes "DST_PORT" then .ok { mutation with dstPort := some value }
  else if key = bytes "HOST" then .ok { mutation with host := some value }
  else if key = bytes "SERVICE" then .ok { mutation with service := some value }
  else if key = bytes "PROTO" then .ok { mutation with proto := some value }
  else .error (.unknownRouteField key)

/-- The loop over the fields in `routeParam`, with the keys seen so far. -/
def routeFields : List Text → List Text → SnifferCallMutation →
    Except ArgumentError SnifferCallMutation
  | [], _, mutation => .ok mutation
  | field :: fields, seen, mutation =>
    let (key, value, found) := cutColon field
    let key := library.toUpper key
    if !found || key == [] then .error (.routeField field)
    else if value == [] then .error (.routeValue key)
    else if key ∈ seen then .error (.duplicateRouteField key)
    else do
      let mutation ← setSnifferRouteField mutation key value
      routeFields fields (key :: seen) mutation

def routeParam : Except ArgumentError (ℕ × BytecodeParser Factory) := do
  let arg ← requiredTextArg op arg hasArg
  match library.fields arg with
  | [] => .error (.required op)
  | first :: fields =>
    match library.parseUint first 8 with
    | none => .error (.routeSlot first)
    | some slot => do
        let mutation ← routeFields library fields [] {}
        let (idx, table) ← entryParam op parser.routeActions ⟨UInt8.ofNat slot, mutation⟩
        .ok (idx, { parser with routeActions := table })

def param : Except ArgumentError (ℕ × BytecodeParser Factory) :=
  match op with
  | .slot => do
      let value ← parseUintArg library op arg hasArg 8
      .ok (value % 256, parser)
  | .addrS | .laddrS => parser.stringParam op arg hasArg
  | .addrRe | .laddrRe => parser.regexpParam library op arg hasArg
  | .addr4 | .laddr4 => parser.ipv4Param library op arg hasArg
  | .addr6 | .laddr6 => parser.ipv6Param library op arg hasArg
  | .snet4 | .lsnet4 => parser.ipv4SubnetParam library op arg hasArg
  | .snet6 | .lsnet6 => parser.ipv6SubnetParam library op arg hasArg
  | .port | .lport => do
      let value ← portParam library op arg hasArg
      .ok (value, parser)
  | .sniff => parser.sniffParam library op arg hasArg
  | .route => parser.routeParam library op arg hasArg
  | .rule | .backend | .qtype | .qclass | .opcode =>
    match library.otherParam op arg hasArg with
    | none => .error (.invalid op arg)
    | some value => .ok (value % 65536, parser)
  | .drop | .pushTrue | .pushFalse | .not | .and | .or | .net4 | .net6 | .udp | .tcp | .fqdn
  | .lfqdn | .dial | .listen | .lookup | .intercept | .sniffNone =>
    if hasArg && library.trimSpace arg != [] then .error (.unexpected op) else .ok (0, parser)

def apply : RawTables where
  strings := parser.strings.entries
  regexps := parser.regexps.entries.map library.compile
  ipv4Addrs := parser.ipv4Addrs.entries
  ipv4Subnets := parser.ipv4Subnets.entries
  ipv6Addrs := parser.ipv6Addrs.entries
  ipv6Subnets := parser.ipv6Subnets.entries

def appendOp (code : List UInt8) (op : Op) (arg : Text) (hasArg : Bool) :
    Except ArgumentError (List UInt8 × BytecodeParser Factory) := do
  let (value, parser) ← parser.param library op arg hasArg
  .ok (code ++ op.assemble value, parser)

end BytecodeParser

inductive ProgramError where
  | unknownOperation (name : String) (line : ℕ) (op : Text)
  | argument (name : String) (line : ℕ) (error : ArgumentError)
  | setup (error : ArgumentError)
  | sniffAndIntercept
  | rules (error : RuleError)

variable (library : ParserLibrary)

def RuleLine.skipped (line : RuleLine) : Bool :=
  let trimmed := library.trimSpace line.text
  trimmed == [] || trimmed.head? == some (UInt8.ofNat '#'.toNat)

def RuleLine.op? (line : RuleLine) : Option Op :=
  bytecodeOpByName (library.toUpper (splitRuleLine line.text).1)

def parseProgramLines {Factory : Type} (library : ParserLibrary) (name : String) :
    List RuleLine → List UInt8 → BytecodeParser Factory →
      Except ProgramError (List UInt8 × BytecodeParser Factory)
  | [], code, parser => .ok (code, parser)
  | line :: lines, code, parser =>
    if line.skipped library then
      parseProgramLines library name lines code parser
    else
      let (opName, arg, hasArg) := splitRuleLine line.text
      match line.op? library with
      | none => .error (.unknownOperation name line.no opName)
      | some op =>
        match parser.appendOp library code op arg hasArg with
        | .error error => .error (.argument name line.no error)
        | .ok (code, parser) => parseProgramLines library name lines code parser

inductive RouterProgram where
  | dialTCP
  | listenTCP
  | dialUDP
  | routeUDP
  | lookup
deriving DecidableEq

namespace RouterProgram

def all : List RouterProgram := [dialTCP, listenTCP, dialUDP, routeUDP, lookup]

def name : RouterProgram → String
  | dialTCP => "DialTCP"
  | listenTCP => "ListenTCP"
  | dialUDP => "DialUDP"
  | routeUDP => "RouteUDP"
  | lookup => "Lookup"

def method : RouterProgram → BytecodeMethod
  | dialTCP => .dial
  | listenTCP => .listen
  | dialUDP => .dial
  | routeUDP => .dial
  | lookup => .lookup

end RouterProgram

/-- The parser and the programs that it has written so far. The parser of a router has no
classifiers and no constructors. -/
structure RuleDraft where
  parser : BytecodeParser Empty
  code : RouterProgram → List UInt8

namespace RuleDraft

def new : RuleDraft where
  parser := .new
  code _ := []

/-- `parseProgramLines` for one of the programs, to which the result is appended. -/
def add (program : RouterProgram) (lines : List RuleLine)
    (draft : RuleDraft) : Except ProgramError RuleDraft := do
  let (code, parser) ← parseProgramLines library program.name lines [] draft.parser
  .ok ⟨parser, Function.update draft.code program (draft.code program ++ code)⟩

def rules (draft : RuleDraft) : BytecodeRules where
  tables := draft.parser.apply library
  dialTCP := draft.code .dialTCP
  listenTCP := draft.code .listenTCP
  dialUDP := draft.code .dialUDP
  routeUDP := draft.code .routeUDP
  lookup := draft.code .lookup

/-- The end of the constructors: the rules of the draft, if a router accepts them. -/
def finish (draft : RuleDraft) : Except ProgramError BytecodeRules := do
  let _ ← (newBytecodeRouterCfg (draft.rules library)).mapError .rules
  .ok (draft.rules library)

end RuleDraft

def bytecodeRuleLineEndsSegment (line : RuleLine) : Bool :=
  !line.skipped library &&
    ["DROP", "SLOT", "INTERCEPT", "ROUTE", "REMAP", "BACKEND"].any fun name =>
      library.toUpper (splitRuleLine line.text).1 == bytes name

def splitSegments (library : ParserLibrary) : List RuleLine → List RuleLine → List (List RuleLine)
  | [], segment => if segment = [] then [] else [segment]
  | line :: lines, segment =>
    if bytecodeRuleLineEndsSegment library line then
      (segment ++ [line]) :: splitSegments library lines []
    else
      splitSegments library lines (segment ++ [line])

def splitBytecodeRuleSegments (src : Text) : List (List RuleLine) :=
  splitSegments library (splitBytecodeRuleLines src) []

inductive BoolState where
  | no
  | yes
  | unknown
deriving DecidableEq, Repr

namespace BoolState

def ofBool (value : Bool) : BoolState :=
  if value then yes else no

def not : BoolState → BoolState
  | no => yes
  | yes => no
  | unknown => unknown

def and (a b : BoolState) : BoolState :=
  if a = no ∨ b = no then no else if a = yes ∧ b = yes then yes else unknown

def or (a b : BoolState) : BoolState :=
  if a = yes ∨ b = yes then yes else if a = no ∧ b = no then no else unknown

end BoolState

/-- The cases of the switch in `bytecodeSegmentCanTrigger` that go on, if there are enough
operands. The top of the stack comes first. -/
def canTriggerStep (method : BytecodeMethod) : Op → List BoolState → Option (List BoolState)
  | .pushTrue, stack => some (.yes :: stack)
  | .pushFalse, stack => some (.no :: stack)
  | .not, value :: stack => some (value.not :: stack)
  | .not, _ => none
  | .and, b :: a :: stack => some (a.and b :: stack)
  | .and, _ => none
  | .or, b :: a :: stack => some (a.or b :: stack)
  | .or, _ => none
  | .dial, stack => some (.ofBool (method == .dial) :: stack)
  | .listen, stack => some (.ofBool (method == .listen) :: stack)
  | .lookup, stack => some (.ofBool (method == .lookup) :: stack)
  | _, stack => some (.unknown :: stack)

def canTriggerLoop (library : ParserLibrary) (method : BytecodeMethod) :
    List RuleLine → List BoolState → Bool → Bool
  | [], _, _ => true
  | line :: lines, stack, hasMethodOp =>
    if line.skipped library then
      canTriggerLoop library method lines stack hasMethodOp
    else
      match line.op? library with
      | none => true
      | some op =>
        if op = .drop ∨ op = .slot then
          match stack with
          | [] => true
          | condition :: _ => !hasMethodOp || condition != .no
        else
          match canTriggerStep method op stack with
          | none => true
          | some stack =>
            canTriggerLoop library method lines stack (hasMethodOp || op.isRouterMethod)

def bytecodeSegmentCanTrigger (segment : List RuleLine)
    (method : BytecodeMethod) : Bool :=
  canTriggerLoop library method segment [] false

def addSegment (segment : List RuleLine) (draft : RuleDraft)
    (program : RouterProgram) : Except ProgramError RuleDraft :=
  if bytecodeSegmentCanTrigger library segment program.method then
    draft.add library program segment
  else
    .ok draft

def newBytecodeRulesProgram (program : Text) : Except ProgramError BytecodeRules := do
  let draft ← (splitBytecodeRuleSegments library program).foldlM (fun draft segment =>
    RouterProgram.all.foldlM (addSegment library segment) draft) .new
  draft.finish library

end Gonnect.Routing
