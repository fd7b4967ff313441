import Gonnect.Routing.Parser
import Gonnect.Routing.StackPrograms
import Mathlib.Data.List.ReduceOption

/-!
# What a parsed program selects

A line of the rules language has a meaning of its own: its argument is read by the library,
without a table. The router, run on what the parser wrote for a list of lines, selects what
the lines mean (`exec_parsed`). Two programs can so be compared by their lines, even if
their tables differ.
-/

namespace Gonnect.Routing

open Checked StraightLine Netip List RouterCfg Command AddrStringOps BytecodeParser

structure RuleToken where
  op : Op
  arg : Text
  hasArg : Bool

variable (library : ParserLibrary)

def RuleLine.token? (line : RuleLine) : Option RuleToken :=
  if line.skipped library then none
  else (line.op? library).map fun op =>
    ⟨op, (splitRuleLine line.text).2.1, (splitRuleLine line.text).2.2⟩

def ruleTokens (lines : List RuleLine) : List RuleToken :=
  lines.filterMap (RuleLine.token? library)

namespace RuleToken

section Readings

variable (token : RuleToken)

def slot : Option ℕ :=
  (library.parseUint (library.trimSpace token.arg) 8).map (· % 256)

def addr4 : Option (BitVec 32) :=
  (library.parseAddr (library.trimSpace token.arg)).bind Addr.as4

def addr6 : Option Addr :=
  (library.parseAddr (library.trimSpace token.arg)).filter Addr.is6

def snet4 : Option IPv4Subnet :=
  ((library.parsePrefix (library.trimSpace token.arg)).filter fun subnet =>
    subnet.addr.is4).bind (ipv4SubnetEntry library)

def snet6 : Option Netip.Prefix :=
  ((library.parsePrefix (library.trimSpace token.arg)).filter fun subnet =>
    subnet.addr.is6).map library.masked

def port : Option ℕ :=
  library.parseUint (library.trimSpace token.arg) 16

end Readings

def holds (ev : Eval) (token : RuleToken) : Bool :=
  match token.op with
  | .net4 => ev.isNet4
  | .net6 => ev.isNet6
  | .udp => isUDPNet ev.network
  | .tcp => isTCPNet ev.network
  | .dial => ev.isDial
  | .listen => ev.isListen
  | .lookup => ev.isLookup
  | .fqdn => ev.raddr.isFQDN
  | .lfqdn => ev.laddr.isFQDN
  | .addrS => ev.raddr.matchString token.arg
  | .laddrS => ev.laddr.matchString token.arg
  | .addrRe => (library.compile token.arg).any ev.raddr.matchRegexp
  | .laddrRe => (library.compile token.arg).any ev.laddr.matchRegexp
  | .addr4 => (token.addr4 library).any ev.raddr.matchIPv4
  | .laddr4 => (token.addr4 library).any ev.laddr.matchIPv4
  | .addr6 => (token.addr6 library).any fun want => ev.raddr.ipv6 == want
  | .laddr6 => (token.addr6 library).any fun want => ev.laddr.ipv6 == want
  | .snet4 => (token.snet4 library).any ev.raddr.inIPv4Subnet
  | .lsnet4 => (token.snet4 library).any ev.laddr.inIPv4Subnet
  | .snet6 => (token.snet6 library).any fun subnet => subnet.contains ev.raddr.ipv6
  | .lsnet6 => (token.snet6 library).any fun subnet => subnet.contains ev.laddr.ipv6
  | .port => (token.port library).any fun port => testPort port (ev.raddr.port ev.portNetwork)
  | .lport => (token.port library).any fun port => testPort port (ev.laddr.port ev.portNetwork)
  | _ => false

def target (token : RuleToken) : ℕ :=
  match token.op with
  | .slot => ((token.slot library).bind fun slot => bytecodeParamInt slot routerSlots).getD 0
  | _ => 0

def command (ev : Eval) (token : RuleToken) : BoolStack.Cmd ℕ :=
  token.op.stackCommand (token.holds library ev) (token.target library)

end RuleToken

variable {param : ℕ}

namespace BytecodeParser

variable {Factory : Type}

structure Extends (later parser : BytecodeParser Factory) : Prop where
  strings : later.strings.Extends parser.strings
  regexps : later.regexps.Extends parser.regexps
  ipv4Addrs : later.ipv4Addrs.Extends parser.ipv4Addrs
  ipv4Subnets : later.ipv4Subnets.Extends parser.ipv4Subnets
  ipv6Addrs : later.ipv6Addrs.Extends parser.ipv6Addrs
  ipv6Subnets : later.ipv6Subnets.Extends parser.ipv6Subnets

theorem Extends.refl (parser : BytecodeParser Factory) : parser.Extends parser :=
  ⟨.refl _, .refl _, .refl _, .refl _, .refl _, .refl _⟩

theorem Extends.trans {first second third : BytecodeParser Factory} (later : third.Extends second)
    (earlier : second.Extends first) : third.Extends first where
  strings := later.strings.trans earlier.strings
  regexps := later.regexps.trans earlier.regexps
  ipv4Addrs := later.ipv4Addrs.trans earlier.ipv4Addrs
  ipv4Subnets := later.ipv4Subnets.trans earlier.ipv4Subnets
  ipv6Addrs := later.ipv6Addrs.trans earlier.ipv6Addrs
  ipv6Subnets := later.ipv6Subnets.trans earlier.ipv6Subnets

def Entry (parser : BytecodeParser Factory) (token : RuleToken) (param : ℕ) : Prop :=
  match token.op with
  | .slot => token.slot library = some param
  | .addrS | .laddrS => parser.strings.entries[param]? = some token.arg
  | .addrRe | .laddrRe => parser.regexps.entries[param]? = some token.arg
  | .addr4 | .laddr4 =>
    ∃ value, token.addr4 library = some value ∧ parser.ipv4Addrs.entries[param]? = some value
  | .addr6 | .laddr6 =>
    ∃ addr, token.addr6 library = some addr ∧ parser.ipv6Addrs.entries[param]? = some addr
  | .snet4 | .lsnet4 =>
    ∃ subnet, token.snet4 library = some subnet ∧
      parser.ipv4Subnets.entries[param]? = some subnet
  | .snet6 | .lsnet6 =>
    ∃ subnet, token.snet6 library = some subnet ∧
      parser.ipv6Subnets.entries[param]? = some subnet
  | .port | .lport => token.port library = some param
  | _ => True

variable {library}

theorem Entry.mono {parser later : BytecodeParser Factory}
    {token : RuleToken} (entry : parser.Entry library token param)
    (extended : later.Extends parser) :
    later.Entry library token param := by
  rcases token with ⟨op, arg, hasArg⟩
  cases op with
  | addrS | laddrS => exact extended.strings.getElem? entry
  | addrRe | laddrRe => exact extended.regexps.getElem? entry
  | addr4 | laddr4 => exact entry.imp fun _ found => ⟨found.1, extended.ipv4Addrs.getElem? found.2⟩
  | addr6 | laddr6 => exact entry.imp fun _ found => ⟨found.1, extended.ipv6Addrs.getElem? found.2⟩
  | snet4 | lsnet4 =>
    exact entry.imp fun _ found => ⟨found.1, extended.ipv4Subnets.getElem? found.2⟩
  | snet6 | lsnet6 =>
    exact entry.imp fun _ found => ⟨found.1, extended.ipv6Subnets.getElem? found.2⟩
  | _ => exact entry

variable {parser later : BytecodeParser Factory} {op : Op} {arg : Text}
    {hasArg : Bool}

theorem of_requiredTextArg {α : Type} {rest : Text → Except ArgumentError α} {result : α}
    (read : requiredTextArg op arg hasArg >>= rest = .ok result) : rest arg = .ok result := by
  rw [requiredTextArg] at read
  split_ifs at read
  · cases read
  · exact read

theorem parseUintArg_eq {bits value : ℕ}
    (read : parseUintArg library op arg hasArg bits = .ok value) :
    library.parseUint (library.trimSpace arg) bits = some value := by
  rw [parseUintArg] at read
  split_ifs at read
  split at read
  · cases read
  · cases read
    assumption

theorem entryParam_spec {α : Type} [DecidableEq α] {table : Pool α 65536} {entry : α}
    {keep : Pool α 65536 → BytecodeParser Factory} {rest : _ → Except _ _}
    (read : entryParam op table entry >>= rest = .ok (param, later))
    (kept : ∀ idx after, rest (idx, after) = .ok (idx, keep after)) :
    ∃ after, later = keep after ∧ after.Extends table ∧ after.entries[param]? = some entry ∧
      param < 65536 := by
  rcases of_bind read with ⟨⟨idx, after⟩, interned, same⟩
  cases (kept idx after).symm.trans same
  rw [entryParam] at interned
  split at interned
  · cases interned
  · cases interned
    exact ⟨after, rfl, Pool.intern_spec (by assumption)⟩

open Extends

theorem stringParam_spec (read : parser.stringParam op arg hasArg = .ok (param, later)) :
    later.Extends parser ∧ later.strings.entries[param]? = some arg ∧ param < 65536 := by
  have body := of_requiredTextArg read
  rcases entryParam_spec body fun _ _ => rfl with ⟨_, rfl, extended, found, small⟩
  exact ⟨{ refl parser with strings := extended }, found, small⟩

theorem regexpParam_spec (read : parser.regexpParam library op arg hasArg = .ok (param, later)) :
    later.Extends parser ∧ later.regexps.entries[param]? = some arg ∧ param < 65536 := by
  have body := of_requiredTextArg read
  split_ifs at body
  rcases entryParam_spec body fun _ _ => rfl with ⟨_, rfl, extended, found, small⟩
  exact ⟨{ refl parser with regexps := extended }, found, small⟩

open RuleToken

theorem ipv4Param_spec (read : parser.ipv4Param library op arg hasArg = .ok (param, later)) :
    later.Extends parser ∧ (∃ value, addr4 library ⟨op, arg, hasArg⟩ = some value ∧
      later.ipv4Addrs.entries[param]? = some value) ∧ param < 65536 := by
  have body := of_requiredTextArg read
  split at body
  · cases body
  · rename_i value isValue
    rcases entryParam_spec body fun _ _ => rfl with ⟨_, rfl, extended, found, small⟩
    exact ⟨{ refl parser with ipv4Addrs := extended }, ⟨value, isValue, found⟩, small⟩

theorem ipv6Param_spec (read : parser.ipv6Param library op arg hasArg = .ok (param, later)) :
    later.Extends parser ∧ (∃ addr, addr6 library ⟨op, arg, hasArg⟩ = some addr ∧
      later.ipv6Addrs.entries[param]? = some addr) ∧ param < 65536 := by
  have body := of_requiredTextArg read
  split at body
  · cases body
  · rename_i addr isAddr
    rcases entryParam_spec body fun _ _ => rfl with ⟨_, rfl, extended, found, small⟩
    exact ⟨{ refl parser with ipv6Addrs := extended }, ⟨addr, isAddr, found⟩, small⟩

theorem ipv4SubnetParam_spec
    (read : parser.ipv4SubnetParam library op arg hasArg = .ok (param, later)) :
    later.Extends parser ∧ (∃ subnet, snet4 library ⟨op, arg, hasArg⟩ = some subnet ∧
      later.ipv4Subnets.entries[param]? = some subnet) ∧ param < 65536 := by
  have body := of_requiredTextArg read
  split at body
  · cases body
  · rename_i subnet isSubnet
    rcases entryParam_spec body fun _ _ => rfl with ⟨_, rfl, extended, found, small⟩
    exact ⟨{ refl parser with ipv4Subnets := extended }, ⟨subnet, isSubnet, found⟩, small⟩

theorem ipv6SubnetParam_spec
    (read : parser.ipv6SubnetParam library op arg hasArg = .ok (param, later)) :
    later.Extends parser ∧ (∃ subnet, snet6 library ⟨op, arg, hasArg⟩ = some subnet ∧
      later.ipv6Subnets.entries[param]? = some subnet) ∧ param < 65536 := by
  have body := of_requiredTextArg read
  split at body
  · cases body
  · rename_i subnet isSubnet
    rcases entryParam_spec body fun _ _ => rfl with ⟨_, rfl, extended, found, small⟩
    refine ⟨{ refl parser with ipv6Subnets := extended }, ⟨_, ?_, found⟩, small⟩
    rw [snet6, isSubnet, Option.map_some]

theorem portParam_spec (read : portParam library op arg hasArg = .ok param) :
    port library ⟨op, arg, hasArg⟩ = some param ∧ param < 65536 := by
  rcases of_bind read with ⟨value, parsed, body⟩
  split_ifs at body with outside
  cases body
  exact ⟨parseUintArg_eq parsed, by omega⟩

theorem namedClassifier_lt {idx : ℕ} (found : parser.namedClassifier library arg = some idx) :
    idx < 65536 := by
  rw [namedClassifier] at found
  split at found
  · cases found
  · rw [sniffIndex, findIdx?_eq_some_iff_getElem] at found
    rcases found with ⟨inside, _⟩
    exact lt_of_lt_of_le inside parser.sniffClassifiers.small

theorem addSniffClassifier_spec {classifier : NamedSniffClassifier Factory}
    (added : parser.addSniffClassifier library classifier = .ok (param, later)) :
    later.Extends parser ∧ param < 65536 := by
  rcases of_bind added with ⟨name, _, body⟩
  split at body
  · cases body
  · split_ifs at body
    split at body
    · cases body
    · rename_i pushed
      cases body
      exact ⟨{ refl parser with }, (Pool.push_spec pushed).2.2⟩

theorem constructSniffClassifier_spec
    (constructed : parser.constructSniffClassifier library arg = .ok (param, later)) :
    later.Extends parser ∧ param < 65536 := by
  rcases of_bind constructed with ⟨⟨name, options⟩, _, body⟩
  dsimp only at body
  split at body
  · split_ifs at body
  · split at body
    · cases body
    · cases body
    · split at body
      · cases body
        exact ⟨.refl _, UInt16.toNat_lt _⟩
      · rcases of_bind body with ⟨⟨idx, extended⟩, added, same⟩
        cases same
        rcases addSniffClassifier_spec added with ⟨extends_, small⟩
        exact ⟨{ extends_ with }, small⟩

theorem sniffParam_spec (read : parser.sniffParam library op arg hasArg = .ok (param, later)) :
    later.Extends parser ∧ param < 65536 := by
  rcases of_bind read with ⟨text, _, body⟩
  split at body
  · rename_i found
    cases body
    exact ⟨.refl _, namedClassifier_lt found⟩
  · exact constructSniffClassifier_spec body

theorem routeParam_spec (read : parser.routeParam library op arg hasArg = .ok (param, later)) :
    later.Extends parser ∧ param < 65536 := by
  rcases of_bind read with ⟨text, _, body⟩
  split at body
  · cases body
  · split at body
    · cases body
    · rcases of_bind body with ⟨mutation, _, rest⟩
      rcases entryParam_spec rest fun _ _ => rfl with ⟨_, rfl, _, _, small⟩
      exact ⟨{ refl parser with }, small⟩

theorem param_spec (read : parser.param library op arg hasArg = .ok (param, later)) :
    later.Extends parser ∧ later.Entry library ⟨op, arg, hasArg⟩ param ∧ op.fits param := by
  unfold BytecodeParser.param at read
  split at read
  case h_1 =>
    rcases of_bind read with ⟨value, parsed, same⟩
    cases same
    refine ⟨.refl _, ?_, Nat.mod_lt _ (by decide)⟩
    simp [Entry, slot, parseUintArg_eq parsed]
  case h_2 | h_3 => exact stringParam_spec read
  case h_4 | h_5 => exact regexpParam_spec read
  case h_6 | h_7 => exact ipv4Param_spec read
  case h_8 | h_9 => exact ipv6Param_spec read
  case h_10 | h_11 => exact ipv4SubnetParam_spec read
  case h_12 | h_13 => exact ipv6SubnetParam_spec read
  case h_14 | h_15 =>
    rcases of_bind read with ⟨value, parsed, same⟩
    cases same
    exact ⟨.refl _, portParam_spec parsed⟩
  case h_16 =>
    rcases sniffParam_spec read with ⟨extended, small⟩
    exact ⟨extended, trivial, small⟩
  case h_17 =>
    rcases routeParam_spec read with ⟨extended, small⟩
    exact ⟨extended, trivial, small⟩
  case h_18 | h_19 | h_20 | h_21 | h_22 =>
    split at read
    · cases read
    · cases read
      exact ⟨.refl _, trivial, Nat.mod_lt _ (by decide)⟩
  all_goals
    split_ifs at read
    cases read
    exact ⟨.refl _, trivial, rfl⟩

end BytecodeParser

structure BytecodeParser.Writes {Factory : Type} (parser : BytecodeParser Factory)
    (token : RuleToken) (command : Command) : Prop where
  op : command.op = token.op
  entry : parser.Entry library token command.param
  fits : command.op.fits command.param

variable {Factory α : Type} {library} {tables : Tables}

variable {parser : BytecodeParser Factory} {token : RuleToken} {command : Command}
  {program : List Command}

theorem BytecodeParser.Writes.mono {later : BytecodeParser Factory}
    (writes : parser.Writes library token command) (extended : later.Extends parser) :
    later.Writes library token command :=
  { writes with entry := writes.entry.mono extended }

variable {name : String} {table : List α} {tokens : List RuleToken} {hasLAddr lookup : Bool}

theorem parseProgramLines_spec {lines : List RuleLine} :
    ∀ {code after : List UInt8} {parser later : BytecodeParser Factory},
      parseProgramLines library name lines code parser = .ok (after, later) →
      later.Extends parser ∧ ∃ program, after = code ++ assemble program ∧
        Forall₂ (later.Writes library) (ruleTokens library lines) program := by
  induction lines with
  | nil =>
    intro code after parser later parsed
    cases parsed
    exact ⟨.refl _, [], by simp [assemble_nil], .nil⟩
  | cons line lines ih =>
    intro code after parser later parsed
    rw [parseProgramLines] at parsed
    split_ifs at parsed with isSkipped
    · have noToken : line.token? library = none := by
        rw [RuleLine.token?, if_pos isSkipped]
      rw [ruleTokens, filterMap_cons_none noToken]
      exact ih parsed
    · dsimp only at parsed
      split at parsed
      · cases parsed
      · rename_i op isOp
        have isToken : line.token? library =
            some ⟨op, (splitRuleLine line.text).2.1, (splitRuleLine line.text).2.2⟩ := by
          rw [RuleLine.token?, if_neg isSkipped, isOp, Option.map_some]
        split at parsed
        · cases parsed
        · rename_i between middle appended
          rcases of_bind appended with ⟨⟨param, _⟩, read, same⟩
          cases same
          rcases param_spec read with ⟨first, entry, fits⟩
          rcases ih parsed with ⟨rest, program, written, writes⟩
          refine ⟨rest.trans first, ⟨op, param⟩ :: program, ?_, ?_⟩
          · rw [written, assemble_cons, append_assoc]
          · rw [ruleTokens, filterMap_cons_some isToken]
            exact .cons ⟨rfl, entry.mono rest, fits⟩ writes

structure BytecodeParser.Fills {Factory : Type} (library : ParserLibrary)
    (parser : BytecodeParser Factory) (tables : Tables) : Prop where
  strings : tables.strings = parser.strings.entries
  regexps : parser.regexps.entries.map library.compile = tables.regexps.map some
  ipv4Addrs : tables.ipv4Addrs = parser.ipv4Addrs.entries
  ipv4Subnets : tables.ipv4Subnets = parser.ipv4Subnets.entries
  ipv6Addrs : tables.ipv6Addrs = parser.ipv6Addrs.entries
  ipv6Subnets : tables.ipv6Subnets = parser.ipv6Subnets.entries

theorem firstFailure_eq_none {valid : α → Bool} (noFailure : firstFailure valid table = none) :
    ∀ entry ∈ table, valid entry = true := by
  intro entry isMember
  rcases getElem_of_mem isMember with ⟨position, inside, same⟩
  have passed := findSome?_eq_none_iff.mp noFailure (entry, position) (by
    rw [mem_zipIdx_iff_getElem?]
    exact List.getElem?_eq_some_iff.mpr ⟨inside, same⟩)
  by_contra invalid
  simp [invalid] at passed

theorem map_some_reduceOption {table : List (Option α)}
    (present : ∀ entry ∈ table, entry.isSome = true) : table.reduceOption.map some = table := by
  induction table with
  | nil => rfl
  | cons first rest ih =>
    rcases Option.isSome_iff_exists.mp (present first mem_cons_self) with ⟨value, rfl⟩
    rw [reduceOption_cons_of_some, map_cons, ih]
    exact fun entry isMember => present entry (mem_cons_of_mem _ isMember)

theorem BytecodeParser.fills_of_validate
    (validated : (parser.apply library).validate = .ok tables) : parser.Fills library tables := by
  rw [RawTables.validate] at validated
  split at validated
  · cases validated
  · rename_i noFailure
    rcases of_bind validated with ⟨_, _, same⟩
    cases same
    refine ⟨rfl, ?_, rfl, rfl, rfl, rfl⟩
    exact (map_some_reduceOption (firstFailure_eq_none noFailure)).symm

theorem testEntry_of_getElem? {entry : α} (found : table[param]? = some entry) (test : α → Bool) :
    testEntry table param test = .ok (test entry) := by
  rcases List.getElem?_eq_some_iff.mp found with ⟨inside, _⟩
  have present : bytecodeParamIndex param table.length = some param := by
    rw [bytecodeParamIndex, if_neg (by omega), if_neg (by omega)]
  simp [testEntry, present, index, found, ok_bind]

theorem BytecodeParser.Fills.regexp (fills : parser.Fills library tables) {arg : Text}
    (found : parser.regexps.entries[param]? = some arg) :
    ∃ regexp, library.compile arg = some regexp ∧ tables.regexps[param]? = some regexp := by
  have compiled : (tables.regexps.map some)[param]? = some (library.compile arg) := by
    rw [← fills.regexps, getElem?_map, found, Option.map_some]
  rw [getElem?_map, Option.map_eq_some_iff] at compiled
  rcases compiled with ⟨regexp, isEntry, same⟩
  exact ⟨regexp, same.symm, isEntry⟩

theorem BytecodeParser.Writes.predicate (writes : parser.Writes library token command)
    (fills : parser.Fills library tables) (ev : Eval)
    (accepted : RouterCfg.Accepts token.op command.param) (isPredicate : token.op.isLogic = false)
    (notTerminal : token.op.isTerminal = false) :
    tables.predicate ev token.op command.param = some (.ok (token.holds library ev)) := by
  rcases token with ⟨op, arg, hasArg⟩
  have entry := writes.entry
  cases op with
  | addrS | laddrS =>
    rw [Entry, ← fills.strings] at entry
    exact congrArg some (testEntry_of_getElem? entry _)
  | addrRe | laddrRe =>
    rcases fills.regexp entry with ⟨regexp, compiled, found⟩
    simp only [RuleToken.holds, compiled, Option.any_some]
    exact congrArg some (testEntry_of_getElem? found _)
  | addr4 | laddr4 | addr6 | laddr6 | snet4 | lsnet4 | snet6 | lsnet6 =>
    rcases entry with ⟨value, parsed, found⟩
    simp only [← fills.ipv4Addrs, ← fills.ipv6Addrs, ← fills.ipv4Subnets,
      ← fills.ipv6Subnets] at found
    simp only [RuleToken.holds, parsed, Option.any_some]
    exact congrArg some (testEntry_of_getElem? found _)
  | port | lport =>
    simp only [Entry] at entry
    simp only [RuleToken.holds, entry, Option.any_some]
    rfl
  | net4 | net6 | udp | tcp | fqdn | lfqdn | dial | listen | lookup => rfl
  | pushTrue | pushFalse | not | and | or => cases isPredicate
  | drop | slot => cases notTerminal
  | rule => exact absurd rfl accepted.1
  | intercept | sniff | sniffNone | route => cases accepted.2.1
  | backend | qtype | qclass | opcode => cases accepted.2.2

def Op.remoteString : Op → Bool
  | .addrS | .addrRe => true
  | _ => false

def Op.localString : Op → Bool
  | .laddrS | .laddrRe => true
  | _ => false

open Op

theorem run_mark (program : List Command) (ops : AddrStringOps) :
    run (fun instr => instr.perform mark) id (program.map instr) ops =
      .ok ⟨ops.remote || program.any fun command => command.op.remoteString,
        ops.local || program.any fun command => command.op.localString⟩ := by
  induction program generalizing ops with
  | nil => simp [run]
  | cons command program ih =>
    rcases command with ⟨op, param⟩
    have marked : (instr ⟨op, param⟩).perform mark ops =
        .ok (.next ⟨ops.remote || op.remoteString, ops.local || op.localString⟩) := by
      change mark op param ops = _
      cases op <;> simp [mark, remoteString, localString]
    rw [map_cons, run, marked, ok_bind]
    dsimp only
    rw [ih, any_cons, any_cons, Bool.or_assoc, Bool.or_assoc]

theorem bytecodeAddrStringOps_assemble (fits : ∀ command ∈ program, command.op.fits command.param) :
    bytecodeAddrStringOps (assemble program) =
      .ok ⟨program.any fun command => command.op.remoteString,
        program.any fun command => command.op.localString⟩ := by
  rw [bytecodeAddrStringOps, execLoop_eq_run (decode_assemble fits), run_mark]
  rfl

def RouterCfg.eval (method : BytecodeMethod) (network : Text) (laddr raddr : AddrInput)
    (storage : Option (Addr → List Text)) (stringOps : AddrStringOps) : Eval where
  network := network
  laddr := newAddrCache laddr storage stringOps.local
  raddr := newAddrCache raddr storage stringOps.remote
  isDial := method == .dial
  isListen := method == .listen
  isLookup := method == .lookup

/-- Names are looked up only if the program asks for them. A line that asks for them sees
them, and any other line does not depend on it. -/
theorem RuleToken.holds_eval {method : BytecodeMethod} {network : Text} {laddr raddr : AddrInput}
    {storage : Option (Addr → List Text)} {stringOps : AddrStringOps}
    (remote : token.op.remoteString = true → stringOps.remote = true)
    («local» : token.op.localString = true → stringOps.local = true) :
    token.holds library (eval method network laddr raddr storage stringOps) =
      token.holds library (eval method network laddr raddr storage ⟨true, true⟩) := by
  rcases token with ⟨op, arg, hasArg⟩
  rcases stringOps with ⟨remoteOps, localOps⟩
  cases op with
  | addrS | addrRe =>
    cases remote rfl
    rfl
  | laddrS | laddrRe =>
    cases «local» rfl
    rfl
  | _ => rfl

theorem Op.stackCommand_congr {Result : Type} {op : Op} {truth truth' : Bool}
    {result result' : Result} (same : op.isLogic = false → op.isTerminal = false → truth = truth')
    (sameResult : op.isTerminal = true → result = result') :
    op.stackCommand truth result = op.stackCommand truth' result' := by
  cases terminalOp : op.isTerminal with
  | true =>
    rw [stackCommand_terminal terminalOp, stackCommand_terminal terminalOp,
      sameResult terminalOp]
  | false =>
    cases logic : op.isLogic with
    | true => rcases isLogic_cases logic with rfl | rfl | rfl | rfl | rfl <;> rfl
    | false =>
      rw [stackCommand_predicate terminalOp logic, stackCommand_predicate terminalOp logic,
        same logic terminalOp]

theorem BytecodeParser.Writes.command_eq (writes : parser.Writes library token command)
    (fills : parser.Fills library tables) (ev : Eval)
    (accepted : RouterCfg.Accepts token.op command.param) :
    command.instr.command (truth tables ev) result = token.command library ev := by
  have sameOp := writes.op
  rw [instr, Instr.command, sameOp]
  refine stackCommand_congr (fun isPredicate notTerminal => ?_) (fun _ => ?_)
  · rw [truth, writes.predicate fills ev accepted isPredicate notTerminal]
  · have entry := writes.entry
    rcases token with ⟨op, arg, hasArg⟩
    cases op with
    | slot =>
      simp only [Entry] at entry
      simp [result, RuleToken.target, entry]
    | _ => rfl

theorem toOption_eq_some {ε : Type} {result : Except ε α} {value : α}
    (succeeded : result.toOption = some value) : result = .ok value := by
  cases result with
  | error => cases succeeded
  | ok => cases succeeded; rfl

theorem fits_of_writes (written : Forall₂ (parser.Writes library) tokens program) :
    ∀ command ∈ program, command.op.fits command.param := by
  induction written with
  | nil => simp
  | cons first _ ih =>
    exact forall_mem_cons.mpr ⟨first.fits, ih⟩

theorem forall₂_map_eq {β γ : Type} {related : α → β → Prop} {first : List α} {second : List β}
    {f : α → γ} {g : β → γ} (paired : Forall₂ related first second)
    (same : ∀ a b, related a b → b ∈ second → g b = f a) : second.map g = first.map f := by
  induction paired with
  | nil => rfl
  | cons isRelated _ ih =>
    rw [map_cons, map_cons, same _ _ isRelated mem_cons_self,
      ih fun a b pair member => same a b pair (mem_cons_of_mem _ member)]

section

variable (fills : parser.Fills library tables)
  (written : Forall₂ (parser.Writes library) tokens program)
  (accepted : validateCode tables name (assemble program) hasLAddr lookup = .ok ())

include fills written accepted

theorem RouterCfg.execLoop_parsed (ev : Eval) (missing : ℕ) :
    execLoop (step tables ev) (fun _ => missing) (assemble program) 0 [] =
      .ok ((BoolStack.run (tokens.map (RuleToken.command library ev)) []).getD missing) := by
  rcases validateBytecode_ok (mapError_eq_ok_iff.mp accepted) with ⟨last, valid⟩
  have sound : ∀ pc op param, validateOp tables name hasLAddr lookup pc op param = .ok () →
      Accepts op param := fun _ _ _ => validateOp_sound
  have decoded := decode_assemble (fits_of_writes written)
  have allowed : ∀ command ∈ program, Accepts command.op command.param := by
    rcases validateLoop_decodes sound valid with ⟨same, decodedAgain, checks⟩
    cases decoded.symm.trans decodedAgain
    intro command member
    rcases checks.forall_mem command.instr (mem_map_of_mem member) with
      ⟨before, after, op, isOp, isAllowed, _⟩
    cases isOp
    exact isAllowed
  rw [(interprets tables _).exec missing sound valid decoded, map_map]
  congr 3
  refine forall₂_map_eq written fun token command writes member => ?_
  exact writes.command_eq fills ev (writes.op ▸ allowed command member)

theorem RouterCfg.exec_parsed (method : BytecodeMethod) (network : Text) (laddr raddr : AddrInput)
    (storage : Option (Addr → List Text)) :
    exec tables (assemble program) method network laddr raddr storage =
      .ok ((BoolStack.run (tokens.map (RuleToken.command library
        (eval method network laddr raddr storage ⟨true, true⟩))) []).getD 0) := by
  rw [exec, bytecodeAddrStringOps_assemble (fits_of_writes written), ok_bind]
  change execLoop (step tables (eval method network laddr raddr storage _)) (fun _ => 0) _ 0 [] = _
  rw [execLoop_parsed fills written accepted]
  congr 3
  refine map_congr_left fun token isToken => ?_
  obtain ⟨command, member, sameOp⟩ : ∃ command ∈ program, command.op = token.op := by
    have ops : program.map op = tokens.map RuleToken.op :=
      forall₂_map_eq written fun _ _ writes _ => writes.op
    exact mem_map.mp (ops ▸ mem_map_of_mem isToken)
  rw [RuleToken.command, RuleToken.command, RuleToken.holds_eval]
  · intro isRemote
    exact any_eq_true.mpr ⟨command, member, by rw [sameOp]; exact isRemote⟩
  · intro isLocal
    exact any_eq_true.mpr ⟨command, member, by rw [sameOp]; exact isLocal⟩

end

end Gonnect.Routing
