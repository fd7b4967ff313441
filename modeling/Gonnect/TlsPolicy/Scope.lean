import Gonnect.Foundation.Checked
import Gonnect.TlsPolicy.Identity

/-!
# Scopes of identities

A scope lists domains and IP prefixes. Compiling it brings the domains into their canonical
form, clears the host bits of the prefixes, and drops what occurs twice. None of this changes
which identities the scope contains (`compileScope_allows_iff`).
-/

namespace Gonnect.TlsPolicy

open Netip Checked List Firewall

structure DNSRule where
  domain : Text
  includeSubdomains : Bool
deriving DecidableEq

structure Scope where
  any : Bool
  dns : List DNSRule
  ipPrefixes : List Prefix
deriving DecidableEq

structure CompiledScope where
  any : Bool
  dns : List DNSRule
  ipPrefixes : List Prefix
deriving DecidableEq

inductive ScopeError where
  | combined
  | rule (index : ℕ) (err : DNSNameError)
  | invalidPrefix (index : ℕ)
  | zonePrefix (index : ℕ)
  | mappedPrefix (index : ℕ)
  | empty
deriving DecidableEq

def ruleKey (rule : DNSRule) : Text :=
  rule.domain ++ 0 :: (if rule.includeSubdomains then bytes "subdomains" else [])

def compileRules (library : Library) :
    ℕ → List Text → List DNSRule → Except ScopeError (List DNSRule)
  | _, _, [] => .ok []
  | index, seen, rule :: rest =>
    match canonicalDNSName library rule.domain with
    | .error err => .error (.rule index err)
    | .ok domain =>
      let compiled : DNSRule := ⟨domain, rule.includeSubdomains⟩
      if ruleKey compiled ∈ seen then
        compileRules library (index + 1) seen rest
      else do
        let others ← compileRules library (index + 1) (ruleKey compiled :: seen) rest
        .ok (compiled :: others)

def compilePrefixes :
    ℕ → List Prefix → List Prefix → Except ScopeError (List Prefix)
  | _, _, [] => .ok []
  | index, seen, subnet :: rest =>
    if subnet.isValid = false then
      .error (.invalidPrefix index)
    else if subnet.addr.zone ≠ "" then
      .error (.zonePrefix index)
    else if is4In6 subnet.addr then
      .error (.mappedPrefix index)
    else if masked subnet ∈ seen then
      compilePrefixes (index + 1) seen rest
    else do
      let others ← compilePrefixes (index + 1) (masked subnet :: seen) rest
      .ok (masked subnet :: others)

variable (library : Library)

def compileScope (scope : Scope) (allowEmpty : Bool) :
    Except ScopeError CompiledScope :=
  if scope.any then
    if scope.dns.length ≠ 0 ∨ scope.ipPrefixes.length ≠ 0 then
      .error .combined
    else
      .ok ⟨true, [], []⟩
  else do
    let dns ← compileRules library 0 [] scope.dns
    let ipPrefixes ← compilePrefixes 0 [] scope.ipPrefixes
    if allowEmpty = false ∧ dns.length = 0 ∧ ipPrefixes.length = 0 then
      .error .empty
    else
      .ok ⟨false, dns, ipPrefixes⟩

/-- Whether a rule is about a name: its domain, or a name below it. -/
def DNSRule.matches (rule : DNSRule) (name : Text) : Bool :=
  name == rule.domain || (rule.includeSubdomains && hasSuffix name (dot :: rule.domain))

def CompiledScope.allows (scope : CompiledScope) (identity : ServerIdentity) : Bool :=
  if scope.any then
    identity.valid
  else
    match identity with
    | .invalid => false
    | .dns name => scope.dns.any fun rule => rule.matches name
    | .ip addr => scope.ipPrefixes.any fun subnet => subnet.contains addr

def Scope.Covers (scope : Scope) : ServerIdentity → Prop
  | .invalid => False
  | .dns name =>
    scope.any = true ∨ ∃ rule ∈ scope.dns, ∃ domain,
      canonicalDNSName library rule.domain = .ok domain ∧
        DNSRule.matches ⟨domain, rule.includeSubdomains⟩ name = true
  | .ip addr => scope.any = true ∨ ∃ subnet ∈ scope.ipPrefixes, subnet.contains addr = true

def DNSRule.CompilesTo (rule compiled : DNSRule) : Prop :=
  canonicalDNSName library rule.domain = .ok compiled.domain ∧
    rule.includeSubdomains = compiled.includeSubdomains

theorem ruleKey_injective {first second : DNSRule} (firstName : 0 ∉ first.domain)
    (secondName : 0 ∉ second.domain) (same : ruleKey first = ruleKey second) : first = second := by
  have cut : ∀ {name : Text} (rest : Text), 0 ∉ name →
      (name ++ 0 :: rest).takeWhile (· != 0) = name ∧
        (name ++ 0 :: rest).dropWhile (· != 0) = 0 :: rest := by
    intro name rest absent
    have kept : ∀ byte ∈ name, (byte != 0) = true := by
      intro byte member
      rw [bne_iff_ne]
      rintro rfl
      exact absent member
    rw [takeWhile_append_of_pos kept, dropWhile_append_of_pos kept]
    simp
  rcases first with ⟨firstDomain, firstIncludes⟩
  rcases second with ⟨secondDomain, secondIncludes⟩
  simp only [ruleKey] at same
  have domains := congrArg (takeWhile (· != 0)) same
  have rests := congrArg (dropWhile (· != 0)) same
  rw [(cut _ firstName).1, (cut _ secondName).1] at domains
  rw [(cut _ firstName).2, (cut _ secondName).2] at rests
  cases domains
  have includes : firstIncludes = secondIncludes := by
    cases firstIncludes <;> cases secondIncludes
    · rfl
    · cases rests
    · cases rests
    · rfl
  rw [includes]

variable {library} {index : ℕ} {subnets compiled seen : List Netip.Prefix}

theorem DNSRule.CompilesTo.no_zero {rule compiled : DNSRule}
    (compiles : rule.CompilesTo library compiled) : 0 ∉ compiled.domain := by
  intro member
  have valid : ValidName compiled.domain := ((canonicalDNSName_ok_iff _ _ _).mp compiles.1).labels
  exact absurd (valid.range member) (by decide)

theorem mem_compileRules_iff {rules compiled : List DNSRule} {seen : List Text}
    (accepted : compileRules library index seen rules = .ok compiled) (rule : DNSRule) :
    rule ∈ compiled ↔ (∃ source ∈ rules, source.CompilesTo library rule) ∧ ruleKey rule ∉ seen := by
  induction rules generalizing index seen compiled with
  | nil =>
    cases accepted
    simp
  | cons first rest ih =>
    rw [compileRules] at accepted
    cases canonical : canonicalDNSName library first.domain with
    | error err =>
      simp only [canonical] at accepted
      cases accepted
    | ok domain =>
      have compiles : first.CompilesTo library ⟨domain, first.includeSubdomains⟩ :=
        ⟨canonical, rfl⟩
      have unique : ∀ {other}, first.CompilesTo library other →
          other = ⟨domain, first.includeSubdomains⟩ := by
        rintro ⟨otherDomain, otherIncludes⟩ ⟨sameDomain, sameIncludes⟩
        rw [canonical] at sameDomain
        cases sameDomain
        cases sameIncludes
        rfl
      simp only [canonical] at accepted
      rw [exists_mem_cons_iff]
      split_ifs at accepted with repeated
      · have seenOwn : first.CompilesTo library rule → ruleKey rule ∈ seen :=
          fun own => unique own ▸ repeated
        rw [ih accepted]
        tauto
      · have own : first.CompilesTo library rule ↔ rule = ⟨domain, first.includeSubdomains⟩ :=
          ⟨unique, fun same => same ▸ compiles⟩
        have freshOwn : rule = ⟨domain, first.includeSubdomains⟩ → ruleKey rule ∉ seen :=
          fun same => same ▸ repeated
        have sameRule : (∃ source ∈ rest, source.CompilesTo library rule) →
            ruleKey rule = ruleKey ⟨domain, first.includeSubdomains⟩ →
            rule = ⟨domain, first.includeSubdomains⟩ := by
          rintro ⟨source, _, sourceCompiles⟩ sameKey
          exact ruleKey_injective sourceCompiles.no_zero compiles.no_zero sameKey
        rcases of_bind accepted with ⟨others, compiledRest, same⟩
        cases same
        rw [mem_cons, ih compiledRest, mem_cons, not_or, own]
        generalize (∃ source ∈ rest, source.CompilesTo library rule) = found at sameRule ⊢
        tauto

theorem mem_compilePrefixes_iff (accepted : compilePrefixes index seen subnets = .ok compiled)
    (subnet : Prefix) :
    subnet ∈ compiled ↔ (∃ source ∈ subnets, masked source = subnet) ∧ subnet ∉ seen := by
  induction subnets generalizing index seen compiled with
  | nil =>
    cases accepted
    simp
  | cons first rest ih =>
    rw [compilePrefixes] at accepted
    rw [exists_mem_cons_iff]
    split_ifs at accepted with invalid zone mapped repeated
    · have seenOwn : masked first = subnet → subnet ∈ seen := fun own => own ▸ repeated
      rw [ih accepted]
      tauto
    · have freshOwn : masked first = subnet → subnet ∉ seen := fun own => own ▸ repeated
      rcases of_bind accepted with ⟨others, compiledRest, same⟩
      cases same
      rw [mem_cons, ih compiledRest, mem_cons, not_or, eq_comm]
      tauto

open BitVec

theorem shift_back {width : ℕ} (value : BitVec width) (count : ℕ) :
    (value >>> count <<< count) >>> count = value >>> count := by
  apply eq_of_getLsbD_eq
  intro index inside
  by_cases within : count + index < width
  · simp [within]
  · simp [getLsbD_of_ge value (count + index) (by omega)]

theorem masked_eq {base : Addr} {bits : ℕ}
    (fits : ∀ length ∈ some bits, base.isValid ∧ base.zone = "" ∧ length ≤ base.bitLen) :
    ∃ maskedFits,
      masked ⟨base, some bits, fits⟩ =
        ⟨maskAddr bits base, some bits, maskedFits⟩ := by
  have own := fits bits rfl
  have maskedFits : (maskAddr bits base).isValid ∧
      (maskAddr bits base).zone = "" ∧ bits ≤ (maskAddr bits base).bitLen := by
    cases base with
    | zero | v4 value | v6 value zone => exact own
  exact ⟨by simpa using maskedFits, dif_pos maskedFits⟩

theorem contains_masked (subnet : Netip.Prefix) (addr : Addr) :
    (masked subnet).contains addr = subnet.contains addr := by
  rcases subnet with ⟨base, _ | bits, fits⟩
  · rfl
  · rcases masked_eq fits with ⟨maskedFits, masked⟩
    rw [masked]
    -- Only an address of the same family is compared with the base.
    cases base with
    | zero => rfl
    | v4 base =>
      cases addr with
      | zero | v6 value zone => rfl
      | v4 value =>
        simp [maskAddr, Prefix.contains, ushiftRight_xor_distrib, shift_back]
    | v6 base zone =>
      cases addr with
      | zero | v4 value => rfl
      | v6 value zone =>
        simp [maskAddr, Prefix.contains, ushiftRight_xor_distrib, shift_back]

theorem compileScope_allows_iff {scope : Scope} {allowEmpty : Bool} {compiled : CompiledScope}
    (accepted : compileScope library scope allowEmpty = .ok compiled) (identity : ServerIdentity) :
    compiled.allows identity = true ↔ scope.Covers library identity := by
  unfold compileScope at accepted
  split_ifs at accepted with any combined
  · cases accepted
    cases identity with
    | invalid => exact ⟨nofun, nofun⟩
    | dns name | ip addr => exact ⟨fun _ => .inl any, fun _ => rfl⟩
  · rcases of_bind accepted with ⟨dns, rules, accepted⟩
    rcases of_bind accepted with ⟨ipPrefixes, prefixes, accepted⟩
    split_ifs at accepted with empty
    cases accepted
    cases identity with
    | invalid => exact ⟨nofun, nofun⟩
    | dns name =>
      simp only [CompiledScope.allows, Scope.Covers, any, Bool.false_eq_true, if_false,
        false_or, any_eq_true, mem_compileRules_iff rules, not_mem_nil,
        not_false_eq_true, and_true]
      constructor
      · rintro ⟨⟨domain, includes⟩, ⟨source, member, canonical, rfl⟩, fits⟩
        exact ⟨source, member, domain, canonical, fits⟩
      · rintro ⟨source, member, domain, canonical, fits⟩
        exact ⟨⟨domain, source.includeSubdomains⟩, ⟨source, member, canonical, rfl⟩, fits⟩
    | ip addr =>
      simp only [CompiledScope.allows, Scope.Covers, any, Bool.false_eq_true, if_false,
        false_or, any_eq_true, mem_compilePrefixes_iff prefixes, not_mem_nil,
        not_false_eq_true, and_true]
      constructor
      · rintro ⟨_, ⟨source, member, rfl⟩, inside⟩
        exact ⟨source, member, (contains_masked source addr).symm.trans inside⟩
      · rintro ⟨source, member, inside⟩
        exact ⟨_, ⟨source, member, rfl⟩, (contains_masked source addr).trans inside⟩

theorem dot_suffix_intercalate (domain : Text) {front : List Text} (some : front ≠ []) :
    dot :: domain <:+ [dot].intercalate (front ++ domain.splitOn dot) := by
  induction front with
  | nil => exact absurd rfl some
  | cons label front ih =>
    rw [List.cons_append, intercalate_cons_of_ne_nil (by simp [splitOn_ne_nil])]
    cases front with
    | nil =>
      rw [nil_append, intercalate_splitOn, List.append_assoc]
      exact suffix_append _ _
    | cons next front => exact (ih (cons_ne_nil _ _)).trans (suffix_append _ _)

theorem hasSuffix_dot_iff (name domain : Text) :
    hasSuffix name (dot :: domain) = true ↔
      domain.splitOn dot <:+ name.splitOn dot ∧ domain.splitOn dot ≠ name.splitOn dot := by
  rw [hasSuffix, isSuffixOf_iff_suffix]
  constructor
  · rintro ⟨front, rfl⟩
    rw [splitOn_append_cons_self]
    exact ⟨suffix_append _ _, by simp [splitOn_ne_nil]⟩
  · rintro ⟨⟨front, same⟩, proper⟩
    have joined : [dot].intercalate (name.splitOn dot) = name := intercalate_splitOn dot
    rw [← joined, ← same]
    apply dot_suffix_intercalate
    rintro rfl
    exact proper same

/-- What a scope means: a domain is the name itself or the last labels of it. -/
def Scope.Names (library : Library) (scope : Scope) : ServerIdentity → Prop
  | .invalid => False
  | .dns name => ∃ rule ∈ scope.dns, ∃ domain, canonicalDNSName library rule.domain = .ok domain ∧
      (name = domain ∨ rule.includeSubdomains = true ∧ domain.splitOn dot <:+ name.splitOn dot ∧
        domain.splitOn dot ≠ name.splitOn dot)
  | .ip addr => ∃ subnet ∈ scope.ipPrefixes, subnet.contains addr.unmap = true

/-- A scope allows what it names: duplicates and host bits do not matter. -/
theorem allows_iff_names {scope : Scope} {allowEmpty : Bool} {compiled : CompiledScope}
    (accepted : compileScope library scope allowEmpty = .ok compiled) {value : Text}
    {identity : ServerIdentity} (parsed : parseServerIdentity library value = .ok identity) :
    compiled.allows identity = true ↔ scope.any = true ∨ scope.Names library identity := by
  rw [compileScope_allows_iff accepted]
  rcases parseServerIdentity_cases parsed with ⟨addr, rfl, _⟩ | ⟨name, rfl, _⟩
  · simp only [Scope.Covers, Scope.Names, unmap_unmap]
  · simp only [Scope.Covers, Scope.Names, DNSRule.matches, Bool.or_eq_true, Bool.and_eq_true,
      beq_iff_eq, hasSuffix_dot_iff]

theorem allows_iff_names_below :
    Scope.Names unaryLibrary ⟨false, [⟨bytes "B.", true⟩], []⟩ (.dns (bytes "a.b")) := by
  have accepted : compileScope unaryLibrary ⟨false, [⟨bytes "B.", true⟩], []⟩ false =
      .ok ⟨false, [⟨bytes "b", true⟩], []⟩ := by decide +kernel
  have parsed : parseServerIdentity unaryLibrary (bytes "a.b") = .ok (.dns (bytes "a.b")) := by
    decide +kernel
  exact ((allows_iff_names accepted parsed).mp (by decide)).resolve_left nofun

end Gonnect.TlsPolicy
