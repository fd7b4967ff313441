import Gonnect.TlsPolicy.Scope

/-!
# Policies for the authentication of servers

A policy names the trust anchors, constrains authorities, and pins leaf certificates, each in a
scope of identities. `compileServerPolicy` turns the lists of a specification into tables that
are keyed by fingerprints, and `verifyServer` keeps a chain that the handshake has verified
exactly if the specification authorizes it. The leaf, however, is checked in the first of these
chains only, and no constraint is applied to a chain of one certificate.
-/

namespace Gonnect.TlsPolicy

open Netip Checked List Option

abbrev Fingerprint := BitVec 256

structure X509 (Certificate : Type) where
  raw : Certificate → List UInt8
  rawSubjectPublicKeyInfo : Certificate → List UInt8
  parseCertificate : List UInt8 → Option Certificate
  /-- The error of `VerifyHostname`, if the certificate is not valid for the name. -/
  verifyHostname : Certificate → Text → Option Text
  sha256 : List UInt8 → Fingerprint

variable {Certificate : Type}

structure Authority where
  der : List UInt8
  fingerprint : Fingerprint
  spkiFingerprint : Fingerprint

def Authority.valid (authority : Authority) : Bool :=
  authority.der.length != 0

structure ScopedAuthority where
  authority : Authority
  scope : Scope

inductive AuthorityMatch where
  | certificate
  | spki
  | other (value : UInt8)
deriving DecidableEq

structure AuthorityConstraint where
  authority : Authority
  mode : AuthorityMatch
  scope : Scope

inductive PinKind where
  | invalid
  | leafCertificate
  | leafSPKI
  | other (value : UInt8)
deriving DecidableEq

structure Pin where
  kind : PinKind
  digest : Fingerprint

def Pin.valid (pin : Pin) : Bool :=
  pin.kind == .leafCertificate || pin.kind == .leafSPKI

variable (x509 : X509 Certificate)

/-- `Pin.Matches` for a certificate that is not nil -/
def Pin.matches (pin : Pin) (cert : Certificate) : Bool :=
  match pin.kind with
  | .leafCertificate => x509.sha256 (x509.raw cert) == pin.digest
  | .leafSPKI => x509.sha256 (x509.rawSubjectPublicKeyInfo cert) == pin.digest
  | _ => false

structure ScopedPin where
  pin : Pin
  scope : Scope

structure ServerPolicySpec where
  trustAnchors : List ScopedAuthority
  constraints : List AuthorityConstraint
  pins : List ScopedPin

abbrev ScopeTable := Fingerprint → Option CompiledScope

def ScopeTable.insert (table : ScopeTable) (id : Fingerprint) (scope : CompiledScope) :
    ScopeTable :=
  fun other => if other = id then some scope else table other

structure CompiledScopedPin where
  pin : Pin
  scope : CompiledScope

structure ServerPolicy (Certificate : Type) where
  roots : List Certificate
  anchorScopes : ScopeTable
  exactConstraints : ScopeTable
  spkiConstraints : ScopeTable
  pins : List CompiledScopedPin

inductive PolicyError where
  | anchorAuthority (index : ℕ)
  | anchorScope (index : ℕ) (err : ScopeError)
  | anchorRepeated (id : Fingerprint)
  | anchorCertificate (index : ℕ)
  | constraintAuthority (index : ℕ)
  | constraintScope (index : ℕ) (err : ScopeError)
  | exactRepeated (id : Fingerprint)
  | spkiRepeated (id : Fingerprint)
  | matchMode (index : ℕ) (mode : AuthorityMatch)
  | pinInvalid (index : ℕ)
  | pinScope (index : ℕ) (err : ScopeError)

variable (library : Library) (policy : ServerPolicy Certificate)

def compileAnchor (entry : ScopedAuthority × ℕ) : Except PolicyError (ServerPolicy Certificate) :=
  let (anchor, index) := entry
  if anchor.authority.valid = false then
    .error (.anchorAuthority index)
  else do
    let scope ← (compileScope library anchor.scope false).mapError (.anchorScope index)
    let id := anchor.authority.fingerprint
    if (policy.anchorScopes id).isSome then
      .error (.anchorRepeated id)
    else
      match x509.parseCertificate anchor.authority.der with
      | none => .error (.anchorCertificate index)
      | some cert =>
        .ok { policy with
          roots := policy.roots ++ [cert]
          anchorScopes := policy.anchorScopes.insert id scope }

def compileConstraint (entry : AuthorityConstraint × ℕ) :
    Except PolicyError (ServerPolicy Certificate) :=
  let (constraint, index) := entry
  if constraint.authority.valid = false then
    .error (.constraintAuthority index)
  else do
    let scope ← (compileScope library constraint.scope false).mapError (.constraintScope index)
    match constraint.mode with
    | .certificate =>
      let id := constraint.authority.fingerprint
      if (policy.exactConstraints id).isSome then
        .error (.exactRepeated id)
      else
        .ok { policy with exactConstraints := policy.exactConstraints.insert id scope }
    | .spki =>
      let id := constraint.authority.spkiFingerprint
      if (policy.spkiConstraints id).isSome then
        .error (.spkiRepeated id)
      else
        .ok { policy with spkiConstraints := policy.spkiConstraints.insert id scope }
    | .other _ => .error (.matchMode index constraint.mode)

def compilePin (entry : ScopedPin × ℕ) : Except PolicyError (ServerPolicy Certificate) :=
  let (scopedPin, index) := entry
  if scopedPin.pin.valid = false then
    .error (.pinInvalid index)
  else do
    let scope ← (compileScope library scopedPin.scope false).mapError (.pinScope index)
    .ok { policy with pins := policy.pins ++ [⟨scopedPin.pin, scope⟩] }

def emptyPolicy : ServerPolicy Certificate :=
  ⟨[], fun _ => none, fun _ => none, fun _ => none, []⟩

def compileServerPolicy (spec : ServerPolicySpec) :
    Except PolicyError (ServerPolicy Certificate) := do
  let anchored ← spec.trustAnchors.zipIdx.foldlM (compileAnchor x509 library) emptyPolicy
  let constrained ← spec.constraints.zipIdx.foldlM (compileConstraint library) anchored
  spec.pins.zipIdx.foldlM (compilePin library) constrained

/-- A chain as a caller passes it; a pointer in it may be nil. -/
abbrev Chain (Certificate : Type) := List (Option Certificate)

structure ConnectionState (Certificate : Type) where
  verifiedChains : List (Chain Certificate)

structure ServerVerification (Certificate : Type) where
  identity : ServerIdentity
  connectionState : ConnectionState Certificate
  authorizedChains : List (Chain Certificate)

inductive VerifyError where
  | nilPolicy
  | invalidIdentity
  | noVerifiedChains
  | unauthorizedChain (identity : ServerIdentity)
  | identityMismatch (identity : ServerIdentity) (err : Text)
  | pinMismatch (identity : ServerIdentity)
  /-- The stop of the program at a nil leaf. -/
  | fault

namespace ServerPolicy

def permitted (table : ScopeTable) (id : Fingerprint) (identity : ServerIdentity) : Bool :=
  match table id with
  | none => true
  | some scope => scope.allows identity

variable (identity : ServerIdentity)

def certPermitted : Option Certificate → Bool
  | none => false
  | some cert =>
    permitted policy.exactConstraints (x509.sha256 (x509.raw cert)) identity &&
      permitted policy.spkiConstraints (x509.sha256 (x509.rawSubjectPublicKeyInfo cert)) identity

def chainAuthorized (chain : Chain Certificate) : Bool :=
  match chain.head?, chain.getLast? with
  | some (some _), some (some root) =>
    match policy.anchorScopes (x509.sha256 (x509.raw root)) with
    | none => false
    | some scope =>
      scope.allows identity && chain.tail.all (certPermitted x509 policy identity)
  | _, _ => false

/-- The body of the loop over the pins: whether a pin is required, and whether one matched. -/
def checkPin (leaf : Certificate)
    (state : Bool × Bool) (scopedPin : CompiledScopedPin) : Bool × Bool :=
  if scopedPin.scope.allows identity then
    (true, state.2 || scopedPin.pin.matches x509 leaf)
  else
    state

def verifyLeaf (library : Library) (policy : ServerPolicy Certificate)
    (identity : ServerIdentity) (authorized : List (Chain Certificate)) (leaf : Certificate) :
    Except VerifyError (ServerVerification Certificate) :=
  match x509.verifyHostname leaf (identity.string library) with
  | some err => .error (.identityMismatch identity err)
  | none =>
    let (required, matched) := policy.pins.foldl (checkPin x509 identity leaf) (false, false)
    if required && !matched then
      .error (.pinMismatch identity)
    else
      .ok ⟨identity, ⟨authorized⟩, authorized⟩

def verifyServer (library : Library)
    (policy : Option (ServerPolicy Certificate)) (identity : ServerIdentity)
    (state : ConnectionState Certificate) : Except VerifyError (ServerVerification Certificate) :=
  match policy with
  | none => .error .nilPolicy
  | some policy =>
    if identity.valid = false then
      .error .invalidIdentity
    else if state.verifiedChains.length = 0 then
      .error .noVerifiedChains
    else
      match state.verifiedChains.filter (chainAuthorized x509 policy identity) with
      | [] => .error (.unauthorizedChain identity)
      | first :: others =>
        match first with
        | some leaf :: _ => verifyLeaf x509 library policy identity (first :: others) leaf
        | _ => .error .fault

end ServerPolicy

variable (constraint : AuthorityConstraint)

def AuthorityConstraint.Recognizes (cert : Certificate) : Prop :=
  match constraint.mode with
  | .certificate => constraint.authority.fingerprint = x509.sha256 (x509.raw cert)
  | .spki =>
    constraint.authority.spkiFingerprint = x509.sha256 (x509.rawSubjectPublicKeyInfo cert)
  | .other _ => False

namespace ServerPolicySpec

variable (spec : ServerPolicySpec) (identity : ServerIdentity)

def Permits (cert : Certificate) : Prop :=
  ∀ constraint ∈ spec.constraints, constraint.Recognizes x509 cert →
    constraint.scope.Covers library identity

def Anchors (root : Certificate) : Prop :=
  ∃ anchor ∈ spec.trustAnchors, anchor.authority.fingerprint = x509.sha256 (x509.raw root) ∧
    anchor.scope.Covers library identity

/-- A chain of certificates that ends in a trust anchor for the identity, with no authority
above the leaf that a constraint excludes. -/
structure Authorizes (chain : Chain Certificate) : Prop where
  certificates : ∀ entry ∈ chain, entry.isSome
  anchored : ∃ root, chain.getLast? = some (some root) ∧ spec.Anchors x509 library identity root
  permitted : ∀ cert, some cert ∈ chain.tail → spec.Permits x509 library identity cert

/-- The leaf is valid for the identity, and pinned if there is a pin for the identity. -/
structure AcceptsLeaf (leaf : Certificate) : Prop where
  verifies : x509.verifyHostname leaf (identity.string library) = none
  pinned : (∃ scopedPin ∈ spec.pins, scopedPin.scope.Covers library identity) →
    ∃ scopedPin ∈ spec.pins, scopedPin.scope.Covers library identity ∧
      scopedPin.pin.matches x509 leaf = true

end ServerPolicySpec

structure ScopeTable.Indexes (library : Library) (table : ScopeTable)
    (entries : List (Fingerprint × Scope)) : Prop where
  compiled : ∀ entry ∈ entries, ∃ scope, table entry.1 = some scope ∧
    compileScope library entry.2 false = .ok scope
  listed : ∀ id scope, table id = some scope → ∃ entry ∈ entries, entry.1 = id ∧
    compileScope library entry.2 false = .ok scope

namespace ScopeTable.Indexes

variable {library} {table : ScopeTable} {entries : List (Fingerprint × Scope)}

theorem insert (indexes : table.Indexes library entries) {id : Fingerprint} {scope : Scope}
    {compiled : CompiledScope} (fresh : table id = none)
    (accepted : compileScope library scope false = .ok compiled) :
    (table.insert id compiled).Indexes library (entries ++ [(id, scope)]) := by
  constructor
  · intro entry member
    rcases mem_append.mp member with old | new
    · rcases indexes.compiled entry old with ⟨own, found, compiles⟩
      have other : entry.1 ≠ id := by
        rintro rfl
        cases fresh.symm.trans found
      exact ⟨own, (if_neg other).trans found, compiles⟩
    · rw [mem_singleton.mp new]
      exact ⟨compiled, if_pos rfl, accepted⟩
  · intro other own found
    by_cases same : other = id
    · rw [ScopeTable.insert, if_pos same] at found
      cases found
      exact ⟨(id, scope), by simp, same.symm, accepted⟩
    · rw [ScopeTable.insert, if_neg same] at found
      rcases indexes.listed other own found with ⟨entry, member, facts⟩
      exact ⟨entry, mem_append_left _ member, facts⟩

variable (indexes : table.Indexes library entries) (id : Fingerprint) (identity : ServerIdentity)

include indexes

theorem allows_iff :
    (∃ scope, table id = some scope ∧ scope.allows identity = true) ↔
      ∃ entry ∈ entries, entry.1 = id ∧ entry.2.Covers library identity := by
  constructor
  · rintro ⟨scope, found, allowed⟩
    rcases indexes.listed id scope found with ⟨entry, member, key, accepted⟩
    exact ⟨entry, member, key, (compileScope_allows_iff accepted identity).mp allowed⟩
  · rintro ⟨entry, member, rfl, covers⟩
    rcases indexes.compiled entry member with ⟨scope, found, accepted⟩
    exact ⟨scope, found, (compileScope_allows_iff accepted identity).mpr covers⟩

theorem permitted_iff :
    ServerPolicy.permitted table id identity = true ↔
      ∀ entry ∈ entries, entry.1 = id → entry.2.Covers library identity := by
  constructor
  · rintro allowed entry member rfl
    rcases indexes.compiled entry member with ⟨scope, found, accepted⟩
    simp only [ServerPolicy.permitted, found] at allowed
    exact (compileScope_allows_iff accepted identity).mp allowed
  · intro covered
    unfold ServerPolicy.permitted
    split
    · rfl
    · rename_i scope found
      rcases indexes.listed id scope found with ⟨entry, member, key, accepted⟩
      exact (compileScope_allows_iff accepted identity).mpr (covered entry member key)

end ScopeTable.Indexes

def AuthorityConstraint.exactEntry : Option (Fingerprint × Scope) :=
  if constraint.mode = .certificate then
    some (constraint.authority.fingerprint, constraint.scope)
  else
    none

def AuthorityConstraint.spkiEntry : Option (Fingerprint × Scope) :=
  if constraint.mode = .spki then
    some (constraint.authority.spkiFingerprint, constraint.scope)
  else
    none

open AuthorityConstraint

structure ServerPolicy.Represents (library : Library) (policy : ServerPolicy Certificate)
    (spec : ServerPolicySpec) : Prop where
  anchors : policy.anchorScopes.Indexes library
    (spec.trustAnchors.map fun anchor => (anchor.authority.fingerprint, anchor.scope))
  exact : policy.exactConstraints.Indexes library
    (spec.constraints.filterMap exactEntry)
  spki : policy.spkiConstraints.Indexes library
    (spec.constraints.filterMap spkiEntry)
  modes : ∀ constraint ∈ spec.constraints,
    constraint.mode = .certificate ∨ constraint.mode = .spki
  pins : Forall₂
    (fun scopedPin compiled => scopedPin.pin = compiled.pin ∧
      compileScope library scopedPin.scope false = .ok compiled.scope) spec.pins policy.pins

namespace ServerPolicy.Represents

variable {x509} {library} {policy : ServerPolicy Certificate} {anchors : List ScopedAuthority}
    {constraints : List AuthorityConstraint} {pins : List ScopedPin}

theorem empty : (emptyPolicy : ServerPolicy Certificate).Represents library ⟨[], [], []⟩ where
  anchors := ⟨nofun, nofun⟩
  exact := ⟨nofun, nofun⟩
  spki := ⟨nofun, nofun⟩
  modes := nofun
  pins := .nil

variable {after : ServerPolicy Certificate} {index : ℕ}

section

variable (represents : policy.Represents library ⟨anchors, constraints, pins⟩)

include represents

theorem compileAnchor {anchor : ScopedAuthority}
    (accepted : compileAnchor x509 library policy (anchor, index) = .ok after) :
    after.Represents library ⟨anchors ++ [anchor], constraints, pins⟩ := by
  unfold TlsPolicy.compileAnchor at accepted
  dsimp only at accepted
  split at accepted
  · cases accepted
  rcases of_bind accepted with ⟨scope, compiled, accepted⟩
  rw [mapError_eq_ok_iff] at compiled
  split_ifs at accepted with repeated
  have fresh : policy.anchorScopes anchor.authority.fingerprint = none := by simpa using repeated
  split at accepted
  · cases accepted
  · cases accepted
    refine ⟨?_, represents.exact, represents.spki, represents.modes, represents.pins⟩
    rw [map_append]
    exact represents.anchors.insert fresh compiled

theorem compileConstraint {constraint : AuthorityConstraint}
    (accepted : compileConstraint library policy (constraint, index) = .ok after) :
    after.Represents library ⟨anchors, constraints ++ [constraint], pins⟩ := by
  unfold TlsPolicy.compileConstraint at accepted
  dsimp only at accepted
  split at accepted
  · cases accepted
  rcases of_bind accepted with ⟨scope, compiled, accepted⟩
  rw [mapError_eq_ok_iff] at compiled
  have modes : constraint.mode = .certificate ∨ constraint.mode = .spki →
      ∀ other ∈ constraints ++ [constraint], other.mode = .certificate ∨ other.mode = .spki := by
    intro own other member
    rcases mem_append.mp member with old | new
    · exact represents.modes other old
    · rw [mem_singleton.mp new]
      exact own
  -- A constraint adds an entry to the table of its mode and none to the other.
  cases mode : constraint.mode with
  | certificate =>
    simp only [mode] at accepted
    split_ifs at accepted with repeated
    cases accepted
    refine ⟨represents.anchors, ?_, ?_, modes (.inl mode), represents.pins⟩
    · simp only [filterMap_append, filterMap_cons, filterMap_nil,
        exactEntry, mode, if_true]
      exact represents.exact.insert (by simpa using repeated) compiled
    · simpa [filterMap_append, spkiEntry, mode] using represents.spki
  | spki =>
    simp only [mode] at accepted
    split_ifs at accepted with repeated
    cases accepted
    refine ⟨represents.anchors, ?_, ?_, modes (.inr mode), represents.pins⟩
    · simpa [filterMap_append, exactEntry, mode] using represents.exact
    · simp only [filterMap_append, filterMap_cons, filterMap_nil,
        spkiEntry, mode, if_true]
      exact represents.spki.insert (by simpa using repeated) compiled
  | other value =>
    simp only [mode] at accepted
    cases accepted

theorem compilePin {scopedPin : ScopedPin}
    (accepted : compilePin library policy (scopedPin, index) = .ok after) :
    after.Represents library ⟨anchors, constraints, pins ++ [scopedPin]⟩ := by
  unfold TlsPolicy.compilePin at accepted
  dsimp only at accepted
  split at accepted
  · cases accepted
  rcases of_bind accepted with ⟨scope, compiled, accepted⟩
  rw [mapError_eq_ok_iff] at compiled
  cases accepted
  refine ⟨represents.anchors, represents.exact, represents.spki, represents.modes, ?_⟩
  exact rel_append represents.pins (.cons ⟨rfl, compiled⟩ .nil)

end

theorem of_compileServerPolicy {spec : ServerPolicySpec}
    (accepted : compileServerPolicy x509 library spec = .ok policy) :
    policy.Represents library spec := by
  rcases of_bind accepted with ⟨anchored, anchorLoop, accepted⟩
  rcases of_bind accepted with ⟨constrained, constraintLoop, pinLoop⟩
  have anchorsDone := foldlM_ok
    (fun handled policy => Represents library policy ⟨handled.map Prod.fst, [], []⟩)
    (fun holds stepped => by simpa using compileAnchor holds stepped)
    empty anchorLoop
  have constraintsDone := foldlM_ok
    (fun handled policy => Represents library policy
      ⟨spec.trustAnchors, handled.map Prod.fst, []⟩)
    (fun holds stepped => by simpa using compileConstraint holds stepped)
    (by simpa using anchorsDone) constraintLoop
  have pinsDone := foldlM_ok
    (fun handled policy => Represents library policy
      ⟨spec.trustAnchors, spec.constraints, handled.map Prod.fst⟩)
    (fun holds stepped => by simpa using compilePin holds stepped)
    (by simpa using constraintsDone) pinLoop
  simpa using pinsDone

end ServerPolicy.Represents

open ServerPolicy

theorem foldl_checkPin (x509 : X509 Certificate) (identity : ServerIdentity) (leaf : Certificate)
    (pins : List CompiledScopedPin) (state : Bool × Bool) :
    pins.foldl (checkPin x509 identity leaf) state =
      (state.1 || pins.any fun scopedPin => scopedPin.scope.allows identity,
        state.2 || pins.any fun scopedPin =>
          scopedPin.scope.allows identity && scopedPin.pin.matches x509 leaf) := by
  induction pins generalizing state with
  | nil => simp
  | cons scopedPin rest ih =>
    rw [foldl_cons, ih]
    cases allowed : scopedPin.scope.allows identity with
    | false => simp [checkPin, allowed]
    | true => simp [checkPin, allowed, Bool.or_assoc]

theorem any_iff_of_forall₂ {α β : Type} {relation : α → β → Prop} {sources : List α}
    {compiled : List β} (related : Forall₂ relation sources compiled) (test : β → Bool)
    (meaning : α → Prop)
    (means : ∀ source target, relation source target → (test target = true ↔ meaning source)) :
    compiled.any test = true ↔ ∃ source ∈ sources, meaning source := by
  induction related with
  | nil => simp
  | cons first _ ih =>
    rw [any_cons, Bool.or_eq_true, ih, means _ _ first, exists_mem_cons_iff]

namespace ServerPolicy.Represents

variable {x509} {library} {policy : ServerPolicy Certificate} {spec : ServerPolicySpec}
    (represents : policy.Represents library spec) (identity : ServerIdentity)

include represents

theorem certPermitted_iff (entry : Option Certificate) :
    certPermitted x509 policy identity entry = true ↔
      ∃ cert, entry = some cert ∧ spec.Permits x509 library identity cert := by
  cases entry with
  | none => exact ⟨nofun, nofun⟩
  | some cert =>
    simp only [certPermitted, Bool.and_eq_true, represents.exact.permitted_iff,
      represents.spki.permitted_iff, some.injEq, exists_eq_left']
    constructor
    · rintro ⟨exact, spki⟩ constraint member recognizes
      unfold Recognizes at recognizes
      cases mode : constraint.mode with
      | certificate =>
        simp only [mode] at recognizes
        refine exact (constraint.authority.fingerprint, constraint.scope) ?_ recognizes
        exact mem_filterMap.mpr ⟨constraint, member, if_pos mode⟩
      | spki =>
        simp only [mode] at recognizes
        refine spki (constraint.authority.spkiFingerprint, constraint.scope) ?_ recognizes
        exact mem_filterMap.mpr ⟨constraint, member, if_pos mode⟩
      | other value => simp only [mode] at recognizes
    · intro permits
      constructor
      all_goals
        intro entry member key
        rcases mem_filterMap.mp member with ⟨constraint, listed, isEntry⟩
        simp only [exactEntry, spkiEntry] at isEntry
        split_ifs at isEntry with mode
        cases isEntry
        apply permits constraint listed
        simpa only [Recognizes, mode] using key

theorem anchor_iff (root : Certificate) :
    (∃ scope, policy.anchorScopes (x509.sha256 (x509.raw root)) = some scope ∧
      scope.allows identity = true) ↔ spec.Anchors x509 library identity root := by
  rw [represents.anchors.allows_iff]
  constructor
  · rintro ⟨entry, member, key, covers⟩
    rcases mem_map.mp member with ⟨anchor, listed, rfl⟩
    exact ⟨anchor, listed, key, covers⟩
  · rintro ⟨anchor, listed, key, covers⟩
    exact ⟨_, mem_map.mpr ⟨anchor, listed, rfl⟩, key, covers⟩

theorem chainAuthorized_iff (chain : Chain Certificate) :
    chainAuthorized x509 policy identity chain = true ↔
      spec.Authorizes x509 library identity chain := by
  rcases chain with _ | ⟨_ | leaf, rest⟩
  · refine ⟨nofun, fun authorizes => ?_⟩
    rcases authorizes.anchored with ⟨root, last, _⟩
    cases last
  · exact ⟨nofun, fun authorizes => nomatch authorizes.certificates none mem_cons_self⟩
  · rcases last : (some leaf :: rest).getLast? with _ | _ | root
    · cases getLast?_eq_none_iff.mp last
    · refine ⟨fun authorized => ?_, fun authorizes => ?_⟩
      · simp only [chainAuthorized, head?_cons, last] at authorized
        cases authorized
      · exact nomatch authorizes.certificates none (mem_of_getLast? last)
    · have passes : chainAuthorized x509 policy identity (some leaf :: rest) = true ↔
          (∃ scope, policy.anchorScopes (x509.sha256 (x509.raw root)) = some scope ∧
            scope.allows identity = true) ∧
          ∀ entry ∈ rest, certPermitted x509 policy identity entry = true := by
        simp only [chainAuthorized, head?_cons, last, tail_cons]
        cases policy.anchorScopes (x509.sha256 (x509.raw root)) with
        | none | some scope => simp
      rw [passes, represents.anchor_iff identity root]
      constructor
      · rintro ⟨anchors, above⟩
        have permitted := fun entry member =>
          (represents.certPermitted_iff identity entry).mp (above entry member)
        refine ⟨?_, ⟨root, last, anchors⟩, ?_⟩
        · intro entry member
          rcases mem_cons.mp member with rfl | inRest
          · rfl
          · rcases permitted entry inRest with ⟨cert, rfl, _⟩
            rfl
        · intro cert member
          rcases permitted (some cert) member with ⟨other, same, permits⟩
          cases same
          exact permits
      · intro authorizes
        rcases authorizes.anchored with ⟨other, ends, anchors⟩
        cases last.symm.trans ends
        refine ⟨anchors, fun entry member => ?_⟩
        rcases isSome_iff_exists.mp
          (authorizes.certificates entry (mem_cons_of_mem _ member)) with ⟨cert, rfl⟩
        exact (represents.certPermitted_iff identity _).mpr
          ⟨cert, rfl, authorizes.permitted cert member⟩

theorem verifyLeaf_ok_iff (authorized : List (Chain Certificate)) (leaf : Certificate)
    (result : ServerVerification Certificate) :
    verifyLeaf x509 library policy identity authorized leaf = .ok result ↔
      spec.AcceptsLeaf x509 library identity leaf ∧
        result = ⟨identity, ⟨authorized⟩, authorized⟩ := by
  have required := any_iff_of_forall₂ represents.pins
    (fun scopedPin => scopedPin.scope.allows identity)
    (fun scopedPin => scopedPin.scope.Covers library identity)
    (fun source target related => compileScope_allows_iff related.2 identity)
  have matched := any_iff_of_forall₂ represents.pins
    (fun scopedPin => scopedPin.scope.allows identity && scopedPin.pin.matches x509 leaf)
    (fun scopedPin =>
      scopedPin.scope.Covers library identity ∧ scopedPin.pin.matches x509 leaf = true)
    (fun source target related => by
      rw [Bool.and_eq_true, compileScope_allows_iff related.2 identity, related.1])
  unfold verifyLeaf
  cases verifies : x509.verifyHostname leaf (identity.string library) with
  | some err =>
    refine ⟨nofun, fun both => ?_⟩
    cases verifies.symm.trans both.1.verifies
  | none =>
    simp only [foldl_checkPin, Bool.false_or]
    split_ifs with missing
    · refine ⟨nofun, fun both => ?_⟩
      rw [Bool.and_eq_true, Bool.not_eq_true', required] at missing
      rw [matched.mpr (both.1.pinned missing.1)] at missing
      cases missing.2
    · constructor
      · rintro ⟨⟩
        refine ⟨⟨verifies, fun inScope => matched.mp ?_⟩, rfl⟩
        by_contra unmatched
        exact missing (by simp [required.mpr inScope, unmatched])
      · rintro ⟨_, rfl⟩
        rfl

theorem verifyServer_ok_iff (state : ConnectionState Certificate)
    (result : ServerVerification Certificate) :
    verifyServer x509 library (some policy) identity state = .ok result ↔
      identity.valid = true ∧ ∃ leaf rest others,
        state.verifiedChains.filter (chainAuthorized x509 policy identity) =
          (some leaf :: rest) :: others ∧
        spec.AcceptsLeaf x509 library identity leaf ∧
        result = ⟨identity, ⟨(some leaf :: rest) :: others⟩, (some leaf :: rest) :: others⟩ := by
  unfold verifyServer
  cases valid : identity.valid with
  | false => exact ⟨nofun, nofun⟩
  | true =>
    simp only [Bool.true_eq_false, if_false, true_and]
    split_ifs with none
    · rw [length_eq_zero_iff.mp none]
      exact ⟨nofun, nofun⟩
    · cases kept : state.verifiedChains.filter (chainAuthorized x509 policy identity) with
      | nil => exact ⟨nofun, nofun⟩
      | cons first others =>
        have authorized : chainAuthorized x509 policy identity first = true := by
          have member : first ∈ state.verifiedChains.filter _ := kept ▸ mem_cons_self
          exact (mem_filter.mp member).2
        rcases first with _ | ⟨_ | leaf, rest⟩
        · cases authorized
        · cases authorized
        · simp only [represents.verifyLeaf_ok_iff, List.cons.injEq, some.injEq]
          constructor
          · rintro ⟨accepts, same⟩
            exact ⟨leaf, rest, others, ⟨⟨rfl, rfl⟩, rfl⟩, accepts, same⟩
          · rintro ⟨_, _, _, ⟨⟨rfl, rfl⟩, rfl⟩, accepts, same⟩
            exact ⟨accepts, same⟩

end ServerPolicy.Represents

section Accepted

variable {x509} {library} {spec : ServerPolicySpec} {policy : ServerPolicy Certificate}
    {identity : ServerIdentity} {state : ConnectionState Certificate}
    {result : ServerVerification Certificate}

open Classical in
noncomputable def ServerPolicySpec.authorizedChains (x509 : X509 Certificate) (library : Library)
    (spec : ServerPolicySpec) (identity : ServerIdentity) (chains : List (Chain Certificate)) :
    List (Chain Certificate) :=
  chains.filter fun chain => spec.Authorizes x509 library identity chain

theorem ServerPolicySpec.mem_authorizedChains {chains : List (Chain Certificate)}
    {chain : Chain Certificate} :
    chain ∈ spec.authorizedChains x509 library identity chains ↔
      chain ∈ chains ∧ spec.Authorizes x509 library identity chain := by
  classical
  rw [authorizedChains, mem_filter, decide_eq_true_iff]

theorem ServerPolicy.Represents.filter_eq (represents : policy.Represents library spec)
    (identity : ServerIdentity) (chains : List (Chain Certificate)) :
    chains.filter (chainAuthorized x509 policy identity) =
      spec.authorizedChains x509 library identity chains := by
  classical
  apply filter_congr
  intro chain _
  rw [Bool.eq_iff_iff, represents.chainAuthorized_iff, decide_eq_true_iff]

/-- Chains with one leaf are accepted exactly if the specification authorizes one of them and
accepts the leaf, and the authorized ones are returned. -/
theorem verifyServer_accepts_iff (compiled : compileServerPolicy x509 library spec = .ok policy)
    (valid : identity.valid = true) {leaf : Option Certificate}
    (sameLeaf : ∀ chain ∈ state.verifiedChains, chain.head? = some leaf) :
    verifyServer x509 library (some policy) identity state = .ok result ↔
      (∃ chain ∈ state.verifiedChains, spec.Authorizes x509 library identity chain) ∧
      (∃ cert, leaf = some cert ∧ spec.AcceptsLeaf x509 library identity cert) ∧
      result = ⟨identity, ⟨spec.authorizedChains x509 library identity state.verifiedChains⟩,
        spec.authorizedChains x509 library identity state.verifiedChains⟩ := by
  have represents := Represents.of_compileServerPolicy compiled
  rw [represents.verifyServer_ok_iff, represents.filter_eq, and_iff_right valid]
  constructor
  · rintro ⟨cert, rest, others, kept, accepts, rfl⟩
    have first := spec.mem_authorizedChains.mp (kept ▸ mem_cons_self)
    refine ⟨⟨_, first⟩, ⟨cert, ?_, accepts⟩, by rw [kept]⟩
    exact (some.inj (sameLeaf _ first.1)).symm
  · rintro ⟨⟨chain, authorized⟩, ⟨cert, rfl, accepts⟩, rfl⟩
    have member := spec.mem_authorizedChains.mpr authorized
    cases kept : spec.authorizedChains x509 library identity state.verifiedChains with
    | nil =>
      rw [kept] at member
      cases member
    | cons first others =>
      have inState := (spec.mem_authorizedChains.mp (kept ▸ mem_cons_self)).1
      rcases head?_eq_some_iff.mp (sameLeaf first inState) with ⟨rest, rfl⟩
      exact ⟨cert, rest, others, rfl, accepts, rfl⟩

/-- What a caller is promised of a chain: its leaf is accepted, and every authority in it is
permitted, the one at its end included. -/
structure ServerPolicySpec.Vouches (x509 : X509 Certificate) (library : Library)
    (spec : ServerPolicySpec) (identity : ServerIdentity) (chain : Chain Certificate) : Prop where
  leaf : ∃ leaf, chain.head? = some (some leaf) ∧ spec.AcceptsLeaf x509 library identity leaf
  authorities : ∀ cert, some cert ∈ chain.tail ∨ chain.getLast? = some (some cert) →
    spec.Permits x509 library identity cert

/-- The leaf of the first authorized chain is accepted on success. The promise is kept exactly if
the other leaves behind it are accepted too, and no constraint excludes the certificate of an
authorized chain of one. -/
theorem verifyServer_vouches_iff (compiled : compileServerPolicy x509 library spec = .ok policy)
    (succeeded : verifyServer x509 library (some policy) identity state = .ok result) :
    ∃ leaf rest others,
      spec.authorizedChains x509 library identity state.verifiedChains =
        (some leaf :: rest) :: others ∧
      ((∀ chain ∈ result.authorizedChains, spec.Vouches x509 library identity chain) ↔
        (∀ chain ∈ others, ∀ other ≠ leaf, chain.head? = some (some other) →
          spec.AcceptsLeaf x509 library identity other) ∧
        ∀ cert, [some cert] ∈ (some leaf :: rest) :: others →
          spec.Permits x509 library identity cert) := by
  have represents := Represents.of_compileServerPolicy compiled
  rcases (represents.verifyServer_ok_iff identity state result).mp succeeded with
    ⟨_, leaf, rest, others, kept, accepted, rfl⟩
  rw [represents.filter_eq] at kept
  refine ⟨leaf, rest, others, kept, ?_, ?_⟩
  · intro vouches
    constructor
    · intro chain behind other _ first
      rcases (vouches chain (mem_cons_of_mem _ behind)).leaf with ⟨own, same, accepts⟩
      cases first.symm.trans same
      exact accepts
    · intro cert member
      exact (vouches _ member).authorities cert (.inr rfl)
  · rintro ⟨leaves, single⟩ chain member
    have authorizes := (spec.mem_authorizedChains.mp (kept ▸ member)).2
    rcases chain with _ | ⟨first, above⟩
    · rcases authorizes.anchored with ⟨root, last, _⟩
      cases last
    · rcases isSome_iff_exists.mp (authorizes.certificates first mem_cons_self) with
        ⟨own, rfl⟩
      refine ⟨⟨own, rfl, ?_⟩, ?_⟩
      · by_cases same : own = leaf
        · exact same ▸ accepted
        · rcases mem_cons.mp member with isFirst | behind
          · cases isFirst
            exact absurd rfl same
          · exact leaves _ behind own same rfl
      · rintro cert (inside | last)
        · exact authorizes.permitted cert inside
        · -- Only a chain of one certificate ends outside its own tail.
          cases above with
          | nil =>
            cases last
            exact single own member
          | cons next above =>
            exact authorizes.permitted cert (mem_of_getLast? last)

/-- Chains with one leaf that are accepted under further constraints are accepted without them,
and no chain becomes authorized by a constraint. -/
theorem verifyServer_constrained {more : List AuthorityConstraint}
    {tighter : ServerPolicy Certificate} {leaf : Option Certificate}
    (compiled : compileServerPolicy x509 library spec = .ok policy)
    (tightened : compileServerPolicy x509 library
      { spec with constraints := spec.constraints ++ more } = .ok tighter)
    (sameLeaf : ∀ chain ∈ state.verifiedChains, chain.head? = some leaf)
    (accepted : verifyServer x509 library (some tighter) identity state = .ok result) :
    ∃ before, verifyServer x509 library (some policy) identity state = .ok before ∧
      result.authorizedChains <+ before.authorizedChains := by
  have represents := Represents.of_compileServerPolicy compiled
  have less := Represents.of_compileServerPolicy tightened
  have fewer : state.verifiedChains.filter (chainAuthorized x509 tighter identity) <+
      state.verifiedChains.filter (chainAuthorized x509 policy identity) := by
    apply monotone_filter_right
    intro chain allowed
    rcases (less.chainAuthorized_iff identity chain).mp allowed with ⟨certs, anchored, permitted⟩
    exact (represents.chainAuthorized_iff identity chain).mpr ⟨certs, anchored,
      fun cert above constraint member =>
        permitted cert above constraint (mem_append_left _ member)⟩
  rcases (less.verifyServer_ok_iff identity state result).mp accepted with
    ⟨valid, own, rest, others, kept, ⟨verifies, pinned⟩, rfl⟩
  rw [kept] at fewer
  have isLeaf := sameLeaf _ (mem_filter.mp (kept ▸ mem_cons_self)).1
  cases all : state.verifiedChains.filter (chainAuthorized x509 policy identity) with
  | nil =>
    rw [all] at fewer
    cases fewer
  | cons first later =>
    have isFirst := sameLeaf first (mem_filter.mp (all ▸ mem_cons_self)).1
    rcases head?_eq_some_iff.mp (isFirst.trans isLeaf.symm) with ⟨above, rfl⟩
    exact ⟨_, (represents.verifyServer_ok_iff identity state _).mpr
      ⟨valid, own, above, later, all, ⟨verifies, pinned⟩, rfl⟩, all ▸ fewer⟩

end Accepted

/-! Certificates that are numbers: 1 and 2 are leaves and the others are authorities. Only the
leaf 1 is valid for a name and pinned, and 4 is an authority for one other name only. -/

def numberedX509 : X509 ℕ where
  raw number := [UInt8.ofNat number]
  rawSubjectPublicKeyInfo number := [UInt8.ofNat number]
  parseCertificate der := der.head?.map UInt8.toNat
  verifyHostname number _ := if number = 1 then none else some (bytes "x509: not valid")
  sha256 data := BitVec.ofNat 256 (data.headD 0).toNat

def onlyFor (name : Text) : Scope :=
  ⟨false, [⟨name, false⟩], []⟩

def anchorThree : ServerPolicySpec where
  trustAnchors := [⟨⟨[3], 3, 3⟩, ⟨true, [], []⟩⟩]
  constraints := [⟨⟨[4], 4, 4⟩, .certificate, onlyFor (bytes "a")⟩]
  pins := [⟨⟨.leafCertificate, 1⟩, ⟨true, [], []⟩⟩]

def policyThree : ServerPolicy ℕ where
  roots := [3]
  anchorScopes := ScopeTable.insert (fun _ => none) 3 ⟨true, [], []⟩
  exactConstraints := ScopeTable.insert (fun _ => none) 4 ⟨false, [⟨bytes "a", false⟩], []⟩
  spkiConstraints _ := none
  pins := [⟨⟨.leafCertificate, 1⟩, ⟨true, [], []⟩⟩]

def chainsOfOne : List (Chain ℕ) :=
  [[some 1, some 3], [some 1, some 4, some 3], [some 1, some 5, some 3]]

theorem chainsOfOne_head : ∀ chain ∈ chainsOfOne, chain.head? = some (some 1) := by
  decide

theorem policyThree_accepts :
    compileServerPolicy numberedX509 unaryLibrary anchorThree = .ok policyThree ∧
    verifyServer numberedX509 unaryLibrary (some policyThree) (.dns (bytes "k")) ⟨chainsOfOne⟩ =
      .ok ⟨.dns (bytes "k"), ⟨[[some 1, some 3], [some 1, some 5, some 3]]⟩,
        [[some 1, some 3], [some 1, some 5, some 3]]⟩ :=
  ⟨rfl, rfl⟩

theorem verifyServer_accepts_one :
    (∃ chain ∈ chainsOfOne,
      anchorThree.Authorizes numberedX509 unaryLibrary (.dns (bytes "k")) chain) ∧
    ∃ cert, some 1 = some cert ∧
      anchorThree.AcceptsLeaf numberedX509 unaryLibrary (.dns (bytes "k")) cert := by
  rcases policyThree_accepts with ⟨compiled, accepted⟩
  have both := (verifyServer_accepts_iff compiled rfl chainsOfOne_head).mp accepted
  exact ⟨both.1, both.2.1⟩

theorem verifyServer_constrained_one :
    ∃ before, verifyServer numberedX509 unaryLibrary (some policyThree) (.dns (bytes "k"))
        ⟨chainsOfOne⟩ = .ok before ∧ [[some 1, some 3]] <+ before.authorizedChains :=
  @verifyServer_constrained ℕ _ _ _ _ _ _ ⟨_, _, [[some 1, some 3]]⟩
    [⟨⟨[5], 5, 5⟩, .certificate, onlyFor (bytes "a")⟩] _ _ policyThree_accepts.1 rfl
    chainsOfOne_head rfl

theorem verifyServer_vouches_one :
    anchorThree.Vouches numberedX509 unaryLibrary (.dns (bytes "k"))
      [some 1, some 5, some 3] := by
  rcases policyThree_accepts with ⟨compiled, accepted⟩
  rcases verifyServer_vouches_iff compiled accepted with ⟨leaf, rest, others, kept, vouches⟩
  rw [← (Represents.of_compileServerPolicy compiled).filter_eq] at kept
  cases kept
  refine vouches.mpr ⟨?_, ?_⟩ _ (by decide)
  · intro chain behind other another first
    rw [mem_singleton.mp behind] at first
    cases first
    exact absurd rfl another
  · intro cert single
    simp at single

/-- A chain with the leaf 2 is returned as authorized, behind one with the leaf 1. -/
theorem second_leaf_unchecked :
    verifyServer numberedX509 unaryLibrary (some policyThree) (.dns (bytes "k"))
        ⟨[[some 1, some 3], [some 2, some 3]]⟩ =
      .ok ⟨.dns (bytes "k"), ⟨[[some 1, some 3], [some 2, some 3]]⟩,
        [[some 1, some 3], [some 2, some 3]]⟩ ∧
    compileServerPolicy numberedX509 unaryLibrary anchorThree = .ok policyThree ∧
    ¬anchorThree.AcceptsLeaf numberedX509 unaryLibrary (.dns (bytes "k")) 2 := by
  refine ⟨rfl, rfl, fun accepts => ?_⟩
  cases accepts.verifies

end Gonnect.TlsPolicy
