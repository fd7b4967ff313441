import Gonnect.Dns.Message
import Gonnect.Net.Addr
import Gonnect.Net.IP

/-!
# Resolvers as DNS servers, and back

`NewResolverProvider` answers DNS questions with the lookups of a resolver, and
`NewResolver` makes lookups out of DNS questions. Through both, texts, mail exchangers, name
servers and canonical names come back as they were, with absolute names.

Three lookups are different. A reverse lookup asks for the address itself and not for its
name under `in-addr.arpa` or `ip6.arpa`, so the provider refuses it. A service lookup never
returns the canonical name. An address lookup is put together from one for each family.
-/

namespace Gonnect.Dns

open Net Netip List Function

structure AdapterLibrary where
  parseAddr : Text → Option Addr
  addrString : Addr → Text
  equalFold : Text → Text → Bool

inductive LookupError where
  | notFound
  | malformedReverseName
  | notImplemented
  | other
deriving DecidableEq, Repr

structure MX where
  pref : UInt16
  host : Text
deriving DecidableEq, Repr

structure SRV where
  priority : UInt16
  weight : UInt16
  port : UInt16
  target : Text
deriving DecidableEq, Repr

/-- The lookups of `gonnect.Resolver` that go through both adapters. -/
structure Resolver where
  lookupIP : Text → Text → Except LookupError (List IP)
  lookupAddr : Text → Except LookupError (List Text)
  lookupCNAME : Text → Except LookupError Text
  lookupTXT : Text → Except LookupError (List Text)
  lookupMX : Text → Except LookupError (List MX)
  lookupNS : Text → Except LookupError (List Text)
  lookupSRV : Text → Text → Text → Except LookupError (Text × List SRV)

abbrev Interface := Message → Message

variable (name label : Text) (value : UInt16) (rrs : List Resource) (rr : Resource)

def trimDot : Text :=
  if name.getLast? = some dot then name.dropLast else name

def trimUnderscore : Text :=
  if label.head? = some 95 then label.drop 1 else label

def cutDot : Option (Text × Text) :=
  if dot ∈ name then
    some (name.takeWhile (· != dot), (name.dropWhile (· != dot)).drop 1)
  else
    none

def splitSRV : Text × Text × Text :=
  match cutDot name with
  | none => ([], [], name)
  | some (service, rest) =>
    match cutDot rest with
    | none => ([], [], name)
    | some (proto, host) => (trimUnderscore service, trimUnderscore proto, host)

/-- `strconv.ParseUint(label, 10, 8)` for a label that `FormatUint` gives back. -/
def parseOctet : Option UInt8 :=
  ((List.range 256).find? fun octet => decimal octet = label).map UInt8.ofNat

/-- `strconv.ParseUint(label, 16, 4)` for a label of one byte. -/
def parseNibble : Option ℕ :=
  match label with
  | [digit] =>
    if 48 ≤ digit ∧ digit ≤ 57 then some (digit.toNat - 48)
    else if 97 ≤ digit ∧ digit ≤ 102 then some (digit.toNat - 87)
    else if 65 ≤ digit ∧ digit ≤ 70 then some (digit.toNat - 55)
    else none
  | _ => none

/-- The bytes of the nibbles, the last nibble first. -/
def nibbleBytes : List ℕ → List UInt8
  | low :: high :: rest => nibbleBytes rest ++ [UInt8.ofNat (16 * high + low)]
  | _ => []

def addrFromReverseName (library : AdapterLibrary) (name : Text) : Except LookupError Text :=
  let labels := name.splitOn dot
  if labels.length = 6 ∧ library.equalFold (labels.getD 4 []) (bytes "in-addr") ∧
      library.equalFold (labels.getD 5 []) (bytes "arpa") then
    match (labels.take 4).reverse.mapM parseOctet with
    | some octets => .ok (library.addrString (addrFrom4 octets))
    | none => .error .malformedReverseName
  else if labels.length = 34 ∧ library.equalFold (labels.getD 32 []) (bytes "ip6") ∧
      library.equalFold (labels.getD 33 []) (bytes "arpa") then
    match (labels.take 32).mapM parseNibble with
    | some nibbles => .ok (library.addrString (addrFrom16 (nibbleBytes nibbles)))
    | none => .error .malformedReverseName
  else
    .error .malformedReverseName

def putUint16 : List UInt8 :=
  [UInt8.ofNat (value.toNat / 256), UInt8.ofNat value.toNat]

variable (rtype : UInt16) (ttl : UInt32)

def resource (data : List UInt8) : Resource where
  name := absName name
  rtype := rtype
  rclass := classIN
  ttl := ttl
  data := data

def ipResources (ips : List IP) : List Resource :=
  (ips.filterMap fun ip => if rtype = typeA then to4 ip else to16 ip).map (resource name rtype ttl)

def nameResources (names : List Text) : List Resource :=
  names.map fun value => resource name rtype ttl (absName value)

def textResources (txts : List Text) : List Resource :=
  txts.map (resource name typeTXT ttl)

def mxResources (mxs : List MX) : List Resource :=
  mxs.map fun mx => resource name typeMX ttl (putUint16 mx.pref ++ absName mx.host)

def nsResources (nss : List Text) : List Resource :=
  nss.map fun host => resource name typeNS ttl (absName host)

def srvResources (srvs : List SRV) : List Resource :=
  srvs.map fun srv => resource name typeSRV ttl
    (putUint16 srv.priority ++ putUint16 srv.weight ++ putUint16 srv.port ++ absName srv.target)

structure ResolverProvider where
  library : AdapterLibrary
  resolver : Resolver
  ttl : UInt32

namespace ResolverProvider

variable (provider : ResolverProvider)

def lookup (q : Question) : Except LookupError (List Resource) :=
  let name := trimDot q.name
  let ttl := provider.ttl
  if q.qtype = typeA then
    (provider.resolver.lookupIP (bytes "ip4") name).map (ipResources q.name typeA ttl)
  else if q.qtype = typeAAAA then
    (provider.resolver.lookupIP (bytes "ip6") name).map (ipResources q.name typeAAAA ttl)
  else if q.qtype = typePTR then
    match addrFromReverseName provider.library name with
    | .error error => .error error
    | .ok addr => (provider.resolver.lookupAddr addr).map (nameResources q.name typePTR ttl)
  else if q.qtype = typeCNAME then
    (provider.resolver.lookupCNAME name).map fun cname =>
      nameResources q.name typeCNAME ttl [cname]
  else if q.qtype = typeTXT then
    (provider.resolver.lookupTXT name).map (textResources q.name ttl)
  else if q.qtype = typeMX then
    (provider.resolver.lookupMX name).map (mxResources q.name ttl)
  else if q.qtype = typeNS then
    (provider.resolver.lookupNS name).map (nsResources q.name ttl)
  else if q.qtype = typeSRV then
    let (service, proto, host) := splitSRV name
    (provider.resolver.lookupSRV service proto host).map fun found =>
      srvResources q.name ttl found.2
  else
    .error .notImplemented

def errRCode : LookupError → UInt8
  | .malformedReverseName => rcodeFormatError
  | .notImplemented => rcodeNotImplemented
  | .notFound => rcodeNameError
  | .other => rcodeServerFailure

def responseFor (req : Message) : Message where
  id := req.id
  response := true
  opcode := req.opcode
  rcode := rcodeSuccess
  recursionDesired := req.recursionDesired
  recursionAvailable := true
  questions := req.questions

/-- The loop of `handle` over the questions. -/
def answer (resp : Message) : List Question → Message
  | [] => resp
  | q :: rest =>
    if q.qclass ≠ 0 ∧ q.qclass ≠ classIN then
      { resp with rcode := rcodeNotImplemented }
    else
      match provider.lookup q with
      | .error error => { resp with rcode := errRCode error }
      | .ok rrs => answer { resp with answers := resp.answers ++ rrs } rest

def handle : Interface := fun req =>
  if req.opcode ≠ opcodeQuery ∨ req.questions = [] then
    { responseFor req with rcode := rcodeFormatError }
  else
    provider.answer (responseFor req) req.questions

end ResolverProvider

open ResolverProvider

/-- `NewResolverProvider`, with the time to live in seconds. -/
def newResolverProvider (library : AdapterLibrary) (resolver : Resolver) (ttl : UInt32) :
    Interface :=
  handle
    { library, resolver, ttl := if ttl = 0 then 60 else ttl }

def uint16At (data : List UInt8) (offset : ℕ) : UInt16 :=
  UInt16.ofNat (256 * (data.getD offset 0).toNat + (data.getD (offset + 1) 0).toNat)

def ipsFromResources : List IP :=
  rrs.flatMap fun rr =>
    (if rr.rtype = typeA ∧ rr.data.length = 4 then [v4InV6Prefix ++ rr.data] else []) ++
      (if rr.rtype = typeAAAA ∧ rr.data.length = 16 then [rr.data] else [])

def namesFromResources : List Text :=
  rrs.map Resource.data

def mxFromResource : Option MX :=
  if 2 ≤ rr.data.length then some ⟨uint16At rr.data 0, rr.data.drop 2⟩ else none

def srvFromResource : Option SRV :=
  if 6 ≤ rr.data.length then
    some ⟨uint16At rr.data 0, uint16At rr.data 2, uint16At rr.data 4, rr.data.drop 6⟩
  else
    none

section Resolver

variable (library : AdapterLibrary) (dns : Interface) (nextID : UInt16)

/-- `Resolver.lookup` -/
def queryRecords (rtype : UInt16) (name : Text) : Except LookupError (List Resource) :=
  let resp := dns
    { id := nextID, recursionDesired := true, questions := [⟨absName name, rtype, classIN⟩] }
  if resp.rcode ≠ rcodeSuccess then .error .notFound else .ok resp.answers

def literalIP (network host : Text) : Option (Except LookupError IP) :=
  match library.parseAddr host with
  | none => none
  | some addr =>
    if hasSuffix network (bytes "4") ∧ !addr.is4 then
      some (.error .notFound)
    else if hasSuffix network (bytes "6") ∧ !addr.is6 then
      some (.error .notFound)
    else
      some (.ok addr.asSlice)

/-- The part of `LookupIP` for one family; an error counts if only this family is asked for. -/
def lookupFamily (rtype : UInt16) (skipped only : Bool) (host : Text) :
    Except LookupError (List IP) :=
  if skipped then
    .ok []
  else
    match queryRecords dns nextID rtype host with
    | .error error => if only then .error error else .ok []
    | .ok rrs => .ok (ipsFromResources rrs)

def lookupIPVia (network host : Text) : Except LookupError (List IP) :=
  match literalIP library network host with
  | some (.error error) => .error error
  | some (.ok ip) => .ok [ip]
  | none => do
      let only4 := hasSuffix network (bytes "4")
      let only6 := hasSuffix network (bytes "6")
      let four ← lookupFamily dns nextID typeA only6 only4 host
      let six ← lookupFamily dns nextID typeAAAA only4 only6 host
      if four ++ six = [] then .error .notFound else .ok (four ++ six)

def newResolver : Resolver where
  lookupIP := lookupIPVia library dns nextID
  lookupAddr addr := (queryRecords dns nextID typePTR addr).map namesFromResources
  lookupCNAME host :=
    match queryRecords dns nextID typeCNAME host with
    | .error error => .error error
    | .ok rrs => .ok ((namesFromResources rrs).headD [])
  lookupTXT name := (queryRecords dns nextID typeTXT name).map namesFromResources
  lookupMX name := (queryRecords dns nextID typeMX name).map fun rrs => rrs.filterMap mxFromResource
  lookupNS name := (queryRecords dns nextID typeNS name).map namesFromResources
  lookupSRV service proto name :=
    (queryRecords dns nextID typeSRV
      (bytes "_" ++ service ++ bytes "._" ++ proto ++ bytes "." ++ name)).map fun rrs =>
        ([], rrs.filterMap srvFromResource)

end Resolver

def roundTrip (library : AdapterLibrary) (resolver : Resolver) (ttl : UInt32) (nextID : UInt16) :
    Resolver :=
  newResolver library (newResolverProvider library resolver ttl) nextID

inductive Lookup where
  | ip (network host : Text)
  | addr (addr : Text)
  | cname (host : Text)
  | txt (name : Text)
  | mx (name : Text)
  | ns (name : Text)
  | srv (service proto name : Text)

/-! Results are compared with absolute names, and addresses in their form with sixteen
bytes. -/

def MX.absolute (mx : MX) : MX :=
  { mx with host := absName mx.host }

def SRV.absolute (srv : SRV) : SRV :=
  { srv with target := absName srv.target }

def absoluteSRV (found : Text × List SRV) : Text × List SRV :=
  (absName found.1, found.2.map SRV.absolute)

def longForm (ip : IP) : IP :=
  (to16 ip).getD ip

def SameResult (resolver through : Resolver) : Lookup → Prop
  | .ip network host =>
    (through.lookupIP network host).toOption.map (List.map longForm) =
      (resolver.lookupIP network host).toOption.map (List.map longForm)
  | .addr addr =>
    (through.lookupAddr addr).toOption =
      (resolver.lookupAddr addr).toOption.map (List.map absName)
  | .cname host =>
    (through.lookupCNAME host).toOption =
      (resolver.lookupCNAME host).toOption.map absName
  | .txt name => (through.lookupTXT name).toOption = (resolver.lookupTXT name).toOption
  | .mx name =>
    (through.lookupMX name).toOption =
      (resolver.lookupMX name).toOption.map (List.map MX.absolute)
  | .ns name =>
    (through.lookupNS name).toOption =
      (resolver.lookupNS name).toOption.map (List.map absName)
  | .srv service proto name =>
    (through.lookupSRV service proto name).toOption.map absoluteSRV =
      (resolver.lookupSRV service proto name).toOption.map absoluteSRV

theorem trimDot_concat : trimDot (name ++ [dot]) = name := by
  simp [trimDot]

theorem trimDot_absName : trimDot (absName name) = trimDot name := by
  unfold absName
  split_ifs with short absolute
  · rcases short with rfl | rfl
    · rfl
    · rfl
  · rfl
  · rw [trimDot_concat, trimDot, if_neg absolute]

theorem absName_absName : absName (absName name) = absName name := by
  unfold absName
  split_ifs <;> simp_all

theorem uint16At_putUint16 (before after : List UInt8) :
    uint16At (before ++ putUint16 value ++ after) before.length = value := by
  have small := value.toNat_lt
  have high : ((before ++ putUint16 value ++ after).getD before.length 0) =
      UInt8.ofNat (value.toNat / 256) := by
    simp [putUint16]
  have low : ((before ++ putUint16 value ++ after).getD (before.length + 1) 0) =
      UInt8.ofNat value.toNat := by
    simp [putUint16]
  rw [uint16At, high, low]
  apply UInt16.toNat_inj.mp
  simp only [UInt16.toNat_ofNat', UInt8.toNat_ofNat']
  omega

theorem length_putUint16 : (putUint16 value).length = 2 :=
  rfl

variable (ttl : UInt32)

theorem filterMap_mxResources (mxs : List MX) :
    (mxResources name ttl mxs).filterMap mxFromResource = mxs.map MX.absolute := by
  have decoded : ∀ mx : MX, mxFromResource
      (resource name typeMX ttl (putUint16 mx.pref ++ absName mx.host)) = some mx.absolute := by
    intro mx
    have pref := uint16At_putUint16 mx.pref [] (absName mx.host)
    simp only [nil_append, length_nil] at pref
    simp [mxFromResource, resource, pref, length_putUint16, MX.absolute, drop_append]
  simp [mxResources, decoded]

theorem filterMap_srvResources (srvs : List SRV) :
    (srvResources name ttl srvs).filterMap srvFromResource = srvs.map SRV.absolute := by
  have decoded : ∀ srv : SRV, srvFromResource (resource name typeSRV ttl
      (putUint16 srv.priority ++ putUint16 srv.weight ++ putUint16 srv.port ++
        absName srv.target)) = some srv.absolute := by
    intro srv
    have priority := uint16At_putUint16 srv.priority []
      (putUint16 srv.weight ++ (putUint16 srv.port ++ absName srv.target))
    have weight := uint16At_putUint16 srv.weight (putUint16 srv.priority)
      (putUint16 srv.port ++ absName srv.target)
    have port := uint16At_putUint16 srv.port (putUint16 srv.priority ++ putUint16 srv.weight)
      (absName srv.target)
    simp only [nil_append, length_nil, append_assoc, length_append,
      length_putUint16, Nat.reduceAdd] at priority weight port
    have target : (putUint16 srv.priority ++ (putUint16 srv.weight ++
        (putUint16 srv.port ++ absName srv.target))).drop 6 = absName srv.target := rfl
    simp only [srvFromResource, resource, append_assoc, priority, weight, port, target,
      length_append, length_putUint16, SRV.absolute]
    rw [if_pos (by omega)]
  simp only [srvResources, filterMap_map, comp_def, decoded, filterMap_eq_map']

theorem names_nameResources (rtype : UInt16) (names : List Text) :
    namesFromResources (nameResources name rtype ttl names) = names.map absName := by
  simp [namesFromResources, nameResources, resource]

theorem names_nsResources (nss : List Text) :
    namesFromResources (nsResources name ttl nss) = nss.map absName := by
  simp [namesFromResources, nsResources, resource]

theorem names_textResources (txts : List Text) :
    namesFromResources (textResources name ttl txts) = txts := by
  simp [namesFromResources, textResources, comp_def, resource]

theorem ips_ipResources_a (ips : List IP) :
    ipsFromResources (ipResources name typeA ttl ips) =
      (ips.filterMap to4).map fun ip => v4InV6Prefix ++ ip := by
  rw [ipsFromResources, ipResources, flatMap_map, map_eq_flatMap]
  apply flatMap_congr
  intro ip member
  rcases mem_filterMap.mp member with ⟨_, _, converted⟩
  simp [resource, to4_length converted, typeA, typeAAAA]

theorem ips_ipResources_aaaa (ips : List IP) :
    ipsFromResources (ipResources name typeAAAA ttl ips) = ips.filterMap to16 := by
  rw [ipsFromResources, ipResources, flatMap_map, ← map_id (ips.filterMap to16), map_eq_flatMap]
  apply flatMap_congr
  intro ip member
  rcases mem_filterMap.mp member with ⟨_, _, converted⟩
  simp [resource, to16_length converted, typeA, typeAAAA]

def someAddress (ips : List IP) : Option (List IP) :=
  if ips = [] then none else some ips

variable (network host name : Text)

section Questions

variable (library : AdapterLibrary) (resolver : Resolver) (ttl : UInt32) (nextID : UInt16)

def providerOf : ResolverProvider where
  library := library
  resolver := resolver
  ttl := if ttl = 0 then 60 else ttl

theorem errRCode_ne_success (error : LookupError) :
    errRCode error ≠ rcodeSuccess := by
  cases error <;> decide

theorem queryRecords_toOption (rtype : UInt16) :
    (queryRecords (newResolverProvider library resolver ttl) nextID rtype name).toOption =
      ((providerOf library resolver ttl).lookup ⟨absName name, rtype, classIN⟩).toOption := by
  have served : newResolverProvider library resolver ttl =
      (providerOf library resolver ttl).handle := rfl
  rw [served]
  cases found : (providerOf library resolver ttl).lookup ⟨absName name, rtype, classIN⟩ with
  | error error =>
    simp [queryRecords, opcodeQuery, handle, answer, found,
      errRCode_ne_success, Except.toOption]
  | ok rrs =>
    simp [queryRecords, opcodeQuery, handle, answer, found,
      responseFor, Except.toOption]

variable {ε α β : Type} {rtype : UInt16} {ips : List IP}

theorem toOption_map (f : α → β) (result : Except ε α) :
    (result.map f).toOption = result.toOption.map f := by
  cases result <;> rfl

theorem toOption_bind (result : Except ε α) (f : α → Except ε β) :
    (result >>= f).toOption = result.toOption.bind fun value => (f value).toOption := by
  cases result <;> rfl

def familyAddresses (rtype : UInt16) (host : Text) : Option (List IP) :=
  if rtype = typeA then
    (resolver.lookupIP (bytes "ip4") host).toOption.map fun ips =>
      (ips.filterMap to4).map fun ip => v4InV6Prefix ++ ip
  else
    (resolver.lookupIP (bytes "ip6") host).toOption.map fun ips => ips.filterMap to16

theorem queryRecords_addresses (family : rtype = typeA ∨ rtype = typeAAAA) (host : Text) :
    (queryRecords (newResolverProvider library resolver ttl) nextID rtype host).toOption.map
        ipsFromResources = familyAddresses resolver rtype (trimDot host) := by
  rw [queryRecords_toOption]
  rcases family with rfl | rfl
  · simp [ResolverProvider.lookup, toOption_map, trimDot_absName, familyAddresses,
      comp_def, ips_ipResources_a, providerOf]
  · have other : typeAAAA ≠ typeA := by decide
    simp [ResolverProvider.lookup, toOption_map, trimDot_absName, familyAddresses, other,
      comp_def, ips_ipResources_aaaa, providerOf]

def perFamily (network host : Text) : Option (List IP) :=
  let four := familyAddresses resolver typeA host
  let six := familyAddresses resolver typeAAAA host
  if hasSuffix network (bytes "4") then four.bind someAddress
  else if hasSuffix network (bytes "6") then six.bind someAddress
  else someAddress (four.getD [] ++ six.getD [])

theorem lookupFamily_toOption (rtype : UInt16) (family : rtype = typeA ∨ rtype = typeAAAA)
    (skipped only : Bool) (host : Text) :
    (lookupFamily (newResolverProvider library resolver ttl) nextID rtype skipped only
        host).toOption =
      if skipped then some []
      else if only then familyAddresses resolver rtype (trimDot host)
      else some ((familyAddresses resolver rtype (trimDot host)).getD []) := by
  have addresses := queryRecords_addresses library resolver ttl nextID family host
  rw [← addresses]
  cases found : queryRecords (newResolverProvider library resolver ttl) nextID rtype host with
  | error error | ok rrs =>
    cases skipped <;> cases only <;> simp [lookupFamily, found, Except.toOption]

theorem only4_not_only6 {network : Text} (only4 : hasSuffix network (bytes "4") = true) :
    hasSuffix network (bytes "6") = false := by
  rw [Bool.eq_false_iff]
  intro only6
  rcases isSuffixOf_iff_suffix.mp only4 with ⟨front, rfl⟩
  rcases isSuffixOf_iff_suffix.mp only6 with ⟨other, equal⟩
  have last := (append_inj' equal rfl).2
  exact absurd last (by decide)

theorem lookupIPVia_toOption (name : literalIP library network host = none) :
    (lookupIPVia library (newResolverProvider library resolver ttl) nextID network host).toOption =
      perFamily resolver network (trimDot host) := by
  have four := lookupFamily_toOption library resolver ttl nextID typeA (.inl rfl)
    (hasSuffix network (bytes "6")) (hasSuffix network (bytes "4")) host
  have six := lookupFamily_toOption library resolver ttl nextID typeAAAA (.inr rfl)
    (hasSuffix network (bytes "4")) (hasSuffix network (bytes "6")) host
  have together : (lookupIPVia library (newResolverProvider library resolver ttl) nextID network
      host).toOption =
      (lookupFamily (newResolverProvider library resolver ttl) nextID typeA
        (hasSuffix network (bytes "6")) (hasSuffix network (bytes "4")) host).toOption.bind fun a =>
      (lookupFamily (newResolverProvider library resolver ttl) nextID typeAAAA
        (hasSuffix network (bytes "4")) (hasSuffix network (bytes "6")) host).toOption.bind fun b =>
      someAddress (a ++ b) := by
    simp only [lookupIPVia, name, toOption_bind, someAddress]
    congr! with a b
    split_ifs <;> rfl
  rw [together, four, six, perFamily]
  cases only4 : hasSuffix network (bytes "4") with
  | true => simp [only4_not_only6 only4]
  | false => cases hasSuffix network (bytes "6") <;> simp

theorem longForm_of_length {ip : IP} (long : ip.length = 16) : longForm ip = ip := by
  simp [longForm, to16, long]

theorem familyAddresses_length {host : Text}
    (found : familyAddresses resolver rtype host = some ips) : ∀ ip ∈ ips, ip.length = 16 := by
  intro ip member
  unfold familyAddresses at found
  split_ifs at found with four
  · rcases Option.map_eq_some_iff.mp found with ⟨answer, _, rfl⟩
    rcases mem_map.mp member with ⟨short, shortMember, rfl⟩
    rcases mem_filterMap.mp shortMember with ⟨_, _, converted⟩
    simp [v4InV6Prefix, to4_length converted]
  · rcases Option.map_eq_some_iff.mp found with ⟨answer, _, rfl⟩
    rcases mem_filterMap.mp member with ⟨_, _, converted⟩
    exact to16_length converted

theorem perFamily_length {network host : Text}
    (found : perFamily resolver network host = some ips) : ∀ ip ∈ ips, ip.length = 16 := by
  have some_of : ∀ {all : List IP}, someAddress all = some ips → all = ips := by
    intro all given
    unfold someAddress at given
    split_ifs at given
    exact Option.some.inj given
  have listed (rtype : UInt16) : ∀ ip ∈ (familyAddresses resolver rtype host).getD [],
      ip.length = 16 := by
    rcases all : familyAddresses resolver rtype host with _ | found
    · simp
    · exact familyAddresses_length resolver all
  unfold perFamily at found
  split_ifs at found with only4 only6
  · rcases Option.bind_eq_some_iff.mp found with ⟨all, family, given⟩
    exact some_of given ▸ familyAddresses_length resolver family
  · rcases Option.bind_eq_some_iff.mp found with ⟨all, family, given⟩
    exact some_of given ▸ familyAddresses_length resolver family
  · rw [← some_of found]
    intro ip member
    rcases mem_append.mp member with four | six
    · exact listed typeA ip four
    · exact listed typeAAAA ip six

theorem perFamily_longForm :
    (perFamily resolver network host).map (List.map longForm) =
      perFamily resolver network host := by
  rcases found : perFamily resolver network host with _ | ips
  · rfl
  · have same : ips.map longForm = ips.map id := by
      apply map_congr_left
      intro ip member
      exact longForm_of_length (perFamily_length resolver found ip member)
    rw [Option.map_some, same, map_id]

end Questions

section Kept

variable (library : AdapterLibrary) (resolver : Resolver)

/-- The provider asks for the name without a final dot. -/
def Kept : Lookup → Prop
  | .ip network host =>
    (match literalIP library network host with
      | some literal => literal.toOption.map fun ip => [longForm ip]
      | none => perFamily resolver network (trimDot host)) =
      (resolver.lookupIP network host).toOption.map (List.map longForm)
  | .addr addr =>
    (match addrFromReverseName library (trimDot addr) with
      | .error _ => none
      | .ok decoded => (resolver.lookupAddr decoded).toOption.map (List.map absName)) =
      (resolver.lookupAddr addr).toOption.map (List.map absName)
  | .srv service proto name =>
    let (asked, transport, host) := splitSRV
      (trimDot (bytes "_" ++ service ++ bytes "._" ++ proto ++ bytes "." ++ name))
    ((resolver.lookupSRV asked transport host).toOption.map fun found =>
        absoluteSRV ([], found.2)) =
      (resolver.lookupSRV service proto name).toOption.map absoluteSRV
  | .cname host =>
    (resolver.lookupCNAME (trimDot host)).toOption.map absName =
      (resolver.lookupCNAME host).toOption.map absName
  | .txt name => (resolver.lookupTXT (trimDot name)).toOption = (resolver.lookupTXT name).toOption
  | .mx name =>
    (resolver.lookupMX (trimDot name)).toOption.map (List.map MX.absolute) =
      (resolver.lookupMX name).toOption.map (List.map MX.absolute)
  | .ns name =>
    (resolver.lookupNS (trimDot name)).toOption.map (List.map absName) =
      (resolver.lookupNS name).toOption.map (List.map absName)

variable (ttl : UInt32) (nextID : UInt16)

attribute [local simp] ResolverProvider.lookup typeA typeAAAA typePTR typeCNAME typeTXT typeMX
  typeNS typeSRV trimDot_absName providerOf toOption_map comp_def

theorem lookupIP_roundTrip :
    ((roundTrip library resolver ttl nextID).lookupIP network host).toOption.map
        (List.map longForm) =
      match literalIP library network host with
      | some literal => literal.toOption.map fun ip => [longForm ip]
      | none => perFamily resolver network (trimDot host) := by
  simp only [roundTrip, newResolver]
  rcases literal : literalIP library network host with _ | (error | ip)
  · rw [lookupIPVia_toOption _ _ _ _ _ _ literal, perFamily_longForm]
  · simp [lookupIPVia, literal, Except.toOption]
  · simp [lookupIPVia, literal, Except.toOption]

theorem lookupAddr_roundTrip (addr : Text) :
    ((roundTrip library resolver ttl nextID).lookupAddr addr).toOption =
      match addrFromReverseName library (trimDot addr) with
      | .error _ => none
      | .ok decoded => (resolver.lookupAddr decoded).toOption.map (List.map absName) := by
  simp only [roundTrip, newResolver, toOption_map, queryRecords_toOption]
  cases decoded : addrFromReverseName library (trimDot addr) with
  | error error => simp [decoded, Except.toOption]
  | ok text => simp [decoded, names_nameResources]

theorem lookupCNAME_roundTrip (host : Text) :
    ((roundTrip library resolver ttl nextID).lookupCNAME host).toOption =
      (resolver.lookupCNAME (trimDot host)).toOption.map absName := by
  have first : ((roundTrip library resolver ttl nextID).lookupCNAME host).toOption =
      (queryRecords (newResolverProvider library resolver ttl) nextID typeCNAME
        host).toOption.map fun rrs => (namesFromResources rrs).headD [] := by
    simp only [roundTrip, newResolver]
    cases queryRecords (newResolverProvider library resolver ttl) nextID typeCNAME host <;> rfl
  rw [first, queryRecords_toOption]
  simp [names_nameResources]

theorem lookupTXT_roundTrip :
    ((roundTrip library resolver ttl nextID).lookupTXT name).toOption =
      (resolver.lookupTXT (trimDot name)).toOption := by
  simp only [roundTrip, newResolver, toOption_map, queryRecords_toOption]
  simp [names_textResources]

theorem lookupMX_roundTrip :
    ((roundTrip library resolver ttl nextID).lookupMX name).toOption =
      (resolver.lookupMX (trimDot name)).toOption.map (List.map MX.absolute) := by
  simp only [roundTrip, newResolver, toOption_map, queryRecords_toOption]
  simp [filterMap_mxResources]

theorem lookupNS_roundTrip :
    ((roundTrip library resolver ttl nextID).lookupNS name).toOption =
      (resolver.lookupNS (trimDot name)).toOption.map (List.map absName) := by
  simp only [roundTrip, newResolver, toOption_map, queryRecords_toOption]
  simp [names_nsResources]

theorem lookupSRV_roundTrip (service proto name : Text) :
    ((roundTrip library resolver ttl nextID).lookupSRV service proto name).toOption =
      let (asked, transport, host) := splitSRV
        (trimDot (bytes "_" ++ service ++ bytes "._" ++ proto ++ bytes "." ++ name))
      (resolver.lookupSRV asked transport host).toOption.map fun found =>
        ([], found.2.map SRV.absolute) := by
  simp only [roundTrip, newResolver, toOption_map, queryRecords_toOption]
  simp [filterMap_srvResources]

theorem SRV.absolute_absolute (srv : SRV) : srv.absolute.absolute = srv.absolute := by
  simp [SRV.absolute, absName_absName]

/-- Both adapters together keep a result exactly for these answers of the resolver. -/
theorem roundTrip_same_iff (lookup : Lookup) :
    SameResult resolver (roundTrip library resolver ttl nextID) lookup ↔
      Kept library resolver lookup := by
  cases lookup with
  | ip network host => simp only [SameResult, Kept, lookupIP_roundTrip]
  | addr addr => simp only [SameResult, Kept, lookupAddr_roundTrip]
  | cname host => simp only [SameResult, Kept, lookupCNAME_roundTrip]
  | txt name => simp only [SameResult, Kept, lookupTXT_roundTrip]
  | mx name => simp only [SameResult, Kept, lookupMX_roundTrip]
  | ns name => simp only [SameResult, Kept, lookupNS_roundTrip]
  | srv service proto name =>
    simp [SameResult, Kept, lookupSRV_roundTrip, Option.map_map, absoluteSRV, map_map,
      SRV.absolute_absolute]

end Kept

def namingResolver : Resolver where
  lookupIP _ _ := .error .notFound
  lookupAddr _ := .ok [bytes "host.example."]
  lookupCNAME _ := .error .notFound
  lookupTXT _ := .error .notFound
  lookupMX _ := .error .notFound
  lookupNS _ := .error .notFound
  lookupSRV _ _ _ := .error .notFound

/-- The provider refuses the four labels of an address, whatever the library does. -/
theorem namingResolver_not_same :
    ¬ ∃ (library : AdapterLibrary) (ttl : UInt32) (nextID : UInt16),
      SameResult namingResolver (roundTrip library namingResolver ttl nextID)
        (.addr (bytes "192.0.2.1")) := by
  rintro ⟨library, ttl, nextID, same⟩
  have labels : ((trimDot (bytes "192.0.2.1")).splitOn dot).length = 4 := by decide +kernel
  have refused : addrFromReverseName library (trimDot (bytes "192.0.2.1")) =
      .error .malformedReverseName := by
    simp [addrFromReverseName, labels]
  simp only [SameResult, lookupAddr_roundTrip, refused] at same
  simp [namingResolver, Except.toOption] at same

end Gonnect.Dns
