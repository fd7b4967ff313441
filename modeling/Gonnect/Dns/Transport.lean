import Gonnect.Dns.Message
import Gonnect.Foundation.ExpiringCache
import Gonnect.Net.Addr
import Gonnect.Net.HostPort

/-!
# The transport of the DNS client

A client sends a query to servers that URLs name: over UDP, over TCP, or over TLS for the
scheme `dot`. The host of the URL is resolved, and the query goes to the addresses, one
after the other or, for `dot`, to all at once. A connection is wrapped in TLS if a server
name goes with the address.

An address without a host has no server name, so a query to `dot://:853` is written in plain
text.
-/

namespace Gonnect.Dns

open Netip Net List

structure ServerURL where
  scheme : Text
  host : Text
  path : Text
deriving DecidableEq, Repr

structure TransportLibrary where
  parseURL : Text → Option ServerURL
  parseAddr : Text → Option Addr
  addrString : Addr → Text
  ipString : List UInt8 → Text
  pack : Message → Option (List UInt8)
  unpack : List UInt8 → Option Message
  addrString_ne_nil : ∀ addr, addrString addr ≠ []

inductive ExchangeError where
  | malformedURL
  | unknownNetwork (network : Text)
  | emptyServerAddress
  | hostPort (error : HostPortError)
  | noSuchHost (host : Text)
  | lookup
  | pack
  | dial
  | deadline
  | messageTooLarge
  | write
  | read
  | unpack
  | responseIDMismatch
  | spawn
  | noUpstream
deriving DecidableEq, Repr

def maxDNSMessageSize : ℕ := 2 ^ 16 - 1

structure ServerAddr where
  addr : Text
  tlsServerName : Text
deriving DecidableEq, Repr

inductive Layer where
  | plain
  | tls (serverName : Text)
deriving DecidableEq, Repr

structure WireWrite where
  network : Text
  addr : Text
  layer : Layer
  data : List UInt8
deriving DecidableEq, Repr

structure ConnScript where
  dials : Bool
  setsDeadline : Bool
  writes : Bool
  /-- The datagram, or the bytes after the length of a stream message. -/
  reply : Option (List UInt8)

structure Attempt where
  /-- For a worker of a parallel exchange. -/
  spawns : Bool
  first : ConnScript
  /-- The TCP connection after a truncated datagram. -/
  second : ConnScript

abbrev Exchanged := List WireWrite × Except ExchangeError Message

structure Client where
  library : TransportLibrary
  /-- `TLSConfig.ServerName`, empty if there is no configuration. -/
  tlsServerName : Text
  /-- `NewResolver(bootstrap).LookupIP` for network `ip`, if there is a bootstrap server; a nil
  address is an empty one. -/
  bootstrap : Option (Text → Except Unit (List (List UInt8)))

def splitServerHostPort (library : TransportLibrary) (addr : Text) :
    Except ExchangeError (Text × Text) :=
  if addr = [] then
    .error .emptyServerAddress
  else
    match splitHostPort addr with
    | .ok (host, port) => .ok (host, port)
    | .error error =>
      match library.parseAddr addr with
      | some ip => .ok (library.addrString ip, bytes "53")
      | none =>
        let inner := (addr.drop 1).dropLast
        match if addr.head? = some openBracket ∧ addr.getLast? = some closeBracket then
            library.parseAddr inner else none with
        | some ip => .ok (library.addrString ip, bytes "53")
        | none =>
          if addr.count colon > 1 then
            .error (.hostPort error)
          else
            .ok (addr, bytes "53")

namespace Client

variable (client : Client)

def serverAddrs (host port : Text) : Except ExchangeError (List ServerAddr) :=
  if host = [] then
    .ok [⟨joinHostPort host port, []⟩]
  else
    match client.library.parseAddr host with
    | some ip =>
      let host := client.library.addrString ip
      .ok [⟨joinHostPort host port, host⟩]
    | none =>
      match client.bootstrap with
      | none => .error (.noSuchHost host)
      | some lookupIP =>
        match lookupIP host with
        | .error _ => .error .lookup
        | .ok ips =>
          let addrs := (ips.filter (· ≠ [])).map fun ip =>
            ⟨joinHostPort (client.library.ipString ip) port, host⟩
          if addrs = [] then .error (.noSuchHost host) else .ok addrs

def tlsConfig (host : Text) : Text :=
  if client.tlsServerName = [] then host else client.tlsServerName

def readReply (reply : Option (List UInt8)) : Except ExchangeError Message :=
  match reply with
  | none => .error .read
  | some data =>
    match client.library.unpack data with
    | none => .error .unpack
    | some msg => .ok msg

variable (script : ConnScript) (attempt : Attempt)

def exchangeUDP (addr : Text) (pkt : List UInt8) : Exchanged :=
  if !script.dials then
    ([], .error .dial)
  else if !script.setsDeadline then
    ([], .error .deadline)
  else
    let written : WireWrite := ⟨bytes "udp", addr, .plain, pkt⟩
    if !script.writes then
      ([written], .error .write)
    else
      ([written], client.readReply script.reply)

def exchangeStream (network addr : Text) (pkt : List UInt8) (tlsServerName : Text) : Exchanged :=
  if !script.dials then
    ([], .error .dial)
  else if !script.setsDeadline then
    ([], .error .deadline)
  else if pkt.length > maxDNSMessageSize then
    ([], .error .messageTooLarge)
  else
    let layer := if tlsServerName = [] then .plain else .tls (client.tlsConfig tlsServerName)
    let length : List UInt8 := [UInt8.ofNat (pkt.length / 256), UInt8.ofNat pkt.length]
    let written : WireWrite := ⟨network, addr, layer, length ++ pkt⟩
    if !script.writes then
      ([written], .error .write)
    else
      ([written], client.readReply script.reply)

def exchangeOne (network : Text) (addr : ServerAddr) (pkt : List UInt8) (expectedID : UInt16) :
    Exchanged :=
  if network = bytes "udp" then
    match client.exchangeUDP attempt.first addr.addr pkt with
    | (writes, .error error) => (writes, .error error)
    | (writes, .ok resp) =>
      if resp.id = expectedID ∧ resp.truncated then
        let (more, result) :=
          client.exchangeStream attempt.second (bytes "tcp") addr.addr pkt []
        (writes ++ more, result)
      else
        (writes, .ok resp)
  else if network = bytes "tcp" then
    client.exchangeStream attempt.first (bytes "tcp") addr.addr pkt []
  else if network = bytes "dot" then
    client.exchangeStream attempt.first (bytes "tcp") addr.addr pkt addr.tlsServerName
  else
    ([], .error (.unknownNetwork network))

def exchangeAddr (network : Text) (addr : ServerAddr) (pkt : List UInt8) (expectedID : UInt16) :
    Exchanged :=
  match client.exchangeOne attempt network addr pkt expectedID with
  | (writes, .error error) => (writes, .error error)
  | (writes, .ok resp) =>
    if resp.id ≠ expectedID then
      (writes, .error .responseIDMismatch)
    else
      (writes, .ok resp)

/-- The sequential loop of `exchange`, with the error of the last attempt so far. -/
def exchangeEach (network : Text) (pkt : List UInt8) (expectedID : UInt16) :
    List (ServerAddr × Attempt) → ExchangeError → Exchanged
  | [], last => ([], .error last)
  | (addr, attempt) :: rest, _ =>
    match client.exchangeAddr attempt network addr pkt expectedID with
    | (writes, .ok resp) => (writes, .ok resp)
    | (writes, .error error) =>
      let (more, result) := exchangeEach network pkt expectedID rest error
      (writes ++ more, result)

def worker (pkt : List UInt8) (expectedID : UInt16) (target : ServerAddr × Attempt) : Exchanged :=
  if !target.2.spawns then
    ([], .error .spawn)
  else
    client.exchangeAddr target.2 (bytes "dot") target.1 pkt expectedID

def collect : List (Except ExchangeError Message) → Option Message → ExchangeError →
    Except ExchangeError Message
  | [], some resp, _ => .ok resp
  | [], none, last => .error last
  | .ok resp :: rest, first, last => collect rest (some (first.getD resp)) last
  | .error error :: rest, first, _ => collect rest first error

/-- `exchangeDoTParallel`; the results arrive in any order. -/
def exchangeDoTParallel (arrival : WalkOrder (Except ExchangeError Message))
    (targets : List (ServerAddr × Attempt)) (pkt : List UInt8) (expectedID : UInt16) : Exchanged :=
  let exchanged := targets.map (client.worker pkt expectedID)
  (exchanged.flatMap Prod.fst, collect (arrival.walk (exchanged.map Prod.snd)) none .noUpstream)

/-- What a call of `exchange` meets: the next message ID, what happens at each address, and
the order in which parallel results arrive. -/
structure Environment where
  nextID : UInt16
  attempt : ℕ → Attempt
  arrival : WalkOrder (Except ExchangeError Message)

def urlAddr (url : ServerURL) : Text :=
  if url.host = [] then url.path else url.host

def exchange (env : Environment) (server : Text) (msg : Message) : Exchanged :=
  match client.library.parseURL server with
  | none => ([], .error .malformedURL)
  | some url =>
    if url.scheme ≠ bytes "udp" ∧ url.scheme ≠ bytes "tcp" ∧ url.scheme ≠ bytes "dot" then
      ([], .error (.unknownNetwork url.scheme))
    else
      match splitServerHostPort client.library (urlAddr url) with
      | .error error => ([], .error error)
      | .ok (host, port) =>
        match client.serverAddrs host port with
        | .error error => ([], .error error)
        | .ok addrs =>
          match client.library.pack { msg with id := env.nextID } with
          | none => ([], .error .pack)
          | some pkt =>
            let targets := addrs.zipIdx.map fun (addr, i) => (addr, env.attempt i)
            if url.scheme = bytes "dot" ∧ addrs.length > 1 then
              client.exchangeDoTParallel env.arrival targets pkt env.nextID
            else
              client.exchangeEach url.scheme pkt env.nextID targets .noUpstream

end Client

theorem splitServerHostPort_empty_iff (library : TransportLibrary) (addr : Text) :
    (∃ port, splitServerHostPort library addr = .ok ([], port)) ↔ HostMissing addr := by
  rw [hostMissing_iff]
  constructor
  · rintro ⟨port, split⟩
    unfold splitServerHostPort at split
    by_cases empty : addr = []
    · rw [if_pos empty] at split
      cases split
    rw [if_neg empty] at split
    split at split
    · rename_i host other hostPort
      cases split
      exact ⟨_, hostPort⟩
    · split at split
      · rename_i ip _
        exact absurd (Prod.mk.inj (Except.ok.inj split)).1 (library.addrString_ne_nil ip)
      · dsimp only at split
        split at split
        · rename_i ip _
          exact absurd (Prod.mk.inj (Except.ok.inj split)).1 (library.addrString_ne_nil ip)
        · split_ifs at split
          exact absurd (Prod.mk.inj (Except.ok.inj split)).1 empty
  · rintro ⟨port, hostPort⟩
    have nonempty : addr ≠ [] := by
      rintro rfl
      cases hostPort
    refine ⟨port, ?_⟩
    simp [splitServerHostPort, if_neg nonempty, hostPort]

namespace Client

variable {client : Client} {addrs : List ServerAddr} {targets : List (ServerAddr × Attempt)}

theorem serverAddrs_named {host port : Text} (given : host ≠ [])
    (resolved : client.serverAddrs host port = .ok addrs) :
    ∀ addr ∈ addrs, addr.tlsServerName ≠ [] := by
  unfold serverAddrs at resolved
  rw [if_neg given] at resolved
  split at resolved
  · rename_i ip _
    cases resolved
    simpa using client.library.addrString_ne_nil ip
  · split at resolved
    · cases resolved
    · split at resolved
      · cases resolved
      · dsimp only at resolved
        split_ifs at resolved
        cases resolved
        intro addr member
        rcases mem_map.mp member with ⟨_, _, rfl⟩
        exact given

def OnlyTLS (exchanged : Exchanged) : Prop :=
  ∀ write ∈ exchanged.1, ∃ serverName, write.layer = .tls serverName

section

variable (client) (pkt : List UInt8)

theorem exchangeStream_onlyTLS (script : ConnScript) (network addr : Text)
    {tlsServerName : Text} (named : tlsServerName ≠ []) :
    OnlyTLS (client.exchangeStream script network addr pkt tlsServerName) := by
  unfold exchangeStream OnlyTLS
  split_ifs <;> simp

variable (attempt : Attempt) (expectedID : UInt16)

theorem writes_exchangeAddr (network : Text) (addr : ServerAddr) :
    (client.exchangeAddr attempt network addr pkt expectedID).1 =
      (client.exchangeOne attempt network addr pkt expectedID).1 := by
  unfold exchangeAddr
  split
  · rename_i exchanged
    rw [exchanged]
  · rename_i exchanged
    rw [exchanged]
    split_ifs <;> rfl

theorem exchangeOne_dot (addr : ServerAddr) :
    client.exchangeOne attempt (bytes "dot") addr pkt expectedID =
      client.exchangeStream attempt.first (bytes "tcp") addr.addr pkt addr.tlsServerName := by
  unfold exchangeOne
  rw [if_neg (by decide), if_neg (by decide), if_pos rfl]

theorem exchangeAddr_onlyTLS {addr : ServerAddr} (named : addr.tlsServerName ≠ []) :
    OnlyTLS (client.exchangeAddr attempt (bytes "dot") addr pkt expectedID) := by
  unfold OnlyTLS
  rw [writes_exchangeAddr, exchangeOne_dot]
  exact client.exchangeStream_onlyTLS _ _ _ _ named

theorem writes_exchangeEach_cons (network : Text) (target : ServerAddr × Attempt)
    (rest : List (ServerAddr × Attempt)) (last : ExchangeError) :
    ∃ more, (client.exchangeEach network pkt expectedID (target :: rest) last).1 =
        (client.exchangeAddr target.2 network target.1 pkt expectedID).1 ++ more ∧
      (more = [] ∨ ∃ error, more = (client.exchangeEach network pkt expectedID rest error).1) := by
  rw [exchangeEach]
  split
  · rename_i exchanged
    exact ⟨[], by rw [exchanged, append_nil], .inl rfl⟩
  · rename_i error exchanged
    exact ⟨_, by rw [exchanged], .inr ⟨error, rfl⟩⟩

theorem exchangeEach_onlyTLS (named : ∀ target ∈ targets, target.1.tlsServerName ≠ [])
    (last : ExchangeError) :
    OnlyTLS (client.exchangeEach (bytes "dot") pkt expectedID targets last) := by
  induction targets generalizing last with
  | nil => simp [exchangeEach, OnlyTLS]
  | cons target rest ih =>
    rcases forall_mem_cons.mp named with ⟨firstNamed, restNamed⟩
    rcases client.writes_exchangeEach_cons pkt expectedID (bytes "dot") target rest last with
      ⟨more, writes, later⟩
    intro write member
    rw [writes] at member
    rcases mem_append.mp member with now | after
    · exact client.exchangeAddr_onlyTLS pkt target.2 expectedID firstNamed write now
    · rcases later with rfl | ⟨error, rfl⟩
      · cases after
      · exact ih restNamed error write after

theorem exchangeDoTParallel_onlyTLS (arrival : WalkOrder (Except ExchangeError Message))
    (named : ∀ target ∈ targets, target.1.tlsServerName ≠ []) :
    OnlyTLS (client.exchangeDoTParallel arrival targets pkt expectedID) := by
  intro write member
  rcases mem_flatMap.mp member with ⟨exchanged, listed, written⟩
  rcases mem_map.mp listed with ⟨target, present, rfl⟩
  unfold worker at written
  split_ifs at written
  · cases written
  · exact client.exchangeAddr_onlyTLS _ _ _ (named target present) write written

end

theorem targets_named (attempt : ℕ → Attempt) (named : ∀ addr ∈ addrs, addr.tlsServerName ≠ []) :
    ∀ target ∈ addrs.zipIdx.map fun (addr, i) => (addr, attempt i), target.1.tlsServerName ≠ [] := by
  intro target member
  rcases mem_map.mp member with ⟨⟨addr, i⟩, listed, rfl⟩
  rcases mem_zipIdx' listed with ⟨inside, same⟩
  exact named addr (same ▸ getElem_mem inside)

def openNetwork (nextID : UInt16) (reply : List UInt8) : Environment where
  nextID := nextID
  attempt _ := ⟨true, ⟨true, true, true, some reply⟩, ⟨true, true, true, some reply⟩⟩
  arrival := ⟨id, fun _ => Perm.refl _⟩

theorem exchangeEach_plain (addr : Text) {pkt : List UInt8} (fits : pkt.length ≤ maxDNSMessageSize)
    (id : UInt16) (reply : List UInt8) :
    ∃ write ∈ (client.exchangeEach (bytes "dot") pkt id
      [(⟨addr, []⟩, (openNetwork id reply).attempt 0)] .noUpstream).1, write.layer = .plain := by
  rcases client.writes_exchangeEach_cons pkt id (bytes "dot")
    (⟨addr, []⟩, (openNetwork id reply).attempt 0) [] .noUpstream with ⟨more, writes, _⟩
  have short : ¬pkt.length > maxDNSMessageSize := not_lt.mpr fits
  rw [writes, writes_exchangeAddr, exchangeOne_dot]
  let write : WireWrite := ⟨bytes "tcp", addr, .plain,
    [UInt8.ofNat (pkt.length / 256), UInt8.ofNat pkt.length] ++ pkt⟩
  refine ⟨write, mem_append_left _ ?_, rfl⟩
  simp [exchangeStream, openNetwork, short, write]

/-- A query to a `dot` server is written through TLS only, whatever the network does, exactly
if the address has a host. -/
theorem exchange_onlyTLS_iff (client : Client) {server : Text} {url : ServerURL}
    (parsed : client.library.parseURL server = some url) (dot : url.scheme = bytes "dot")
    {msg : Message} {id : UInt16} {pkt : List UInt8}
    (packed : client.library.pack { msg with id := id } = some pkt)
    (fits : pkt.length ≤ maxDNSMessageSize) :
    (∀ env, OnlyTLS (client.exchange env server msg)) ↔ ¬HostMissing (urlAddr url) := by
  have known : ¬(url.scheme ≠ bytes "udp" ∧ url.scheme ≠ bytes "tcp" ∧
      url.scheme ≠ bytes "dot") := fun unknown => unknown.2.2 dot
  constructor
  · intro secure missing
    rcases (splitServerHostPort_empty_iff client.library _).mpr missing with ⟨port, split⟩
    have resolved : client.serverAddrs [] port = .ok [⟨joinHostPort [] port, []⟩] := by
      simp [serverAddrs]
    have exchanged : client.exchange (openNetwork id []) server msg =
        client.exchangeEach (bytes "dot") pkt id
          [(⟨joinHostPort [] port, []⟩, (openNetwork id []).attempt 0)] .noUpstream := by
      unfold exchange
      rw [parsed]
      dsimp only
      rw [if_neg known, split]
      dsimp only
      rw [resolved]
      rw [show client.library.pack { msg with id := (openNetwork id []).nextID } = some pkt from
        packed, dot]
      rfl
    have written := client.exchangeEach_plain (joinHostPort [] port) fits id []
    rcases written with ⟨write, member, plain⟩
    rcases secure (openNetwork id []) write (exchanged ▸ member) with ⟨serverName, tls⟩
    rw [plain] at tls
    cases tls
  · intro given env
    unfold exchange
    rw [parsed]
    dsimp only
    rw [if_neg known]
    split
    · simp [OnlyTLS]
    · rename_i host port split
      have hostGiven : host ≠ [] := by
        rintro rfl
        exact given ((splitServerHostPort_empty_iff client.library _).mp ⟨port, split⟩)
      split
      · simp [OnlyTLS]
      · rename_i addrs resolved
        have named := serverAddrs_named hostGiven resolved
        split
        · simp [OnlyTLS]
        · rw [dot]
          split_ifs
          · exact client.exchangeDoTParallel_onlyTLS _ _ _ (targets_named env.attempt named)
          · exact client.exchangeEach_onlyTLS _ _ (targets_named env.attempt named) _

def simpleURL (text : Text) : Option ServerURL :=
  let scheme := text.takeWhile (· != colon)
  let rest := text.drop scheme.length
  if bytes "://" <+: rest then
    let authority := rest.drop 3
    some ⟨scheme, authority.takeWhile (· != 47), authority.dropWhile (· != 47)⟩
  else
    none

def simpleLibrary : TransportLibrary where
  parseURL := simpleURL
  parseAddr _ := none
  addrString _ := bytes "invalid IP"
  ipString _ := bytes "192.0.2.1"
  pack msg := some [UInt8.ofNat (msg.id.toNat / 256), UInt8.ofNat msg.id.toNat]
  unpack
    | [high, low] => some { id := UInt16.ofNat (256 * high.toNat + low.toNat), response := true }
    | _ => none
  addrString_ne_nil _ := by decide

def simpleClient : Client where
  library := simpleLibrary
  tlsServerName := []
  bootstrap := some fun _ => .ok [[192, 0, 2, 1]]

/-- The query to `dot://:853` is answered, and was written in plain text. -/
theorem exchange_plain_without_host :
    ∃ resp, simpleClient.exchange (openNetwork 258 [1, 2]) (bytes "dot://:853") {} =
      ([⟨bytes "tcp", bytes ":853", .plain, [0, 2, 1, 2]⟩], .ok resp) :=
  ⟨{ id := 258, response := true }, by decide⟩

theorem exchange_onlyTLS_example :
    ¬HostMissing (bytes "dns.example:853") ∧
      ∀ env, OnlyTLS (simpleClient.exchange env (bytes "dot://dns.example:853") {}) := by
  have given : ¬HostMissing (bytes "dns.example:853") := by
    rintro ⟨port, _, same | same⟩
    · exact absurd (congrArg List.head? same) (by simp [bytes, colon])
    · exact absurd (congrArg List.head? same) (by simp [bytes, openBracket])
  have parsed : simpleClient.library.parseURL (bytes "dot://dns.example:853") =
      some ⟨bytes "dot", bytes "dns.example:853", []⟩ := by decide
  have packed : simpleClient.library.pack { ({} : Message) with id := 258 } = some [1, 2] := by
    decide
  exact ⟨given, (simpleClient.exchange_onlyTLS_iff parsed rfl packed (by decide)).mpr given⟩

end Client

end Gonnect.Dns
