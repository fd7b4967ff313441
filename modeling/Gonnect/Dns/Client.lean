import Gonnect.Dns.Cache
import Gonnect.Dns.Transport
import Gonnect.Foundation.Checked

/-!
# The responses that the DNS client returns

An attempt at an address ends with one message: the first datagram, the first message of a
stream, or the message of the stream that follows a truncated datagram. It is returned if
its ID is that of the query. Nobody compares its question, and nobody reads a second
datagram. Which attempt wins depends on the connections: if the others fail, any attempt can.
-/

namespace Gonnect.Dns

open List

def Message.SameQuestions (query resp : Message) : Prop :=
  Forall₂ SameQuestion query.questions resp.questions

structure Message.Answers (resp : Message) (id : UInt16) (query : Message) : Prop where
  sameID : resp.id = id
  questions : query.SameQuestions resp

namespace Client

variable (client : Client)

inductive HandleError where
  | noDialer
  | exchange (error : ExchangeError)
deriving DecidableEq

/-- The loop of `handle` over the servers, with what each exchange meets. -/
def exchangeServers (query : Message) :
    List (Text × Environment) → ExchangeError → Except ExchangeError Message
  | [], last => .error last
  | (server, env) :: rest, _ =>
    match (client.exchange env server query).2 with
    | .ok resp => .ok { resp with id := query.id }
    | .error error => exchangeServers query rest error

def handle (hasDialer : Bool) (servers : List (Text × Environment)) (query : Message) :
    Except HandleError Message :=
  if hasDialer = false then
    .error .noDialer
  else
    (client.exchangeServers query servers .noUpstream).mapError .exchange

variable (script : ConnScript)

/-- The connection carries the query, and these bytes come back. -/
def Brings (data : List UInt8) : Prop :=
  script.dials = true ∧ script.setsDeadline = true ∧ script.writes = true ∧
    script.reply = some data

/-- A message on the stream with the ID of the query has its questions. -/
def StreamAnswers (pkt : List UInt8) (expectedID : UInt16) (query : Message) : Prop :=
  pkt.length ≤ maxDNSMessageSize → ∀ data, Brings script data →
    ∀ resp ∈ client.library.unpack data, resp.id = expectedID → query.SameQuestions resp

/-- A datagram with the ID of the query has its questions, or it is truncated, and a message on
the stream with the ID has them. -/
def AnswersOnly (attempt : Attempt) (network : Text) (pkt : List UInt8) (expectedID : UInt16)
    (query : Message) : Prop :=
  if network = bytes "udp" then
    ∀ data, Brings attempt.first data → ∀ resp ∈ client.library.unpack data,
      resp.id = expectedID →
        if resp.truncated = true then client.StreamAnswers attempt.second pkt expectedID query
        else query.SameQuestions resp
  else
    client.StreamAnswers attempt.first pkt expectedID query

theorem readReply_ok_iff (reply : Option (List UInt8)) (resp : Message) :
    client.readReply reply = .ok resp ↔ reply.bind client.library.unpack = some resp := by
  cases reply with
  | none => exact ⟨nofun, nofun⟩
  | some data => cases unpacked : client.library.unpack data <;> simp [readReply, unpacked]

theorem exchangeUDP_ok_iff (addr : Text) (pkt : List UInt8) (resp : Message) :
    (client.exchangeUDP script addr pkt).2 = .ok resp ↔
      ∃ data, Brings script data ∧ client.library.unpack data = some resp := by
  rcases script with ⟨_ | _, _ | _, _ | _, _ | data⟩ <;>
    simp [exchangeUDP, Brings, readReply_ok_iff]

theorem exchangeStream_ok_iff (network addr : Text) (pkt : List UInt8) (tlsServerName : Text)
    (resp : Message) :
    (client.exchangeStream script network addr pkt tlsServerName).2 = .ok resp ↔
      pkt.length ≤ maxDNSMessageSize ∧
        ∃ data, Brings script data ∧ client.library.unpack data = some resp := by
  by_cases long : pkt.length > maxDNSMessageSize <;>
    rcases script with ⟨_ | _, _ | _, _ | _, _ | data⟩ <;>
    simp [exchangeStream, Brings, readReply_ok_iff, long, not_lt.mp, not_le.mpr]

def knownNetworks : List Text :=
  [bytes "udp", bytes "tcp", bytes "dot"]

variable {attempt : Attempt} {network : Text} {addr : ServerAddr} {pkt : List UInt8}
  {expectedID : UInt16} {query resp : Message}

theorem exchangeAddr_ok_iff :
    (client.exchangeAddr attempt network addr pkt expectedID).2 = .ok resp ↔
      (client.exchangeOne attempt network addr pkt expectedID).2 = .ok resp ∧
        resp.id = expectedID := by
  rw [exchangeAddr]
  rcases client.exchangeOne attempt network addr pkt expectedID with ⟨writes, error | first⟩
  · simp
  · dsimp only
    split_ifs with other
    · refine ⟨nofun, ?_⟩
      rintro ⟨⟨⟩, same⟩
      exact absurd same other
    · refine ⟨?_, And.left⟩
      rintro ⟨⟩
      exact ⟨rfl, not_not.mp other⟩

theorem exchangeOne_udp_ok_iff :
    (client.exchangeOne attempt (bytes "udp") addr pkt expectedID).2 = .ok resp ↔
      ∃ data, Brings attempt.first data ∧ ∃ first ∈ client.library.unpack data,
        if first.id = expectedID ∧ first.truncated = true then
          (client.exchangeStream attempt.second (bytes "tcp") addr.addr pkt []).2 = .ok resp
        else first = resp := by
  have datagram := client.exchangeUDP_ok_iff attempt.first addr.addr pkt
  rw [exchangeOne, if_pos rfl]
  rcases exchanged : client.exchangeUDP attempt.first addr.addr pkt with ⟨writes, error | first⟩
  · refine ⟨nofun, ?_⟩
    rintro ⟨data, brings, other, unpacked, _⟩
    have accepted := (datagram other).mpr ⟨data, brings, unpacked⟩
    rw [exchanged] at accepted
    cases accepted
  · rcases (datagram first).mp (by rw [exchanged]) with ⟨data, brings, unpacked⟩
    constructor
    · intro accepted
      refine ⟨data, brings, first, unpacked, ?_⟩
      dsimp only at accepted
      split_ifs at accepted ⊢
      · exact accepted
      · exact Except.ok.inj accepted
    · rintro ⟨_, again, other, sameFirst, decided⟩
      cases brings.2.2.2.symm.trans again.2.2.2
      cases unpacked.symm.trans sameFirst
      dsimp only
      split_ifs at decided ⊢
      · exact decided
      · exact congrArg _ decided

/-- The responses of an attempt answer the query exactly if the datagram or message does. -/
theorem exchangeAddr_answers_iff (known : network ∈ knownNetworks) (addr : ServerAddr) :
    (∀ resp, (client.exchangeAddr attempt network addr pkt expectedID).2 = .ok resp →
      resp.Answers expectedID query) ↔
    client.AnswersOnly attempt network pkt expectedID query := by
  have stream (script : ConnScript) (name : Text) :
      (∀ resp, (client.exchangeStream script (bytes "tcp") addr.addr pkt name).2 = .ok resp →
        resp.id = expectedID → query.SameQuestions resp) ↔
      client.StreamAnswers script pkt expectedID query := by
    simp only [exchangeStream_ok_iff, StreamAnswers, Option.mem_def]
    grind
  have questions : (∀ resp, (client.exchangeAddr attempt network addr pkt expectedID).2 = .ok resp →
      resp.Answers expectedID query) ↔
      ∀ resp, (client.exchangeOne attempt network addr pkt expectedID).2 = .ok resp →
        resp.id = expectedID → query.SameQuestions resp := by
    simp only [exchangeAddr_ok_iff]
    exact ⟨fun answers resp one same => (answers resp ⟨one, same⟩).questions,
      fun only resp both => ⟨both.2, only resp both.1 both.2⟩⟩
  rw [questions, AnswersOnly]
  simp only [knownNetworks, mem_cons, not_mem_nil, or_false] at known
  rcases known with rfl | rfl | rfl
  · simp only [exchangeOne_udp_ok_iff, if_true, ← stream _ []]
    grind
  · rw [exchangeOne, if_neg (by decide), if_pos rfl, stream, if_neg (by decide)]
  · rw [exchangeOne_dot, stream, if_neg (by decide)]

variable {last : ExchangeError}

variable {results : List (Except ExchangeError Message)}

theorem ok_mem_of_collect {first : Option Message}
    (collected : collect results first last = .ok resp) :
    first = some resp ∨ .ok resp ∈ results := by
  fun_induction collect results first last with
  | case1 =>
    cases collected
    exact .inl rfl
  | case2 => cases collected
  | case3 received rest first last ih =>
    rcases ih collected with isFirst | later
    · cases first with
      | none =>
        cases isFirst
        exact .inr mem_cons_self
      | some earlier => exact .inl isFirst
    · exact .inr (mem_cons_of_mem _ later)
  | case4 error rest first _ ih =>
    exact (ih collected).imp id (mem_cons_of_mem _)

variable {targets : List (ServerAddr × Attempt)}

theorem exchangeEach_ok {network : Text} {pkt : List UInt8} {expectedID : UInt16}
    (accepted : (client.exchangeEach network pkt expectedID targets last).2 = .ok resp) :
    ∃ target ∈ targets,
      (client.exchangeAddr target.2 network target.1 pkt expectedID).2 = .ok resp := by
  induction targets generalizing last with
  | nil => cases accepted
  | cons target rest ih =>
    rw [exchangeEach] at accepted
    split at accepted
    · rename_i exchanged
      exact ⟨target, mem_cons_self, by rw [exchanged]; exact accepted⟩
    · rcases ih accepted with ⟨other, member, succeeded⟩
      exact ⟨other, mem_cons_of_mem _ member, succeeded⟩

theorem exists_collect {first : Option Message}
    (accepted : ∃ resp, first = some resp ∨ .ok resp ∈ results) :
    ∃ resp, collect results first last = .ok resp := by
  fun_induction collect results first last with
  | case1 received => exact ⟨received, rfl⟩
  | case2 => simp at accepted
  | case3 received rest first last ih => exact ih ⟨_, .inl rfl⟩
  | case4 error rest first _ ih => exact ih (by simpa using accepted)

theorem exists_exchangeEach {network : Text} {pkt : List UInt8} {expectedID : UInt16}
    {target : ServerAddr × Attempt}
    (listed : target ∈ targets)
    (accepted : (client.exchangeAddr target.2 network target.1 pkt expectedID).2 = .ok resp) :
    ∃ other, (client.exchangeEach network pkt expectedID targets last).2 = .ok other := by
  induction targets generalizing last with
  | nil => cases listed
  | cons first rest ih =>
    rw [exchangeEach]
    split
    · rename_i received _
      exact ⟨received, rfl⟩
    · rename_i exchanged
      rcases mem_cons.mp listed with rfl | later
      · rw [exchanged] at accepted
        cases accepted
      · exact ih later

/-- What an exchange with a server uses: the network, the addresses and the packed query. -/
def Plans (server : Text) (query : Message) (network : Text) (addrs : List ServerAddr)
    (pkt : List UInt8) : Prop :=
  ∃ url host port, client.library.parseURL server = some url ∧ url.scheme = network ∧
    network ∈ knownNetworks ∧ splitServerHostPort client.library (urlAddr url) = .ok (host, port) ∧
    client.serverAddrs host port = .ok addrs ∧ client.library.pack query = some pkt

theorem Plans.known {client : Client} {server network : Text} {addrs : List ServerAddr}
    {pkt : List UInt8} (plans : client.Plans server query network addrs pkt) :
    network ∈ knownNetworks := by
  rcases plans with ⟨_, _, _, _, _, known, _⟩
  exact known

theorem exchange_ok {env : Environment} {server : Text}
    (accepted : (client.exchange env server query).2 = .ok resp) :
    ∃ network addrs pkt, client.Plans server { query with id := env.nextID } network addrs pkt ∧
      ∃ index, ∃ inside : index < addrs.length,
        (client.exchangeAddr (env.attempt index) network addrs[index] pkt env.nextID).2 =
          .ok resp := by
  unfold exchange at accepted
  split at accepted
  · cases accepted
  rename_i url parsed
  split_ifs at accepted with unknown
  have known : url.scheme ∈ knownNetworks := by
    simp only [knownNetworks, mem_cons, not_mem_nil, or_false]
    tauto
  split at accepted
  · cases accepted
  rename_i host port split
  split at accepted
  · cases accepted
  rename_i addrs found
  split at accepted
  · cases accepted
  rename_i pkt packed
  refine ⟨url.scheme, addrs, pkt, ⟨url, host, port, parsed, rfl, known, split, found, packed⟩, ?_⟩
  have attempted : ∀ target ∈ addrs.zipIdx.map fun entry => (entry.1, env.attempt entry.2),
      ∃ index, ∃ inside : index < addrs.length, target = (addrs[index], env.attempt index) := by
    intro target member
    rcases mem_map.mp member with ⟨⟨addr, index⟩, listed, rfl⟩
    rcases mem_zipIdx' listed with ⟨inside, same⟩
    exact ⟨index, inside, by rw [same]⟩
  split_ifs at accepted with parallel
  · have member := (ok_mem_of_collect accepted).resolve_left nofun
    rw [(env.arrival.perm _).mem_iff, map_map, mem_map] at member
    rcases member with ⟨target, listed, succeeded⟩
    rcases attempted target listed with ⟨index, inside, rfl⟩
    rw [Function.comp_apply, worker] at succeeded
    split_ifs at succeeded
    exact ⟨index, inside, by rw [parallel.1]; exact succeeded⟩
  · rcases client.exchangeEach_ok accepted with ⟨target, listed, succeeded⟩
    rcases attempted target listed with ⟨index, inside, rfl⟩
    exact ⟨index, inside, succeeded⟩

theorem exists_exchange {env : Environment} {server network : Text} {addrs : List ServerAddr}
    {pkt : List UInt8} (plans : client.Plans server { query with id := env.nextID } network addrs pkt)
    {index : ℕ} (inside : index < addrs.length) (spawns : (env.attempt index).spawns = true)
    (succeeded : (client.exchangeAddr (env.attempt index) network addrs[index] pkt
      env.nextID).2 = .ok resp) :
    ∃ other, (client.exchange env server query).2 = .ok other := by
  rcases plans with ⟨url, host, port, parsed, rfl, known, split, found, packed⟩
  have listed : (addrs[index], env.attempt index) ∈
      addrs.zipIdx.map fun entry => (entry.1, env.attempt entry.2) := by
    refine mem_map.mpr ⟨(addrs[index], index), ?_, rfl⟩
    rw [mem_zipIdx_iff_getElem?]
    exact getElem?_eq_getElem inside
  have isKnown : ¬(url.scheme ≠ bytes "udp" ∧ url.scheme ≠ bytes "tcp" ∧
      url.scheme ≠ bytes "dot") := by
    simp only [knownNetworks, mem_cons, not_mem_nil, or_false] at known
    tauto
  simp only [exchange, parsed, isKnown, if_false, split, found, packed]
  split_ifs with parallel
  · refine exists_collect ⟨resp, .inr ?_⟩
    rw [(env.arrival.perm _).mem_iff, map_map, mem_map]
    refine ⟨_, listed, ?_⟩
    rw [Function.comp_apply, worker, spawns, ← parallel.1]
    exact succeeded
  · exact client.exists_exchangeEach listed succeeded

/-- A UDP connection on which datagrams arrive before the deadline; the first one is read. -/
def datagrams (arrived : List (List UInt8)) : ConnScript :=
  ⟨true, true, true, arrived.head?⟩

def IsAnswer (expectedID : UInt16) (query : Message) (datagram : List UInt8) : Prop :=
  ∃ resp, client.library.unpack datagram = some resp ∧ resp.Answers expectedID query

theorem exchangeAddr_datagrams {junk rest : List (List UInt8)} {good : List UInt8}
    (noAnswer : ∀ datagram ∈ junk, ¬client.IsAnswer expectedID query datagram)
    (unpacked : client.library.unpack good = some resp) (answers : resp.Answers expectedID query)
    (complete : resp.truncated = false) :
    (∀ second, (client.exchangeAddr ⟨true, datagrams (junk ++ good :: rest), second⟩
      (bytes "udp") addr pkt expectedID).2 = .ok resp) ↔ junk = [] := by
  simp only [exchangeAddr_ok_iff, exchangeOne_udp_ok_iff, answers.sameID, and_true]
  constructor
  · intro returned
    rcases junk with _ | ⟨first, later⟩
    · rfl
    · -- no stream follows a truncated datagram here
      rcases returned ⟨false, false, false, none⟩ with ⟨data, brings, received, isFirst, decided⟩
      cases brings.2.2.2
      split_ifs at decided
      · simp [exchangeStream] at decided
      · cases decided
        exact absurd ⟨_, isFirst, answers⟩ (noAnswer first mem_cons_self)
  · rintro rfl second
    exact ⟨good, ⟨rfl, rfl, rfl, rfl⟩, resp, unpacked, by simp [complete]⟩

variable {servers : List (Text × Environment)}

theorem exchangeServers_ok
    (accepted : client.exchangeServers query servers last = .ok resp) :
    ∃ server ∈ servers, ∃ received,
      (client.exchange server.2 server.1 query).2 = .ok received ∧
        resp = { received with id := query.id } := by
  induction servers generalizing last with
  | nil => cases accepted
  | cons server rest ih =>
    rw [exchangeServers] at accepted
    split at accepted
    · rename_i received exchanged
      cases accepted
      exact ⟨server, mem_cons_self, received, exchanged, rfl⟩
    · rcases ih accepted with ⟨other, member, facts⟩
      exact ⟨other, mem_cons_of_mem _ member, facts⟩

theorem exists_exchangeServers {server : Text × Environment}
    (listed : server ∈ servers) (accepted : (client.exchange server.2 server.1 query).2 = .ok resp) :
    ∃ other, client.exchangeServers query servers last = .ok other := by
  induction servers generalizing last with
  | nil => cases listed
  | cons first rest ih =>
    rw [exchangeServers]
    split
    · exact ⟨_, rfl⟩
    · rename_i exchanged
      rcases mem_cons.mp listed with rfl | later
      · rw [exchanged] at accepted
        cases accepted
      · exact ih later

def opened (attempt : Attempt) : Attempt :=
  ⟨true, ⟨true, true, true, attempt.first.reply⟩, ⟨true, true, true, attempt.second.reply⟩⟩

def closed (attempt : Attempt) : Attempt :=
  { attempt with first := { attempt.first with dials := false } }

/-- The server, the wire ID and the replies, without the fate of the connections. -/
def sent (server : Text × Environment) : Text × UInt16 × (ℕ → Attempt) :=
  (server.1, server.2.nextID, fun index => opened (server.2.attempt index))

theorem exchangeAddr_closed :
    (client.exchangeAddr (closed attempt) network addr pkt expectedID).2 ≠ .ok resp := by
  rw [Ne, exchangeAddr_ok_iff, exchangeOne]
  split_ifs <;> simp [exchangeUDP, exchangeStream, closed]

theorem AnswersOnly.of_opened {client : Client}
    (only : client.AnswersOnly (opened attempt) network pkt expectedID query) :
    client.AnswersOnly attempt network pkt expectedID query := by
  have opens {script : ConnScript} {data : List UInt8} (brings : Brings script data) :
      Brings ⟨true, true, true, script.reply⟩ data := ⟨rfl, rfl, rfl, brings.2.2.2⟩
  unfold AnswersOnly StreamAnswers at only ⊢
  split_ifs at only ⊢ with udp
  · intro data brings resp unpacked sameID
    have meant := only data (opens brings) resp unpacked sameID
    split_ifs at meant ⊢
    · exact fun fits data brings => meant fits data (opens brings)
    · exact meant
  · exact fun fits data brings => only fits data (opens brings)

open Classical in
/-- Only the attempt at this address of this server gets a connection. -/
noncomputable def isolated (server : Text × Environment) (index : ℕ)
    (other : Text × Environment) : Text × Environment :=
  (other.1, { other.2 with
    attempt := fun place =>
      if other = server ∧ place = index then opened (other.2.attempt place)
      else closed (other.2.attempt place) })

theorem isolated_wins {server : Text × Environment} {servers : List (Text × Environment)}
    (listed : server ∈ servers) {network : Text} {addrs : List ServerAddr} {pkt : List UInt8}
    (plans : client.Plans server.1 { query with id := server.2.nextID } network addrs pkt)
    {index : ℕ} (inside : index < addrs.length)
    (accepted : (client.exchangeAddr (opened (server.2.attempt index)) network addrs[index] pkt
      server.2.nextID).2 = .ok resp) :
    client.handle true (servers.map (isolated server index)) query =
      .ok { resp with id := query.id } := by
  have alone : (isolated server index server).2.attempt index =
      opened (server.2.attempt index) := if_pos ⟨rfl, rfl⟩
  rcases @exists_exchange client query resp (isolated server index server).2 server.1 network addrs
    pkt plans index inside (by rw [alone]; rfl) (by rw [alone]; exact accepted) with
    ⟨other, exchanged⟩
  rcases @exists_exchangeServers client query other .noUpstream _ (isolated server index server)
    (mem_map_of_mem listed) exchanged with ⟨final, answered⟩
  rcases client.exchangeServers_ok answered with ⟨winner, member, received, won, rfl⟩
  rcases mem_map.mp member with ⟨origin, _, rfl⟩
  rcases client.exchange_ok won with ⟨_, _, _, used, place, fits, succeeded⟩
  -- every other attempt has lost its connection
  have isAlone : origin = server ∧ place = index := by
    by_contra different
    have lost : (isolated server index origin).2.attempt place =
        closed (origin.2.attempt place) := if_neg different
    rw [lost] at succeeded
    exact client.exchangeAddr_closed succeeded
  rcases isAlone with ⟨rfl, rfl⟩
  rcases plans with ⟨_, _, _, parsed, rfl, _, split, found, packed⟩
  rcases used with ⟨_, _, _, parsedAgain, rfl, _, splitAgain, foundAgain, packedAgain⟩
  cases parsed.symm.trans parsedAgain
  cases split.symm.trans splitAgain
  cases found.symm.trans foundAgain
  cases packed.symm.trans packedAgain
  rw [alone] at succeeded
  cases accepted.symm.trans succeeded
  rw [handle, if_neg (by decide), answered]
  rfl

/-- The responses of an attempt answer the query exactly if the datagrams and messages that it
reads do. A response behind other datagrams is returned exactly if there are none. The
responses of a client answer the query, whatever becomes of the connections, exactly if
the replies of all upstreams do. -/
theorem responses_answer_iff (query : Message) :
    (∀ attempt, ∀ network ∈ knownNetworks, ∀ addr pkt expectedID,
      (∀ resp, (client.exchangeAddr attempt network addr pkt expectedID).2 = .ok resp →
        resp.Answers expectedID query) ↔
      client.AnswersOnly attempt network pkt expectedID query) ∧
    (∀ addr pkt expectedID junk good rest resp,
      (∀ datagram ∈ junk, ¬client.IsAnswer expectedID query datagram) →
      client.library.unpack good = some resp → resp.Answers expectedID query →
      resp.truncated = false →
      ((∀ second, (client.exchangeAddr ⟨true, datagrams (junk ++ good :: rest), second⟩
        (bytes "udp") addr pkt expectedID).2 = .ok resp) ↔ junk = [])) ∧
    ∀ servers : List (Text × Environment),
      (∀ met : List (Text × Environment), met.map sent = servers.map sent → ∀ resp,
        client.handle true met query = .ok resp → resp.Answers query.id query) ↔
      ∀ server ∈ servers, ∀ network addrs pkt,
        client.Plans server.1 { query with id := server.2.nextID } network addrs pkt →
        ∀ index < addrs.length, client.AnswersOnly (opened (server.2.attempt index)) network pkt
          server.2.nextID query := by
  refine ⟨fun attempt network known addr pkt expectedID =>
    client.exchangeAddr_answers_iff known addr, ?_, ?_⟩
  · intro addr pkt expectedID junk good rest resp noAnswer unpacked answers complete
    exact client.exchangeAddr_datagrams noAnswer unpacked answers complete
  · intro servers
    constructor
    · intro answers server listed network addrs pkt plans index inside
      have known := plans.known
      rw [← client.exchangeAddr_answers_iff known addrs[index]]
      intro resp accepted
      have met : (servers.map (isolated server index)).map sent = servers.map sent := by
        rw [map_map]
        refine map_congr_left fun other _ => congrArg (other.1, other.2.nextID, ·) ?_
        funext place
        simp only [isolated]
        split_ifs <;> rfl
      have answered := answers _ met _ (client.isolated_wins listed plans inside accepted)
      exact ⟨(client.exchangeAddr_ok_iff.mp accepted).2, answered.questions⟩
    · intro only met same resp accepted
      rw [handle, if_neg (by decide)] at accepted
      rcases client.exchangeServers_ok (Checked.mapError_eq_ok_iff.mp accepted) with
        ⟨other, member, received, exchanged, rfl⟩
      rcases client.exchange_ok exchanged with ⟨network, addrs, pkt, plans, index, inside, won⟩
      rcases mem_map.mp (same ▸ mem_map_of_mem member) with ⟨server, listed, sameSent⟩
      rcases Prod.mk.inj sameSent with ⟨sameServer, sameRest⟩
      rcases Prod.mk.inj sameRest with ⟨sameID, replies⟩
      have answers := only server listed network addrs pkt (by rwa [sameServer, sameID]) index inside
      rw [congrFun replies index, sameID] at answers
      have answered := (client.exchangeAddr_answers_iff plans.known addrs[index]).mpr
        answers.of_opened
      exact ⟨rfl, (answered received won).questions⟩

/-! A library whose messages have the ID and one question for a name of one letter. -/

def letterLibrary : TransportLibrary :=
  { simpleLibrary with
    unpack
      | [low, letter] => some
        { id := UInt16.ofNat low.toNat, response := true, questions := [⟨[letter], typeA, classIN⟩] }
      | _ => none }

def letterClient : Client :=
  { simpleClient with library := letterLibrary }

/-- The response to a question for `b` is returned to a client that asked for `a`. -/
theorem other_question_returned :
    let query : Message := { questions := [⟨bytes "a", typeA, classIN⟩] }
    ∃ resp, letterClient.handle true [(bytes "udp://dns.example:53", openNetwork 7 [7, 98])] query =
        .ok resp ∧ ¬Forall₂ SameQuestion query.questions resp.questions := by
  refine ⟨{ response := true, questions := [⟨bytes "b", typeA, classIN⟩] }, by decide, ?_⟩
  rintro (_ | ⟨⟨sameName, _⟩, _⟩)
  exact absurd sameName (by decide)

end Client

end Gonnect.Dns
