import Gonnect.Dns.MemoryStorage
import Gonnect.Net.IP

/-!
# The DNS cache

`Cache` looks a request up in its storage under the key of its first question, and forwards
it to the upstream if nothing is found. The lookups, replies and writes of different
requests interleave.

`Set` takes an empty key for the key of the message itself. The handler of a request without
a question passes an empty key, and so the upstream chooses the question under which its
reply is stored.
-/

namespace Gonnect.Dns

open Net List Function MemoryStorage

def pipe : UInt8 := 124

variable {α : Type} {separator : α} {left left' right right' : List α}

theorem append_separator_inj (free : separator ∉ left) (free' : separator ∉ left')
    (same : left ++ separator :: right = left' ++ separator :: right') :
    left = left' ∧ right = right' := by
  induction left generalizing left' with
  | nil =>
    cases left' with
    | nil => exact ⟨rfl, (List.cons.inj same).2⟩
    | cons head tail =>
      cases (List.cons.inj same).1
      exact absurd mem_cons_self free'
  | cons head tail ih =>
    cases left' with
    | nil =>
      cases (List.cons.inj same).1
      exact absurd mem_cons_self free
    | cons head' tail' =>
      rcases List.cons.inj same with ⟨rfl, rest⟩
      rcases ih (fun member => free (mem_cons_of_mem _ member))
        (fun member => free' (mem_cons_of_mem _ member)) rest with ⟨rfl, rfl⟩
      exact ⟨rfl, rfl⟩

theorem append_last_separator_inj (free : separator ∉ right) (free' : separator ∉ right')
    (same : left ++ separator :: right = left' ++ separator :: right') :
    left = left' ∧ right = right' := by
  have reversed := congrArg List.reverse same
  simp only [reverse_append, reverse_cons, append_assoc, singleton_append]
    at reversed
  rcases append_separator_inj (by simpa using free) (by simpa using free') reversed with
    ⟨rights, lefts⟩
  exact ⟨reverse_injective lefts, reverse_injective rights⟩

theorem digit_bounds {value : ℕ} {digit : Char} (member : digit ∈ Nat.toDigits 10 value) :
    48 ≤ digit.toNat ∧ digit.toNat ≤ 57 := by
  have isDigit := Nat.isDigit_of_mem_toDigits (by decide) (le_refl 10) member
  simp only [Char.isDigit, Bool.and_eq_true, decide_eq_true_eq] at isDigit
  exact isDigit

theorem pipe_not_mem_decimal (value : ℕ) : pipe ∉ decimal value := by
  intro member
  rcases mem_map.mp member with ⟨digit, listed, same⟩
  have bounds := digit_bounds listed
  have number := congrArg UInt8.toNat same
  have size : UInt8.size = 256 := rfl
  have pipeNumber : pipe.toNat = 124 := rfl
  rw [UInt8.toNat_ofNat_of_lt' (by omega)] at number
  omega

theorem decimal_injective {left right : ℕ} (same : decimal left = decimal right) :
    left = right := by
  have restore : ∀ value, (decimal value).map (fun byte => Char.ofNat byte.toNat) =
      Nat.toDigits 10 value := by
    intro value
    unfold decimal
    rw [map_map]
    refine (map_congr_left fun digit listed => ?_).trans (map_id _)
    have bounds := digit_bounds listed
    have size : UInt8.size = 256 := rfl
    rw [comp_apply, UInt8.toNat_ofNat_of_lt' (by omega)]
    exact Char.ofNat_toNat digit
  have digits : Nat.toDigits 10 left = Nat.toDigits 10 right := by
    rw [← restore left, ← restore right, same]
  have value := congrArg (fun digits => Nat.ofDigitChars 10 digits 0) digits
  simpa [Nat.ofDigitChars_toDigits] using value

def lowerByte (byte : UInt8) : UInt8 :=
  if 65 ≤ byte ∧ byte ≤ 90 then byte + 32 else byte

/-- Two questions for the same records: the names are compared as absolute names, without
regard to the case of ASCII letters. -/
def SameQuestion (left right : Question) : Prop :=
  (absName left.name).map lowerByte = (absName right.name).map lowerByte ∧
    left.qtype = right.qtype ∧ left.qclass = right.qclass

theorem cacheKey_ne_nil {msg : Message} (asks : msg.questions ≠ []) : cacheKey msg ≠ [] := by
  unfold cacheKey
  split
  · rename_i none
    exact absurd none asks
  · simp [bytes]

theorem sameQuestion_of_cacheKey {left right : Message} {first second : Question}
    (leftFirst : left.questions.head? = some first)
    (rightFirst : right.questions.head? = some second) (same : cacheKey left = cacheKey right) :
    SameQuestion first second := by
  rcases head?_eq_some_iff.mp leftFirst with ⟨leftRest, leftQuestions⟩
  rcases head?_eq_some_iff.mp rightFirst with ⟨rightRest, rightQuestions⟩
  have separator : bytes "|" = [pipe] := rfl
  simp only [cacheKey, leftQuestions, rightQuestions, separator] at same
  simp only [append_assoc, cons_append, nil_append] at same
  rw [← cons_append, ← append_assoc, ← cons_append, ← append_assoc] at same
  rcases append_last_separator_inj (pipe_not_mem_decimal _) (pipe_not_mem_decimal _) same with
    ⟨front, classes⟩
  rcases append_last_separator_inj (pipe_not_mem_decimal _) (pipe_not_mem_decimal _) front with
    ⟨names, types⟩
  refine ⟨by rw [names], ?_, ?_⟩
  · exact UInt16.toNat_inj.mp (decimal_injective types)
  · exact UInt16.toNat_inj.mp (decimal_injective classes)

def resourceIP (rr : Resource) : Option IP :=
  if rr.rtype = typeA then
    if rr.rclass = classIN ∧ rr.data.length = 4 then some (v4InV6Prefix ++ rr.data) else none
  else if rr.rtype = typeAAAA then
    if rr.rclass = classIN ∧ rr.data.length = 16 then some rr.data else none
  else
    none

def reverseAddr (ip : IP) : Text :=
  match to4 ip with
  | some [a, b, c, d] =>
    decimal d.toNat ++ bytes "." ++ decimal c.toNat ++ bytes "." ++ decimal b.toNat ++
      bytes "." ++ decimal a.toNat ++ bytes ".in-addr.arpa."
  | _ => []

def hexDigit (value : UInt8) : UInt8 :=
  if value < 10 then 48 + value else 87 + value

def reverseAddr6 (ip : IP) : Text :=
  match to16 ip, to4 ip with
  | some ip16, none =>
    (ip16.reverse.flatMap fun byte =>
      [hexDigit (byte &&& 15), dot, hexDigit (byte >>> 4), dot]) ++
      bytes "ip6.arpa."
  | _, _ => []

section Reverse

-- `net.IP.String`
variable (ipString : IP → Text)

def ptrCacheNames (ip : IP) : List Text :=
  (if reverseAddr ip ≠ [] then [reverseAddr ip] else []) ++
    (if reverseAddr6 ip ≠ [] then [reverseAddr6 ip] else []) ++
    (if ipString ip ≠ [] ∧ ipString ip ≠ bytes "<nil>" then [absName (ipString ip)] else [])

def ptrMessage (ptrName host : Text) (ttl : UInt32) : Message where
  response := true
  rcode := rcodeSuccess
  recursionAvailable := true
  questions := [⟨ptrName, typePTR, classIN⟩]
  answers := [⟨ptrName, typePTR, classIN, ttl, host⟩]

variable (msg : Message)

/-- The host that the addresses of an answer stand for; the root stands for none. -/
def reverseHost (rr : Resource) : Text :=
  match msg.questions with
  | question :: _ => if absName rr.name = [dot] then absName question.name else absName rr.name
  | [] => absName rr.name

def reverseMessages (rr : Resource) : List Message :=
  match resourceIP rr with
  | none => []
  | some ip =>
    if reverseHost msg rr = [dot] then []
    else (ptrCacheNames ipString ip).map fun ptrName =>
      ptrMessage ptrName (reverseHost msg rr) rr.ttl

/-- The messages that `storeReverseLookups` stores, in order. -/
def reverseLookups : List Message :=
  if msg.response = false ∨ msg.rcode ≠ rcodeSuccess then []
  else msg.answers.flatMap (reverseMessages ipString msg)

theorem not_mem_reverseLookups : msg ∉ reverseLookups ipString msg := by
  intro member
  unfold reverseLookups at member
  split_ifs at member
  · cases member
  · rcases mem_flatMap.mp member with ⟨rr, listed, made⟩
    unfold reverseMessages at made
    split at made
    · cases made
    · rename_i ip found
      split_ifs at made
      · cases made
      · rcases mem_map.mp made with ⟨ptrName, _, same⟩
        have answers := congrArg Message.answers same
        rw [← answers] at listed
        rw [mem_singleton.mp listed] at found
        simp [resourceIP, typePTR, typeA, typeAAAA] at found

structure CacheConfig where
  enableReverseLookups : Bool
  storageWriteOnly : Bool

variable (request : Option Message)

def requestKey : Text :=
  match request with
  | none => []
  | some msg => cacheKey msg

/-- A call of `Set` that a handler has still to make. -/
structure CacheWrite where
  key : Text
  msg : Message
  now : ℤ

/-- A handler that waits for its reply, with the upstream it has asked. -/
structure Waiting where
  request : Option Message
  gen : UInt64

/-- The calls of `Set` of a handler that has a reply from the current upstream. -/
def replyWrites (config : CacheConfig) (request : Option Message) (response : Message) (now : ℤ) :
    List CacheWrite :=
  ⟨requestKey request, response, now⟩ ::
    if config.enableReverseLookups then
      (reverseLookups ipString response).map fun msg => ⟨[], msg, now⟩
    else
      []

structure CacheState where
  storage : MemoryStorage
  upstream : Bool
  gen : UInt64
  /-- The requests that were not found, of handlers that have still to read the upstream. -/
  missed : List (Option Message)
  waiting : List Waiting
  writing : List (List CacheWrite)

/-- `NewCache` with a storage of its own. -/
def newCache (upstream : Bool) : CacheState where
  storage := .new
  upstream := upstream
  gen := 1
  missed := []
  waiting := []
  writing := []

inductive CacheEvent where
  | hit (request : Message) (now : ℤ) (response : Message)
  | miss (request : Option Message) (now : ℤ)
  | forward (request : Option Message)
  | reply (request : Option Message) (response : Message) (now : ℤ)
  | failure (request : Option Message)
  | write (key : Text) (msg : Message) (now : ℤ)
  | attach (upstream : Bool)

def CacheConfig.lookup (config : CacheConfig) (storage : MemoryStorage) (key : Text) (now : ℤ) :
    Option Message × MemoryStorage :=
  if config.storageWriteOnly then (none, storage) else storage.get key now

/-- The steps of the handlers, in any order. A hit for a request without a message ends
the program, and so it is no step. -/
inductive CacheStep (config : CacheConfig) : CacheState → CacheEvent → CacheState → Prop
  | hit {state : CacheState} {request msg : Message} {now : ℤ} {storage : MemoryStorage}
      (found : config.lookup state.storage (cacheKey request) now = (some msg, storage)) :
      CacheStep config state (.hit request now { msg with id := request.id })
        { state with storage := storage }
  | miss {state : CacheState} {request : Option Message} {now : ℤ} {storage : MemoryStorage}
      (missing : config.lookup state.storage (requestKey request) now = (none, storage)) :
      CacheStep config state (.miss request now)
        { state with storage := storage, missed := request :: state.missed }
  | forward {state : CacheState} {front back : List (Option Message)} {request : Option Message}
      (misses : state.missed = front ++ request :: back) :
      CacheStep config state (.forward request)
        { state with
          missed := front ++ back
          waiting := if state.upstream then ⟨request, state.gen⟩ :: state.waiting
            else state.waiting }
  | reply {state : CacheState} {front back : List Waiting} {handler : Waiting}
      (waits : state.waiting = front ++ handler :: back) (response : Message) (now : ℤ) :
      CacheStep config state (.reply handler.request response now)
        { state with
          waiting := front ++ back
          writing := if handler.gen = state.gen then
              replyWrites ipString config handler.request response now :: state.writing
            else state.writing }
  | failure {state : CacheState} {front back : List Waiting} {handler : Waiting}
      (waits : state.waiting = front ++ handler :: back) :
      CacheStep config state (.failure handler.request) { state with waiting := front ++ back }
  | write {state : CacheState} {front back : List (List CacheWrite)} {next : CacheWrite}
      {rest : List CacheWrite} (writes : state.writing = front ++ (next :: rest) :: back) :
      CacheStep config state (.write next.key next.msg next.now)
        { state with
          storage := state.storage.set next.key (some next.msg) next.now
          writing := front ++ rest :: back }
  | attach {state : CacheState} (upstream : Bool) :
      CacheStep config state (.attach upstream)
        { state with upstream := upstream, gen := state.gen + 1 }

variable (history : List CacheEvent)

def RepliedTo (key : Text) (msg : Message) : Prop :=
  ∃ request now, .reply request msg now ∈ history ∧ requestKey request = key

def SyntheticFor (key : Text) (msg : Message) : Prop :=
  ∃ request response now, .reply request response now ∈ history ∧
    msg ∈ reverseLookups ipString response ∧ cacheKey msg = key

def Justified (key : Text) (msg : Message) : Prop :=
  RepliedTo history key msg ∨ SyntheticFor ipString history key msg

variable {ipString history} {key : Text} {msg : Message}

theorem Justified.mono (justified : Justified ipString history key msg) (later : List CacheEvent) :
    Justified ipString (history ++ later) key msg := by
  rcases justified with ⟨request, now, member, keyed⟩ | ⟨request, response, now, member, rest⟩
  · exact .inl ⟨request, now, mem_append_left _ member, keyed⟩
  · exact .inr ⟨request, response, now, mem_append_left _ member, rest⟩

/-- An exchange with the upstream after which the reply is stored under the question of its
request, if at all. -/
def Answerable (response : Message) : Prop :=
  response.response = true → response.rcode = rcodeSuccess → minTTL response ≠ 0 →
    requestKey request = [] → response.questions = []

/-- What is stored and what is still to be written is justified. -/
structure CacheSound (ipString : IP → Text) (history : List CacheEvent) (state : CacheState) :
    Prop where
  stored : ∀ key, ∀ entry ∈ state.storage.stored key, Justified ipString history key entry.msg
  writing : ∀ writes ∈ state.writing, ∀ write ∈ writes, write.msg.response = true →
    write.msg.rcode = rcodeSuccess → minTTL write.msg ≠ 0 →
      Justified ipString history (setKey write.key write.msg) write.msg

namespace CacheSound

variable {state : CacheState} {config : CacheConfig}

theorem mono (sound : CacheSound ipString history state) (later : List CacheEvent) :
    CacheSound ipString (history ++ later) state where
  stored := fun key entry present => (sound.stored key entry present).mono later
  writing := fun writes listed write member response success kept =>
    (sound.writing writes listed write member response success kept).mono later

variable {storage after : MemoryStorage} {now : ℤ}

theorem lookup_stored {answer : Option Message}
    (looked : config.lookup storage key now = (answer, after)) {other : Text}
    {entry : StoredMessage} (present : entry ∈ after.stored other) :
    entry ∈ storage.stored other := by
  unfold CacheConfig.lookup MemoryStorage.get at looked
  split_ifs at looked
  · cases looked
    exact present
  · split at looked
    · cases looked
      exact present
    · split_ifs at looked
      · cases looked
        by_cases same : other = key
        · subst same
          simp [delete] at present
        · simpa [delete, update_of_ne same] using present
      · cases looked
        exact present

theorem lookup_found (looked : config.lookup storage key now = (some msg, after)) :
    ∃ entry ∈ storage.stored key, entry.msg = msg := by
  unfold CacheConfig.lookup MemoryStorage.get at looked
  split_ifs at looked
  · cases looked
  · split at looked
    · cases looked
    · rename_i entry stored
      split_ifs at looked
      · cases looked
      · cases looked
        exact ⟨entry, stored, rfl⟩

theorem replyWrites_justified {request : Option Message} {response : Message}
    (answerable : Answerable request response) {write : CacheWrite}
    (member : write ∈ replyWrites ipString config request response now)
    (isResponse : write.msg.response = true) (success : write.msg.rcode = rcodeSuccess)
    (kept : minTTL write.msg ≠ 0) :
    Justified ipString (history ++ [.reply request response now])
      (setKey write.key write.msg) write.msg := by
  have replied : CacheEvent.reply request response now ∈
      history ++ [.reply request response now] := by simp
  rcases mem_cons.mp member with rfl | synthetic
  · refine .inl ⟨request, now, replied, ?_⟩
    unfold setKey
    split_ifs with empty
    · have noQuestion := answerable isResponse success kept empty
      rw [show requestKey request = [] from empty, cacheKey, noQuestion]
    · rfl
  · split_ifs at synthetic
    · rcases mem_map.mp synthetic with ⟨made, listed, rfl⟩
      refine .inr ⟨request, response, now, replied, listed, ?_⟩
      rw [setKey, if_pos rfl]
    · cases synthetic

theorem step {event : CacheEvent} {after : CacheState} (sound : CacheSound ipString history state)
    (taken : CacheStep ipString config state event after)
    (answerable : ∀ request response now, event = .reply request response now →
      Answerable request response) : CacheSound ipString (history ++ [event]) after := by
  cases taken with
  | hit looked | miss looked =>
    refine ⟨fun key entry present => ?_, (sound.mono _).writing⟩
    exact (sound.stored key entry (lookup_stored looked present)).mono _
  | @reply front back handler waits response now =>
    refine ⟨(sound.mono _).stored, fun writes listed write member => ?_⟩
    split_ifs at listed
    · rcases mem_cons.mp listed with rfl | earlier
      · exact replyWrites_justified (answerable _ _ _ rfl) member
      · exact (sound.mono _).writing writes earlier write member
    · exact (sound.mono _).writing writes listed write member
  | forward misses | failure waits | attach upstream =>
    exact ⟨(sound.mono _).stored, (sound.mono _).writing⟩
  | @write front back next rest writes =>
    have pending : next :: rest ∈ state.writing := by
      rw [writes]
      simp
    refine ⟨fun key entry present => ?_, fun others listed write member => ?_⟩
    · unfold MemoryStorage.set at present
      dsimp only at present
      split_ifs at present with refused zero
      · exact (sound.stored key entry present).mono _
      · exact (sound.stored key entry present).mono _
      · rw [not_or, Bool.not_eq_false, not_not] at refused
        by_cases same : key = setKey next.key next.msg
        · subst same
          simp only [update_self, Option.mem_some_iff] at present
          subst present
          exact (sound.writing _ pending next mem_cons_self refused.1 refused.2 zero).mono _
        · simp only [update_of_ne same] at present
          exact (sound.stored key entry present).mono _
    · have known : ∃ earlier ∈ state.writing, write ∈ earlier := by
        rcases mem_append.mp listed with inFront | inRest
        · exact ⟨others, by rw [writes]; exact mem_append_left _ inFront, member⟩
        · rcases mem_cons.mp inRest with rfl | inBack
          · exact ⟨next :: others, pending, mem_cons_of_mem _ member⟩
          · exact ⟨others, by rw [writes]; simp [inBack], member⟩
      rcases known with ⟨earlier, present, inEarlier⟩
      exact (sound.mono _).writing earlier present write inEarlier

end CacheSound

def firstQuestion : Option Question :=
  request.bind fun msg => msg.questions.head?

def SameFirstQuestion (left right : Option Message) : Prop :=
  match firstQuestion left, firstQuestion right with
  | some first, some second => SameQuestion first second
  | none, none => True
  | _, _ => False

/-- The response to a hit comes from a reply to a request with the same first question, or it
is a synthetic PTR message for this question. -/
def HitJustified (ipString : IP → Text) (past : List CacheEvent) (request response : Message) :
    Prop :=
  (∃ other reply now, .reply other reply now ∈ past ∧ response = { reply with id := request.id } ∧
    SameFirstQuestion (some request) other) ∨
  ∃ other reply now synthetic, .reply other reply now ∈ past ∧
    synthetic ∈ reverseLookups ipString reply ∧ response = { synthetic with id := request.id } ∧
      SameFirstQuestion (some request) (some synthetic)

/-- Every hit is justified, and a reply is stored only under the question of its request. -/
structure Unpoisoned (ipString : IP → Text) (events : List CacheEvent) (state : CacheState) :
    Prop where
  hits : ∀ past request now response later,
    events = past ++ .hit request now response :: later →
      HitJustified ipString past request response
  stored : ∀ key, ∀ entry ∈ state.storage.stored key, Justified ipString events key entry.msg

theorem requestKey_eq_nil_iff : requestKey request = [] ↔ firstQuestion request = none := by
  cases request with
  | none => simp [requestKey, firstQuestion]
  | some msg =>
    cases asks : msg.questions with
    | nil => simp [requestKey, cacheKey, firstQuestion, asks]
    | cons question rest =>
      have nonempty : cacheKey msg ≠ [] := cacheKey_ne_nil (by simp [asks])
      simp [requestKey, firstQuestion, asks, nonempty]

theorem sameFirstQuestion_of_key {left right : Option Message}
    (same : requestKey left = requestKey right) : SameFirstQuestion left right := by
  have noneIff : firstQuestion left = none ↔ firstQuestion right = none := by
    rw [← requestKey_eq_nil_iff, ← requestKey_eq_nil_iff, same]
  unfold SameFirstQuestion
  split
  · rename_i first second leftFirst rightFirst
    rcases Option.bind_eq_some_iff.mp leftFirst with ⟨leftMsg, rfl, leftHead⟩
    rcases Option.bind_eq_some_iff.mp rightFirst with ⟨rightMsg, rfl, rightHead⟩
    exact sameQuestion_of_cacheKey leftHead rightHead same
  · trivial
  · rename_i notBoth notNone
    cases leftFirst : firstQuestion left with
    | none => exact notNone leftFirst (noneIff.mp leftFirst)
    | some first =>
      cases rightFirst : firstQuestion right with
      | none => simp [noneIff.mpr rightFirst] at leftFirst
      | some second => exact notBoth first second leftFirst rightFirst

theorem HitJustified.of_justified {past : List CacheEvent} {request msg : Message}
    (justified : Justified ipString past (cacheKey request) msg) :
    HitJustified ipString past request { msg with id := request.id } := by
  rcases justified with ⟨other, now, member, keyed⟩ | ⟨other, reply, now, member, made, keyed⟩
  · exact .inl ⟨other, msg, now, member, rfl, sameFirstQuestion_of_key keyed.symm⟩
  · exact .inr ⟨other, reply, now, msg, member, made, rfl,
      @sameFirstQuestion_of_key (some request) (some msg) keyed.symm⟩

theorem cacheSound_of_run {config : CacheConfig} {upstream : Bool} {events : List CacheEvent}
    {finish : CacheState} (run : Run (CacheStep ipString config) (newCache upstream) events finish)
    (answerable : ∀ request response now, .reply request response now ∈ events →
      Answerable request response) : CacheSound ipString events finish := by
  induction run with
  | nil => exact ⟨by simp [newCache, new], by simp [newCache]⟩
  | @snoc events before after event ran taken ih =>
    have earlier := ih fun request response now member =>
      answerable request response now (mem_append_left _ member)
    refine earlier.step taken ?_
    rintro request response now rfl
    exact answerable request response now (by simp)

theorem MemoryStorage.stored_set_nil (storage : MemoryStorage) {msg : Message} (now : ℤ)
    (isResponse : msg.response = true) (success : msg.rcode = rcodeSuccess)
    (kept : minTTL msg ≠ 0) :
    (storage.set [] (some msg) now).stored (cacheKey msg) =
      some ⟨msg, now + seconds (minTTL msg)⟩ := by
  simp [set, setKey, isResponse, success, kept]

/-- A request that is not found goes to the upstream, and its reply is stored. -/
def exchange (request : Option Message) (response : Message) : List CacheEvent :=
  [.miss request 0, .forward request, .reply request response 0,
    .write (requestKey request) response 0]

theorem of_mem_exchange {request other : Option Message} {response made : Message} {now : ℤ}
    (member : .reply other made now ∈ exchange request response) :
    other = request ∧ made = response := by
  have fields : other = request ∧ made = response ∧ now = 0 := by simpa [exchange] using member
  exact ⟨fields.1, fields.2.1⟩

theorem run_exchange {config : CacheConfig} {start : CacheState} {events : List CacheEvent}
    {gen : UInt64}
    (run : Run (CacheStep ipString config) start events { newCache true with gen := gen })
    (request : Option Message) (response : Message) :
    Run (CacheStep ipString config) start (events ++ exchange request response)
      { newCache true with
        gen := gen
        storage := new.set (requestKey request) (some response) 0
        writing := [(replyWrites ipString config request response 0).tail] } := by
  let missed : CacheState := { newCache true with gen := gen, missed := [request] }
  let asked : CacheState := { newCache true with gen := gen, waiting := [⟨request, gen⟩] }
  let replied : CacheState := { newCache true with
    gen := gen, writing := [replyWrites ipString config request response 0] }
  have missing : config.lookup .new (requestKey request) 0 = (none, .new) := by
    unfold CacheConfig.lookup
    split_ifs <;> rfl
  have misses : missed.missed = [] ++ request :: [] := rfl
  have waits : asked.waiting = [] ++ (⟨request, gen⟩ : Waiting) :: [] := rfl
  have reply : CacheStep ipString config asked (.reply request response 0) replied := by
    simpa [asked, replied, newCache] using CacheStep.reply waits response 0
  have pending : replied.writing = [] ++ (_ :: _) :: [] := rfl
  simpa [exchange, replied, newCache, replyWrites] using
    (((run.snoc (.miss missing)).snoc (.forward misses)).snoc reply).snoc (.write pending)

/-- A reply to a request without a question is stored under its own question. -/
theorem poisoned_of_not_answerable {request : Option Message} {response : Message}
    (config : CacheConfig) (upstream : Bool) (notAnswerable : ¬Answerable request response) :
    ∃ events finish, Run (CacheStep ipString config) (newCache upstream) events finish ∧
      (∀ other reply now, .reply other reply now ∈ events → other = request ∧ reply = response) ∧
        ¬Unpoisoned ipString events finish := by
  unfold Answerable at notAnswerable
  push Not at notAnswerable
  rcases notAnswerable with ⟨isResponse, success, kept, noKey, asks⟩
  have attach : CacheStep ipString config (newCache upstream) (.attach true)
      { newCache true with gen := 2 } := .attach true
  have only : ∀ other made now,
      .reply other made now ∈ [.attach true] ++ exchange request response →
      other = request ∧ made = response := by
    intro other made now member
    exact of_mem_exchange (by simpa using member)
  refine ⟨_, _, run_exchange (.single attach) request response, only, fun unpoisoned => ?_⟩
  have present : (⟨response, 0 + seconds (minTTL response)⟩ : StoredMessage) ∈
      (new.set (requestKey request) (some response) 0).stored (cacheKey response) := by
    rw [noKey]
    exact stored_set_nil .new 0 isResponse success kept
  rcases unpoisoned.stored _ _ present with ⟨other, now, member, keyed⟩ |
    ⟨other, made, now, member, synthetic, _⟩
  · rw [(only _ _ _ member).1, noKey] at keyed
    exact cacheKey_ne_nil asks keyed.symm
  · rw [(only _ _ _ member).2] at synthetic
    exact not_mem_reverseLookups ipString response synthetic

end Reverse

/-- Whatever exchanges with the upstream are allowed: in every run with these exchanges all
hits are justified and every reply is stored under the question of its request, exactly if a
reply that is stored asks a question only if its request does. -/
theorem cache_unpoisoned_iff (ipString : IP → Text) (config : CacheConfig) (upstream : Bool)
    (allowed : Option Message → Message → Prop) :
    (∀ events finish, Run (CacheStep ipString config) (newCache upstream) events finish →
      (∀ request response now, .reply request response now ∈ events → allowed request response) →
        Unpoisoned ipString events finish) ↔
      ∀ request response, allowed request response → Answerable request response := by
  constructor
  · intro unpoisoned request response permitted
    by_contra notAnswerable
    rcases @poisoned_of_not_answerable ipString request response config upstream notAnswerable with
      ⟨events, finish, run, only, poisoned⟩
    refine poisoned (unpoisoned events finish run ?_)
    intro other made now member
    rcases only other made now member with ⟨rfl, rfl⟩
    exact permitted
  · intro answerable events finish run exchanges
    have sound := cacheSound_of_run run fun request response now member =>
      answerable request response (exchanges request response now member)
    refine ⟨?_, sound.stored⟩
    intro past request now response later listed
    rcases run.reaches_event listed with ⟨before, after, ran, taken⟩
    have earlier := cacheSound_of_run ran fun other made moment member =>
      answerable other made (exchanges other made moment (by rw [listed]; simp [member]))
    generalize happened : CacheEvent.hit request now response = event at taken
    cases taken with
    | hit found =>
      cases happened
      rcases CacheSound.lookup_found found with ⟨entry, stored, rfl⟩
      exact HitJustified.of_justified (earlier.stored _ entry stored)
    | _ => cases happened

/-- A reply about `victim.` that lives for five minutes. -/
def victimReply : Message where
  response := true
  questions := [⟨bytes "victim.", typeA, classIN⟩]
  answers := [⟨bytes "victim.", typeA, classIN, 300, [192, 0, 2, 66]⟩]

def victimRequest : Message where
  id := 7
  questions := [⟨bytes "victim.", typeA, classIN⟩]

/-- The upstream has replied once, to a request without a question. One second later its
reply is served to a request for `victim.`. -/
theorem cache_serves_unasked_reply :
    let events : List CacheEvent :=
      [.miss (some {}) 0, .forward (some {}), .reply (some {}) victimReply 0,
        .write [] victimReply 0, .hit victimRequest 1000000000 { victimReply with id := 7 }]
    (∃ finish, Run (CacheStep (fun _ => []) ⟨false, false⟩) (newCache true) events finish) ∧
      ¬HitJustified (fun _ => []) (events.take 4) victimRequest { victimReply with id := 7 } := by
  intro events
  have run := @run_exchange (fun _ => []) ⟨false, false⟩ (newCache true) [] 1 .nil
    (some {}) victimReply
  have sameKey : cacheKey victimRequest = cacheKey victimReply := rfl
  let storage := new.set [] (some victimReply) 0
  have stored : storage.stored (cacheKey victimReply) = some ⟨victimReply, 300000000000⟩ :=
    @MemoryStorage.stored_set_nil .new victimReply 0 rfl rfl (by decide)
  have found : CacheConfig.lookup ⟨false, false⟩ storage (cacheKey victimRequest) 1000000000 =
      (some victimReply, storage) := by
    rw [sameKey, CacheConfig.lookup, if_neg Bool.false_ne_true, MemoryStorage.get, stored]
    rfl
  refine ⟨⟨_, run.snoc (.hit found)⟩, ?_⟩
  have foreign : ∀ synthetic ∈ reverseLookups (fun _ => []) victimReply,
      synthetic.questions ≠ victimReply.questions := by decide +kernel
  rintro (⟨other, made, now, member, _, asks⟩ |
    ⟨other, made, now, synthetic, member, listed, same, _⟩)
  · rw [(of_mem_exchange member).1] at asks
    exact asks
  · rw [(of_mem_exchange member).2] at listed
    exact foreign synthetic listed (congrArg Message.questions same).symm

end Gonnect.Dns
