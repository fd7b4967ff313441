import Gonnect.Dns.Message
import Gonnect.Foundation.Run
import Mathlib.Data.Int.Notation
import Mathlib.Logic.Function.Basic
import Mathlib.Tactic.ByContra
import Mathlib.Tactic.SplitIfs

/-!
# The message store of the DNS cache

A store keeps successful responses under a key until the smallest TTL of the answers has
elapsed. The loop that finds it takes zero for "nothing yet", so a record with TTL zero makes
it forget the records before. Unless that record is the last one, the message is stored, and
is handed out although one of its records has expired.

Times are nanoseconds from Go's zero time. An expiry at this very moment counts as no expiry
at all.
-/

namespace Gonnect.Dns

open List Option Function Resource

variable (ttls : List UInt32) (events : List StorageEvent)

def minTTLLoop (ttl : UInt32) : UInt32 :=
  ttls.foldl (fun ttl next => if ttl = 0 ∨ next < ttl then next else ttl) ttl

def minTTL (msg : Message) : UInt32 :=
  minTTLLoop (msg.answers.map ttl) 0

/-- `time.Duration(ttl) * time.Second`, which fits into 64 bits. -/
def seconds (ttl : UInt32) : ℤ :=
  ttl.toNat * 1000000000

/-- `cacheEntry` -/
structure StoredMessage where
  msg : Message
  expire : ℤ

structure MemoryStorage where
  stored : Text → Option StoredMessage

namespace MemoryStorage

def new : MemoryStorage :=
  ⟨fun _ => none⟩

variable (storage : MemoryStorage)

variable (key : Text)

def delete : MemoryStorage :=
  ⟨update storage.stored key none⟩

def get (now : ℤ) : Option Message × MemoryStorage :=
  match storage.stored key with
  | none => (none, storage)
  | some entry =>
    if entry.expire ≠ 0 ∧ entry.expire ≤ now then
      (none, storage.delete key)
    else
      (some entry.msg, storage)

def setKey (msg : Message) : Text :=
  if key = [] then cacheKey msg else key

def set (msg : Option Message) (now : ℤ) : MemoryStorage :=
  match msg with
  | none => storage
  | some msg =>
    if msg.response = false ∨ msg.rcode ≠ rcodeSuccess then
      storage
    else if minTTL msg = 0 then
      storage
    else
      ⟨update storage.stored (setKey key msg)
        (some ⟨msg, now + seconds (minTTL msg)⟩)⟩

end MemoryStorage

inductive StorageEvent where
  | get (key : Text) (now : ℤ) (answer : Option Message)
  | set (key : Text) (msg : Option Message) (now : ℤ)
  | delete (key : Text)

namespace StorageEvent

def time : StorageEvent → Option ℤ
  | get _ now _ => some now
  | set _ _ now => some now
  | delete _ => none

end StorageEvent

inductive MemoryStorage.Step : MemoryStorage → StorageEvent → MemoryStorage → Prop
  | get (storage : MemoryStorage) (key : Text) (now : ℤ) :
      Step storage (.get key now (storage.get key now).1) (storage.get key now).2
  | set (storage : MemoryStorage) (key : Text) (msg : Option Message) (now : ℤ) :
      Step storage (.set key msg now) (storage.set key msg now)
  | delete (storage : MemoryStorage) (key : Text) :
      Step storage (.delete key) (storage.delete key)

def NondecreasingClock : Prop :=
  (events.filterMap StorageEvent.time).Pairwise (· ≤ ·)

open MemoryStorage

/-- Every answer was stored before, at a time from which on no TTL of it has elapsed. -/
def Timely : Prop :=
  ∀ past key now msg later, events = past ++ .get key now (some msg) :: later →
    ∃ setKey stored, .set setKey (some msg) stored ∈ past ∧
      MemoryStorage.setKey setKey msg = key ∧
        ∀ answer ∈ msg.answers, now < stored + seconds answer.ttl

/--
A call of `Set` that keeps its message no longer than the records live: the message is not stored,
or no answer has TTL zero and the expiry is not taken for no expiry.
-/
def SetInTime (msg : Message) (now : ℤ) : Prop :=
  msg.response = true → msg.rcode = rcodeSuccess →
    (∀ last ∈ msg.answers.getLast?, last.ttl = 0) ∨
      (∀ answer ∈ msg.answers, answer.ttl ≠ 0) ∧
        ∀ answer ∈ msg.answers, (∀ other ∈ msg.answers, answer.ttl ≤ other.ttl) →
          now + seconds answer.ttl ≠ 0

theorem minTTLLoop_concat (last ttl : UInt32) :
    minTTLLoop (ttls ++ [last]) ttl =
      if minTTLLoop ttls ttl = 0 ∨ last < minTTLLoop ttls ttl then last
      else minTTLLoop ttls ttl := by
  rw [minTTLLoop, foldl_append]
  rfl

theorem minTTLLoop_eq_zero_iff : minTTLLoop ttls 0 = 0 ↔ ∀ last ∈ ttls.getLast?, last = 0 := by
  rcases eq_nil_or_concat ttls with rfl | ⟨front, last, rfl⟩
  · simp [minTTLLoop]
  · rw [concat_eq_append, minTTLLoop_concat]
    simp only [getLast?_append, getLast?_singleton, some_or, mem_some_iff,
      forall_eq']
    split_ifs with taken
    · rfl
    · rw [not_or] at taken
      constructor
      · intro zero
        exact absurd zero taken.1
      · rintro rfl
        exact absurd (UInt32.pos_iff_ne_zero.mpr taken.1) taken.2

variable {ttl : UInt32} {msg : Message} {now : ℤ}

theorem minTTLLoop_spec {ttls : List UInt32} (nonzero : ttl ≠ 0)
    (noZero : ∀ next ∈ ttls, next ≠ 0) :
    minTTLLoop ttls ttl ∈ ttl :: ttls ∧ ∀ next ∈ ttl :: ttls, minTTLLoop ttls ttl ≤ next := by
  induction ttls generalizing ttl with
  | nil => simp [minTTLLoop]
  | cons first rest ih =>
    rcases forall_mem_cons.mp noZero with ⟨firstNonzero, restNonzero⟩
    have stepped : minTTLLoop (first :: rest) ttl =
        minTTLLoop rest (if first < ttl then first else ttl) := by
      simp [minTTLLoop, nonzero]
    rw [stepped]
    split_ifs with smaller
    · rcases ih firstNonzero restNonzero with ⟨member, least⟩
      refine ⟨mem_cons_of_mem _ member, ?_⟩
      intro next listed
      rcases mem_cons.mp listed with rfl | later
      · exact UInt32.le_trans (least first mem_cons_self) (UInt32.le_of_lt smaller)
      · exact least next later
    · rcases ih nonzero restNonzero with ⟨member, least⟩
      refine ⟨?_, ?_⟩
      · rcases mem_cons.mp member with same | later
        · exact mem_cons.mpr (.inl same)
        · exact mem_cons_of_mem _ (mem_cons_of_mem _ later)
      · intro next listed
        rcases mem_cons.mp listed with rfl | later
        · exact least next mem_cons_self
        · rcases mem_cons.mp later with rfl | last
          · exact UInt32.le_trans (least ttl mem_cons_self) (UInt32.not_lt.mp smaller)
          · exact least next (mem_cons_of_mem _ last)

theorem exists_minTTL (some : msg.answers ≠ []) (noZero : ∀ answer ∈ msg.answers, answer.ttl ≠ 0) :
    ∃ answer ∈ msg.answers, minTTL msg = answer.ttl ∧
      ∀ other ∈ msg.answers, answer.ttl ≤ other.ttl := by
  cases listed : msg.answers with
  | nil => exact absurd listed some
  | cons first rest =>
    rw [listed] at noZero
    rcases forall_mem_cons.mp noZero with ⟨firstNonzero, restNonzero⟩
    have stepped : minTTL msg = minTTLLoop (rest.map ttl) first.ttl := by
      simp [minTTL, minTTLLoop, listed]
    have spec : minTTLLoop (rest.map ttl) first.ttl ∈
          first.ttl :: rest.map ttl ∧
        ∀ next ∈ first.ttl :: rest.map ttl,
          minTTLLoop (rest.map ttl) first.ttl ≤ next :=
      minTTLLoop_spec firstNonzero (by simpa using restNonzero)
    rw [← stepped, ← map_cons] at spec
    rcases spec with ⟨member, least⟩
    rcases mem_map.mp member with ⟨answer, present, same⟩
    refine ⟨answer, present, same.symm, ?_⟩
    intro other otherPresent
    rw [same]
    exact least _ (mem_map_of_mem otherPresent)

theorem seconds_le {other : UInt32} (le : ttl ≤ other) : seconds ttl ≤ seconds other := by
  have nat := UInt32.le_iff_toNat_le.mp le
  unfold seconds
  omega

theorem seconds_nonneg (ttl : UInt32) : 0 ≤ seconds ttl := by
  unfold seconds
  omega

theorem seconds_pos (nonzero : ttl ≠ 0) : 0 < seconds ttl := by
  have nat : ttl.toNat ≠ 0 := fun zero => nonzero (UInt32.toNat_inj.mp zero)
  unfold seconds
  omega

theorem seconds_zero : seconds 0 = 0 :=
  rfl

def StoredBy (history : List StorageEvent) (key : Text) (entry : StoredMessage) : Prop :=
  ∃ setKey now, .set setKey (some entry.msg) now ∈ history ∧
    MemoryStorage.setKey setKey entry.msg = key ∧ entry.msg.response = true ∧
      entry.msg.rcode = rcodeSuccess ∧ minTTL entry.msg ≠ 0 ∧
        entry.expire = now + seconds (minTTL entry.msg)

def Recorded (history : List StorageEvent) (storage : MemoryStorage) : Prop :=
  ∀ key, ∀ entry ∈ storage.stored key, StoredBy history key entry

namespace Recorded

variable {history : List StorageEvent} {storage : MemoryStorage}

section

variable (recorded : Recorded history storage)

include recorded

theorem mono (later : List StorageEvent) : Recorded (history ++ later) storage := by
  intro key entry present
  rcases recorded key entry present with ⟨setKey, now, member, rest⟩
  exact ⟨setKey, now, mem_append_left _ member, rest⟩

theorem delete (key : Text) : Recorded history (storage.delete key) := by
  intro other entry present
  by_cases same : other = key
  · subst same
    simp [MemoryStorage.delete] at present
  · simp only [MemoryStorage.delete, update_of_ne same] at present
    exact recorded other entry present

theorem get (key : Text) (now : ℤ) : Recorded history (storage.get key now).2 := by
  unfold MemoryStorage.get
  split
  · exact recorded
  · split_ifs
    · exact recorded.delete key
    · exact recorded

theorem set (key : Text) (msg : Option Message) (now : ℤ) :
    Recorded (history ++ [.set key msg now]) (storage.set key msg now) := by
  unfold MemoryStorage.set
  split
  · exact recorded.mono _
  · rename_i msg
    split_ifs with refused zero
    · exact recorded.mono _
    · exact recorded.mono _
    · rw [not_or, Bool.not_eq_false, not_not] at refused
      intro other entry present
      by_cases same : other = setKey key msg
      · subst same
        simp only [update_self, mem_some_iff] at present
        subst present
        exact ⟨key, now, by simp, rfl, refused.1, refused.2, zero, rfl⟩
      · simp only [update_of_ne same] at present
        exact recorded.mono _ other entry present

theorem step {event : StorageEvent} {after : MemoryStorage}
    (taken : Step storage event after) : Recorded (history ++ [event]) after := by
  cases taken with
  | get key now => exact (recorded.get key now).mono _
  | set key msg now => exact recorded.set key msg now
  | delete key => exact (recorded.delete key).mono _

end

end Recorded

theorem MemoryStorage.recorded_of_run {events : List StorageEvent} {finish : MemoryStorage}
    (run : Run Step .new events finish) : Recorded events finish := by
  refine run.history_invariant ?_ ?_
  · simp [Recorded, new]
  · intro history before event after recorded taken
    exact recorded.step taken

variable {key : Text} {later : ℤ}

theorem StoredBy.in_time {history : List StorageEvent} {entry : StoredMessage}
    (stored : StoredBy history key entry)
    (inTime : ∀ setKey set, .set setKey (some entry.msg) set ∈ history → SetInTime entry.msg set)
    (live : ¬(entry.expire ≠ 0 ∧ entry.expire ≤ now)) :
    ∃ setKey set, .set setKey (some entry.msg) set ∈ history ∧
      MemoryStorage.setKey setKey entry.msg = key ∧
        ∀ answer ∈ entry.msg.answers, now < set + seconds answer.ttl := by
  rcases stored with ⟨setKey, set, member, keyed, response, success, nonzero, expires⟩
  refine ⟨setKey, set, member, keyed, ?_⟩
  have notLast : ¬∀ last ∈ entry.msg.answers.getLast?, last.ttl = 0 := by
    intro zero
    refine nonzero ((minTTLLoop_eq_zero_iff _).mpr ?_)
    simpa using zero
  rcases (inTime setKey set member response success).resolve_left notLast with ⟨noZero, moment⟩
  have some : entry.msg.answers ≠ [] := by
    intro none
    simp [none] at notLast
  rcases exists_minTTL some noZero with ⟨smallest, present, same, least⟩
  have notZero := moment smallest present least
  intro answer listed
  have bounded := seconds_le (least answer listed)
  rw [same] at expires
  omega

theorem MemoryStorage.get_set_self (storage : MemoryStorage) (key : Text)
    (response : msg.response = true) (success : msg.rcode = rcodeSuccess) (nonzero : minTTL msg ≠ 0)
    (live : ¬(now + seconds (minTTL msg) ≠ 0 ∧ now + seconds (minTTL msg) ≤ later)) :
    ((storage.set key (some msg) now).get (setKey key msg) later).1 = some msg := by
  have stored : (storage.set key (some msg) now).stored (setKey key msg) =
      some ⟨msg, now + seconds (minTTL msg)⟩ := by
    simp [set, response, success, nonzero]
  unfold get
  rw [stored]
  dsimp only
  rw [if_neg live]

theorem MemoryStorage.get_of_step (storage : MemoryStorage) {after : MemoryStorage}
    (taken : Step storage (.get key now (some msg)) after) :
    ∃ entry, storage.stored key = some entry ∧ entry.msg = msg ∧
      ¬(entry.expire ≠ 0 ∧ entry.expire ≤ now) := by
  have answered : (storage.get key now).1 = some msg := by
    generalize listed : StorageEvent.get key now (some msg) = event at taken
    cases taken with
    | get otherKey otherNow =>
      rcases StorageEvent.get.inj listed with ⟨rfl, rfl, answered⟩
      exact answered.symm
    | set | delete => cases listed
  unfold get at answered
  split at answered
  · cases answered
  · rename_i entry stored
    by_cases expired : entry.expire ≠ 0 ∧ entry.expire ≤ now
    · rw [if_pos expired] at answered
      cases answered
    · rw [if_neg expired] at answered
      cases answered
      exact ⟨entry, stored, rfl, expired⟩

theorem Timely.of_set_get (key : Text)
    (timely : ∀ events finish, Run MemoryStorage.Step .new events finish →
      NondecreasingClock events →
        (∀ otherKey other set, .set otherKey (some other) set ∈ events →
          otherKey = key ∧ other = msg ∧ set = now) → Timely events)
    (response : msg.response = true) (success : msg.rcode = rcodeSuccess) (nonzero : minTTL msg ≠ 0)
    (forward : now ≤ later)
    (live : ¬(now + seconds (minTTL msg) ≠ 0 ∧ now + seconds (minTTL msg) ≤ later)) :
    ∀ answer ∈ msg.answers, later < now + seconds answer.ttl := by
  have answered := new.get_set_self key response success nonzero live
  have run := Run.snoc (Run.single (Step.set .new key (some msg) now))
    (Step.get _ (setKey key msg) later)
  rw [answered] at run
  have clock : NondecreasingClock ([.set key (some msg) now] ++
      [.get (setKey key msg) later (some msg)]) := by
    simpa [NondecreasingClock, StorageEvent.time] using forward
  rcases timely _ _ run clock (by simp) [.set key (some msg) now] _ later msg [] rfl with
    ⟨setKey, stored, member, _, inTime⟩
  cases mem_singleton.mp member
  exact inTime

/-- Every run answers in time exactly if its calls of `Set` keep no message too long:
whatever calls are allowed. -/
theorem memoryStorage_timely_iff (allowed : Text → Message → ℤ → Prop) :
    (∀ events finish, Run MemoryStorage.Step .new events finish → NondecreasingClock events →
      (∀ key msg now, .set key (some msg) now ∈ events → allowed key msg now) → Timely events) ↔
    ∀ key msg now, allowed key msg now → SetInTime msg now := by
  constructor
  · intro timely key msg now permitted response success
    by_contra late
    rw [not_or] at late
    rcases late with ⟨notLast, late⟩
    have nonzero : minTTL msg ≠ 0 := by
      intro zero
      refine notLast ?_
      simpa using (minTTLLoop_eq_zero_iff _).mp zero
    have inTime : ∀ later, now ≤ later →
        ¬(now + seconds (minTTL msg) ≠ 0 ∧ now + seconds (minTTL msg) ≤ later) →
          ∀ answer ∈ msg.answers, later < now + seconds answer.ttl := by
      intro later forward live
      refine Timely.of_set_get key ?_ response success nonzero forward live
      intro events finish run clock only
      refine timely events finish run clock ?_
      intro otherKey other set member
      rcases only otherKey other set member with ⟨rfl, rfl, rfl⟩
      exact permitted
    by_cases noZero : ∀ answer ∈ msg.answers, answer.ttl ≠ 0
    · -- The expiry is Go's zero time, so the message never expires.
      have moment : ∃ answer ∈ msg.answers,
          (∀ other ∈ msg.answers, answer.ttl ≤ other.ttl) ∧ now + seconds answer.ttl = 0 := by
        by_contra none
        refine late ⟨noZero, ?_⟩
        intro answer listed least zero
        exact none ⟨answer, listed, least, zero⟩
      rcases moment with ⟨answer, listed, least, zero⟩
      rcases exists_minTTL (ne_nil_of_mem listed) noZero with ⟨smallest, present, same, below⟩
      have equal : minTTL msg = answer.ttl :=
        same.trans (UInt32.le_antisymm (below answer listed) (least smallest present))
      have nonneg := seconds_nonneg answer.ttl
      have expired := inTime 0 (by omega) (by rw [equal]; omega) answer listed
      omega
    · -- One record has TTL zero, and the message is handed out at once.
      have zero : ∃ answer ∈ msg.answers, answer.ttl = 0 := by
        by_contra none
        refine noZero ?_
        intro answer listed vanishes
        exact none ⟨answer, listed, vanishes⟩
      rcases zero with ⟨answer, listed, vanishes⟩
      have positive := seconds_pos nonzero
      have expired := inTime now (Int.le_refl _) (by omega) answer listed
      rw [vanishes, seconds_zero] at expired
      omega
  · intro inTime events finish run _ sets past key now msg later listed
    rcases run.reaches_event listed with ⟨before, after, ran, taken⟩
    rcases before.get_of_step taken with ⟨entry, stored, rfl, live⟩
    refine (recorded_of_run ran key entry stored).in_time ?_ live
    intro setKey set member
    have inEvents : .set setKey (some entry.msg) set ∈ events := by
      rw [listed]
      exact mem_append_left _ member
    exact inTime setKey entry.msg set (sets setKey entry.msg set inEvents)

def zeroTTLMessage : Message where
  response := true
  answers := [⟨bytes "a.", typeA, classIN, 0, [192, 0, 2, 1]⟩,
    ⟨bytes "a.", typeA, classIN, 300, [192, 0, 2, 2]⟩]

/-- The message is handed out 299 seconds after its first record has expired. -/
theorem zeroTTLMessage_handed_out :
    ∃ finish, Run MemoryStorage.Step .new
        ([.set (bytes "a.|1|1") (some zeroTTLMessage) 1] ++
          [.get (bytes "a.|1|1") (1 + 299 * 1000000000) (some zeroTTLMessage)]) finish ∧
      ¬Timely ([.set (bytes "a.|1|1") (some zeroTTLMessage) 1] ++
        [.get (bytes "a.|1|1") (1 + 299 * 1000000000) (some zeroTTLMessage)]) := by
  have nonzero : minTTL zeroTTLMessage = 300 := by decide
  have answered : ((new.set (bytes "a.|1|1") (some zeroTTLMessage) 1).get
      (bytes "a.|1|1") (1 + 299 * 1000000000)).1 = some zeroTTLMessage :=
    new.get_set_self (bytes "a.|1|1") rfl rfl (by decide)
      (by rw [nonzero]; decide)
  have run := Run.snoc
    (Run.single (Step.set .new (bytes "a.|1|1") (some zeroTTLMessage) 1))
    (Step.get _ (bytes "a.|1|1") (1 + 299 * 1000000000))
  refine ⟨_, run, ?_⟩
  intro timely
  rcases timely [.set (bytes "a.|1|1") (some zeroTTLMessage) 1] _ _ zeroTTLMessage [] rfl with
    ⟨setKey, stored, member, _, inTime⟩
  cases mem_singleton.mp member
  exact absurd (inTime _ mem_cons_self) (by decide)

end Gonnect.Dns
