import Mathlib

/-!
# A bounded cache with expiring entries

A cache maps keys to values with a time of expiry; a lookup first tries the entry that was
stored last. A store that makes the map larger than its bound drops the expired entries and,
if that is not enough, others in any order, down to half of the bound.

If every stored value is right for its key, every answer is: `Holds` is kept by all
operations, whatever the clock says and whichever entries are dropped.
-/

namespace Gonnect

open List

universe u v

variable {Key : Type u} {Value : Type v}

structure CacheEntry (Value : Type v) where
  value : Value
  expires : ℤ
deriving DecidableEq

/-- The order in which a map is walked: all of its entries, in any order. -/
structure WalkOrder (α : Type u) where
  walk : List α → List α
  perm : ∀ entries, (walk entries).Perm entries

instance {α : Type u} : Inhabited (WalkOrder α) :=
  ⟨id, fun _ => .refl _⟩

structure ExpiringCache (Key : Type u) (Value : Type v) where
  ttl : ℤ
  maxEntries : ℕ
  entries : List (Key × CacheEntry Value)
  last : Option (Key × CacheEntry Value)
  distinct : (entries.map Prod.fst).Nodup

namespace ExpiringCache

variable [DecidableEq Key]

def wrap64 (value : ℤ) : ℤ :=
  Int.bmod value (2 ^ 64)

def eraseKey (key : Key) (entries : List (Key × CacheEntry Value)) :
    List (Key × CacheEntry Value) :=
  entries.filter fun entry => entry.1 ≠ key

theorem eraseKey_sublist (key : Key) (entries : List (Key × CacheEntry Value)) :
    (eraseKey key entries).Sublist entries :=
  filter_sublist

variable {entries : List (Key × CacheEntry Value)} {cache : ExpiringCache Key Value}
  {key : Key} {now : ℤ}

theorem mem_eraseKey {entry : Key × CacheEntry Value} :
    entry ∈ eraseKey key entries ↔ entry ∈ entries ∧ entry.1 ≠ key := by
  simp [eraseKey]

def shed (target : ℕ) :
    List (Key × CacheEntry Value) → List (Key × CacheEntry Value) → List (Key × CacheEntry Value)
  | [], entries => entries
  | walked :: rest, entries =>
    let remaining := eraseKey walked.1 entries
    if remaining.length ≤ target then remaining else shed target rest remaining

theorem shed_sublist (target : ℕ) (walked entries : List (Key × CacheEntry Value)) :
    (shed target walked entries).Sublist entries := by
  induction walked generalizing entries with
  | nil => exact Sublist.refl _
  | cons first rest ih =>
    simp only [shed]
    split_ifs with small
    · exact eraseKey_sublist _ _
    · exact (ih _).trans (eraseKey_sublist _ _)

theorem length_shed_le {target : ℕ} {walked : List (Key × CacheEntry Value)}
    (covered : ∀ entry ∈ entries, entry ∈ walked) :
    (shed target walked entries).length ≤ target := by
  induction walked generalizing entries with
  | nil =>
    have empty : entries = [] := eq_nil_iff_forall_not_mem.mpr fun entry member => by
      simpa using covered entry member
    simp [shed, empty]
  | cons first rest ih =>
    simp only [shed]
    split_ifs with small
    · exact small
    · apply ih
      intro entry member
      rcases mem_eraseKey.mp member with ⟨kept, other⟩
      rcases mem_cons.mp (covered entry kept) with rfl | later
      · exact absurd rfl other
      · exact later

def liveEntries (now : ℤ) (entries : List (Key × CacheEntry Value)) :
    List (Key × CacheEntry Value) :=
  entries.filter fun entry => now < entry.2.expires

def prune (order : WalkOrder (Key × CacheEntry Value)) (maxEntries : ℕ) (now : ℤ)
    (entries : List (Key × CacheEntry Value)) : List (Key × CacheEntry Value) :=
  let live := liveEntries now entries
  if live.length ≤ maxEntries then
    live
  else
    let target := if maxEntries / 2 < 1 then maxEntries else maxEntries / 2
    shed target (order.walk live) live

variable (order : WalkOrder (Key × CacheEntry Value)) (maxEntries : ℕ) (ttl : ℤ)

theorem prune_sublist (now : ℤ) (entries : List (Key × CacheEntry Value)) :
    (prune order maxEntries now entries).Sublist entries := by
  have live : (liveEntries now entries).Sublist entries := filter_sublist
  unfold prune
  dsimp only
  split_ifs
  · exact live
  · exact (shed_sublist _ _ _).trans live
  · exact (shed_sublist _ _ _).trans live

theorem length_prune_le (now : ℤ) (entries : List (Key × CacheEntry Value)) :
    (prune order maxEntries now entries).length ≤ maxEntries := by
  have covered : ∀ entry ∈ liveEntries now entries,
      entry ∈ order.walk (liveEntries now entries) :=
    fun entry member => (order.perm _).mem_iff.mpr member
  unfold prune
  dsimp only
  split_ifs with small tiny
  · exact small
  · exact length_shed_le covered
  · exact Nat.le_trans (length_shed_le covered) (Nat.div_le_self _ _)

def get (cache : ExpiringCache Key Value) (key : Key) (now : ℤ) :
    Option Value × ExpiringCache Key Value :=
  match cache.last.filter fun last => last.1 = key ∧ now < last.2.expires with
  | some last => (some last.2.value, cache)
  | none =>
    match cache.entries.find? fun entry => entry.1 = key with
    | none => (none, cache)
    | some entry =>
      if now ≥ entry.2.expires then
        (none, { cache with
            entries := eraseKey key cache.entries
            last := cache.last.filter fun last => last.1 ≠ key
            distinct := cache.distinct.sublist ((eraseKey_sublist _ _).map _) })
      else
        (some entry.2.value, cache)

theorem nodup_insert {entry : CacheEntry Value} (distinct : (entries.map Prod.fst).Nodup) :
    (((key, entry) :: eraseKey key entries).map Prod.fst).Nodup := by
  rw [map_cons, nodup_cons]
  refine ⟨?_, distinct.sublist ((eraseKey_sublist _ _).map _)⟩
  intro present
  rcases mem_map.mp present with ⟨other, member, same⟩
  exact (mem_eraseKey.mp member).2 same

def set (order : WalkOrder (Key × CacheEntry Value)) (cache : ExpiringCache Key Value) (key : Key)
    (value : Value) (now : ℤ) : ExpiringCache Key Value :=
  let entry : CacheEntry Value := ⟨value, wrap64 (now + cache.ttl)⟩
  let entries := (key, entry) :: eraseKey key cache.entries
  if entries.length > cache.maxEntries then
    { cache with
      entries := prune order cache.maxEntries now entries
      last := some (key, entry)
      distinct := (nodup_insert cache.distinct).sublist ((prune_sublist _ _ _ _).map _) }
  else
    { cache with
      entries := entries
      last := some (key, entry)
      distinct := nodup_insert cache.distinct }

def empty (maxEntries : ℕ) : ExpiringCache Key Value where
  ttl := ttl
  maxEntries := maxEntries
  entries := []
  last := none
  distinct := nodup_nil

/-- Every entry in the cache, the last one included, is as wanted for its key. -/
structure HoldsEntry (wanted : Key → CacheEntry Value → Prop) (cache : ExpiringCache Key Value) :
    Prop where
  entries : ∀ entry ∈ cache.entries, wanted entry.1 entry.2
  last : ∀ entry ∈ cache.last, wanted entry.1 entry.2

section Entries

variable {wanted : Key → CacheEntry Value → Prop}

omit [DecidableEq Key] in
theorem holdsEntry_empty (ttl : ℤ) (maxEntries : ℕ) :
    HoldsEntry wanted (empty ttl maxEntries : ExpiringCache Key Value) :=
  ⟨by simp [empty], by simp [empty]⟩

theorem HoldsEntry.get {cache : ExpiringCache Key Value} (holds : cache.HoldsEntry wanted)
    (key : Key) (now : ℤ) :
    (∀ value ∈ (cache.get key now).1, ∃ expires, now < expires ∧ wanted key ⟨value, expires⟩) ∧
      (cache.get key now).2.HoldsEntry wanted := by
  unfold ExpiringCache.get
  split
  · rename_i last found
    rcases Option.filter_eq_some_iff.mp found with ⟨stored, test⟩
    rcases of_decide_eq_true test with ⟨rfl, live⟩
    refine ⟨?_, holds⟩
    rintro value ⟨⟩
    exact ⟨_, live, holds.last last stored⟩
  · split
    · exact ⟨by simp, holds⟩
    · rename_i entry found
      obtain rfl : entry.1 = key := by simpa using find?_some found
      split_ifs with stale
      · refine ⟨by simp, ?_, ?_⟩
        · intro other member
          exact holds.entries other (mem_eraseKey.mp member).1
        · intro other member
          exact holds.last other (Option.filter_eq_some_iff.mp member).1
      · refine ⟨?_, holds⟩
        rintro value ⟨⟩
        exact ⟨_, Int.lt_of_not_ge stale, holds.entries entry (mem_of_find?_eq_some found)⟩

theorem HoldsEntry.set {cache : ExpiringCache Key Value} (holds : cache.HoldsEntry wanted)
    (order : WalkOrder (Key × CacheEntry Value)) {key : Key} {value : Value} {now : ℤ}
    (correct : wanted key ⟨value, wrap64 (now + cache.ttl)⟩) :
    (cache.set order key value now).HoldsEntry wanted := by
  have inserted : ∀ entry ∈ (key, (⟨value, wrap64 (now + cache.ttl)⟩ : CacheEntry Value)) ::
      eraseKey key cache.entries, wanted entry.1 entry.2 := by
    intro entry member
    rcases mem_cons.mp member with rfl | kept
    · exact correct
    · exact holds.entries entry (mem_eraseKey.mp kept).1
  unfold ExpiringCache.set
  dsimp only
  split_ifs with large
  · refine ⟨?_, by rintro entry ⟨⟩; exact correct⟩
    intro entry member
    exact inserted entry ((prune_sublist _ _ _ _).subset member)
  · exact ⟨inserted, by rintro entry ⟨⟩; exact correct⟩

end Entries

/-- Every value in the cache, the last one included, is right for its key. -/
structure Holds (right : Key → Value → Prop) (cache : ExpiringCache Key Value) : Prop where
  entries : ∀ entry ∈ cache.entries, right entry.1 entry.2.value
  last : ∀ entry ∈ cache.last, right entry.1 entry.2.value

variable {right : Key → Value → Prop}

omit [DecidableEq Key] in
theorem holds_iff {cache : ExpiringCache Key Value} :
    cache.Holds right ↔ cache.HoldsEntry fun key entry => right key entry.value :=
  ⟨fun holds => ⟨holds.entries, holds.last⟩, fun holds => ⟨holds.entries, holds.last⟩⟩

omit [DecidableEq Key] in
theorem holds_empty (maxEntries : ℕ) :
    Holds right (empty ttl maxEntries : ExpiringCache Key Value) :=
  holds_iff.mpr (holdsEntry_empty ttl maxEntries)

theorem Holds.get (holds : cache.Holds right) (key : Key) (now : ℤ) :
    (∀ value ∈ (cache.get key now).1, right key value) ∧ (cache.get key now).2.Holds right := by
  rcases (holds_iff.mp holds).get key now with ⟨answers, kept⟩
  refine ⟨?_, holds_iff.mpr kept⟩
  intro value found
  rcases answers value found with ⟨_, _, correct⟩
  exact correct

variable {value : Value} {limit : ℕ}

theorem Holds.set (holds : cache.Holds right) (order : WalkOrder (Key × CacheEntry Value))
    (correct : right key value) (now : ℤ) : (cache.set order key value now).Holds right :=
  holds_iff.mpr ((holds_iff.mp holds).set order correct)

section

variable (cache) (order : WalkOrder (Key × CacheEntry Value)) (key : Key) (value : Value) (now : ℤ)

theorem length_set_le :
    (cache.set order key value now).entries.length ≤ cache.maxEntries := by
  unfold set
  dsimp only
  split_ifs with large
  · exact length_prune_le _ _ _ _
  · exact Nat.le_of_not_lt large

theorem length_get_le :
    (cache.get key now).2.entries.length ≤ cache.entries.length := by
  unfold get
  split
  · exact Nat.le_refl _
  · split
    · exact Nat.le_refl _
    · split_ifs
      · exact (eraseKey_sublist _ _).length_le
      · exact Nat.le_refl _

@[simp] theorem maxEntries_set : (cache.set order key value now).maxEntries = cache.maxEntries := by
  unfold set
  dsimp only
  split_ifs <;> rfl

@[simp] theorem maxEntries_get : (cache.get key now).2.maxEntries = cache.maxEntries := by
  unfold get
  split
  · rfl
  · split
    · rfl
    · split_ifs <;> rfl

end

structure Sound (right : Key → Value → Prop) (limit : ℕ) (cache : ExpiringCache Key Value) :
    Prop where
  holds : cache.Holds right
  configured : cache.maxEntries = limit
  bounded : cache.entries.length ≤ limit

omit [DecidableEq Key] in
theorem sound_empty (maxEntries : ℕ) :
    Sound right maxEntries (empty ttl maxEntries : ExpiringCache Key Value) :=
  ⟨holds_empty ttl maxEntries, rfl, Nat.zero_le _⟩

theorem Sound.get (sound : cache.Sound right limit) (key : Key) (now : ℤ) :
    (cache.get key now).2.Sound right limit :=
  ⟨(sound.holds.get key now).2, (maxEntries_get cache key now).trans sound.configured,
    Nat.le_trans (length_get_le cache key now) sound.bounded⟩

theorem Sound.set (sound : cache.Sound right limit) (order : WalkOrder (Key × CacheEntry Value))
    (correct : right key value) (now : ℤ) : (cache.set order key value now).Sound right limit :=
  ⟨sound.holds.set order correct now,
    (maxEntries_set cache order key value now).trans sound.configured,
    sound.configured ▸ length_set_le cache order key value now⟩

end ExpiringCache

end Gonnect
