import Mathlib.Data.List.Nodup

/-!
# A bounded table of leases in the order of their last use

A lease gives a key to an owner until a time. The table lists the leases from the least to
the most recently used one. Using a key moves its lease to the end, and a new lease is put
there; when the table is full the lease at its front makes room. With one timeout for all
leases and a clock that does not go back, the expired leases are at the front.
-/

namespace Gonnect

open List

variable {Key Owner : Type}

structure Lease (Key Owner : Type) where
  key : Key
  owner : Owner
  expires : ℕ
deriving DecidableEq

/-- Leases, the least recently used one first. -/
abbrev RecencyTable (Key Owner : Type) := List (Lease Key Owner)

namespace RecencyTable

variable (table : RecencyTable Key Owner)

def live (now : ℕ) : RecencyTable Key Owner :=
  table.filter fun lease => now < lease.expires

def release [DecidableEq Owner] (owner : Owner) : RecencyTable Key Owner :=
  table.filter fun lease => lease.owner ≠ owner

def put (limit : ℕ) (lease : Lease Key Owner) : RecencyTable Key Owner :=
  (if table.length < limit then table else table.drop 1) ++ [lease]

section Keys

variable [DecidableEq Key]

def find (key : Key) : Option (Lease Key Owner) :=
  table.find? fun lease => lease.key = key

def use (lease : Lease Key Owner) : RecencyTable Key Owner :=
  (table.filter fun other => other.key ≠ lease.key) ++ [lease]

end Keys

/-- What holds of a table at a time: one lease for a key, in the order of expiry. -/
structure Sound (limit timeout now : ℕ) (table : RecencyTable Key Owner) : Prop where
  distinct : (table.map Lease.key).Nodup
  sorted : table.Pairwise fun earlier later => earlier.expires ≤ later.expires
  bounded : ∀ lease ∈ table, lease.expires ≤ now + timeout
  size : table.length ≤ limit

namespace Sound

variable {limit timeout now : ℕ} {table}

theorem nil : Sound limit timeout now ([] : RecencyTable Key Owner) where
  distinct := nodup_nil
  sorted := Pairwise.nil
  bounded := by simp
  size := Nat.zero_le _

section

variable (sound : Sound limit timeout now table)

include sound

theorem later {next : ℕ} (passed : now ≤ next) : Sound limit timeout next table where
  distinct := sound.distinct
  sorted := sound.sorted
  bounded lease isMember := by
    have bound := sound.bounded lease isMember
    omega
  size := sound.size

theorem sublist {part : RecencyTable Key Owner} (isPart : part.Sublist table) :
    Sound limit timeout now part where
  distinct := sound.distinct.sublist (isPart.map _)
  sorted := sound.sorted.sublist isPart
  bounded lease isMember := sound.bounded lease (isPart.subset isMember)
  size := Nat.le_trans isPart.length_le sound.size

theorem live (time : ℕ) : Sound limit timeout now (table.live time) :=
  sound.sublist filter_sublist

theorem release [DecidableEq Owner] (owner : Owner) :
    Sound limit timeout now (table.release owner) :=
  sound.sublist filter_sublist

variable {lease : Lease Key Owner}

theorem append (fresh : lease.key ∉ table.map Lease.key) (isLatest : lease.expires = now + timeout)
    (room : table.length < limit) : Sound limit timeout now (table ++ [lease]) where
  distinct := by
    rw [map_append, map_singleton]
    exact nodup_append.mpr ⟨sound.distinct, nodup_singleton _, by
      intro key isKey other isOther same
      rw [mem_singleton] at isOther
      exact fresh (isOther ▸ same ▸ isKey)⟩
  sorted := by
    rw [pairwise_append]
    refine ⟨sound.sorted, pairwise_singleton _ _, ?_⟩
    intro earlier isMember later isLater
    rw [mem_singleton] at isLater
    rw [isLater, isLatest]
    exact sound.bounded earlier isMember
  bounded other isMember := by
    rcases mem_append.mp isMember with isOld | isNew
    · exact sound.bounded other isOld
    · exact Nat.le_of_eq (mem_singleton.mp isNew ▸ isLatest)
  size := by
    rw [length_append, length_singleton]
    omega

theorem put (fresh : lease.key ∉ table.map Lease.key) (isLatest : lease.expires = now + timeout)
    (positive : 0 < limit) : Sound limit timeout now (table.put limit lease) := by
  unfold RecencyTable.put
  by_cases room : table.length < limit
  · rw [if_pos room]
    exact sound.append fresh isLatest room
  · rw [if_neg room]
    have isPart : (table.drop 1).Sublist table := drop_sublist 1 table
    refine (sound.sublist isPart).append ?_ isLatest ?_
    · exact fun isKey => fresh ((isPart.map _).subset isKey)
    · have bound := sound.size
      rw [length_drop]
      omega

end

end Sound

variable {lease : Lease Key Owner} {table : RecencyTable Key Owner}

theorem live_cons_of_lt {now : ℕ}
    (sorted : (lease :: table).Pairwise fun earlier later => earlier.expires ≤ later.expires)
    (isLive : now < lease.expires) : live (lease :: table) now = lease :: table := by
  rw [live, filter_eq_self]
  intro other isMember
  rcases mem_cons.mp isMember with rfl | isLater
  · simpa using isLive
  · have order := (pairwise_cons.mp sorted).1 other isLater
    simp only [decide_eq_true_eq]
    omega

theorem live_cons_of_le {now : ℕ} (isOver : lease.expires ≤ now) :
    live (lease :: table) now = live table now := by
  rw [live, filter_cons_of_neg]
  · rfl
  · simpa using isOver

section Keys

variable [DecidableEq Key] {limit timeout now : ℕ} {key : Key} {front back : RecencyTable Key Owner}
    {lease renewed : Lease Key Owner}

theorem find_eq_none_iff : table.find key = none ↔ key ∉ table.map Lease.key := by
  simp [find]

theorem find_split (found : table.find key = some lease) :
    lease.key = key ∧ ∃ front back, table = front ++ lease :: back := by
  have isMember := mem_of_find?_eq_some found
  have isKey := find?_some found
  exact ⟨by simpa using isKey, append_of_mem isMember⟩

theorem find_of_split (distinct : ((front ++ lease :: back).map Lease.key).Nodup) :
    find (front ++ lease :: back) lease.key = some lease := by
  rw [map_append, map_cons, nodup_append] at distinct
  rw [find, find?_append, find?_eq_none.mpr, Option.none_or, find?_cons_of_pos]
  · simp
  · intro other isFront
    have different := distinct.2.2 other.key (mem_map_of_mem isFront) lease.key (by simp)
    simpa using different

theorem use_split (distinct : ((front ++ lease :: back).map Lease.key).Nodup)
    (sameKey : renewed.key = lease.key) :
    use (front ++ lease :: back) renewed = front ++ back ++ [renewed] := by
  rw [map_append, map_cons, nodup_append, nodup_cons] at distinct
  have keepsFront : front.filter (fun other => other.key ≠ lease.key) = front := by
    rw [filter_eq_self]
    intro other isFront
    have different := distinct.2.2 other.key (mem_map_of_mem isFront) lease.key (by simp)
    simpa using different
  have keepsBack : back.filter (fun other => other.key ≠ lease.key) = back := by
    rw [filter_eq_self]
    intro other isBack
    have different : other.key ≠ lease.key :=
      fun same => distinct.2.1.1 (same ▸ mem_map_of_mem isBack)
    simpa using different
  rw [use, sameKey, filter_append, keepsFront, filter_cons_of_neg (by simp), keepsBack]

theorem Sound.use (sound : Sound limit timeout now table)
    (found : table.find renewed.key = some lease) (isLatest : renewed.expires = now + timeout) :
    Sound limit timeout now (table.use renewed) := by
  rcases find_split found with ⟨sameKey, front, back, rfl⟩
  have distinct := sound.distinct
  rw [use_split distinct sameKey.symm]
  have isPart : (front ++ back).Sublist (front ++ lease :: back) :=
    Sublist.append_left (sublist_cons_self _ _) _
  refine (sound.sublist isPart).append ?_ isLatest ?_
  · rw [map_append, map_cons] at distinct
    rw [map_append, ← sameKey]
    intro isKey
    have permuted := distinct.perm perm_middle
    rw [← map_append] at permuted
    exact (nodup_cons.mp permuted).1 (by rwa [map_append])
  · have bound := sound.size
    simp only [length_append, length_cons] at bound ⊢
    omega

end Keys

end RecencyTable

end Gonnect
