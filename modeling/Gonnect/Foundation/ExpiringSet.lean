import Mathlib.Data.Int.Order.Basic
import Mathlib.Data.List.Induction

/-!
# Sets whose members expire

A table keeps a deadline for each of its keys. Looking a key up after its deadline deletes
it, and every so many records all keys whose deadline has passed are swept away.

When the readings of the clock are in order, a key is found exactly if its latest deadline
has not passed (`look_replay_iff`). Otherwise a sweep can delete a key that a late lookup
would still have found (`look_replay_iff_unswept`).
-/

namespace Gonnect

open List Option

structure ExpiringSet (Key : Type) where
  deadline : Key → Option ℤ
  recorded : ℕ

inductive ExpiringUse (Key : Type) where
  | record (key : Key) (deadline now : ℤ)
  | look (key : Key) (now : ℤ)

namespace ExpiringUse

variable {Key : Type}

def now : ExpiringUse Key → ℤ
  | .record _ _ now => now
  | .look _ now => now

def isRecord : ExpiringUse Key → Bool
  | .record _ _ _ => true
  | .look _ _ => false

/-- The deadline of a key that outlives the use, made after a number of records. -/
def Spares (period count : ℕ) (key : Key) (deadline : ℤ) : ExpiringUse Key → Prop
  | .record other _ now => other ≠ key ∧ ((count + 1) % period = 0 → now ≤ deadline)
  | .look other now => other = key → now ≤ deadline

end ExpiringUse

namespace ExpiringSet

variable {Key : Type} [DecidableEq Key]

def empty : ExpiringSet Key where
  deadline _ := none
  recorded := 0

variable (set : ExpiringSet Key)

def sweep (now : ℤ) : ExpiringSet Key where
  deadline key := (set.deadline key).filter (now ≤ ·)
  recorded := set.recorded

def store (key : Key) (deadline : ℤ) : ExpiringSet Key where
  deadline other := if other = key then some deadline else set.deadline other
  recorded := set.recorded + 1

def delete (key : Key) : ExpiringSet Key where
  deadline other := if other = key then none else set.deadline other
  recorded := set.recorded

def record (period : ℕ) (set : ExpiringSet Key) (key : Key) (deadline now : ℤ) : ExpiringSet Key :=
  if (set.store key deadline).recorded % period = 0 then (set.store key deadline).sweep now
  else set.store key deadline

def look (key : Key) (now : ℤ) : Bool × ExpiringSet Key :=
  match set.deadline key with
  | none => (false, set)
  | some deadline => if now ≤ deadline then (true, set) else (false, set.delete key)

def after (period : ℕ) (set : ExpiringSet Key) : ExpiringUse Key → ExpiringSet Key
  | .record key deadline now => set.record period key deadline now
  | .look key now => (set.look key now).2

def replay (period : ℕ) (uses : List (ExpiringUse Key)) : ExpiringSet Key :=
  uses.foldl (after period) empty

variable (period : ℕ) (uses : List (ExpiringUse Key)) (use : ExpiringUse Key)

theorem replay_concat :
    replay period (uses ++ [use]) = (replay period uses).after period use := by
  rw [replay, foldl_append]
  rfl

theorem look_found_iff (key : Key) (now : ℤ) :
    (set.look key now).1 = true ↔ ∃ deadline, set.deadline key = some deadline ∧ now ≤ deadline := by
  unfold look
  cases set.deadline key with
  | none => simp
  | some deadline => by_cases live : now ≤ deadline <;> simp [live]

open ExpiringUse

theorem recorded_after :
    (set.after period use).recorded = set.recorded + [use].countP isRecord := by
  cases use with
  | record key deadline now =>
    change (set.record period key deadline now).recorded = _
    unfold record
    split_ifs <;> rfl
  | look key now =>
    change (set.look key now).2.recorded = _
    unfold look
    cases set.deadline key with
    | none => rfl
    | some deadline =>
      dsimp only
      split_ifs <;> rfl

theorem recorded_replay : (replay period uses).recorded = uses.countP isRecord := by
  induction uses using reverseRecOn with
  | nil => rfl
  | append_singleton uses use ih =>
    rw [replay_concat, recorded_after, ih, countP_append]

theorem deadline_after_iff (key : Key) (deadline : ℤ) :
    (set.after period use).deadline key = some deadline ↔
      (∃ now, use = .record key deadline now ∧
        ((set.recorded + 1) % period = 0 → now ≤ deadline)) ∨
      set.deadline key = some deadline ∧ use.Spares period set.recorded key deadline := by
  cases use with
  | record other stored now =>
    by_cases same : key = other
    · subst same
      by_cases sweeps : (set.recorded + 1) % period = 0 <;>
        simp [after, record, store, sweep, sweeps, Spares]
    · by_cases sweeps : (set.recorded + 1) % period = 0 <;>
        simp [after, record, store, sweep, sweeps, same, Spares, Ne.symm same,
          filter_eq_some_iff]
  | look other now =>
    cases found : set.deadline other with
    | none =>
      by_cases same : key = other
      · subst same
        simp [after, look, found]
      · simp [after, look, found, Spares, Ne.symm same]
    | some stored =>
      by_cases same : key = other
      · subst same
        by_cases live : now ≤ stored
        · simp only [after, look, found, live, if_true, Spares, reduceCtorEq,
            false_and, exists_false, false_or, some.injEq, forall_const]
          constructor
          · rintro rfl
            exact ⟨rfl, live⟩
          · exact And.left
        · simp only [after, look, found, live, if_false, delete, if_true, Spares,
            reduceCtorEq, false_and, exists_false, false_or, some.injEq, forall_const,
            false_iff]
          rintro ⟨rfl, notLive⟩
          exact live notLive
      · by_cases live : now ≤ stored <;>
          simp [after, look, found, live, delete, same, Spares, Ne.symm same]

theorem look_record (key other : Key) (deadline : ℤ) {stamp now : ℤ} (past : stamp ≤ now) :
    ((set.record period key deadline stamp).look other now).1 =
      if key = other then decide (now ≤ deadline) else (set.look other now).1 := by
  have found := fun live => set.deadline_after_iff period (.record key deadline stamp) other live
  rw [Bool.eq_iff_iff, look_found_iff]
  change (∃ live, (set.after period (.record key deadline stamp)).deadline other = some live ∧
    now ≤ live) ↔ _
  simp only [found, Spares]
  split_ifs with same
  · subst same
    constructor
    · rintro ⟨live, ⟨_, ⟨⟩, _⟩ | ⟨_, another, _⟩, inTime⟩
      · simpa using inTime
      · exact absurd rfl another
    · intro inTime
      have isLive : now ≤ deadline := by simpa using inTime
      exact ⟨deadline, .inl ⟨stamp, rfl, fun _ => Int.le_trans past isLive⟩, isLive⟩
  · rw [look_found_iff]
    constructor
    · rintro ⟨live, ⟨_, ⟨⟩, _⟩ | ⟨old, _⟩, inTime⟩
      · exact absurd rfl same
      · exact ⟨live, old, inTime⟩
    · rintro ⟨live, old, inTime⟩
      exact ⟨live, .inr ⟨old, same, fun _ => Int.le_trans past inTime⟩, inTime⟩

/-- The record of a deadline, and the later uses that the deadline has outlived. -/
structure Kept (period : ℕ) (key : Key) (deadline : ℤ) (earlier : List (ExpiringUse Key)) (now : ℤ)
    (later : List (ExpiringUse Key)) : Prop where
  own : (earlier.countP isRecord + 1) % period = 0 → now ≤ deadline
  spared : ∀ front use back, later = front ++ use :: back →
    use.Spares period ((earlier ++ .record key deadline now :: front).countP isRecord)
      key deadline

/-- A table holds the deadlines that were recorded and that outlived all uses since. -/
theorem deadline_replay_iff (key : Key) (deadline : ℤ) :
    (replay period uses).deadline key = some deadline ↔
      ∃ earlier now later, uses = earlier ++ .record key deadline now :: later ∧
        Kept period key deadline earlier now later := by
  induction uses using reverseRecOn with
  | nil =>
    constructor
    · intro found
      cases found
    · rintro ⟨earlier, now, later, split, _⟩
      cases earlier <;> cases split
  | append_singleton uses use ih =>
    rw [replay_concat, deadline_after_iff, ih, recorded_replay]
    constructor
    · rintro (⟨now, rfl, own⟩ | ⟨⟨earlier, now, later, rfl, kept⟩, spares⟩)
      · refine ⟨uses, now, [], rfl, own, ?_⟩
        intro front use back split
        cases front <;> cases split
      · refine ⟨earlier, now, later ++ [use], by simp, kept.own, ?_⟩
        intro front other back split
        rcases eq_nil_or_concat back with rfl | ⟨back, last, rfl⟩
        · rcases append_inj' split rfl with ⟨rfl, same⟩
          cases same
          exact spares
        · have shorter : later ++ [use] = (front ++ other :: back) ++ [last] := by
            simpa using split
          exact kept.spared front other back (append_inj' shorter rfl).1
    · rintro ⟨earlier, now, later, split, kept⟩
      rcases eq_nil_or_concat later with rfl | ⟨later, last, rfl⟩
      · rcases append_inj' split rfl with ⟨rfl, same⟩
        cases same
        exact .inl ⟨now, rfl, kept.own⟩
      · have shorter : uses ++ [use] = (earlier ++ .record key deadline now :: later) ++ [last] := by
          simpa using split
        rcases append_inj' shorter rfl with ⟨rfl, same⟩
        cases same
        refine .inr ⟨⟨earlier, now, later, rfl, kept.own, ?_⟩, ?_⟩
        · intro front other back inside
          exact kept.spared front other (back ++ [use]) (by simp [inside])
        · exact kept.spared later use [] (by simp)

def latest (key : Key) : List (ExpiringUse Key) → Option ℤ
  | [] => none
  | .record other deadline _ :: rest =>
    (latest key rest).or (if other = key then some deadline else none)
  | .look _ _ :: rest => latest key rest

theorem latest_append (key : Key) (front back : List (ExpiringUse Key)) :
    latest key (front ++ back) = (latest key back).or (latest key front) := by
  induction front with
  | nil => simp [latest]
  | cons use rest ih =>
    cases use with
    | record other deadline now =>
      rw [cons_append, latest, latest, ih, Option.or_assoc]
    | look other now => rw [cons_append, latest, latest, ih]

variable {uses : List (ExpiringUse Key)} {period : ℕ} {key : Key}
  {earlier later : List (ExpiringUse Key)}

theorem look_replay_iff (period : ℕ) (key : Key) {now : ℤ} (past : ∀ use ∈ uses, use.now ≤ now) :
    ((replay period uses).look key now).1 = true ↔
      ∃ deadline, latest key uses = some deadline ∧ now ≤ deadline := by
  rw [look_found_iff]
  refine exists_congr fun deadline => and_congr_left fun live => ?_
  induction uses using reverseRecOn with
  | nil => exact Iff.rfl
  | append_singleton uses use ih =>
    have earlier := ih fun other member =>
      past other (mem_append_left _ member)
    have recent : use.now ≤ deadline :=
      Int.le_trans (past use (mem_append_right _ (mem_singleton_self _))) live
    rw [replay_concat, deadline_after_iff, earlier, latest_append]
    cases use with
    | record other stored stamp =>
      have inTime : stamp ≤ deadline := recent
      by_cases same : other = key
      · subst same
        simp [latest, Spares, inTime]
      · simp [latest, Spares, inTime, same]
    | look other stamp =>
      have inTime : stamp ≤ deadline := recent
      simp [latest, Spares, inTime]

/-- The latest record of a key, and no sweep since with a reading past its deadline. -/
structure Unswept (period : ℕ) (key : Key) (deadline : ℤ) (earlier : List (ExpiringUse Key))
    (now : ℤ) (later : List (ExpiringUse Key)) : Prop where
  newest : ∀ other stamp, .record key other stamp ∉ later
  own : (earlier.countP isRecord + 1) % period = 0 → now ≤ deadline
  swept : ∀ front other stored stamp back, later = front ++ .record other stored stamp :: back →
    ((earlier ++ .record key deadline now :: front).countP isRecord + 1) % period = 0 →
      stamp ≤ deadline

omit [DecidableEq Key] in
theorem Kept.unswept {deadline now : ℤ} (kept : Kept period key deadline earlier now later) :
    Unswept period key deadline earlier now later where
  newest := by
    intro other stamp member
    rcases append_of_mem member with ⟨front, back, split⟩
    exact (kept.spared front _ back split).1 rfl
  own := kept.own
  swept front other stored stamp back split := (kept.spared front _ back split).2

omit [DecidableEq Key] in
theorem Unswept.kept {deadline now : ℤ} (unswept : Unswept period key deadline earlier now later)
    (inTime : ∀ stamp, .look key stamp ∈ later → stamp ≤ deadline) :
    Kept period key deadline earlier now later where
  own := unswept.own
  spared := by
    intro front use back split
    have member : use ∈ later := by
      rw [split]
      simp
    cases use with
    | record other stored stamp =>
      refine ⟨?_, unswept.swept front other stored stamp back split⟩
      rintro rfl
      exact unswept.newest stored stamp member
    | look other stamp =>
      rintro rfl
      exact inTime stamp member

theorem look_replay_iff_unswept (period : ℕ) (key : Key) {now : ℤ}
    (looks : ∀ stamp, .look key stamp ∈ uses → stamp ≤ now) :
    ((replay period uses).look key now).1 = true ↔
      ∃ earlier deadline stamp later, uses = earlier ++ .record key deadline stamp :: later ∧
        now ≤ deadline ∧ Unswept period key deadline earlier stamp later := by
  rw [look_found_iff]
  constructor
  · rintro ⟨deadline, found, live⟩
    rcases (deadline_replay_iff period uses key deadline).mp found with
      ⟨earlier, stamp, later, split, kept⟩
    exact ⟨earlier, deadline, stamp, later, split, live, kept.unswept⟩
  · rintro ⟨earlier, deadline, stamp, later, split, live, unswept⟩
    have inTime : ∀ otherStamp, .look key otherStamp ∈ later → otherStamp ≤ deadline := by
      intro otherStamp member
      have used : .look key otherStamp ∈ uses := by
        rw [split]
        simp [member]
      exact Int.le_trans (looks otherStamp used) live
    refine ⟨deadline, ?_, live⟩
    exact (deadline_replay_iff period uses key deadline).mpr
      ⟨earlier, stamp, later, split, unswept.kept inTime⟩

end ExpiringSet

end Gonnect
