import Mathlib.Data.List.Nodup

/-!
# Doubly linked lists in a heap

A `Segment` ties the nodes of a list of pointers together, between whatever the first node
has before it and the last node has behind it. Two segments that meet are one segment. A
`Chain` is linked in one direction only, such as a list of free nodes.
-/

namespace Gonnect

open List Option

variable {α : Type}

abbrev Ref := ℕ

structure Node (α : Type) where
  content : α
  previous : Option Ref
  next : Option Ref

abbrev Heap (α : Type) := Ref → Node α

namespace Heap

variable (heap : Heap α)

/-- `*ref = node` -/
def set (ref : Ref) (node : Node α) : Heap α :=
  Function.update heap ref node

def setNext (ref value : Option Ref) : Heap α :=
  match ref with
  | none => heap
  | some ref => heap.set ref { heap ref with next := value }

def setPrevious (ref value : Option Ref) : Heap α :=
  match ref with
  | none => heap
  | some ref => heap.set ref { heap ref with previous := value }

@[simp] theorem set_self (ref : Ref) (node : Node α) : heap.set ref node ref = node := by
  simp [set]

variable {heap} {ref : Ref}

@[simp] theorem set_other {other : Ref} (node : Node α) (different : other ≠ ref) :
    heap.set ref node other = heap other := by
  simp [set, different]

@[simp] theorem setNext_kept (at_ value : Option Ref) (ref : Ref) :
    (heap.setNext at_ value ref).content = (heap ref).content ∧
      (heap.setNext at_ value ref).previous = (heap ref).previous := by
  rcases at_ with _ | other
  · exact ⟨rfl, rfl⟩
  · by_cases same : ref = other
    · simp [setNext, same]
    · simp [setNext, same]

@[simp] theorem setPrevious_content (at_ value : Option Ref) (ref : Ref) :
    (heap.setPrevious at_ value ref).content = (heap ref).content := by
  rcases at_ with _ | other
  · rfl
  · by_cases same : ref = other
    · simp [setPrevious, same]
    · simp [setPrevious, same]

theorem setNext_other {at_ : Option Ref} (value : Option Ref) (different : at_ ≠ some ref) :
    heap.setNext at_ value ref = heap ref := by
  rcases at_ with _ | other
  · rfl
  · exact set_other _ fun same => different (by rw [same])

theorem setPrevious_other {at_ : Option Ref} (value : Option Ref) (different : at_ ≠ some ref) :
    heap.setPrevious at_ value ref = heap ref := by
  rcases at_ with _ | other
  · rfl
  · exact set_other _ fun same => different (by rw [same])

@[simp] theorem setPrevious_next (at_ value : Option Ref) (ref : Ref) :
    (heap.setPrevious at_ value ref).next = (heap ref).next := by
  rcases at_ with _ | other
  · rfl
  · by_cases same : ref = other
    · simp [setPrevious, same]
    · simp [setPrevious, same]

theorem setNext_congr {other : Heap α} (same : other ref = heap ref) (at_ value : Option Ref) :
    other.setNext at_ value ref = heap.setNext at_ value ref := by
  rcases at_ with _ | one
  · exact same
  · by_cases isOne : ref = one
    · subst isOne
      simp [setNext, same]
    · simp [setNext, isOne, same]

theorem setPrevious_congr {other : Heap α} (same : other ref = heap ref) (at_ value : Option Ref) :
    other.setPrevious at_ value ref = heap.setPrevious at_ value ref := by
  rcases at_ with _ | one
  · exact same
  · by_cases isOne : ref = one
    · subst isOne
      simp [setPrevious, same]
    · simp [setPrevious, isOne, same]

end Heap

/-- The nodes are linked in this order, behind `previous` and before `next`. -/
def Segment (heap : Heap α) : Option Ref → List Ref → Option Ref → Prop
  | _, [], _ => True
  | previous, ref :: refs, next =>
    (heap ref).previous = previous ∧ (heap ref).next = refs.head?.or next ∧
      Segment heap (some ref) refs next

namespace Segment

variable {heap other : Heap α} {previous next : Option Ref} {refs : List Ref}

theorem congr (same : ∀ ref ∈ refs, (other ref).previous = (heap ref).previous ∧
      (other ref).next = (heap ref).next) :
    ∀ {previous : Option Ref}, Segment heap previous refs next →
      Segment other previous refs next := by
  induction refs with
  | nil => exact fun _ => trivial
  | cons ref refs ih =>
    rintro previous ⟨before, behind, rest⟩
    rcases same ref mem_cons_self with ⟨samePrevious, sameNext⟩
    refine ⟨samePrevious.trans before, sameNext.trans behind, ?_⟩
    exact ih (fun one isOne => same one (mem_cons_of_mem _ isOne)) rest

theorem frame (same : ∀ ref ∈ refs, other ref = heap ref)
    (segment : Segment heap previous refs next) : Segment other previous refs next :=
  segment.congr fun ref isMember => by rw [same ref isMember]; exact ⟨rfl, rfl⟩

variable {front back : List Ref} {ref : Ref}

theorem append_iff :
    ∀ {previous : Option Ref}, Segment heap previous (front ++ back) next ↔
      Segment heap previous front (back.head?.or next) ∧
        Segment heap (front.getLast?.or previous) back next := by
  induction front with
  | nil => simp [Segment]
  | cons ref front ih =>
    intro previous
    have first : (front ++ back).head?.or next = front.head?.or (back.head?.or next) := by
      rw [head?_append, Option.or_assoc]
    have last : (ref :: front).getLast?.or previous = front.getLast?.or (some ref) := by
      cases found : front.getLast? <;> simp [getLast?_cons, found]
    simp only [cons_append, Segment, first, last, ih, and_assoc]

open Heap

theorem setNext_last (nodup : refs.Nodup) (segment : Segment heap previous refs next)
    (value : Option Ref) : Segment (heap.setNext refs.getLast? value) previous refs value := by
  rcases eq_nil_or_concat refs with rfl | ⟨front, last, rfl⟩
  · trivial
  rw [concat_eq_append] at nodup segment ⊢
  have isLast : (front ++ [last]).getLast? = some last := by simp
  rcases append_iff.mp segment with ⟨frontLinked, lastLinked⟩
  have absent : last ∉ front := by
    intro isMember
    exact (nodup_append.mp nodup).2.2 last isMember last (by simp) rfl
  rw [isLast, append_iff]
  constructor
  · refine frontLinked.congr ?_
    intro ref isMember
    have different : some last ≠ some ref := by
      rintro same
      exact absent (Option.some.inj same ▸ isMember)
    rw [setNext_other value different]
    exact ⟨rfl, rfl⟩
  · exact ⟨by simpa using lastLinked.1, by simp [setNext], trivial⟩

theorem setPrevious_head (nodup : refs.Nodup) (segment : Segment heap previous refs next)
    (value : Option Ref) : Segment (heap.setPrevious refs.head? value) value refs next := by
  rcases refs with _ | ⟨first, rest⟩
  · trivial
  rcases segment with ⟨_, behind, restLinked⟩
  refine ⟨by simp [setPrevious], by simpa using behind, ?_⟩
  refine restLinked.frame ?_
  intro ref isMember
  have different : some first ≠ some ref := by
    rintro same
    exact (nodup_cons.mp nodup).1 (Option.some.inj same ▸ isMember)
  exact setPrevious_other value different

theorem node (segment : Segment heap none (front ++ ref :: back) none) :
    (heap ref).previous = front.getLast? ∧ (heap ref).next = back.head? := by
  rcases (append_iff.mp segment).2 with ⟨before, behind, _⟩
  exact ⟨by simpa using before, by simpa using behind⟩

theorem unlink (nodup : (front ++ ref :: back).Nodup)
    (segment : Segment heap none (front ++ ref :: back) none) :
    Segment ((heap.setNext front.getLast? back.head?).setPrevious back.head? front.getLast?)
      none (front ++ back) none := by
  rcases nodup_append.mp nodup with ⟨frontNodup, backNodup, apart⟩
  rcases append_iff.mp segment with ⟨frontLinked, _, _, backLinked⟩
  have backNodup := (nodup_cons.mp backNodup).2
  have headNotInFront {one : Ref} (isFront : one ∈ front) : back.head? ≠ some one := by
    intro isHead
    exact apart one isFront one (mem_cons_of_mem _ (mem_of_mem_head? isHead)) rfl
  have lastNotInBack {one : Ref} (isBack : one ∈ back) : front.getLast? ≠ some one := by
    intro isLast
    exact apart one (mem_of_getLast? isLast) one (mem_cons_of_mem _ isBack) rfl
  rw [append_iff]
  constructor
  · have linked := frontLinked.setNext_last frontNodup back.head?
    rw [or_none]
    exact linked.frame fun one isOne => setPrevious_other _ (headNotInFront isOne)
  · rw [or_none]
    have untouched : Segment (heap.setNext front.getLast? back.head?) (some ref) back none :=
      backLinked.frame fun one isOne => setNext_other _ (lastNotInBack isOne)
    exact untouched.setPrevious_head backNodup _

theorem linkLast (nodup : refs.Nodup) (segment : Segment heap none refs none)
    (same : ∀ one ∈ refs, other one = heap.setNext refs.getLast? (some ref) one)
    (before : (other ref).previous = refs.getLast?) (behind : (other ref).next = none) :
    Segment other none (refs ++ [ref]) none := by
  rw [append_iff]
  constructor
  · exact (segment.setNext_last nodup (some ref)).frame same
  · exact ⟨by simpa using before, by simpa using behind, trivial⟩

end Segment

def Chain (heap : Heap α) : Option Ref → List Ref → Prop
  | start, [] => start = none
  | start, ref :: refs => start = some ref ∧ Chain heap (heap ref).next refs

theorem Chain.frame {heap other : Heap α} {refs : List Ref} :
    ∀ {start : Option Ref}, (∀ ref ∈ refs, (other ref).next = (heap ref).next) →
      Chain heap start refs → Chain other start refs := by
  induction refs with
  | nil => exact fun _ chain => chain
  | cons ref refs ih =>
    rintro start same ⟨isFirst, rest⟩
    refine ⟨isFirst, ?_⟩
    rw [same ref mem_cons_self]
    exact ih (fun one isOne => same one (mem_cons_of_mem _ isOne)) rest

end Gonnect
