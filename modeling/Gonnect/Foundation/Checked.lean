import Mathlib.Data.List.Basic

/-!
# Reads that are checked against the bounds of their buffer

An index or a slice expression outside its operand stops the program. The reads here return
a `Fault` in that place, and a computation is `Safe` when it has a value.

A safety proof follows the text of the computation. `Safe.bind` and `Safe.ite` take it
apart, `Safe.guard` passes an early return, and each read leaves the bound that the guards
before it must have established.
-/

namespace Gonnect

open List

universe u

/-- The run-time stop caused by an index or a slice bound out of range. -/
inductive Fault where
  | outOfRange
deriving DecidableEq, Repr

abbrev Checked (α : Type u) := Except Fault α

namespace Checked

variable {α β : Type u}

def Safe (computation : Checked α) : Prop :=
  ∃ value, computation = .ok value

/-- `data[offset]` -/
def index (data : List α) (offset : ℕ) : Checked α :=
  match data[offset]? with
  | some element => .ok element
  | none => .error .outOfRange

/-- `data[low:high]` -/
def window (data : List α) (low high : ℕ) : Checked (List α) :=
  if low ≤ high ∧ high ≤ data.length then
    .ok ((data.take high).drop low)
  else
    .error .outOfRange

/-- `data[low:]` -/
def windowFrom (data : List α) (low : ℕ) : Checked (List α) :=
  window data low data.length

variable (data : List UInt8)

def beUint16 : Checked ℕ := do
  let high ← index data 0
  let low ← index data 1
  return 256 * high.toNat + low.toNat

def beUint24 : Checked ℕ := do
  let first ← index data 0
  let second ← index data 1
  let third ← index data 2
  return 65536 * first.toNat + 256 * second.toNat + third.toNat

def beUint32 : Checked ℕ := do
  let first ← index data 0
  let second ← index data 1
  let third ← index data 2
  let fourth ← index data 3
  return 16777216 * first.toNat + 65536 * second.toNat + 256 * third.toNat + fourth.toNat

def leUint32 : Checked ℕ := do
  let first ← index data 0
  let second ← index data 1
  let third ← index data 2
  let fourth ← index data 3
  return first.toNat + 256 * second.toNat + 65536 * third.toNat + 16777216 * fourth.toNat

def leUint16 : Checked ℕ := do
  let low ← index data 0
  let high ← index data 1
  return low.toNat + 256 * high.toNat

def whenPresent (data : List α) (count : ℕ) (test : Checked Bool) : Checked Bool :=
  if count ≤ data.length then test else pure false

variable (value : α) (fault : Fault) (next : α → Checked β)

@[simp] theorem ok_bind : ((Except.ok value : Checked α) >>= next) = next value :=
  rfl

@[simp] theorem error_bind : ((Except.error fault : Checked α) >>= next) = .error fault :=
  rfl

@[simp] theorem pure_eq_ok : (pure value : Checked α) = .ok value :=
  rfl

@[simp] theorem index_cons_zero (first : α) (rest : List α) : index (first :: rest) 0 = .ok first :=
  rfl

variable {data : List α} {offset low high : ℕ} {ε : Type u}

theorem index_eq_ok (inside : offset < data.length) : index data offset = .ok data[offset] := by
  simp [index, inside]

theorem exists_index (inside : offset < data.length) :
    ∃ element, data[offset]? = some element ∧ index data offset = .ok element :=
  ⟨data[offset], getElem?_eq_getElem inside, index_eq_ok inside⟩

theorem index_eq_error (outside : data.length ≤ offset) :
    index data offset = .error .outOfRange := by
  simp [index, outside]

theorem window_eq_ok (ordered : low ≤ high) (inside : high ≤ data.length) :
    window data low high = .ok ((data.take high).drop low) := by
  simp [window, ordered, inside]

theorem windowFrom_eq_ok (inside : low ≤ data.length) :
    windowFrom data low = .ok (data.drop low) := by
  simp [windowFrom, window_eq_ok inside (Nat.le_refl _)]

variable {result : β} {count : ℕ}

theorem bind_eq_ok_iff {first : Except ε α} {next : α → Except ε β} :
    (first >>= next) = .ok result ↔ ∃ value, first = .ok value ∧ next value = .ok result := by
  cases first with
  | error error =>
    constructor
    · intro succeeded
      cases succeeded
    · rintro ⟨value, equal, _⟩
      cases equal
  | ok value =>
    constructor
    · intro succeeded
      exact ⟨value, rfl, succeeded⟩
    · rintro ⟨_, equal, succeeded⟩
      cases equal
      exact succeeded

theorem of_bind {first : Except ε α} {next : α → Except ε β}
    (succeeded : (first >>= next) = .ok result) :
    ∃ value, first = .ok value ∧ next value = .ok result :=
  bind_eq_ok_iff.mp succeeded

/-- What every step of a loop carries from the elements handled so far to one more of them,
a loop without an error carries to the whole list. -/
theorem foldlM_ok {step : β → α → Except ε β} (invariant : List α → β → Prop)
    (preserved : ∀ {handled before next after}, invariant handled before →
      step before next = .ok after → invariant (handled ++ [next]) after) {start : β}
    (initially : invariant [] start) {elements : List α}
    (succeeded : elements.foldlM step start = .ok result) : invariant elements result := by
  have fromHandled : ∀ {rest handled before}, invariant handled before →
      rest.foldlM step before = .ok result → invariant (handled ++ rest) result := by
    intro rest
    induction rest with
    | nil =>
      intro handled before holds succeeded
      cases succeeded
      simpa using holds
    | cons next rest ih =>
      intro handled before holds succeeded
      rcases of_bind succeeded with ⟨after, stepped, succeeded⟩
      simpa using ih (preserved holds stepped) succeeded
  exact fromHandled initially succeeded

variable {computation : Except ε α}

theorem exists_of_any {test : α → Bool}
    (passes : computation.toOption.any test) :
    ∃ value, computation = .ok value ∧ test value := by
  cases computation with
  | error => cases passes
  | ok value => exact ⟨value, rfl, passes⟩

theorem mapError_eq_ok_iff {δ : Type u} {wrap : ε → δ} {value : α} :
    computation.mapError wrap = .ok value ↔ computation = .ok value := by
  cases computation <;> simp [Except.mapError]

theorem map_eq_ok_iff {f : α → β} {value : β} :
    computation.map f = .ok value ↔ ∃ inner, computation = .ok inner ∧ f inner = value := by
  cases computation <;> simp [Except.map]

variable {next} {first : Checked α}

theorem bind_eq_error_iff {fault : Fault} :
    (first >>= next) = .error fault ↔
      first = .error fault ∨ ∃ value, first = .ok value ∧ next value = .error fault := by
  cases first <;> simp

@[simp] theorem safe_ok : Safe (Except.ok value : Checked α) :=
  ⟨value, rfl⟩

@[simp] theorem not_safe_error : ¬Safe (Except.error fault : Checked α) := by
  rintro ⟨value, equal⟩
  cases equal

instance Safe.decidable (computation : Checked α) : Decidable (Safe computation) :=
  match computation with
  | .ok value => .isTrue (safe_ok value)
  | .error fault => .isFalse (not_safe_error fault)

namespace Safe

theorem bind (safeFirst : Safe first) (safeNext : ∀ value, first = .ok value → Safe (next value)) :
    Safe (first >>= next) := by
  rcases safeFirst with ⟨value, equal⟩
  rw [equal]
  exact safeNext value equal

theorem ite {condition : Prop} [Decidable condition] {yes no : Checked α}
    (safeYes : condition → Safe yes) (safeNo : ¬condition → Safe no) :
    Safe (if condition then yes else no) := by
  split_ifs with holds
  · exact safeYes holds
  · exact safeNo holds

end Safe

@[simp] theorem safe_index : Safe (index data offset) ↔ offset < data.length := by
  by_cases inside : offset < data.length
  · simp [index_eq_ok inside, inside]
  · simp [index_eq_error (Nat.le_of_not_lt inside), inside]

namespace Safe

/-- An early return with a value is safe; the rest is reached when the test fails. -/
theorem guard {condition : Prop} [Decidable condition] {value : α} {rest : Checked α}
    (safeRest : ¬condition → Safe rest) : Safe (if condition then pure value else rest) :=
  ite (fun _ => safe_ok value) safeRest

theorem skip {condition : Prop} [Decidable condition] {value : α} {rest : Checked α}
    (safeRest : Safe rest) : Safe (if condition then pure value else rest) :=
  guard fun _ => safeRest

theorem readAt {offset : ℕ} (safeNext : ∀ element, Safe (next element))
    (inside : offset < data.length := by omega) : Safe (index data offset >>= next) :=
  bind (safe_index.mpr inside) fun element _ => safeNext element

theorem lastAt {f : α → β} (inside : offset < data.length := by omega) :
    Safe (index data offset >>= fun element => pure (f element)) :=
  readAt (fun _ => safe_ok _) inside

variable {next : List α → Checked β}

theorem readWindow {low high : ℕ}
    (safeNext : ∀ part : List α, part.length = high - low → Safe (next part))
    (ordered : low ≤ high := by omega) (inside : high ≤ data.length := by omega) :
    Safe (window data low high >>= next) := by
  rw [window_eq_ok ordered inside]
  apply safeNext
  simp only [length_drop, length_take]
  omega

theorem readFrom {low : ℕ}
    (safeNext : ∀ part : List α, part.length = data.length - low → Safe (next part))
    (inside : low ≤ data.length := by omega) : Safe (windowFrom data low >>= next) :=
  readWindow safeNext inside (Nat.le_refl _)

variable {data : List UInt8} {γ : Type} {next : ℕ → Checked γ}

/-- A reader of a number at the front of some data, which needs `width` bytes of them. -/
def Reads (width : ℕ) (read : List UInt8 → Checked ℕ) : Prop :=
  ∀ data, width ≤ data.length → Safe (read data)

theorem reads_beUint16 : Reads 2 beUint16 := by
  intro data enough
  repeat' refine readAt (fun _ => ?_) (by omega)
  exact safe_ok _

theorem reads_leUint16 : Reads 2 leUint16 := by
  intro data enough
  repeat' refine readAt (fun _ => ?_) (by omega)
  exact safe_ok _

theorem reads_beUint32 : Reads 4 beUint32 := by
  intro data enough
  repeat' refine readAt (fun _ => ?_) (by omega)
  exact safe_ok _

theorem reads_leUint32 : Reads 4 leUint32 := by
  intro data enough
  repeat' refine readAt (fun _ => ?_) (by omega)
  exact safe_ok _

variable {read : List UInt8 → Checked ℕ} {test : Checked Bool}

theorem readNumber {width : ℕ} (reads : Reads width read)
    (enough : width ≤ data.length := by omega) (safeNext : ∀ value, Safe (next value)) :
    Safe (read data >>= next) :=
  bind (reads data enough) fun value _ => safeNext value

theorem readNumberAt {low high width : ℕ} (reads : Reads width read)
    (wide : low + width ≤ high := by omega) (inside : high ≤ data.length := by omega)
    (safeNext : ∀ value, Safe (next value)) :
    Safe (window data low high >>= fun part => read part >>= next) := by
  refine readWindow (fun part length => ?_) (by omega) inside
  exact readNumber reads (by omega) safeNext

theorem map {f : α → β} (safeFirst : Safe first) : Safe (first >>= fun value => pure (f value)) :=
  bind safeFirst fun _ _ => safe_ok _

theorem whenPresent (safeTest : count ≤ data.length → Safe test) :
    Safe (Checked.whenPresent data count test) :=
  ite safeTest fun _ => safe_ok false

/-- An early return that depends on a test, made only when enough of the data is there. -/
theorem check {value : γ} {rest : Checked γ} (safeTest : count ≤ data.length → Safe test)
    (safeRest : Safe rest) :
    Safe (Checked.whenPresent data count test >>= fun failed =>
      if failed = true then pure value else rest) :=
  bind (whenPresent safeTest) fun _ _ => guard fun _ => safeRest

end Safe

variable (data : List UInt8)

def byteAt (offset : ℕ) : UInt8 :=
  data.getD offset 0

def wordAt (offset : ℕ) : ℕ :=
  256 * (byteAt data offset).toNat + (byteAt data (offset + 1)).toNat

theorem byteAt_drop (offset count : ℕ) :
    byteAt (data.drop count) offset = byteAt data (count + offset) := by
  simp [byteAt]

theorem wordAt_drop (offset count : ℕ) :
    wordAt (data.drop count) offset = wordAt data (count + offset) := by
  simp [wordAt, byteAt_drop, Nat.add_assoc]

theorem wordAt_lt (offset : ℕ) : wordAt data offset < 65536 := by
  have high := (byteAt data offset).toNat_lt
  have low := (byteAt data (offset + 1)).toNat_lt
  simp only [wordAt]
  omega

variable {data}

theorem index_eq_byteAt (inside : offset < data.length) :
    index data offset = .ok (byteAt data offset) := by
  simp [index_eq_ok inside, byteAt, inside]

theorem byteAt_take (inside : offset < count) :
    byteAt (data.take count) offset = byteAt data offset := by
  simp [byteAt, inside]

theorem wordAt_take (inside : offset + 1 < count) :
    wordAt (data.take count) offset = wordAt data offset := by
  simp [wordAt, byteAt_take inside, byteAt_take (Nat.lt_of_succ_lt inside)]

theorem beUint16_eq_wordAt (enough : 2 ≤ data.length) : beUint16 data = .ok (wordAt data 0) := by
  simp [beUint16, wordAt, index_eq_byteAt (Nat.lt_of_lt_of_le Nat.zero_lt_two enough),
    index_eq_byteAt enough]

theorem window_uint16 (span : high = low + 2) (inside : high ≤ data.length) :
    (window data low high >>= beUint16) = .ok (wordAt data low) := by
  subst span
  have enough : 2 ≤ ((data.take (low + 2)).drop low).length := by
    simp only [length_drop, length_take]
    omega
  rw [window_eq_ok (Nat.le_add_right _ _) inside, ok_bind, beUint16_eq_wordAt enough, wordAt_drop,
    wordAt_take (by omega)]
  rfl

theorem index_take (inside : offset < count) :
    index (data.take count) offset = index data offset := by
  simp [index, inside]

theorem window_take (inside : high ≤ count) (present : count ≤ data.length) :
    window (data.take count) low high = window data low high := by
  have bounded : high ≤ (data.take count).length ↔ high ≤ data.length := by
    rw [length_take]
    omega
  simp only [window, bounded, take_take, Nat.min_eq_left inside]

theorem windowFrom_uint16 (inside : low + 2 ≤ data.length) :
    (windowFrom data low >>= beUint16) = .ok (wordAt data low) := by
  have enough : 2 ≤ (data.drop low).length := by
    simp only [length_drop]
    omega
  rw [windowFrom_eq_ok (by omega), ok_bind, beUint16_eq_wordAt enough, wordAt_drop]
  rfl

theorem take_drop_take (inside : high ≤ count) :
    ((data.take count).take high).drop low = (data.take high).drop low := by
  rw [take_take, Nat.min_eq_left inside]

end Checked

end Gonnect
