import Gonnect.Foundation.Text
import Mathlib.Data.Nat.Notation
import Mathlib.Tactic.ByContra
import Mathlib.Tactic.SplitIfs

/-!
# Hosts and ports

`SplitHostPort` and `JoinHostPort` of package `net`, on byte strings. The port starts
after the last colon. A host that contains colons stands in brackets.
-/

namespace Gonnect.Net

open List

def colon : UInt8 := 58

def openBracket : UInt8 := 91

def closeBracket : UInt8 := 93

variable (text hostport : Text)

def indexByte (byte : UInt8) : Option ℕ :=
  text.findIdx? (· == byte)

def lastIndexByte (byte : UInt8) : Option ℕ :=
  (indexByte text.reverse byte).map fun fromEnd => text.length - 1 - fromEnd

inductive HostPortError where
  | missingPort
  | tooManyColons
  | missingBracket
  | unexpectedOpen
  | unexpectedClose
deriving DecidableEq, Repr

/-- The host of `SplitHostPort`, for the position of the last colon, and the positions
before which no opening and no closing bracket can stand. -/
def splitHost (last : ℕ) : Except HostPortError (Text × ℕ × ℕ) :=
  if hostport.head? = some openBracket then
    match indexByte hostport closeBracket with
    | none => .error .missingBracket
    | some closing =>
      if closing + 1 = hostport.length then
        .error .missingPort
      else if closing + 1 = last then
        .ok ((hostport.take closing).drop 1, 1, closing + 1)
      else if hostport[closing + 1]? = some colon then
        .error .tooManyColons
      else
        .error .missingPort
  else if colon ∈ hostport.take last then
    .error .tooManyColons
  else
    .ok (hostport.take last, 0, 0)

def splitHostPort : Except HostPortError (Text × Text) :=
  match lastIndexByte hostport colon with
  | none => .error .missingPort
  | some last =>
    match splitHost hostport last with
    | .error error => .error error
    | .ok (host, afterOpen, afterClose) =>
      if openBracket ∈ hostport.drop afterOpen then
        .error .unexpectedOpen
      else if closeBracket ∈ hostport.drop afterClose then
        .error .unexpectedClose
      else
        .ok (host, hostport.drop (last + 1))

def joinHostPort (host port : Text) : Text :=
  if colon ∈ host then
    [openBracket] ++ host ++ [closeBracket, colon] ++ port
  else
    host ++ [colon] ++ port

def PlainPort (port : Text) : Prop :=
  colon ∉ port ∧ openBracket ∉ port ∧ closeBracket ∉ port

/-- The forms of an address without a host: `:port` and `[]:port`. -/
def HostMissing : Prop :=
  ∃ port, PlainPort port ∧
    (hostport = colon :: port ∨ hostport = openBracket :: closeBracket :: colon :: port)

theorem lastIndexByte_append (before : Text) {after : Text} {byte : UInt8} (last : byte ∉ after) :
    lastIndexByte (before ++ byte :: after) byte = some before.length := by
  have found : indexByte (before ++ byte :: after).reverse byte = some after.length := by
    have absent : after.reverse.findIdx? (· == byte) = none := by
      rw [findIdx?_eq_none_iff]
      intro other member
      simp only [beq_eq_false_iff_ne, ne_eq]
      rintro rfl
      exact last (mem_reverse.mp member)
    simp [indexByte, findIdx?_append, findIdx?_cons, absent]
  rw [lastIndexByte, found]
  simp only [length_append, length_cons, Option.map_some, Option.some.injEq]
  omega

theorem lastIndexByte_eq_some {text : Text} {byte : UInt8} {last : ℕ}
    (found : lastIndexByte text byte = some last) :
    ∃ before after, text = before ++ byte :: after ∧ byte ∉ after ∧ before.length = last := by
  have member : byte ∈ text := by
    by_contra missing
    have nowhere : indexByte text.reverse byte = none := by
      refine findIdx?_eq_none_iff.mpr ?_
      intro other listed
      simp only [beq_eq_false_iff_ne, ne_eq]
      rintro rfl
      exact missing (mem_reverse.mp listed)
    rw [lastIndexByte, nowhere] at found
    cases found
  rcases eq_append_cons_of_mem (mem_reverse.mpr member) with ⟨front, back, split, absent⟩
  have text_eq : text = back.reverse ++ byte :: front.reverse := by
    rw [← reverse_reverse text, split]
    simp
  have last_absent : byte ∉ front.reverse := fun present => absent (mem_reverse.mp present)
  refine ⟨back.reverse, front.reverse, text_eq, last_absent, ?_⟩
  rw [text_eq, lastIndexByte_append _ last_absent] at found
  exact Option.some.inj found

theorem splitHost_empty {before after : Text} {afterOpen afterClose : ℕ}
    (found : splitHost (before ++ colon :: after) before.length = .ok ([], afterOpen, afterClose)) :
    before = [] ∧ afterOpen = 0 ∧ afterClose = 0 ∨
      before = [openBracket, closeBracket] ∧ afterOpen = 1 ∧ afterClose = 2 := by
  unfold splitHost at found
  by_cases bracket : (before ++ colon :: after).head? = some openBracket
  · rw [if_pos bracket] at found
    split at found
    · cases found
    · rename_i closing position
      rcases findIdx?_eq_some_iff_getElem.mp position with ⟨inside, closes, _⟩
      split_ifs at found with atEnd expected tooMany
      simp only [Except.ok.injEq, Prod.mk.injEq] at found
      rcases found with ⟨empty, rfl, rfl⟩
      have short : closing ≤ 1 := by
        have length := congrArg List.length empty
        simp only [length_drop, length_take, length_nil] at length
        omega
      -- The closing bracket is the second byte, since the first one opens.
      rcases before with _ | ⟨first, _ | ⟨second, _ | ⟨third, rest⟩⟩⟩
      · cases expected
      · obtain rfl : closing = 0 := by simpa using expected
        obtain rfl : first = openBracket := by simpa using bracket
        exact absurd closes (by simp [openBracket, closeBracket])
      · obtain rfl : closing = 1 := by simpa using expected
        obtain rfl : first = openBracket := by simpa using bracket
        obtain rfl : second = closeBracket := by simpa using closes
        exact .inr ⟨rfl, rfl, rfl⟩
      · simp only [length_cons] at expected
        omega
  · rw [if_neg bracket] at found
    split_ifs at found with colons
    simp only [take_left, Except.ok.injEq, Prod.mk.injEq] at found
    rcases found with ⟨rfl, rfl, rfl⟩
    exact .inl ⟨rfl, rfl, rfl⟩

theorem splitHostPort_empty_iff (hostport port : Text) :
    splitHostPort hostport = .ok ([], port) ↔
      PlainPort port ∧
        (hostport = colon :: port ∨ hostport = openBracket :: closeBracket :: colon :: port) := by
  constructor
  · intro split
    unfold splitHostPort at split
    split at split
    · cases split
    · rename_i last found
      rcases lastIndexByte_eq_some found with ⟨before, after, rfl, noColon, rfl⟩
      split at split
      · cases split
      · rename_i host afterOpen afterClose hostFound
        split_ifs at split with opens closes
        have tail : (before ++ colon :: after).drop (before.length + 1) = after := by simp
        rcases split with ⟨rfl, rfl⟩
        rcases splitHost_empty hostFound with ⟨rfl, rfl, rfl⟩ | ⟨rfl, rfl, rfl⟩
        · simp only [nil_append, drop_zero, mem_cons, not_or] at opens closes
          exact ⟨⟨noColon, opens.2, closes.2⟩, .inl rfl⟩
        · simp only [cons_append, nil_append, drop_succ_cons, drop_zero,
            mem_cons, not_or] at opens closes
          exact ⟨⟨noColon, opens.2.2, closes.2⟩, .inr rfl⟩
  · rintro ⟨⟨noColon, noOpen, noClose⟩, form⟩
    have opens : openBracket ∉ colon :: port := by
      simpa [colon, openBracket] using noOpen
    have closes : closeBracket ∉ colon :: port := by
      simpa [colon, closeBracket] using noClose
    rcases form with rfl | rfl
    · have last : lastIndexByte (colon :: port) colon = some 0 :=
        lastIndexByte_append [] noColon
      have host : splitHost (colon :: port) 0 = .ok ([], 0, 0) := by
        simp [splitHost, colon, openBracket]
      simp [splitHostPort, last, host, opens, closes]
    · have last : lastIndexByte (openBracket :: closeBracket :: colon :: port) colon = some 2 :=
        lastIndexByte_append [openBracket, closeBracket] noColon
      have host : splitHost (openBracket :: closeBracket :: colon :: port) 2 = .ok ([], 1, 2) := by
        simp [splitHost, indexByte, findIdx?_cons, openBracket, closeBracket]
      have opens : openBracket ∉ closeBracket :: colon :: port := fun member =>
        (mem_cons.mp member).elim (by decide) opens
      simp [splitHostPort, last, host, opens, closes]

theorem hostMissing_iff :
    HostMissing hostport ↔ ∃ port, splitHostPort hostport = .ok ([], port) := by
  simp [HostMissing, splitHostPort_empty_iff]

end Gonnect.Net
