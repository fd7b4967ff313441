import Gonnect.Foundation.Text
import Mathlib.Data.Nat.Notation
import Mathlib.Tactic.ByContra
import Mathlib.Tactic.SplitIfs

/-!
# Byte strings as UTF-8

Package `unicode/utf8` reads a byte string as a sequence of runes. A byte that starts no
well-formed rune is read as the replacement character. So every byte string has runes, and
it is ASCII exactly if all of its runes are (`ascii_of_runes`, `runes_of_ascii`). `mapRunes`
is `strings.Map` for a function on runes that are numbers.
-/

namespace Gonnect.Utf8

open List

def runeError : ℕ := 0xfffd

def isContinuation (byte : UInt8) : Bool :=
  0x80 ≤ byte.toNat && byte.toNat ≤ 0xbf

/-- The second byte of a rune of three or four bytes; some first bytes narrow it down, so
that the shortest form is used and surrogates are left out. -/
def isSecond (first second : UInt8) : Bool :=
  if first = 0xe0 then 0xa0 ≤ second.toNat && second.toNat ≤ 0xbf
  else if first = 0xed then 0x80 ≤ second.toNat && second.toNat ≤ 0x9f
  else if first = 0xf0 then 0x90 ≤ second.toNat && second.toNat ≤ 0xbf
  else if first = 0xf4 then 0x80 ≤ second.toNat && second.toNat ≤ 0x8f
  else isContinuation second

def invalidRune : ℕ × ℕ :=
  (runeError, 1)

variable (first : UInt8)

def decodeTwo : List UInt8 → ℕ × ℕ
  | second :: _ =>
    if isContinuation second then (first.toNat % 32 * 64 + second.toNat % 64, 2)
    else invalidRune
  | [] => invalidRune

def decodeThree : List UInt8 → ℕ × ℕ
  | second :: third :: _ =>
    if isSecond first second && isContinuation third then
      (first.toNat % 16 * 4096 + second.toNat % 64 * 64 + third.toNat % 64, 3)
    else invalidRune
  | _ => invalidRune

def decodeFour : List UInt8 → ℕ × ℕ
  | second :: third :: fourth :: _ =>
    if isSecond first second && (isContinuation third && isContinuation fourth) then
      (first.toNat % 8 * 262144 + second.toNat % 64 * 4096 + third.toNat % 64 * 64 +
        fourth.toNat % 64, 4)
    else invalidRune
  | _ => invalidRune

/-- `utf8.DecodeRuneInString` of a text that is not empty: the rune at the front, and its
width. -/
def decodeRune (rest : List UInt8) : ℕ × ℕ :=
  if first.toNat < 0x80 then (first.toNat, 1)
  else if 0xc2 ≤ first.toNat ∧ first.toNat ≤ 0xdf then decodeTwo first rest
  else if 0xe0 ≤ first.toNat ∧ first.toNat ≤ 0xef then decodeThree first rest
  else if 0xf0 ≤ first.toNat ∧ first.toNat ≤ 0xf4 then decodeFour first rest
  else invalidRune

def runesAfter : ℕ → List UInt8 → List ℕ
  | _, [] => []
  | skipped + 1, _ :: rest => runesAfter skipped rest
  | 0, first :: rest =>
    (decodeRune first rest).1 :: runesAfter ((decodeRune first rest).2 - 1) rest

def runes (text : Text) : List ℕ :=
  runesAfter 0 text

/-- `utf8.AppendRune` to an empty slice -/
def encodeRune (rune : ℕ) : List UInt8 :=
  if rune < 0x80 then
    [UInt8.ofNat rune]
  else if rune < 0x800 then
    [UInt8.ofNat (0xc0 + rune / 64), UInt8.ofNat (0x80 + rune % 64)]
  else if (0xd800 ≤ rune ∧ rune ≤ 0xdfff) ∨ 0x10ffff < rune then
    [0xef, 0xbf, 0xbd]
  else if rune < 0x10000 then
    [UInt8.ofNat (0xe0 + rune / 4096), UInt8.ofNat (0x80 + rune / 64 % 64),
      UInt8.ofNat (0x80 + rune % 64)]
  else
    [UInt8.ofNat (0xf0 + rune / 262144), UInt8.ofNat (0x80 + rune / 4096 % 64),
      UInt8.ofNat (0x80 + rune / 64 % 64), UInt8.ofNat (0x80 + rune % 64)]

/-- `strings.Map` -/
def mapRunes (change : ℕ → ℕ) (text : Text) : Text :=
  (runes text).flatMap fun rune => encodeRune (change rune)

def IsAscii (text : Text) : Prop :=
  ∀ byte ∈ text, byte.toNat < 0x80

instance (text : Text) : Decidable (IsAscii text) :=
  List.decidableBAll _ text

variable {first : UInt8} {text : Text}

theorem decodeRune_ascii (ascii : first.toNat < 0x80) (rest : List UInt8) :
    decodeRune first rest = (first.toNat, 1) :=
  if_pos ascii

theorem le_invalidRune : 0x80 ≤ invalidRune.1 := by
  decide

theorem le_decodeTwo (low : 0xc2 ≤ first.toNat) (high : first.toNat ≤ 0xdf) (rest : List UInt8) :
    0x80 ≤ (decodeTwo first rest).1 := by
  fun_cases decodeTwo first rest
  · dsimp only
    omega
  · exact le_invalidRune
  · exact le_invalidRune

theorem isSecond_large {second : UInt8} (valid : isSecond first second = true) :
    (first.toNat ≠ 0xe0 ∨ 0xa0 ≤ second.toNat ∧ second.toNat ≤ 0xbf) ∧
      (first.toNat ≠ 0xf0 ∨ 0x90 ≤ second.toNat ∧ second.toNat ≤ 0xbf) := by
  constructor
  · by_cases shortest : first = 0xe0
    · subst shortest
      simpa [isSecond] using valid
    · exact .inl fun same => shortest (UInt8.toNat.inj same)
  · by_cases shortest : first = 0xf0
    · subst shortest
      simpa [isSecond] using valid
    · exact .inl fun same => shortest (UInt8.toNat.inj same)

theorem le_decodeThree (low : 0xe0 ≤ first.toNat) (high : first.toNat ≤ 0xef) (rest : List UInt8) :
    0x80 ≤ (decodeThree first rest).1 := by
  fun_cases decodeThree first rest with
  | case1 second third _ valid =>
    have large := (isSecond_large (Bool.and_eq_true_iff.mp valid).1).1
    omega
  | case2 | case3 => exact le_invalidRune

theorem le_decodeFour (low : 0xf0 ≤ first.toNat) (high : first.toNat ≤ 0xf4) (rest : List UInt8) :
    0x80 ≤ (decodeFour first rest).1 := by
  fun_cases decodeFour first rest with
  | case1 second third fourth _ valid =>
    have large := (isSecond_large (Bool.and_eq_true_iff.mp valid).1).2
    omega
  | case2 | case3 => exact le_invalidRune

theorem le_decodeRune (high : 0x80 ≤ first.toNat) (rest : List UInt8) :
    0x80 ≤ (decodeRune first rest).1 := by
  unfold decodeRune
  rw [if_neg (by omega)]
  split_ifs with two three four
  · exact le_decodeTwo two.1 two.2 rest
  · exact le_decodeThree three.1 three.2 rest
  · exact le_decodeFour four.1 four.2 rest
  · exact le_invalidRune

theorem runes_cons_ascii (ascii : first.toNat < 0x80) (rest : Text) :
    runes (first :: rest) = first.toNat :: runes rest := by
  rw [runes, runesAfter, decodeRune_ascii ascii]
  rfl

theorem runes_of_ascii (ascii : IsAscii text) : runes text = text.map UInt8.toNat := by
  induction text with
  | nil => rfl
  | cons first rest ih =>
    rcases forall_mem_cons.mp ascii with ⟨firstAscii, restAscii⟩
    rw [runes_cons_ascii firstAscii, ih restAscii, map_cons]

theorem ascii_of_runes (small : ∀ rune ∈ runes text, rune < 0x80) : IsAscii text := by
  induction text with
  | nil => exact nofun
  | cons first rest ih =>
    have firstAscii : first.toNat < 0x80 := by
      by_contra high
      have large := le_decodeRune (Nat.le_of_not_lt high) rest
      have bounded := small (decodeRune first rest).1 (by simp [runes, runesAfter])
      omega
    rw [runes_cons_ascii firstAscii] at small
    rcases forall_mem_cons.mp small with ⟨_, restSmall⟩
    exact forall_mem_cons.mpr ⟨firstAscii, ih restSmall⟩

theorem lt_of_ascii_encodeRune {rune : ℕ} (ascii : IsAscii (encodeRune rune)) : rune < 0x80 := by
  by_contra high
  unfold encodeRune at ascii
  have first : ∀ {byte : UInt8} {rest : List UInt8}, IsAscii (byte :: rest) → byte.toNat < 0x80 :=
    fun all => all _ (mem_cons_self)
  split_ifs at ascii with two replaced three
  · have small := first ascii
    rw [UInt8.toNat_ofNat'] at small
    omega
  · exact absurd (first ascii) (by decide)
  · have small := first ascii
    rw [UInt8.toNat_ofNat'] at small
    omega
  · have small := first ascii
    rw [UInt8.toNat_ofNat'] at small
    omega

theorem small_of_ascii_mapRunes {change : ℕ → ℕ} (ascii : IsAscii (mapRunes change text)) {rune : ℕ}
    (member : rune ∈ runes text) : change rune < 0x80 := by
  apply lt_of_ascii_encodeRune
  intro byte inside
  exact ascii byte (mem_flatMap.mpr ⟨rune, member, inside⟩)

end Gonnect.Utf8
