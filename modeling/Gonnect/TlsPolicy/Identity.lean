import Gonnect.Firewall.Config
import Gonnect.Foundation.Utf8

/-!
# Server identities and scopes

The identity of a server is a DNS name or an IP address. A DNS name is brought into a
canonical form: one final dot is removed, the name is lowercased, and each of its labels has
to consist of letters, digits and inner hyphens.

The labels are checked after the name has been lowercased. Two runes outside ASCII have a
lowercase form inside, so a name with one of them passes the check.
-/

namespace Gonnect.TlsPolicy

open Netip Utf8 List

structure Library where
  runeToLower : ℕ → ℕ
  /-- Outside ASCII only `İ` and the Kelvin sign have a lowercase form inside. -/
  lower_ascii : ∀ rune, 0x80 ≤ rune → runeToLower rune < 0x80 → rune = 0x130 ∨ rune = 0x212a
  trimSpace : Text → Text
  trimSpace_graphic : ∀ text, (∀ byte ∈ text, 0x21 ≤ byte.toNat ∧ byte.toNat ≤ 0x7e) →
    trimSpace text = text
  parseAddr : Text → Option Addr
  parseAddr_valid : ∀ text, ∀ addr ∈ parseAddr text, addr.isValid = true
  addrString : Addr → Text
  addrString_graphic : ∀ addr, addr.isValid = true → addr.zone = "" →
    ∀ byte ∈ addrString addr, 0x21 ≤ byte.toNat ∧ byte.toNat ≤ 0x7e ∧ byte ≠ 91
  parseAddr_addrString : ∀ addr, addr.isValid = true → addr.zone = "" →
    addrString addr ≠ [] ∧ parseAddr (addrString addr) = some addr

def dot : UInt8 := 46

def hyphen : UInt8 := 45

inductive DNSNameError where
  | empty
  | whitespace
  | emptyAfterDot
  | tooLong (length : ℕ)
  | emptyLabel (value : Text)
  | longLabel (label : Text)
  | hyphenLabel (label : Text)
  | character (value : Text) (character : UInt8)
deriving DecidableEq

def trimRootDot (value : Text) : Text :=
  if value.getLast? = some dot then value.dropLast else value

def asciiLower (byte : UInt8) : UInt8 :=
  if 0x41 ≤ byte.toNat ∧ byte.toNat ≤ 0x5a then byte + 32 else byte

variable (library : Library)

/-- `strings.ToLower`, with its own path for ASCII -/
def toLower (value : Text) : Text :=
  if IsAscii value then value.map asciiLower else mapRunes library.runeToLower value

def isLabelByte (byte : UInt8) : Bool :=
  (0x61 ≤ byte.toNat && byte.toNat ≤ 0x7a) || (0x30 ≤ byte.toNat && byte.toNat ≤ 0x39) ||
    byte == hyphen

def checkLabel (value label : Text) : Except DNSNameError Unit :=
  if label.length = 0 then
    .error (.emptyLabel value)
  else if label.length > 63 then
    .error (.longLabel label)
  else if label.head? = some hyphen ∨ label.getLast? = some hyphen then
    .error (.hyphenLabel label)
  else
    match label.find? fun byte => !isLabelByte byte with
    | some byte => .error (.character value byte)
    | none => .ok ()

def canonicalDNSName (value : Text) : Except DNSNameError Text :=
  if value = [] then
    .error .empty
  else if library.trimSpace value ≠ value then
    .error .whitespace
  else if trimRootDot value = [] then
    .error .emptyAfterDot
  else
    let value := toLower library (trimRootDot value)
    if value.length > 253 then
      .error (.tooLong value.length)
    else do
      (value.splitOn dot).forM (checkLabel value)
      .ok value

structure ValidLabel (label : Text) : Prop where
  nonempty : label ≠ []
  short : label.length ≤ 63
  first : label.head? ≠ some hyphen
  last : label.getLast? ≠ some hyphen
  bytes : ∀ byte ∈ label, isLabelByte byte = true

theorem checkLabel_ok_iff (value label : Text) :
    checkLabel value label = .ok () ↔ ValidLabel label := by
  unfold checkLabel
  split_ifs with empty long edge
  · constructor
    · exact nofun
    · intro valid
      exact absurd (length_eq_zero_iff.mp empty) valid.nonempty
  · constructor
    · exact nofun
    · intro valid
      exact absurd valid.short (by omega)
  · constructor
    · exact nofun
    · intro valid
      exact absurd edge (not_or.mpr ⟨valid.first, valid.last⟩)
  · rw [not_or] at edge
    split
    · rename_i byte found
      constructor
      · exact nofun
      · intro valid
        have invalid := find?_some found
        rw [valid.bytes byte (mem_of_find?_eq_some found)] at invalid
        cases invalid
    · rename_i absent
      refine ⟨fun _ => ⟨?_, by omega, edge.1, edge.2, ?_⟩, fun _ => rfl⟩
      · rintro rfl
        exact empty rfl
      · intro byte member
        simpa using find?_eq_none.mp absent byte member

theorem forM_checkLabel_ok_iff (value : Text) (labels : List Text) :
    labels.forM (checkLabel value) = .ok () ↔ ∀ label ∈ labels, ValidLabel label := by
  induction labels with
  | nil => exact ⟨fun _ => nofun, fun _ => rfl⟩
  | cons label rest ih =>
    rw [forall_mem_cons, ← ih, ← checkLabel_ok_iff value]
    change (checkLabel value label >>= fun _ => rest.forM (checkLabel value)) = _ ↔ _
    cases checkLabel value label with
    | error err => exact ⟨nofun, fun both => absurd both.1 nofun⟩
    | ok done => exact ⟨fun rest => ⟨rfl, rest⟩, And.right⟩

/-- What `canonicalDNSName` accepts, and with which result. -/
structure Canonicalizes (value name : Text) : Prop where
  nonempty : value ≠ []
  trimmed : library.trimSpace value = value
  beforeDot : trimRootDot value ≠ []
  lowered : name = toLower library (trimRootDot value)
  short : name.length ≤ 253
  labels : ∀ label ∈ name.splitOn dot, ValidLabel label

theorem canonicalDNSName_ok_iff (value name : Text) :
    canonicalDNSName library value = .ok name ↔ Canonicalizes library value name := by
  unfold canonicalDNSName
  split_ifs with empty space bare
  · exact ⟨nofun, fun canonicalizes => absurd empty canonicalizes.nonempty⟩
  · exact ⟨nofun, fun canonicalizes => absurd canonicalizes.trimmed space⟩
  · exact ⟨nofun, fun canonicalizes => absurd bare canonicalizes.beforeDot⟩
  · dsimp only
    rw [not_not] at space
    split_ifs with long
    · refine ⟨nofun, fun canonicalizes => ?_⟩
      rw [← canonicalizes.lowered] at long
      exact absurd canonicalizes.short (by omega)
    · have labels := forM_checkLabel_ok_iff (toLower library (trimRootDot value))
        ((toLower library (trimRootDot value)).splitOn dot)
      cases checked : ((toLower library (trimRootDot value)).splitOn dot).forM
          (checkLabel (toLower library (trimRootDot value))) with
      | error err =>
        refine ⟨nofun, fun canonicalizes => ?_⟩
        have valid := canonicalizes.labels
        rw [canonicalizes.lowered] at valid
        cases checked.symm.trans (labels.mpr valid)
      | ok done =>
        constructor
        · rintro ⟨⟩
          exact ⟨empty, space, bare, rfl, by omega, labels.mp checked⟩
        · rintro ⟨_, _, _, rfl, _, _⟩
          rfl

variable {value name : Text}

theorem mem_label_of_mem {byte : UInt8} (member : byte ∈ value) :
    byte = dot ∨ ∃ label ∈ value.splitOn dot, byte ∈ label := by
  have joined : ∀ labels : List Text, byte ∈ [dot].intercalate labels →
      byte = dot ∨ ∃ label ∈ labels, byte ∈ label := by
    intro labels
    induction labels with
    | nil => exact nofun
    | cons label rest ih =>
      cases rest with
      | nil =>
        intro inside
        exact .inr ⟨label, mem_singleton_self label, by simpa using inside⟩
      | cons next rest =>
        rw [intercalate_cons_cons, mem_append, mem_append]
        rintro ((inside | separator) | inside)
        · exact .inr ⟨label, mem_cons_self, inside⟩
        · exact .inl (mem_singleton.mp separator)
        · rcases ih inside with isDot | ⟨other, isLabel, inOther⟩
          · exact .inl isDot
          · exact .inr ⟨other, mem_cons_of_mem label isLabel, inOther⟩
  apply joined
  rw [intercalate_splitOn]
  exact member

def ValidName (name : Text) : Prop :=
  ∀ label ∈ name.splitOn dot, ValidLabel label

namespace ValidName

variable (valid : ValidName name)

include valid

theorem byte {byte : UInt8} (member : byte ∈ name) : byte = dot ∨ isLabelByte byte = true := by
  rcases mem_label_of_mem member with isDot | ⟨label, isLabel, inside⟩
  · exact .inl isDot
  · exact .inr ((valid label isLabel).bytes byte inside)

theorem range {byte : UInt8} (member : byte ∈ name) :
    0x2d ≤ byte.toNat ∧ byte.toNat ≤ 0x7a ∧ ¬(0x3a ≤ byte.toNat ∧ byte.toNat ≤ 0x60) := by
  rcases valid.byte member with rfl | inLabel
  · decide
  · simp only [isLabelByte, Bool.or_eq_true, Bool.and_eq_true, decide_eq_true_eq,
      beq_iff_eq] at inLabel
    rcases inLabel with (letter | digit) | rfl
    · omega
    · omega
    · decide

theorem graphic {byte : UInt8} (member : byte ∈ name) : 0x21 ≤ byte.toNat ∧ byte.toNat ≤ 0x7e := by
  have range := valid.range member
  omega

theorem ascii : IsAscii name := by
  intro byte member
  have range := valid.range member
  omega

theorem lower : name.map asciiLower = name := by
  refine (map_congr_left fun byte member => ?_).trans (map_id name)
  have range := valid.range member
  exact if_neg (by omega)

theorem nonempty : name ≠ [] := by
  rintro rfl
  exact (valid [] (by simp)).nonempty rfl

theorem trimRootDot_eq : trimRootDot name = name := by
  unfold trimRootDot
  rw [if_neg]
  intro last
  rcases getLast?_eq_some_iff.mp last with ⟨front, rfl⟩
  have empty : [] ∈ (front ++ [dot]).splitOn dot := by
    rw [splitOn, splitOnP_append_cons front [] (by simp)]
    simp
  exact (valid [] empty).nonempty rfl

end ValidName

inductive ServerIdentity where
  | invalid
  | dns (name : Text)
  | ip (addr : Addr)
deriving DecidableEq

inductive IdentityError where
  | empty
  | whitespace
  | zone (value : Text)
  | name (err : DNSNameError)
  | ambiguous (value : Text)
deriving DecidableEq

def unbracket (value : Text) : Text :=
  if 2 ≤ value.length ∧ value.head? = some 91 ∧ value.getLast? = some 93 then
    value.tail.dropLast
  else
    value

def parseServerIdentity (value : Text) : Except IdentityError ServerIdentity :=
  if value = [] then
    .error .empty
  else if library.trimSpace value ≠ value then
    .error .whitespace
  else
    match library.parseAddr (unbracket value) with
    | some addr =>
      if addr.zone ≠ "" then .error (.zone value) else .ok (.ip addr.unmap)
    | none =>
      match canonicalDNSName library value with
      | .error err => .error (.name err)
      | .ok dns =>
        if (library.parseAddr dns).isSome then .error (.ambiguous value) else .ok (.dns dns)

namespace ServerIdentity

def valid : ServerIdentity → Bool
  | .invalid => false
  | _ => true

def string : ServerIdentity → Text
  | .invalid => []
  | .dns name => name
  | .ip addr => library.addrString addr

end ServerIdentity

structure ParsesIP (value : Text) (addr : Addr) : Prop where
  nonempty : value ≠ []
  trimmed : library.trimSpace value = value
  parsed : library.parseAddr (unbracket value) = some addr
  zone : addr.zone = ""

structure ParsesDNS (value name : Text) : Prop where
  noAddr : library.parseAddr (unbracket value) = none
  canonicalizes : Canonicalizes library value name
  unambiguous : library.parseAddr name = none

variable {library} {addr : Addr} {identity : ServerIdentity}

theorem Canonicalizes.idempotent (canonicalizes : Canonicalizes library value name) :
    Canonicalizes library name name := by
  have valid : ValidName name := canonicalizes.labels
  refine ⟨valid.nonempty, library.trimSpace_graphic name fun _ => valid.graphic, ?_, ?_,
    canonicalizes.short, valid⟩
  · rw [valid.trimRootDot_eq]
    exact valid.nonempty
  · rw [valid.trimRootDot_eq, toLower, if_pos valid.ascii, valid.lower]

theorem parseServerIdentity_ip (parses : ParsesIP library value addr) :
    parseServerIdentity library value = .ok (.ip addr.unmap) := by
  simp [parseServerIdentity, parses.nonempty, parses.trimmed, parses.parsed, parses.zone]

theorem parseServerIdentity_dns (parses : ParsesDNS library value name) :
    parseServerIdentity library value = .ok (.dns name) := by
  have canonical := (canonicalDNSName_ok_iff library value name).mpr parses.canonicalizes
  simp [parseServerIdentity, parses.canonicalizes.nonempty, parses.canonicalizes.trimmed,
    parses.noAddr, canonical, parses.unambiguous]

theorem parseServerIdentity_cases (accepted : parseServerIdentity library value = .ok identity) :
    (∃ addr, identity = .ip addr.unmap ∧ ParsesIP library value addr) ∨
      ∃ name, identity = .dns name ∧ ParsesDNS library value name := by
  unfold parseServerIdentity at accepted
  split_ifs at accepted with empty space
  rw [not_not] at space
  cases parsed : library.parseAddr (unbracket value) with
  | some addr =>
    simp only [parsed] at accepted
    split_ifs at accepted with zone
    rw [not_not] at zone
    cases accepted
    exact .inl ⟨addr, rfl, empty, space, parsed, zone⟩
  | none =>
    simp only [parsed] at accepted
    cases canonical : canonicalDNSName library value with
    | error err =>
      rw [canonical] at accepted
      cases accepted
    | ok name =>
      simp only [canonical] at accepted
      split_ifs at accepted with ambiguous
      cases accepted
      refine .inr ⟨name, rfl, parsed, (canonicalDNSName_ok_iff library value name).mp canonical,
        ?_⟩
      simpa using ambiguous

theorem unbracket_of_not_mem (absent : 91 ∉ value) : unbracket value = value := by
  refine if_neg fun bracketed => absent ?_
  exact mem_of_head? bracketed.2.1

theorem unmap_unmap (addr : Addr) : addr.unmap.unmap = addr.unmap := by
  cases addr with
  | zero | v4 value => rfl
  | v6 value zone =>
    simp only [Addr.unmap]
    split_ifs with mapped
    · rfl
    · simp [if_neg mapped]

theorem isValid_unmap (addr : Addr) : addr.unmap.isValid = addr.isValid := by
  cases addr with
  | zero | v4 value => rfl
  | v6 value zone =>
    simp only [Addr.unmap]
    split_ifs with mapped
    · rfl
    · rfl

theorem zone_unmap (zone : addr.zone = "") : addr.unmap.zone = "" := by
  cases addr with
  | zero | v4 value => rfl
  | v6 value own =>
    simp only [Addr.unmap]
    split_ifs with mapped
    · rfl
    · exact zone

theorem parseServerIdentity_string (accepted : parseServerIdentity library value = .ok identity) :
    parseServerIdentity library (identity.string library) = .ok identity := by
  rcases parseServerIdentity_cases accepted with ⟨addr, rfl, parses⟩ | ⟨name, rfl, parses⟩
  · have valid : addr.unmap.isValid = true := by
      rw [isValid_unmap]
      exact library.parseAddr_valid _ addr parses.parsed
    have noZone := zone_unmap parses.zone
    have graphic := library.addrString_graphic addr.unmap valid noZone
    rcases library.parseAddr_addrString addr.unmap valid noZone with ⟨nonempty, parsed⟩
    have again : ParsesIP library (library.addrString addr.unmap) addr.unmap := by
      refine ⟨nonempty, ?_, ?_, noZone⟩
      · apply library.trimSpace_graphic
        intro byte member
        exact ⟨(graphic byte member).1, (graphic byte member).2.1⟩
      · rw [unbracket_of_not_mem fun member => (graphic 91 member).2.2 rfl]
        exact parsed
    rw [ServerIdentity.string, parseServerIdentity_ip again, unmap_unmap]
  · have valid : ValidName name := parses.canonicalizes.labels
    have plain : unbracket name = name := by
      apply unbracket_of_not_mem
      intro member
      exact absurd (valid.range member) (by decide)
    apply parseServerIdentity_dns
    refine ⟨?_, parses.canonicalizes.idempotent, parses.unambiguous⟩
    exact (congrArg library.parseAddr plain).trans parses.unambiguous

/-- Whether a rune outside ASCII becomes an ASCII one when it is lowercased. -/
def foldsIntoASCII (rune : ℕ) : Bool :=
  rune == 0x130 || rune == 0x212a

structure Documented (value name : Text) : Prop where
  ascii : IsAscii value
  lower : name = (trimRootDot value).map asciiLower

theorem ascii_of_trimRootDot (ascii : IsAscii (trimRootDot value)) : IsAscii value := by
  unfold trimRootDot at ascii
  split_ifs at ascii with last
  · rcases getLast?_eq_some_iff.mp last with ⟨front, rfl⟩
    rw [dropLast_concat] at ascii
    intro byte member
    rcases mem_append.mp member with inFront | isDot
    · exact ascii byte inFront
    · rw [mem_singleton.mp isDot]
      decide
  · exact ascii

theorem trimRootDot_ascii (ascii : IsAscii value) : IsAscii (trimRootDot value) := by
  unfold trimRootDot
  split_ifs with last
  · exact fun byte member => ascii byte (dropLast_subset value member)
  · exact ascii

theorem ascii_of_toLower (lowered : IsAscii (toLower library value))
    (plain : ∀ rune ∈ runes value, foldsIntoASCII rune = false) : IsAscii value := by
  by_contra notAscii
  rw [toLower, if_neg notAscii] at lowered
  refine notAscii (ascii_of_runes fun rune member => ?_)
  by_contra high
  have special := library.lower_ascii rune (Nat.le_of_not_lt high)
    (small_of_ascii_mapRunes lowered member)
  have folds := plain rune member
  rcases special with rfl | rfl
  · cases folds
  · cases folds

theorem documented_iff (canonicalizes : Canonicalizes library value name) :
    Documented value name ↔ ∀ rune ∈ runes (trimRootDot value), foldsIntoASCII rune = false := by
  constructor
  · intro documented rune member
    rw [runes_of_ascii (trimRootDot_ascii documented.ascii)] at member
    rcases mem_map.mp member with ⟨byte, inside, rfl⟩
    have small := trimRootDot_ascii documented.ascii byte inside
    simp only [foldsIntoASCII, Bool.or_eq_false_iff, beq_eq_false_iff_ne]
    omega
  · intro plain
    have lowered : IsAscii (toLower library (trimRootDot value)) := by
      rw [← canonicalizes.lowered]
      exact ValidName.ascii canonicalizes.labels
    have ascii := ascii_of_toLower lowered plain
    refine ⟨ascii_of_trimRootDot ascii, ?_⟩
    rw [canonicalizes.lowered, toLower, if_pos ascii]

/-- Every canonical name is valid and canonical again, and every parsed identity is parsed from
its own text. Its value was an ASCII text, and the name is its lowercase form, exactly if the
value holds neither of the runes that fold into ASCII. -/
theorem accepted_names (library : Library) (value : Text) :
    (∀ name, canonicalDNSName library value = .ok name →
      ValidName name ∧ canonicalDNSName library name = .ok name ∧
        (Documented value name ↔
          ∀ rune ∈ runes (trimRootDot value), foldsIntoASCII rune = false)) ∧
    ∀ identity, parseServerIdentity library value = .ok identity →
      parseServerIdentity library (identity.string library) = .ok identity ∧
        ∀ name, identity = .dns name → canonicalDNSName library value = .ok name := by
  constructor
  · intro name accepted
    have canonicalizes := (canonicalDNSName_ok_iff library value name).mp accepted
    exact ⟨canonicalizes.labels,
      (canonicalDNSName_ok_iff library name name).mpr canonicalizes.idempotent,
      documented_iff canonicalizes⟩
  · intro identity accepted
    refine ⟨parseServerIdentity_string accepted, ?_⟩
    rintro name rfl
    rcases parseServerIdentity_cases accepted with ⟨addr, same, _⟩ | ⟨other, same, parses⟩
    · cases same
    · cases same
      exact (canonicalDNSName_ok_iff library value name).mpr parses.canonicalizes

/-! A library in which an address is written as its family and as many strokes as its value. -/

def unaryAddr : Addr → Text
  | .zero => []
  | .v4 value => 52 :: replicate value.toNat 124
  | .v6 value _ => 54 :: replicate value.toNat 124

def parseUnaryAddr : Text → Option Addr
  | 52 :: strokes => some (.v4 (BitVec.ofNat 32 strokes.length))
  | 54 :: strokes => some (.v6 (BitVec.ofNat 128 strokes.length) "")
  | _ => none

def isSpaceByte (byte : UInt8) : Bool :=
  byte == 32 || (9 ≤ byte.toNat && byte.toNat ≤ 13)

theorem isSpaceByte_graphic {byte : UInt8} (graphic : 0x21 ≤ byte.toNat) :
    isSpaceByte byte = false := by
  simp only [isSpaceByte, Bool.or_eq_false_iff, beq_eq_false_iff_ne, Bool.and_eq_false_iff,
    decide_eq_false_iff_not]
  refine ⟨?_, by omega⟩
  rintro rfl
  exact absurd graphic (by decide)

def unaryLibrary : Library where
  runeToLower rune :=
    if rune = 0x130 then 0x69 else if rune = 0x212a then 0x6b
    else if 0x41 ≤ rune ∧ rune ≤ 0x5a then rune + 32 else rune
  lower_ascii := by
    intro rune high small
    split_ifs at small with dotted kelvin letter
    · exact .inl dotted
    · exact .inr kelvin
    · omega
    · omega
  trimSpace text := (text.dropWhile isSpaceByte).rdropWhile isSpaceByte
  trimSpace_graphic := by
    intro text graphic
    have kept : ∀ byte ∈ text, isSpaceByte byte = false :=
      fun byte member => isSpaceByte_graphic (graphic byte member).1
    have front : text.dropWhile isSpaceByte = text := by
      rw [dropWhile_eq_self_iff]
      intro nonempty
      rw [kept _ (getElem_mem nonempty)]
      exact nofun
    rw [front, rdropWhile_eq_self_iff]
    intro nonempty
    rw [kept _ (getLast_mem nonempty)]
    exact nofun
  parseAddr := parseUnaryAddr
  parseAddr_valid := by
    intro text addr parsed
    unfold parseUnaryAddr at parsed
    split at parsed
    · cases parsed
      rfl
    · cases parsed
      rfl
    · cases parsed
  addrString := unaryAddr
  addrString_graphic := by
    have strokes : ∀ (family : UInt8) (count : ℕ), 0x21 ≤ family.toNat → family.toNat ≤ 0x7e →
        family ≠ 91 → ∀ byte ∈ family :: replicate count 124,
          0x21 ≤ byte.toNat ∧ byte.toNat ≤ 0x7e ∧ byte ≠ 91 := by
      intro family count low high noBracket byte member
      rcases mem_cons.mp member with rfl | stroke
      · exact ⟨low, high, noBracket⟩
      · rw [eq_of_mem_replicate stroke]
        decide
    intro addr valid noZone
    cases addr with
    | zero => cases valid
    | v4 value => exact strokes 52 value.toNat (by decide) (by decide) (by decide)
    | v6 value zone => exact strokes 54 value.toNat (by decide) (by decide) (by decide)
  parseAddr_addrString := by
    intro addr valid noZone
    cases addr with
    | zero => cases valid
    | v4 value => simp [unaryAddr, parseUnaryAddr]
    | v6 value zone =>
      cases noZone
      simp [unaryAddr, parseUnaryAddr]

def kelvinSign : Text :=
  [0xe2, 0x84, 0xaa]

/-- The Kelvin sign is accepted as the name "k". -/
theorem kelvin_sign_accepted :
    parseServerIdentity unaryLibrary kelvinSign = .ok (.dns (bytes "k")) ∧
      canonicalDNSName unaryLibrary kelvinSign = .ok (bytes "k") ∧ ¬IsAscii kelvinSign := by
  decide +kernel

end Gonnect.TlsPolicy
