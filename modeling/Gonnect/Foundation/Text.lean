/-!
# Texts as byte strings

A Go string is a sequence of bytes and is compared byte by byte.
-/

namespace Gonnect

abbrev Text := List UInt8

instance : LawfulBEq Text :=
  inferInstance

/-- The bytes of a Go string constant with one byte per character. -/
def bytes (text : String) : Text :=
  text.toList.map fun character => UInt8.ofNat character.toNat

def hasSuffix (text suffix : Text) : Bool :=
  suffix.isSuffixOf text

end Gonnect
