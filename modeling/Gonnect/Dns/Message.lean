import Gonnect.Foundation.Text
import Mathlib.Data.Nat.Notation

/-!
# DNS messages

The package keeps a message as a header with four sections. Names are texts in
presentation form, and the data of a record is the wire form of its value, except that
names inside it stay texts.
-/

namespace Gonnect.Dns

def typeA : UInt16 := 1

def typeNS : UInt16 := 2

def typeCNAME : UInt16 := 5

def typePTR : UInt16 := 12

def typeMX : UInt16 := 15

def typeTXT : UInt16 := 16

def typeAAAA : UInt16 := 28

def typeSRV : UInt16 := 33

def classIN : UInt16 := 1

def opcodeQuery : UInt8 := 0

def rcodeSuccess : UInt8 := 0

def rcodeFormatError : UInt8 := 1

def rcodeServerFailure : UInt8 := 2

def rcodeNameError : UInt8 := 3

def rcodeNotImplemented : UInt8 := 4

structure Question where
  name : Text
  qtype : UInt16
  qclass : UInt16
deriving DecidableEq, Repr

structure Resource where
  name : Text
  rtype : UInt16
  rclass : UInt16
  ttl : UInt32
  data : List UInt8
deriving DecidableEq, Repr

structure Message where
  id : UInt16 := 0
  response : Bool := false
  opcode : UInt8 := 0
  rcode : UInt8 := 0
  authoritative : Bool := false
  truncated : Bool := false
  recursionDesired : Bool := false
  recursionAvailable : Bool := false
  authenticatedData : Bool := false
  checkingDisabled : Bool := false
  questions : List Question := []
  answers : List Resource := []
  authorities : List Resource := []
  additionals : List Resource := []
deriving DecidableEq, Repr

def dot : UInt8 := 46

def absName (name : Text) : Text :=
  if name = [] ∨ name = [dot] then
    [dot]
  else if name.getLast? = some dot then
    name
  else
    name ++ [dot]

/-- `%d` -/
def decimal (value : ℕ) : Text :=
  (Nat.toDigits 10 value).map fun digit => UInt8.ofNat digit.toNat

def cacheKey (msg : Message) : Text :=
  match msg.questions with
  | [] => []
  | question :: _ =>
    absName question.name ++ bytes "|" ++ decimal question.qtype.toNat ++ bytes "|" ++
      decimal question.qclass.toNat

end Gonnect.Dns
