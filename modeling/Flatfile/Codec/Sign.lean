import Flatfile.Codec.DataType

/-!
# Signs in half-bytes

A decimal field keeps its sign in a half-byte. Which half-bytes stand for plus and minus depends
on the charset, and the field or the file may choose its own.
-/

namespace Flatfile

/-- The two families of charsets: those that encode the digit one as `0x31`, and those that encode
it as `0xF1`. -/
inductive SignFamily where
  | ascii
  | ebcdic
  deriving DecidableEq, Repr

namespace SignFamily

def ofCharset (charset : Charset) : SignFamily :=
  if charset.encodeChar '1' = 0xF1 then ebcdic else ascii

def zone : SignFamily → UInt8
  | ascii => 0x3
  | ebcdic => 0xF

def defaults : SignFamily → UInt8 × UInt8
  | ascii => (0x3, 0x7)
  | ebcdic => (0xC, 0xD)

def acceptsZone (family : SignFamily) (nibble : UInt8) : Bool :=
  nibble == family.zone || (family == ebcdic && nibble == 0)

end SignFamily

structure SignChoice where
  positive : Option UInt8 := none
  negative : Option UInt8 := none
  deriving DecidableEq

structure Signs where
  positive : UInt8
  negative : UInt8
  /-- Read as plus, never written. -/
  unsigned : UInt8
  deriving DecidableEq

namespace Signs

def resolve (family : SignFamily) (field file : SignChoice) : Signs :=
  { positive := (field.positive.or file.positive).getD family.defaults.1
    negative := (field.negative.or file.negative).getD family.defaults.2
    unsigned := family.zone }

def nibble (signs : Signs) (negative : Bool) : UInt8 :=
  if negative then signs.negative else signs.positive

/-- The sign that a half-byte stands for. Minus is tried first. -/
def isNegative (signs : Signs) (place : SignPlace) (nibble : UInt8) : Except ConvertError Bool :=
  if nibble = signs.negative then .ok true
  else if nibble = signs.positive ∨ nibble = signs.unsigned then .ok false
  else .error (.invalidSign place nibble.toNat)

end Signs

def Args.signs (args : Args) : Except ConvertError SignChoice := do
  let positive ← args.nibble? 2
  let negative ← args.nibble? 3
  if positive.isSome ≠ negative.isSome then
    .error (.invalid "sign nibbles come in pairs (positive, negative)")
  else .ok { positive, negative }

end Flatfile
