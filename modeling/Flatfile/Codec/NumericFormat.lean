import Flatfile.Charset.Basic

/-!
# How numbers are written

The file-wide choices that number fields share, and what a field's data type is handed to read and
write with.
-/

namespace Flatfile

structure NumericFormat where
  positiveZone : Option UInt8 := none
  negativeZone : Option UInt8 := none
  positivePack : Option UInt8 := none
  negativePack : Option UInt8 := none
  requiredPoint : Bool := false
  /-- The sign stands in the first byte of the field and zeros fill the room after it. -/
  fixedSign : Bool := false
  requiredPlus : Bool := false
  deriving DecidableEq

structure Coding where
  charset : Charset
  numeric : NumericFormat

def Coding.space (coding : Coding) : UInt8 :=
  coding.charset.encodeChar ' '

def Coding.blank (coding : Coding) (size : Nat) : List UInt8 :=
  List.replicate size coding.space

def Coding.isBlank (coding : Coding) (bytes : List UInt8) : Bool :=
  bytes.all (· == coding.space)

end Flatfile
