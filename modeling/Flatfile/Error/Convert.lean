import Flatfile.Text.Quoted

/-!
# Conversion errors

Why a field cannot be read from its bytes or columns, or written to them.
-/

namespace Flatfile

inductive SignPlace where
  | zone
  | pack
  deriving DecidableEq, Repr

def SignPlace.name : SignPlace → String
  | zone => "zone"
  | pack => "pack"

inductive ConvertError where
  | invalidSign (place : SignPlace) (nibble : Nat)
  | invalidDigit (nibble : Nat)
  | overflow (value : String) (capacity : Nat)
  | tooManyDigits (significant : Nat)
  | notANumber (text : String)
  | tooLong (length width : Nat)
  | wrongWidth (expected actual : Nat)
  | invalid (reason : String)
  deriving DecidableEq, Repr

def ConvertError.message : ConvertError → String
  | invalidSign place nibble =>
    let shown := Text.upperHex nibble
    s!"invalid {place.name} bits 0x{shown}"
  | invalidDigit nibble =>
    let shown := Text.upperHex nibble
    s!"invalid digit nibble 0x{shown}"
  | overflow value capacity => s!"value {value} does not fit in {capacity} digit(s)"
  | tooManyDigits significant => s!"value has {significant} significant digits (max 18)"
  | notANumber text => s!"not a number: '{text}'"
  | tooLong length width => s!"text of {length} byte(s) exceeds field width {width}"
  | wrongWidth expected actual => s!"expected {expected} byte(s), got {actual}"
  | invalid reason => reason

end Flatfile
