import Flatfile.Codec.DataType
import Flatfile.Decimal.Rounding

/-!
# The digits of a decimal field

A decimal field holds a sign and a fixed number of digits, the last of them after an implied
point. A number is rounded to the scale of the field and may then have at most 18 digits, and no
more than the field has room for.
-/

namespace Flatfile

namespace DecimalDigits

def maxWritten : Nat := 18

/-- The most digits of a field: as many as every decimal that fits them can have. -/
def maxField : Nat := 28

def checkField (capacity : Nat) : Except ConvertError Unit :=
  if maxField < capacity then
    .error (.invalid s!"{capacity} digit(s) exceed the {maxField} a decimal field can hold")
  else .ok ()

def expand : Nat → Nat → List UInt8
  | 0, _ => []
  | width + 1, n => expand width (n / 10) ++ [UInt8.ofNat (n % 10)]

def count (n : Nat) : Nat :=
  if n = 0 then 0 else (Decimal.digits n).length

def ofDecimal (value : Decimal) (scale capacity : Nat) : Except ConvertError (Bool × List UInt8) :=
  let n := value.unitsAt scale
  if Decimal.tenPow maxWritten ≤ n then .error (.tooManyDigits (count n))
  else if Decimal.tenPow capacity ≤ n then .error (.overflow value.toText capacity)
  else .ok (value.negative && n != 0, expand capacity n)

def value (digits : List UInt8) : Nat :=
  digits.foldl (fun n d => 10 * n + d.toNat) 0

def text (digits : List UInt8) : String :=
  String.ofList (digits.map fun d => Char.ofNat (0x30 + d.toNat))

def toDecimal (negative : Bool) (scale : Nat) (digits : List UInt8) : Except ConvertError Decimal :=
  match Decimal.ofParts? (negative && value digits != 0) (value digits) scale with
  | some d => .ok d
  | none => .error (.overflow (text digits) maxField)

def checkDigit (nibble : UInt8) : Except ConvertError UInt8 :=
  if 9 < nibble then .error (.invalidDigit nibble.toNat) else .ok nibble

end DecimalDigits
end Flatfile
