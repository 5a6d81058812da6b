import Flatfile.Codec.DataType
import Flatfile.Decimal.Rounding

/-!
# Binary integers

Integers in two's complement, most significant byte first, in units of the scale of the field.
-/

namespace Flatfile

structure BinaryInteger where
  size : Nat
  scale : Nat

namespace BinaryInteger

def unsigned (bytes : List UInt8) : Nat :=
  bytes.foldl (fun n b => 256 * n + b.toNat) 0

def signed (bytes : List UInt8) : Int :=
  let n := unsigned bytes
  if 2 * n < Nat.pow 256 bytes.length then n else (n : Int) - Nat.pow 256 bytes.length

def bytesOf : Nat → Nat → List UInt8
  | 0, _ => []
  | size + 1, n => bytesOf size (n / 256) ++ [UInt8.ofNat (n % 256)]

def twosComplement (size : Nat) (n : Int) : List UInt8 :=
  bytesOf size (n % (Nat.pow 256 size : Nat)).toNat

def inRange (size : Nat) (n : Int) : Bool :=
  -(Nat.pow 256 size : Nat) ≤ 2 * n && 2 * n < (Nat.pow 256 size : Nat)

def decode (t : BinaryInteger) (_ : Coding) (bytes : List UInt8) : Except ConvertError Value := do
  checkWidth bytes t.size
  match Decimal.ofInt? (signed bytes) t.scale with
  | some d => .ok (.decimal d)
  | none => .error (.overflow (toString (signed bytes)) t.size)

/-- The number to be written; null is written as zero. -/
def rescaled (t : BinaryInteger) (value : Value) : Except ConvertError Decimal :=
  if value.isNull then .ok .zero else (numberOf value).map (·.rescale t.scale)

def encode (t : BinaryInteger) (_ : Coding) (value : Value) : Except ConvertError (List UInt8) := do
  let v ← t.rescaled value
  if inRange t.size v.mantissa then .ok (twosComplement t.size v.mantissa)
  else .error (.overflow v.toText t.size)

def dataType (t : BinaryInteger) : DataType :=
  { name := "BI", width := t.size, decodeBytes := t.decode, encodeBytes := t.encode }

def ofArgs (args : Args) (_ : FieldEnv) : Except ConvertError BinaryInteger := do
  args.between 1 2
  let size ← args.size 0
  if size ∉ [1, 2, 4, 8] then .error (.invalid s!"BI size must be 1, 2, 4 or 8 bytes, got {size}")
  else
    let scale ← args.scale 1
    .ok { size, scale }

end BinaryInteger
end Flatfile
