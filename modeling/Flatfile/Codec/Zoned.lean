import Flatfile.Codec.DecimalDigits
import Flatfile.Codec.Sign

/-!
# Zoned decimals

One digit a byte, in its lower half. The upper half is the zone of the charset, except that of the
last byte, which is the sign.
-/

namespace Flatfile

namespace Zoned

def assemble (zone sign : UInt8) : List UInt8 → List UInt8
  | [] => []
  | [last] => [(sign <<< 4) ||| (last &&& 0x0F)]
  | d :: rest => ((zone <<< 4) ||| d) :: assemble zone sign rest

def encode (family : SignFamily) (signs : Signs) (scale size : Nat) (value : Decimal) :
    Except ConvertError (List UInt8) := do
  let (negative, digits) ← DecimalDigits.ofDecimal value scale size
  .ok (assemble family.zone (signs.nibble negative) digits)

def bodyDigit (family : SignFamily) (b : UInt8) : Except ConvertError UInt8 :=
  if family.acceptsZone (b >>> 4) then DecimalDigits.checkDigit (b &&& 0x0F)
  else .error (.invalidSign .zone (b >>> 4).toNat)

def decode (family : SignFamily) (signs : Signs) (scale : Nat) (bytes : List UInt8) :
    Except ConvertError Decimal :=
  match bytes.getLast? with
  | none => .error (.wrongWidth 1 0)
  | some last => do
    let body ← bytes.dropLast.mapM (bodyDigit family)
    let digit ← DecimalDigits.checkDigit (last &&& 0x0F)
    let negative ← signs.isNegative .zone (last >>> 4)
    DecimalDigits.toDecimal negative scale (body ++ [digit])

end Zoned

structure Zoned where
  size : Nat
  scale : Nat
  family : SignFamily
  signs : SignChoice

namespace Zoned

def resolved (t : Zoned) (numeric : NumericFormat) : Signs :=
  .resolve t.family t.signs ⟨numeric.positiveZone, numeric.negativeZone⟩

def decodeField (t : Zoned) (coding : Coding) (bytes : List UInt8) : Except ConvertError Value := do
  checkWidth bytes t.size
  if coding.isBlank bytes then .ok .null
  else
    let d ← decode t.family (t.resolved coding.numeric) t.scale bytes
    .ok (.decimal d)

def encodeField (t : Zoned) (coding : Coding) (value : Value) :
    Except ConvertError (List UInt8) := do
  if value.isNull then .ok (coding.blank t.size)
  else
    let d ← numberOf value
    encode t.family (t.resolved coding.numeric) t.scale t.size d

def dataType (t : Zoned) : DataType :=
  { name := "SZ", width := t.size, decodeBytes := t.decodeField, encodeBytes := t.encodeField }

def ofArgs (args : Args) (env : FieldEnv) : Except ConvertError Zoned := do
  args.between 1 4
  let size ← args.size 0
  DecimalDigits.checkField size
  let scale ← args.scale 1
  let signs ← args.signs
  .ok { size, scale, family := .ofCharset env.charset, signs }

end Zoned
end Flatfile
