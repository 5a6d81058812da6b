import Flatfile.Codec.DecimalDigits
import Flatfile.Codec.Sign
import Flatfile.Word

/-!
# Packed decimals

Two digits a byte, and the sign in the lower half of the last byte.
-/

namespace Flatfile

namespace Packed

/-- The digits of a field, as far as a word holds twice its size. -/
def capacity (size : Nat) : Nat :=
  Word64.sub (Word64.wrap (2 * size)) 1

def pair : List UInt8 → List UInt8
  | high :: low :: rest => ((high <<< 4) ||| low) :: pair rest
  | _ => []

def encode (signs : Signs) (scale size : Nat) (value : Decimal) :
    Except ConvertError (List UInt8) := do
  let (negative, digits) ← DecimalDigits.ofDecimal value scale (capacity size)
  .ok (pair (digits ++ [signs.nibble negative]))

def halves : List UInt8 → Except ConvertError (List UInt8)
  | [] => .ok []
  | b :: rest => do
    let high ← DecimalDigits.checkDigit (b >>> 4)
    let more ← halves rest
    .ok (high :: (b &&& 0x0F) :: more)

/-- The first half-byte that is no digit decides the error, the upper halves before the lower. -/
def decode (signs : Signs) (scale : Nat) (bytes : List UInt8) : Except ConvertError Decimal := do
  if bytes.isEmpty then .error (.wrongWidth 1 0)
  else
    let nibbles ← halves bytes
    let digits ← nibbles.dropLast.mapM DecimalDigits.checkDigit
    let negative ← signs.isNegative .pack (nibbles.getLast?.getD 0)
    DecimalDigits.toDecimal negative scale digits

end Packed

structure Packed where
  size : Nat
  scale : Nat
  family : SignFamily
  signs : SignChoice

namespace Packed

def resolved (t : Packed) (numeric : NumericFormat) : Signs :=
  .resolve t.family t.signs ⟨numeric.positivePack, numeric.negativePack⟩

def decodeField (t : Packed) (coding : Coding) (bytes : List UInt8) :
    Except ConvertError Value := do
  checkWidth bytes t.size
  if coding.isBlank bytes then .ok .null
  else
    let d ← decode (t.resolved coding.numeric) t.scale bytes
    .ok (.decimal d)

def encodeField (t : Packed) (coding : Coding) (value : Value) :
    Except ConvertError (List UInt8) := do
  if value.isNull then .ok (coding.blank t.size)
  else
    let d ← numberOf value
    encode (t.resolved coding.numeric) t.scale t.size d

def dataType (t : Packed) : DataType :=
  { name := "SP", width := t.size, decodeBytes := t.decodeField, encodeBytes := t.encodeField }

def ofArgs (args : Args) (env : FieldEnv) : Except ConvertError Packed := do
  args.between 1 4
  let size ← args.size 0
  DecimalDigits.checkField (capacity size)
  let scale ← args.scale 1
  let signs ← args.signs
  .ok { size, scale, family := .ofCharset env.charset, signs }

end Packed
end Flatfile
