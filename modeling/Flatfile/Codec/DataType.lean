import Flatfile.Codec.Args
import Flatfile.Codec.NumericFormat

/-!
# Data types and converters

A field has one data type, which turns its bytes or its column into a value and back, and any
number of converters, which turn values into values. Both are open sets: a registry maps names to
functions that make them from arguments, and a caller may add its own.
-/

namespace Flatfile

def noTextForm (name : String) : ConvertError :=
  .invalid s!"{name} has no text form"

/-- A data type. Its form as bytes is its form as text in the charset of the field, unless it has
one of its own. -/
structure DataType where
  name : String
  /-- Bytes of one occurrence in a record of fixed length; among columns it is one. -/
  width : Nat
  decodeText : Coding → String → Except ConvertError Value := fun _ _ => .error (noTextForm name)
  encodeText : Coding → Value → Except ConvertError String := fun _ _ => .error (noTextForm name)
  decodeBytes : Coding → List UInt8 → Except ConvertError Value :=
    fun coding bytes => decodeText coding (coding.charset.decode bytes)
  encodeBytes : Coding → Value → Except ConvertError (List UInt8) :=
    fun coding value => (encodeText coding value).map coding.charset.encode

structure Converter where
  name : String
  read : Value → Except ConvertError Value
  write : Value → Except ConvertError Value

structure FieldEnv where
  field : String
  charset : Charset

abbrev DataTypeFactory := Args → FieldEnv → Except ConvertError DataType

abbrev ConverterFactory := Args → Except ConvertError Converter

def checkWidth (bytes : List UInt8) (expected : Nat) : Except ConvertError Unit :=
  if bytes.length = expected then .ok () else .error (.wrongWidth expected bytes.length)

def numberOf (value : Value) : Except ConvertError Decimal :=
  match value.decimal? with
  | some d => .ok d
  | none => .error (.notANumber value.toText)

end Flatfile
