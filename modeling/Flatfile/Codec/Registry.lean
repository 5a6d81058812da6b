import Flatfile.Codec.BinaryInteger
import Flatfile.Codec.Column
import Flatfile.Codec.Converters
import Flatfile.Codec.FixedNumber
import Flatfile.Codec.FixedText
import Flatfile.Codec.Packed
import Flatfile.Codec.RawBytes
import Flatfile.Codec.Zoned
import Flatfile.Layout.FileType

/-!
# Registries

A registry says which data types and converters a layout can name. There is one for records of
fixed length and one for columns; both start with what is built in, and a caller may replace or
add entries. A registry may also append a converter to every field of a data type.
-/

namespace Flatfile

inductive Family where
  | fixed
  | columns
  deriving DecidableEq, Repr

def Family.ofFileType : FileType → Family
  | .fixed => fixed
  | .delimited | .json | .xml => columns

structure Substitution where
  converter : String
  args : List Literal
  deriving DecidableEq

/-- Entries under names; the latest entry of a name counts. -/
structure Registry where
  family : Family
  dataTypes : List (String × DataTypeFactory) := []
  converters : List (String × ConverterFactory) := []
  substitutions : List (String × Substitution) := []

namespace Registry

def empty (family : Family) : Registry :=
  { family }

def addDataType (r : Registry) (name : String) (factory : DataTypeFactory) : Registry :=
  { r with dataTypes := (name, factory) :: r.dataTypes }

def addConverter (r : Registry) (name : String) (factory : ConverterFactory) : Registry :=
  { r with converters := (name, factory) :: r.converters }

def addSubstitution (r : Registry) (dataType converter : String) (args : List Literal) : Registry :=
  { r with substitutions := (dataType, ⟨converter, args⟩) :: r.substitutions }

def dataTypeFactory? (r : Registry) (name : String) : Option DataTypeFactory :=
  Text.lookupName r.dataTypes name

def converterFactory? (r : Registry) (name : String) : Option ConverterFactory :=
  Text.lookupName r.converters name

def substitution? (r : Registry) (dataType : String) : Option Substitution :=
  Text.lookupName r.substitutions dataType

def dataType? (r : Registry) (name : String) (args : List Literal) (env : FieldEnv) :
    Option (Except ConvertError DataType) :=
  (r.dataTypeFactory? name).map fun factory => factory ⟨name, args⟩ env

def converter? (r : Registry) (name : String) (args : List Literal) :
    Option (Except ConvertError Converter) :=
  (r.converterFactory? name).map fun factory => factory ⟨name, args⟩

def builtinConverters : List (String × ConverterFactory) := [
  ("Default", fun args => (DefaultValue.ofArgs args).map (·.converter)),
  ("Trim", plain trimConverter),
  ("Upper", plain upperConverter),
  ("Lower", plain lowerConverter),
  ("Replace", fun args => (Replace.ofArgs args).map (·.converter)),
  ("Translate", fun args => (Translate.ofArgs args).map (·.converter)),
  ("Lookup", fun args => (Lookup.ofArgs args).map (·.converter))]

def fixed : Registry :=
  { family := .fixed
    dataTypes := [
      ("X", fun args env => (FixedText.ofArgs args env).map (·.dataType)),
      ("N", fun args env => (FixedNumber.ofArgs args env).map (·.dataType)),
      ("SZ", fun args env => (Zoned.ofArgs args env).map (·.dataType)),
      ("SP", fun args env => (Packed.ofArgs args env).map (·.dataType)),
      ("BI", fun args env => (BinaryInteger.ofArgs args env).map (·.dataType)),
      ("B", fun args env => (RawBytes.ofArgs args env).map (·.dataType))]
    converters := builtinConverters }

def columns : Registry :=
  { family := .columns
    dataTypes := [
      ("X", fun args env => (ColumnText.ofArgs args env).map (·.dataType)),
      ("N", fun args env => (ColumnNumber.ofArgs args env).map (·.dataType)),
      ("HEX", fun args env => (ColumnHex.ofArgs args env).map fun _ => ColumnHex.dataType)]
    converters := builtinConverters }

def builtin : Family → Registry
  | .fixed => fixed
  | .columns => columns

end Registry
end Flatfile
