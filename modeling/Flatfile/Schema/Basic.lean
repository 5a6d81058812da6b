import Flatfile.Codec.DataType
import Flatfile.Record.Predicate
import Flatfile.Schema.Settings
import Flatfile.Word

/-!
# Schemas

A schema is a layout made ready for reading and writing: every record type has its fields in order
of position, those it takes over from its base included, and every field has its data type and
converters at hand.
-/

namespace Flatfile

structure Field where
  name : String
  position : Nat
  offset : Nat
  occurs : Occurs
  isRequired : Bool
  isAttribute : Bool
  isFiller : Bool
  charset : Charset
  dataType : DataType
  converters : List Converter
  line : Nat

namespace Field

def width (f : Field) : Nat :=
  f.dataType.width

/-- Occurrences that the record keeps room for. -/
def slots (f : Field) : Nat :=
  f.occurs.slots

def extent (f : Field) : Nat :=
  f.width * f.slots

/-- Bytes or columns that the record keeps for the field: its extent, as far as a word holds it. -/
def size (f : Field) : Nat :=
  Word64.wrap f.extent

def stop (f : Field) : Nat :=
  Word64.wrap (f.offset + f.size)

def isArray (f : Field) : Bool :=
  f.occurs.isArray

def readValue (f : Field) (value : Value) : Except ConvertError Value :=
  f.converters.foldlM (fun v c => c.read v) value

def writeValue (f : Field) (value : Value) : Except ConvertError Value :=
  f.converters.reverse.foldlM (fun v c => c.write v) value

def coding (f : Field) (settings : Settings) : Coding :=
  ⟨f.charset, settings.numeric⟩

end Field

structure RecordType where
  name : String
  base : Option String
  predicates : List Predicate
  fields : List Field
  length : Nat

namespace RecordType

def accepts (t : RecordType) (r : Record) : Bool :=
  Predicate.allHold t.predicates r

def field? (t : RecordType) (name : String) : Option Field :=
  t.fields.find? fun f => Text.sameName f.name name

def describe (t : RecordType) : String :=
  if t.predicates.isEmpty then s!"[{t.name}] (no conditions)"
  else s!"[{t.name}] " ++ " and ".intercalate (t.predicates.map (·.shown))

end RecordType

structure Schema where
  source : Option String
  fileType : FileType
  directives : List Directive
  recordTypes : List RecordType
  classifier : Option RecordType
  /-- The settings under the defaults that the schema was linked with. -/
  settings : Settings

namespace Schema

def settingsUnder (s : Schema) (defaults : Defaults) : Except SyntaxError Settings :=
  (Settings.resolve s.fileType s.directives defaults).mapError (·.inSource s.source)

def recordType? (s : Schema) (name : String) : Option RecordType :=
  s.recordTypes.find? fun t => Text.sameName t.name name

def sourceName (s : Schema) : String :=
  s.source.getD "<layout>"

end Schema
end Flatfile
