import Flatfile.Error.Convert
import Flatfile.Layout.FileType
import Flatfile.Layout.Token

/-!
# Errors in layouts

A layout can be wrong in its words, in the shape of its lines, or in what the lines ask for. Every
error has a cause, and a place in the source where one is known.
-/

namespace Flatfile

inductive DirectiveFault where
  | unknownCharset (name : String)
  | separatorNotAllowed (separator : String) (allowed : List String)
  | emptyFieldSeparator
  | longQuote
  | notPositive (value : Literal)
  | notNibble (value : Literal)
  deriving DecidableEq

def DirectiveFault.message : DirectiveFault → String
  | unknownCharset name => "unknown charset " ++ Text.quoted name
  | separatorNotAllowed separator allowed =>
    "record separator " ++ Text.quoted separator ++ " is not one of the allowed separators "
      ++ Text.quotedList allowed
  | emptyFieldSeparator => "field separator is empty"
  | longQuote => "quoting delimiter must be one character"
  | notPositive value => "expected a positive integer, found " ++ value.shown
  | notNibble value => "expected a nibble (0x0..0xF), found " ++ value.shown

inductive FieldFault where
  | unknownEncoding (name : String)
  | noDataType
  | unknownDataType (name : String)
  | unknownConverter (name : String)
  | unknownSubstitution (name : String)
  | convert (error : ConvertError)
  | openArrayInFixed
  | openArrayNotLast
  | wrongPosition (expected found : Nat)
  | duplicateName
  deriving DecidableEq

def FieldFault.message : FieldFault → String
  | unknownEncoding name => s!"unknown encoding '{name}'"
  | noDataType => "no DataType found"
  | unknownDataType name => s!"unknown DataType '{name}'"
  | unknownConverter name => s!"unknown converter '{name}'"
  | unknownSubstitution name => s!"unknown substitution converter '{name}'"
  | convert error => error.message
  | openArrayInFixed => "unbounded arrays are not allowed in fixed-length layouts"
  | openArrayNotLast => "only the last field may be an unbounded array"
  | wrongPosition expected found => s!"expected position {expected}, found {found}"
  | duplicateName => "duplicate field name"

inductive SyntaxCause where
  -- words
  | unrecognized (snippet : String)
  | boundTooLarge
  | badNumber (fault : Decimal.ReadFault)
  | badEscape (c : Char)
  -- lines
  | unexpected (wanted : List Layout.TokenKind) (found : Layout.TokenKind) (raw : String)
  | noRecordType
  | duplicateDirective (name : String)
  | duplicateRecordType (name : String)
  | classifierBase
  | unknownBase (name : String)
  | badPosition
  | reversedBounds (min max : Nat)
  | emptyBounds
  | attributeArray (field : String)
  | encodingArguments
  | literalDataType (field : String)
  -- what the lines ask for
  | missingFileType
  | missingDirective (name : String) (fileType : FileType)
  | unknownFileType (value : Literal)
  | unknownDirective (name : String) (fileType : FileType)
  | directiveKind (name : String) (wanted : List LiteralKind) (found : Literal)
  | inDirective (name : String) (fault : DirectiveFault)
  | missingTitleType (name : String)
  | inField (record field : String) (fault : FieldFault)
  | wrongLength (record : String) (covered declared : Nat)
  | unknownConditionField (record field : String)
  | other (text : String)
  deriving DecidableEq

namespace SyntaxCause

def foundToken (kind : Layout.TokenKind) (raw : String) : String :=
  if raw.isEmpty then kind.describe else kind.describe ++ s!" '{raw}'"

def message : SyntaxCause → String
  | unrecognized snippet => s!"unrecognized input '{snippet}'"
  | boundTooLarge => "array bound too large"
  | badNumber fault => "invalid number: " ++ fault.message
  | badEscape c => "invalid escape sequence '\\" ++ String.singleton c ++ "'"
  | unexpected wanted found raw =>
    "expected " ++ " or ".intercalate (wanted.map (·.describe)) ++ ", found "
      ++ foundToken found raw
  | noRecordType => "at least one record format is required"
  | duplicateDirective name => s!"duplicate directive '{name}'"
  | duplicateRecordType name => s!"duplicate record type '{name}'"
  | classifierBase => "the classifier record cannot inherit from a base record"
  | unknownBase name => s!"unknown base record type '{name}'"
  | badPosition => "field position must be a positive integer"
  | reversedBounds min max => s!"array minimum {min} exceeds maximum {max}"
  | emptyBounds => "array bounds [0..0] leave no occurrence"
  | attributeArray field => s!"attribute field '{field}' cannot be an array"
  | encodingArguments => "Encoding takes exactly one string argument"
  | literalDataType field =>
    s!"field '{field}': the first convertor must name a data type, found a literal"
  | missingFileType => "missing mandatory directive 'file-type'"
  | missingDirective name fileType =>
    s!"missing mandatory directive '{name}' for file type {fileType.name}"
  | unknownFileType value =>
    "unknown file type '" ++ value.shown ++ "' (expected Fixed, Variable, JSON or XML)"
  | unknownDirective name fileType =>
    s!"unknown directive '{name}' for file type {fileType.name}"
  | directiveKind name wanted found =>
    s!"directive '{name}' expects a " ++ " or ".intercalate (wanted.map (·.name))
      ++ " value, found " ++ found.kind.name ++ " " ++ found.shown
  | inDirective name fault => s!"directive '{name}': {fault.message}"
  | missingTitleType name =>
    s!"requires-title is set but no record type named '{name}' exists"
  | inField record field fault => s!"record '{record}', field '{field}': {fault.message}"
  | wrongLength record covered declared =>
    s!"record type '{record}' covers {covered} byte(s) but record-length is {declared}"
  | unknownConditionField record field =>
    s!"record '{record}': condition on unknown field '{field}'"
  | other text => text

end SyntaxCause

/-- An error in a layout: its cause, the name of the layout, the place counted from one, and the
token that stands there. -/
structure SyntaxError where
  source : Option String := none
  line : Option Nat := none
  column : Option Nat := none
  token : Option String := none
  cause : SyntaxCause
  deriving DecidableEq

namespace SyntaxError

def located (line column : Nat) (cause : SyntaxCause) : SyntaxError :=
  { line := some line, column := some column, cause }

def atToken (line column : Nat) (token : String) (cause : SyntaxCause) : SyntaxError :=
  { line := some line, column := some column, token := some token, cause }

def inSource (source : Option String) (e : SyntaxError) : SyntaxError :=
  { e with source := e.source.orElse fun _ => source }

def place (e : SyntaxError) : String :=
  let source := e.source.getD "<layout>"
  match e.line, e.column with
  | none, _ => source
  | some line, none => s!"{source}:{line}"
  | some line, some column => s!"{source}:{line}:{column}"

def message (e : SyntaxError) : String :=
  let suffix := match e.token with
    | some token => " (at '" ++ Text.escaped token ++ "')"
    | none => ""
  e.place ++ ": " ++ e.cause.message ++ suffix

end SyntaxError
end Flatfile
