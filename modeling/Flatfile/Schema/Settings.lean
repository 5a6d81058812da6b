import Flatfile.Codec.NumericFormat
import Flatfile.Defaults.Basic
import Flatfile.Layout.Catalog

/-!
# Settings

The settings of a file: what its directives say, and what the defaults say where they are silent.
-/

namespace Flatfile

structure FieldSeparator where
  text : String
  nonempty : text ≠ ""
  deriving DecidableEq

def FieldSeparator.chars (s : FieldSeparator) : List Char :=
  s.text.toList

theorem FieldSeparator.chars_ne_nil (s : FieldSeparator) : s.chars ≠ [] := by
  simpa [chars] using s.nonempty

structure Settings where
  charset : Charset
  recordSeparator : Option String
  recordLength : Option Nat
  fieldSeparator : Option FieldSeparator
  quote : Option Char
  ignoreBlankLines : Bool
  requiresTitle : Bool
  titleType : String
  maxRecordLength : Nat
  numeric : NumericFormat
  flushPerRecord : Bool
  minimalQuoting : Bool
  deriving DecidableEq

namespace Settings

def find? (directives : List Directive) (name : String) : Option Directive :=
  directives.find? fun d => Text.sameName d.name name

def fail (d : Directive) (fault : DirectiveFault) : Except SyntaxError α :=
  .error (.located d.line d.column (.inDirective d.name fault))

def string? (directives : List Directive) (name : String) : Option String :=
  (find? directives name).bind (·.value.string?)

def bool? (directives : List Directive) (name : String) : Option Bool :=
  (find? directives name).bind (·.value.bool?)

def positive? (directives : List Directive) (name : String) : Except SyntaxError (Option Nat) :=
  match find? directives name with
  | none => .ok none
  | some d =>
    match d.value.word? with
    | some n => if 0 < n then .ok (some n) else fail d (.notPositive d.value)
    | none => fail d (.notPositive d.value)

def nibble? (directives : List Directive) (name : String) : Except SyntaxError (Option UInt8) :=
  match find? directives name with
  | none => .ok none
  | some d =>
    match d.value.word? with
    | some n => if n ≤ 0xF then .ok (some (UInt8.ofNat n)) else fail d (.notNibble d.value)
    | none => fail d (.notNibble d.value)

def charsetOf (directives : List Directive) : Except SyntaxError Charset :=
  match find? directives Directive.textEncoding with
  | none => .ok .utf8
  | some d =>
    let name := d.value.string?.getD ""
    match Charset.ofName? name with
    | some charset => .ok charset
    | none => fail d (.unknownCharset name)

def recordSeparatorOf (directives : List Directive) (defaults : Defaults) :
    Except SyntaxError (Option String) :=
  match find? directives Directive.recordSeparator with
  | none => .ok none
  | some d =>
    let separator := d.value.string?.getD ""
    if defaults.allows separator then .ok (some separator)
    else fail d (.separatorNotAllowed separator defaults.allowedSeparators)

def fieldSeparatorOf (directives : List Directive) :
    Except SyntaxError (Option FieldSeparator) :=
  match find? directives Directive.fieldSeparator with
  | none => .ok none
  | some d =>
    let separator := d.value.string?.getD ""
    if h : separator = "" then fail d .emptyFieldSeparator else .ok (some ⟨separator, h⟩)

/-- The quote, of one character; an empty text stands for none. -/
def quoteOf (directives : List Directive) : Except SyntaxError (Option Char) :=
  match find? directives Directive.quotingDelimiter with
  | none => .ok none
  | some d =>
    match (d.value.string?.getD "").toList with
    | [] => .ok none
    | [c] => .ok (some c)
    | _ => fail d .longQuote

def numericOf (directives : List Directive) (defaults : Defaults) :
    Except SyntaxError NumericFormat := do
  let positiveZone ← nibble? directives Directive.positiveZone
  let negativeZone ← nibble? directives Directive.negativeZone
  let positivePack ← nibble? directives Directive.positivePack
  let negativePack ← nibble? directives Directive.negativePack
  .ok
    { positiveZone := positiveZone.or defaults.positiveZone
      negativeZone := negativeZone.or defaults.negativeZone
      positivePack := positivePack.or defaults.positivePack
      negativePack := negativePack.or defaults.negativePack
      requiredPoint := (bool? directives Directive.requiredPoint).getD defaults.requiredPoint
      fixedSign := (bool? directives Directive.fixedSign).getD defaults.fixedSign
      requiredPlus := (bool? directives Directive.requiredPlus).getD defaults.requiredPlus }

def resolve (fileType : FileType) (directives : List Directive) (defaults : Defaults) :
    Except SyntaxError Settings := do
  let charset ← charsetOf directives
  let recordSeparator ← recordSeparatorOf directives defaults
  let fieldSeparator ← fieldSeparatorOf directives
  let quote ← quoteOf directives
  let numeric ← numericOf directives defaults
  let recordLength ← positive? directives Directive.recordLength
  let maxRecordLength ← positive? directives Directive.maxRecordLength
  .ok
    { charset, recordSeparator, recordLength
      fieldSeparator := if fileType = .delimited then fieldSeparator else none
      quote
      ignoreBlankLines := (bool? directives Directive.ignoreBlankLines).getD false
      requiresTitle := (bool? directives Directive.requiresTitle).getD false
      titleType := (string? directives Directive.titleTypeName).getD defaults.titleTypeName
      maxRecordLength := maxRecordLength.getD defaults.maxRecordLength
      numeric
      flushPerRecord := defaults.flushPerRecord
      minimalQuoting := defaults.minimalQuoting }

end Settings
end Flatfile
