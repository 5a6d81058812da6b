import Flatfile.Error.Syntax
import Flatfile.Layout.Basic

/-!
# Directives

The directives that each file type knows, with the kinds of values they take.
-/

namespace Flatfile

namespace Directive

def fileType : String := "file-type"
def textEncoding : String := "text-encoding"
def recordSeparator : String := "record-separator"
def recordLength : String := "record-length"
def fieldSeparator : String := "field-separator"
def quotingDelimiter : String := "quoting-delimiter"
def ignoreBlankLines : String := "ignore-blank-lines"
def requiresTitle : String := "requires-title"
def maxRecordLength : String := "max-record-length"
def titleTypeName : String := "title-record-type-name"
def positiveZone : String := "positive-zone-sign-nibble"
def negativeZone : String := "negative-zone-sign-nibble"
def positivePack : String := "positive-pack-sign-nibble"
def negativePack : String := "negative-pack-sign-nibble"
def requiredPoint : String := "required-decimal-point"
def fixedSign : String := "fixed-sign-position"
def requiredPlus : String := "required-plus-sign"

end Directive

structure DirectiveRule where
  name : String
  kinds : List LiteralKind
  deriving DecidableEq, Repr

namespace FileType

open Directive in
def catalog : FileType → List DirectiveRule
  | fixed => [
    ⟨fileType, [.string]⟩, ⟨textEncoding, [.string]⟩, ⟨recordSeparator, [.string]⟩,
    ⟨recordLength, [.number]⟩, ⟨positiveZone, [.number, .hex]⟩, ⟨negativeZone, [.number, .hex]⟩,
    ⟨positivePack, [.number, .hex]⟩, ⟨negativePack, [.number, .hex]⟩, ⟨requiredPoint, [.bool]⟩,
    ⟨fixedSign, [.bool]⟩, ⟨requiredPlus, [.bool]⟩]
  | delimited => [
    ⟨fileType, [.string]⟩, ⟨textEncoding, [.string]⟩, ⟨recordSeparator, [.string]⟩,
    ⟨fieldSeparator, [.string]⟩, ⟨quotingDelimiter, [.string]⟩, ⟨ignoreBlankLines, [.bool]⟩,
    ⟨requiresTitle, [.bool]⟩, ⟨maxRecordLength, [.number]⟩, ⟨titleTypeName, [.string]⟩]
  | json | xml => [⟨fileType, [.string]⟩, ⟨textEncoding, [.string]⟩]

def rule? (t : FileType) (name : String) : Option DirectiveRule :=
  t.catalog.find? fun rule => Text.sameName rule.name name

def validate (t : FileType) (d : Directive) : Except SyntaxError Unit :=
  match t.rule? d.name with
  | none => .error (.located d.line d.column (.unknownDirective d.name t))
  | some rule =>
    if d.value.kind ∈ rule.kinds then .ok ()
    else .error (.located d.line d.column (.directiveKind rule.name rule.kinds d.value))

/-- The directives without which a layout of this type does not link, `file-type` itself aside. -/
def mandatory : FileType → List String
  | fixed => [Directive.textEncoding, Directive.recordLength]
  | delimited => [Directive.textEncoding, Directive.fieldSeparator, Directive.recordSeparator]
  | json | xml => [Directive.textEncoding]

end FileType
end Flatfile
