import Flatfile.Codec.DataType
import Flatfile.Text.LetterCase
import Flatfile.Text.Search

/-!
# Converters

The converters that every registry knows. All but `Default` and `Lookup` work on texts and leave
other values alone.
-/

namespace Flatfile

def Value.mapText (f : String → String) : Value → Value
  | .text s => .text (f s)
  | other => other

/-- `Default(value)`: stands in for a value that holds nothing, in both directions. -/
structure DefaultValue where
  value : Value

namespace DefaultValue

def fill (c : DefaultValue) (value : Value) : Value :=
  if value.isEmpty then c.value else value

def converter (c : DefaultValue) : Converter :=
  { name := "Default", read := fun v => .ok (c.fill v), write := fun v => .ok (c.fill v) }

def ofArgs (args : Args) : Except ConvertError DefaultValue := do
  args.between 1 1
  .ok { value := (args.items[0]?).elim .null Literal.toValue }

end DefaultValue

def trimConverter : Converter :=
  { name := "Trim", read := fun v => .ok (v.mapText Text.trim), write := .ok }

def upperConverter : Converter :=
  { name := "Upper"
    read := fun v => .ok (v.mapText Text.upper)
    write := fun v => .ok (v.mapText Text.upper) }

def lowerConverter : Converter :=
  { name := "Lower"
    read := fun v => .ok (v.mapText Text.lower)
    write := fun v => .ok (v.mapText Text.lower) }

def plain (converter : Converter) : ConverterFactory := fun args => do
  args.atMost 0
  .ok converter

structure Replace where
  source : String
  target : String

namespace Replace

/-- Nothing is put back when occurrences are deleted. -/
def restore (c : Replace) (value : Value) : Value :=
  if c.target.isEmpty then value else value.mapText fun s => Text.replace s c.target c.source

def converter (c : Replace) : Converter :=
  { name := "Replace"
    read := fun v => .ok (v.mapText fun s => Text.replace s c.source c.target)
    write := fun v => .ok (c.restore v) }

def ofArgs (args : Args) : Except ConvertError Replace := do
  args.between 2 2
  let source := (← args.string? 0).getD ""
  let target := (← args.string? 1).getD ""
  if source.isEmpty then .error (.invalid "Replace: search text is empty")
  else .ok { source, target }

end Replace

structure Translate where
  pairs : List (Char × Char)

namespace Translate

/-- The partner of a character in a list of pairs, the last one if there are several; a character
without a partner stays. -/
def partner (pairs : List (Char × Char)) (c : Char) : Char :=
  (pairs.reverse.lookup c).getD c

def forward (c : Translate) (s : String) : String :=
  String.ofList (s.toList.map (partner c.pairs))

def backward (c : Translate) (s : String) : String :=
  String.ofList (s.toList.map (partner (c.pairs.map Prod.swap)))

def converter (c : Translate) : Converter :=
  { name := "Translate"
    read := fun v => .ok (v.mapText c.forward)
    write := fun v => .ok (v.mapText c.backward) }

def ofArgs (args : Args) : Except ConvertError Translate := do
  args.between 2 2
  let source := ((← args.string? 0).getD "").toList
  let target := ((← args.string? 1).getD "").toList
  if source.length ≠ target.length then
    .error (.invalid
      s!"Translate: {source.length} source character(s) but {target.length} target(s)")
  else .ok { pairs := source.zip target }

end Translate

structure Lookup where
  pairs : List (Value × Value)

namespace Lookup

def partner (pairs : List (Value × Value)) (value : Value) : Value :=
  ((pairs.reverse.find? fun p => p.1.toText == value.toText).map Prod.snd).getD value

def converter (c : Lookup) : Converter :=
  { name := "Lookup"
    read := fun v => .ok (partner c.pairs v)
    write := fun v => .ok (partner (c.pairs.map Prod.swap) v) }

def pairsOf : List Literal → List (Value × Value)
  | code :: label :: rest => (code.toValue, label.toValue) :: pairsOf rest
  | _ => []

def ofArgs (args : Args) : Except ConvertError Lookup :=
  if args.items.isEmpty ∨ args.items.length % 2 ≠ 0 then
    .error (.invalid "Lookup takes (code, label) pairs")
  else .ok { pairs := pairsOf args.items }

end Lookup
end Flatfile
