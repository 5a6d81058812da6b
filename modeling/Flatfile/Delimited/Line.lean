import Flatfile.Delimited.Scan
import Flatfile.Text.Search

/-!
# Columns as a line

The written form of a record: its columns, divided by the field separator, and the record
separator. A column is written between quotes, or bare if quotes are spared and it does not need
them; a quote inside is written twice. Without a quote a column that needs quotes is refused.
-/

namespace Flatfile.Delimited

def holdsSeparator (d : Delimiters) (column : String) : Bool :=
  Text.contains column d.field.text || d.record.toList.any column.toList.contains

def doubleQuotes (quote : Char) (cs : List Char) : List Char :=
  cs.flatMap fun c => if c = quote then [c, c] else [c]

def quoteColumn (quote : Char) (column : String) : List Char :=
  quote :: doubleQuotes quote column.toList ++ [quote]

/-- A column as it is written. `sparing` leaves out quotes that are not needed. -/
def writeColumn (d : Delimiters) (sparing : Bool) (column : Nat) (text : String) :
    Except InvalidData (List Char) :=
  match d.quote with
  | some quote =>
    if !sparing || holdsSeparator d text || text.toList.contains quote then
      .ok (quoteColumn quote text)
    else .ok text.toList
  | none =>
    if holdsSeparator d text then .error { cause := .bareSeparator column } else .ok text.toList

def writeColumns (d : Delimiters) (sparing : Bool) (column : Nat) :
    List String → Except InvalidData (List Char)
  | [] => .ok []
  | [last] => writeColumn d sparing column last
  | text :: rest => do
    let first ← writeColumn d sparing column text
    let more ← writeColumns d sparing (column + 1) rest
    .ok (first ++ d.field.chars ++ more)

def joinColumns (d : Delimiters) (sparing : Bool) (columns : List String) :
    Except InvalidData (List Char) := do
  let line ← writeColumns d sparing 1 columns
  .ok (line ++ d.record.toList)

end Flatfile.Delimited
