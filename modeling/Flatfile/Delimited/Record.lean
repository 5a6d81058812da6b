import Flatfile.Schema.Traverse

/-!
# Records as columns

A delimited record is a list of columns. An array takes as many columns as it may have items,
except that an array at the end takes only as many as it has.
-/

namespace Flatfile.Delimited

/-- The numbers of columns that a type accepts: from the first on, and up to the second if there
is one. -/
def columnBounds (t : RecordType) : Nat × Option Nat :=
  match t.fields.getLast? with
  | some last =>
    if last.isArray then
      let head := Word64.sub t.length last.size
      let columns (items : Nat) := Word64.wrap (head + items * last.width)
      (columns last.occurs.min, last.occurs.max.map columns)
    else (t.length, some t.length)
  | none => (t.length, some t.length)

def checkCount (t : RecordType) (count : Nat) : Except InvalidData Unit :=
  let (min, max) := columnBounds t
  if min ≤ count ∧ max.all (count ≤ ·) then .ok ()
  else .error { cause := .columnCount t.name min max count }

def decodeColumn (settings : Settings) (f : Field) (column : Option String) :
    Except InvalidData Value :=
  let value := column.elim (.ok .null) (f.dataType.decodeText (f.coding settings))
  (value >>= f.readValue).mapError .ofConvert

def arrayColumns (columns : List String) (f : Field) (last : Bool) : List (Option String) :=
  let count := if last then columns.length - f.offset else f.size
  (List.range count).map fun k => columns[f.offset + k]?

def decodeField (settings : Settings) (columns : List String) (f : Field) (last : Bool) :
    Except InvalidData Value := do
  if f.isArray then
    let items ← (arrayColumns columns f last).mapM (decodeColumn settings f)
    .ok (.array (items.map Value.toText))
  else decodeColumn settings f columns[f.offset]?

/-- The record of a type that some columns hold, however many there are. -/
def decodeLoosely (settings : Settings) (t : RecordType) (columns : List String) :
    Except InvalidData Record :=
  t.read (decodeField settings columns)

def decodeRecord (settings : Settings) (t : RecordType) (columns : List String) :
    Except InvalidData Record := do
  checkCount t columns.length
  decodeLoosely settings t columns

def encodeColumn (settings : Settings) (f : Field) (value : Value) : Except InvalidData String :=
  (f.dataType.encodeText (f.coding settings) value).mapError .ofConvert

def encodeItem (settings : Settings) (f : Field) (item : Value) : Except InvalidData String := do
  let item ← (f.writeValue item).mapError .ofConvert
  encodeColumn settings f item

def encodeField (settings : Settings) (f : Field) (last : Bool) (value : Value) :
    Except InvalidData (List String) := do
  if f.isArray then
    f.checkCount value.items.length
    let items := if last then value.items else Value.padItems f.slots value.items
    items.mapM (encodeItem settings f)
  else
    let value ← f.prepare value
    let column ← encodeColumn settings f value
    .ok [column]

def encodeRecord (settings : Settings) (t : RecordType) (r : Record) :
    Except InvalidData (List String) :=
  t.write (encodeField settings) r

end Flatfile.Delimited
