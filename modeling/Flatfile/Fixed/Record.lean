import Flatfile.Schema.Traverse

/-!
# Records as bytes

A record of fixed length is the bytes of its fields, one after the other. An array takes as many
slots as it may have items; slots that hold nothing stand behind the items.
-/

namespace Flatfile.Fixed

def slice (bytes : List UInt8) (start stop : Nat) : Except InvalidData (List UInt8) :=
  if start ≤ stop ∧ stop ≤ bytes.length then .ok ((bytes.drop start).take (stop - start))
  else .error { cause := .outOfRange }

def starts (start stop width : Nat) : Except InvalidData (List Nat) :=
  if width = 0 then .error { cause := .outOfRange }
  else .ok ((List.range ((stop - start + (width - 1)) / width)).map fun k => start + k * width)

def decodeSlot (settings : Settings) (f : Field) (bytes : List UInt8) :
    Except InvalidData Value :=
  (f.dataType.decodeBytes (f.coding settings) bytes >>= f.readValue).mapError .ofConvert

/-- Items of an array without the empty ones at its end, as far as the array need not have them. -/
def dropUnused (min : Nat) (items : List String) : List String :=
  items.take min ++ Text.dropEndWhile (·.isEmpty) (items.drop min)

def decodeField (settings : Settings) (bytes : List UInt8) (f : Field) :
    Except InvalidData Value := do
  if bytes.length < f.stop then .error { cause := .fieldBeyondRecord f.stop bytes.length }
  else if f.isArray then
    let starts ← starts f.offset f.stop f.width
    let items ← starts.mapM fun start => do
      let slot ← slice bytes start (Word64.wrap (start + f.width))
      decodeSlot settings f slot
    .ok (.array (dropUnused f.occurs.min (items.map Value.toText)))
  else
    let slot ← slice bytes f.offset f.stop
    decodeSlot settings f slot

def decodeRecord (settings : Settings) (t : RecordType) (bytes : List UInt8) :
    Except InvalidData Record :=
  t.read fun f _ => decodeField settings bytes f

def encodeSlot (settings : Settings) (f : Field) (value : Value) :
    Except InvalidData (List UInt8) := do
  let bytes ← (f.dataType.encodeBytes (f.coding settings) value).mapError .ofConvert
  if bytes.length = f.width then .ok bytes
  else .error { cause := .slotWidth f.dataType.name bytes.length f.width }

def encodeItem (settings : Settings) (f : Field) (item : Value) :
    Except InvalidData (List UInt8) := do
  let item ← (f.writeValue item).mapError .ofConvert
  encodeSlot settings f item

def encodeField (settings : Settings) (f : Field) (value : Value) :
    Except InvalidData (List UInt8) := do
  if f.isArray then
    f.checkCount value.items.length
    let slots ← (Value.padItems f.slots value.items).mapM (encodeItem settings f)
    .ok slots.flatten
  else
    let value ← f.prepare value
    encodeSlot settings f value

def encodeRecord (settings : Settings) (t : RecordType) (r : Record) :
    Except InvalidData (List UInt8) := do
  let bytes ← t.write (fun f _ => encodeField settings f) r
  if bytes.length = t.length then .ok bytes
  else .error { cause := .recordWidth t.name bytes.length t.length }

end Flatfile.Fixed
