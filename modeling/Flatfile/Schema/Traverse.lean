import Flatfile.Error.Data
import Flatfile.Schema.Basic

/-!
# Field by field

Reading or writing a record goes over the fields of its type in order. Fillers are read, so that
they are checked, but leave no value behind; they are written as null. An error names the field
that it arises in.
-/

namespace Flatfile

namespace Field

/-- The converted value of a field that occurs once. A required field has to hold something. -/
def prepare (f : Field) (value : Value) : Except InvalidData Value := do
  let value ← (f.writeValue value).mapError .ofConvert
  if f.isRequired ∧ value.isEmpty then .error { cause := .requiredFieldEmpty } else .ok value

def checkCount (f : Field) (count : Nat) : Except InvalidData Unit :=
  if count < f.occurs.min then .error { cause := .tooFewItems count f.occurs.min }
  else
    match f.occurs.max with
    | some max => if max < count then .error { cause := .tooManyItems count max } else .ok ()
    | none => .ok ()

end Field

def Value.items : Value → List Value
  | array items => items.map text
  | null => []
  | value => [value]

def Value.padItems (n : Nat) (items : List Value) : List Value :=
  items.take n ++ List.replicate (n - items.length) .null

def Record.valueFor (r : Record) (f : Field) : Value :=
  if f.isFiller then .null else (r.get? f.name).getD .null

namespace RecordType

/-- Read one field after the other into `r`. The reader is told which field is the last one. -/
def readFields (read : Field → Bool → Except InvalidData Value) :
    List Field → Record → Except InvalidData Record
  | [], r => .ok r
  | f :: rest, r => do
    let value ← (read f rest.isEmpty).mapError (·.inField f.name)
    readFields read rest (if f.isFiller then r else r.insert f.name value)

def writeFields (write : Field → Bool → Value → Except InvalidData (List α)) (r : Record) :
    List Field → Except InvalidData (List α)
  | [] => .ok []
  | f :: rest => do
    let part ← (write f rest.isEmpty (r.valueFor f)).mapError (·.inField f.name)
    let more ← writeFields write r rest
    .ok (part ++ more)

def read (t : RecordType) (readField : Field → Bool → Except InvalidData Value) :
    Except InvalidData Record :=
  readFields readField t.fields (.ofType t.name)

def write (t : RecordType) (writeField : Field → Bool → Value → Except InvalidData (List α))
    (r : Record) : Except InvalidData (List α) :=
  writeFields writeField r t.fields

end RecordType
end Flatfile
