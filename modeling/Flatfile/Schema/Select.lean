import Flatfile.Error.Data
import Flatfile.Schema.Basic

/-!
# Which record type

On reading, the classifier decides if there is one: its fields are read first, and the first type
whose conditions they satisfy is taken. Without a classifier a single type is taken as it is, and
of several types the first one that can be read and accepts what was read. On writing, a record
goes by the type it is told to have, and else by the conditions.
-/

namespace Flatfile.Schema

def candidates (s : Schema) (exclude : Option String) : List RecordType :=
  s.recordTypes.filter fun t => exclude.all fun name => !Text.sameName t.name name

def describeTypes (types : List RecordType) : String :=
  "; ".intercalate (types.map (·.describe))

def describeFields (r : Record) : String :=
  let shown := r.toList.map fun (name, value) => name ++ "=" ++ Text.quoted value.toText
  "\x7b" ++ ", ".intercalate shown ++ "\x7d"

/-- The first type that can be read and accepts what was read. A panic is passed on. -/
def firstAccepted (decode : RecordType → Except InvalidData Record) :
    List RecordType → Except InvalidData (Option (RecordType × Record))
  | [] => .ok none
  | t :: rest =>
    match decode t with
    | .ok r => if t.accepts r then .ok (some (t, r)) else firstAccepted decode rest
    | .error e => if e.cause = .outOfRange then .error e else firstAccepted decode rest

/-- The type that raw data is of, and the record read as that type. The classifier is read with
`decodeKey`, the types with `decode`. -/
def selectForRead (s : Schema) (exclude : Option String)
    (decodeKey decode : RecordType → Except InvalidData Record) :
    Except InvalidData (RecordType × Record) :=
  match s.classifier with
  | some classifier => do
    let key ← decodeKey classifier
    match (s.candidates exclude).find? (·.accepts key) with
    | none => .error { cause := .noTypeForClassifier (describeFields key) }
    | some t =>
      let r ← decode t
      .ok (t, r)
  | none =>
    match s.candidates exclude with
    | [only] => do
      let r ← decode only
      .ok (only, r)
    | types => do
      match ← firstAccepted decode types with
      | some found => .ok found
      | none => .error { cause := .noTypeMatches (describeTypes types) }

def selectForWrite (s : Schema) (explicit exclude : Option String) (r : Record) :
    Except InvalidData RecordType :=
  match explicit.or r.typeName with
  | some name =>
    match s.recordType? name with
    | none => .error { cause := .unknownRecordType name }
    | some t => if t.accepts r then .ok t else .error { cause := .conditionsFail t.describe }
  | none =>
    match s.candidates exclude with
    | [only] => .ok only
    | types =>
      match types.find? (·.accepts r) with
      | some t => .ok t
      | none => .error { cause := .noTypeForWriting (describeTypes types) }

end Flatfile.Schema
