import Flatfile.Error.Convert

/-!
# Errors in records

Why a record of a data file cannot be read with its layout, or a record cannot be written.
-/

namespace Flatfile

inductive DataCause where
  -- records of fixed length
  | truncated (got length : Nat)
  | wrongSeparator (expected found : List UInt8)
  | fieldBeyondRecord (last length : Nat)
  /-- The reader panics: bytes are asked for that are not there, or slots are gone through in steps
  of no width. -/
  | outOfRange
  | slotWidth (dataType : String) (produced width : Nat)
  | recordWidth (record : String) (produced length : Nat)
  -- records of delimited columns
  | oversize (max : Nat)
  | unterminatedQuote
  | quoteNotClosedBySeparator (column : Nat)
  | columnCount (record : String) (min : Nat) (max : Option Nat) (found : Nat)
  | bareSeparator (column : Nat)
  | firstMustBeTitle (title found : String)
  | onlyFirstIsTitle (title : String)
  -- selection of the record type, with the conditions that were looked at
  | unknownRecordType (name : String)
  | conditionsFail (conditions : String)
  | noTypeForClassifier (fields : String)
  | noTypeMatches (tried : String)
  | noTypeForWriting (required : String)
  -- fields
  | tooFewItems (count min : Nat)
  | tooManyItems (count max : Nat)
  | requiredFieldEmpty
  | convert (error : ConvertError)
  | other (text : String)
  deriving DecidableEq, Repr

namespace DataCause

def shownBytes (bytes : List UInt8) : String :=
  let shown (b : UInt8) : String :=
    let digits := Text.upperHex b.toNat
    if b < 16 then "0" ++ digits else digits
  "[" ++ ", ".intercalate (bytes.map shown) ++ "]"

def shownCount (min : Nat) : Option Nat → String
  | none => s!"at least {min}"
  | some max => if max = min then s!"{min}" else s!"{min} to {max}"

def message : DataCause → String
  | truncated got length => s!"truncated record: {got} of {length} byte(s)"
  | wrongSeparator expected found =>
    "expected record separator " ++ shownBytes expected ++ ", found " ++ shownBytes found
  | fieldBeyondRecord last length =>
    s!"field ends at byte {last} beyond a record of {length} byte(s)"
  | outOfRange => "panic"
  | slotWidth dataType produced width =>
    s!"{dataType} produced {produced} byte(s) for a {width}-byte field"
  | recordWidth record produced length =>
    s!"[{record}] encoded to {produced} byte(s), expected {length}"
  | oversize max => s!"record exceeds max-record-length of {max} character(s)"
  | unterminatedQuote => "unterminated quoted field"
  | quoteNotClosedBySeparator column =>
    s!"quoted field {column} is followed by a wrong separator"
  | columnCount record min max found =>
    s!"[{record}] expects {shownCount min max} field(s), found {found}"
  | bareSeparator column =>
    s!"column {column} contains a separator and no quoting-delimiter is set"
  | firstMustBeTitle title found =>
    s!"the first record must be a '{title}' record, not '{found}'"
  | onlyFirstIsTitle title => s!"only the first record may be a '{title}' record"
  | unknownRecordType name => s!"unknown record type '{name}'"
  | conditionsFail conditions => s!"record does not satisfy {conditions}"
  | noTypeForClassifier fields => s!"no record type matches classifier fields {fields}"
  | noTypeMatches tried => s!"no record type matches; tried {tried}"
  | noTypeForWriting required =>
    s!"no record type matches the record; required one of {required}"
  | tooFewItems count min => s!"array has {count} element(s), at least {min} required"
  | tooManyItems count max => s!"array has {count} element(s), at most {max} allowed"
  | requiredFieldEmpty => "required field has no value"
  | convert error => error.message
  | other text => text

end DataCause

structure InvalidData where
  path : Option String := none
  record : Option Nat := none
  field : Option String := none
  cause : DataCause
  deriving DecidableEq, Repr

namespace InvalidData

/-- Name the field, unless one is named already. -/
def inField (field : String) (e : InvalidData) : InvalidData :=
  { e with field := e.field.orElse fun _ => some field }

def inRecord (path : Option String) (record : Nat) (e : InvalidData) : InvalidData :=
  { e with
    path := e.path.orElse fun _ => path
    record := e.record.orElse fun _ => some record }

def place (e : InvalidData) : String :=
  let record := match e.record with
    | some n => s!", record {n}"
    | none => ""
  let field := match e.field with
    | some name => s!", field '{name}'"
    | none => ""
  e.path.getD "<stream>" ++ record ++ field

def message (e : InvalidData) : String :=
  e.place ++ ": " ++ e.cause.message

def ofConvert (error : ConvertError) : InvalidData :=
  { cause := .convert error }

end InvalidData
end Flatfile
