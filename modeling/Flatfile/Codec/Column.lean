import Flatfile.Codec.DataType
import Flatfile.Decimal.Rounding

/-!
# Columns

The data types of delimited records. A column is a text of any length, so they need no padding.
-/

namespace Flatfile

structure ColumnText where
  max : Option Nat

namespace ColumnText

def check (t : ColumnText) (text : String) : Except ConvertError Unit :=
  match t.max with
  | some max => if max < text.length then .error (.tooLong text.length max) else .ok ()
  | none => .ok ()

def decode (t : ColumnText) (_ : Coding) (text : String) : Except ConvertError Value := do
  t.check text
  .ok (.text text)

def encode (t : ColumnText) (_ : Coding) (value : Value) : Except ConvertError String := do
  t.check value.toText
  .ok value.toText

def dataType (t : ColumnText) : DataType :=
  { name := "X", width := 1, decodeText := t.decode, encodeText := t.encode }

def ofArgs (args : Args) (_ : FieldEnv) : Except ConvertError ColumnText := do
  args.atMost 1
  let max ← args.number? 0
  .ok { max }

end ColumnText

structure ColumnNumber where
  scale : Option Nat

namespace ColumnNumber

def decode (_ : ColumnNumber) (_ : Coding) (text : String) : Except ConvertError Value :=
  let cs := Text.trimChars text.toList
  if cs = [] then .ok .null
  else
    match Decimal.readChars (cs.dropWhile (· == '+')) with
    | .ok d => .ok (.decimal d)
    | .error _ => .error (.notANumber (String.ofList cs))

def encode (t : ColumnNumber) (_ : Coding) (value : Value) : Except ConvertError String := do
  if value.isEmpty then .ok ""
  else
    let d ← numberOf value
    match t.scale with
    | some scale => .ok (d.rescale scale).toText
    | none => .ok d.toText

def dataType (t : ColumnNumber) : DataType :=
  { name := "N", width := 1, decodeText := t.decode, encodeText := t.encode }

def ofArgs (args : Args) (_ : FieldEnv) : Except ConvertError ColumnNumber := do
  args.atMost 1
  match ← args.number? 0 with
  | none => .ok { scale := none }
  | some _ =>
    let scale ← args.scale 0
    .ok { scale := some scale }

end ColumnNumber

structure ColumnHex where

namespace ColumnHex

def decode (_ : Coding) (text : String) : Except ConvertError Value :=
  if text.isEmpty then .ok .null
  else
    match Text.Hex.decode text with
    | .ok bs => .ok (.bytes bs)
    | .error fault => .error (.invalid (s!"invalid hex text '{text}': " ++ fault.message))

/-- A text that spells bytes is written as it is, in upper case. -/
def encode (_ : Coding) (value : Value) : Except ConvertError String :=
  let refuse : Except ConvertError String :=
    .error (.invalid s!"expected bytes, got '{value.toText}'")
  match value with
  | .null => .ok ""
  | .bytes bs => .ok (Text.Hex.encode bs)
  | .text s =>
    match Text.Hex.decode s with
    | .ok _ => .ok (String.ofList (s.toList.map Char.toUpper))
    | .error _ => refuse
  | _ => refuse

def dataType : DataType :=
  { name := "HEX", width := 1, decodeText := decode, encodeText := encode }

def ofArgs (args : Args) (_ : FieldEnv) : Except ConvertError ColumnHex := do
  args.atMost 0
  .ok {}

end ColumnHex
end Flatfile
