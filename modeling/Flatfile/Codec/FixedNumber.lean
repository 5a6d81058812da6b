import Flatfile.Codec.DataType
import Flatfile.Decimal.Rounding

/-!
# Numbers written as text of fixed length

The digits of a number with its point implied, or written where the file asks for it. The sign
stands before the digits; the reader also takes it behind them.
-/

namespace Flatfile

structure FixedNumber where
  size : Nat
  scale : Nat

namespace FixedNumber

def splitSign (cs : List Char) : Bool × List Char :=
  match cs with
  | '-' :: rest => (true, rest)
  | _ =>
    if cs.getLast? = some '-' then (true, cs.dropLast)
    else (false, Text.dropEndWhile (· == '+') (cs.dropWhile (· == '+')))

/-- The number that digits denote: with a point as it is written, else in units of the scale. -/
def magnitude (t : FixedNumber) (body : List Char) : Option Decimal :=
  if body = [] ∨ ¬ body.all fun c => c.isDigit || c == '.' then none
  else if '.' ∈ body then (Decimal.readChars body).toOption
  else Decimal.ofParts? false (body.foldl (fun n c => 10 * n + (c.toNat - 0x30)) 0) t.scale

def decodeText (t : FixedNumber) (_ : Coding) (text : String) : Except ConvertError Value :=
  let cs := Text.trimChars text.toList
  if cs = [] then .ok .null
  else
    let (negative, body) := splitSign cs
    match t.magnitude (Text.trimChars body) with
    | some d => .ok (.decimal (if negative then d.neg else d))
    | none => .error (.notANumber (String.ofList cs))

def body (t : FixedNumber) (numeric : NumericFormat) (v : Decimal) : List Char :=
  let digits := Decimal.digits v.coefficient
  if numeric.requiredPoint ∧ 0 < t.scale then
    Decimal.withPoint t.scale (Decimal.padLeft (t.scale + 1) digits)
  else digits

def sign (numeric : NumericFormat) (v : Decimal) : List Char :=
  if v.negative ∧ ¬ v.isZero then ['-'] else if numeric.requiredPlus then ['+'] else []

def encodeText (t : FixedNumber) (coding : Coding) (value : Value) :
    Except ConvertError String := do
  if value.isNull then .ok (String.ofList (List.replicate t.size ' '))
  else
    let d ← numberOf value
    let v := d.rescale t.scale
    let sign := sign coding.numeric v
    let body := t.body coding.numeric v
    let length := sign.length + body.length
    if t.size < length then .error (.overflow v.toText t.size)
    else if coding.numeric.fixedSign then
      .ok (String.ofList (sign ++ List.replicate (t.size - length) '0' ++ body))
    else .ok (String.ofList (List.replicate (t.size - length) ' ' ++ sign ++ body))

def dataType (t : FixedNumber) : DataType :=
  { name := "N", width := t.size, decodeText := t.decodeText, encodeText := t.encodeText }

def ofArgs (args : Args) (_ : FieldEnv) : Except ConvertError FixedNumber := do
  args.between 1 2
  let size ← args.size 0
  let scale ← args.scale 1
  .ok { size, scale }

end FixedNumber
end Flatfile
