import Flatfile.Codec.DataType
import Flatfile.Text.Name

/-!
# Text of fixed length

A text is padded on one side with a character that the charset writes as one byte; reading takes
that character off the same side again.
-/

namespace Flatfile

/-- The side on which a text stands; the padding is on the other. -/
inductive Align where
  | left
  | right
  deriving DecidableEq, Repr

structure FixedText where
  size : Nat
  pad : Char
  align : Align

namespace FixedText

def unpad (t : FixedText) (cs : List Char) : List Char :=
  match t.align with
  | .left => Text.dropEndWhile (· == t.pad) cs
  | .right => cs.dropWhile (· == t.pad)

def decode (t : FixedText) (coding : Coding) (bytes : List UInt8) : Except ConvertError Value := do
  checkWidth bytes t.size
  .ok (.text (String.ofList (t.unpad (coding.charset.decodeChars bytes))))

def encode (t : FixedText) (coding : Coding) (value : Value) : Except ConvertError (List UInt8) :=
  let encoded := coding.charset.encode value.toText
  if t.size < encoded.length then .error (.tooLong encoded.length t.size)
  else
    let fill := List.replicate (t.size - encoded.length) (coding.charset.encodeChar t.pad)
    match t.align with
    | .left => .ok (encoded ++ fill)
    | .right => .ok (fill ++ encoded)

def dataType (t : FixedText) : DataType :=
  { name := "X", width := t.size, decodeBytes := t.decode, encodeBytes := t.encode }

def alignOf : Option String → Except ConvertError Align
  | none => .ok .left
  | some side =>
    if Text.sameName side "left" then .ok .left
    else if Text.sameName side "right" then .ok .right
    else .error (.invalid ("alignment must be \"left\" or \"right\", got " ++ Text.quoted side))

def ofArgs (args : Args) (env : FieldEnv) : Except ConvertError FixedText := do
  args.between 1 3
  let size ← args.size 0
  let pad := (← args.char? 1).getD ' '
  if (env.charset.byteFor? pad).isNone then
    .error (.invalid ("pad character " ++ Text.quotedChar pad ++ " is not a single byte in "
      ++ env.charset.name))
  else
    let align ← alignOf (← args.string? 2)
    .ok { size, pad, align }

end FixedText
end Flatfile
