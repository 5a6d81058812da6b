import Flatfile.Codec.DataType

/-!
# Raw bytes

Bytes are copied as they are, and filled up with zeros.
-/

namespace Flatfile

structure RawBytes where
  size : Nat

namespace RawBytes

def decode (t : RawBytes) (_ : Coding) (bytes : List UInt8) : Except ConvertError Value := do
  checkWidth bytes t.size
  .ok (.bytes bytes)

def bytesOf : Value → Except ConvertError (List UInt8)
  | .null => .ok []
  | .bytes bs => .ok bs
  | .text s =>
    (Text.Hex.decode s).mapError fun fault =>
      .invalid ("expected bytes or hex text: " ++ fault.message)
  | other => .error (.invalid s!"expected bytes, got '{other.toText}'")

def encode (t : RawBytes) (_ : Coding) (value : Value) : Except ConvertError (List UInt8) := do
  let bs ← bytesOf value
  if t.size < bs.length then .error (.tooLong bs.length t.size)
  else .ok (bs ++ List.replicate (t.size - bs.length) 0)

def dataType (t : RawBytes) : DataType :=
  { name := "B", width := t.size, decodeBytes := t.decode, encodeBytes := t.encode }

def ofArgs (args : Args) (_ : FieldEnv) : Except ConvertError RawBytes := do
  args.between 1 1
  let size ← args.size 0
  .ok { size }

end RawBytes
end Flatfile
