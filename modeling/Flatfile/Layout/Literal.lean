import Flatfile.Value
import Flatfile.Text.Quoted

/-!
# Literals

The constants of a layout: quoted texts, numbers, truth values and bytes in hexadecimal.
-/

namespace Flatfile

inductive Literal where
  | string (s : String)
  | number (d : Decimal)
  | bool (b : Bool)
  | hex (bs : List UInt8)
  deriving DecidableEq

inductive LiteralKind where
  | string
  | number
  | bool
  | hex
  deriving DecidableEq, Repr

def LiteralKind.name : LiteralKind → String
  | string => "string"
  | number => "number"
  | bool => "boolean"
  | hex => "hex"

namespace Literal

def kind : Literal → LiteralKind
  | string _ => .string
  | number _ => .number
  | bool _ => .bool
  | hex _ => .hex

def string? : Literal → Option String
  | string s => some s
  | _ => none

def bool? : Literal → Option Bool
  | bool b => some b
  | _ => none

/-- The natural number of 64 bits that a number or up to eight bytes denote. -/
def word? : Literal → Option Nat
  | number d => d.toWord?
  | hex bs =>
    if bs.isEmpty ∨ 8 < bs.length then none
    else some (bs.foldl (fun n b => n * 256 + b.toNat) 0)
  | _ => none

def toValue : Literal → Value
  | string s => .text s
  | number d => .decimal d
  | bool b => .ofBool b
  | hex bs => .bytes bs

def toText (literal : Literal) : String :=
  literal.toValue.toText

def shown : Literal → String
  | string s => Text.quoted s
  | hex bs => "0x" ++ Text.Hex.encode bs
  | literal => literal.toText

end Literal
end Flatfile
