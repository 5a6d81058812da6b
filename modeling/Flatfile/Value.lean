import Flatfile.Decimal.Notation
import Flatfile.Decimal.Binary
import Flatfile.Text.Blank
import Flatfile.Text.Hex

/-!
# Values

What a field of a record holds: nothing, a text, a number, bytes, or a list of texts for a
repeated field. Numbers of any kind are decimals.
-/

namespace Flatfile

inductive Value where
  | null
  | text (s : String)
  | decimal (d : Decimal)
  | bytes (bs : List UInt8)
  | array (items : List String)
  deriving DecidableEq, Inhabited

namespace Value

def isNull : Value → Bool
  | null => true
  | _ => false

def isEmpty : Value → Bool
  | null => true
  | text s => s.isEmpty
  | decimal _ => false
  | bytes bs => bs.isEmpty
  | array items => items.isEmpty

def text? : Value → Option String
  | text s => some s
  | _ => none

def bytes? : Value → Option (List UInt8)
  | bytes bs => some bs
  | _ => none

def array? : Value → Option (List String)
  | array items => some items
  | _ => none

def decimal? : Value → Option Decimal
  | decimal d => some d
  | text s => (Decimal.readChars (Text.trimChars s.toList)).toOption
  | _ => none

def int64? (v : Value) : Option Int :=
  v.decimal?.bind Decimal.truncated?

/-- The text under which conditions and text fields see a value. Decimals are normalised, so that
equal numbers have equal texts. -/
def toText : Value → String
  | null => ""
  | text s => s
  | decimal d => d.normalize.toText
  | bytes bs => Text.Hex.encode bs
  | array items => ",".intercalate items

/-- A floating-point number: a decimal in the range of decimals, else a text. -/
def ofBits (format : Decimal.BinaryFormat) (bits : Nat) : Value :=
  match Decimal.ofBits format bits with
  | .inl d => decimal d
  | .inr s => text s

def ofBool (b : Bool) : Value :=
  text (if b then "true" else "false")

end Value
end Flatfile
