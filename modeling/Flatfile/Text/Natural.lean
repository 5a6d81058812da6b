/-!
# Natural numbers as text

Natural numbers of 32 bits, written in decimal digits after an optional plus sign.
-/

namespace Flatfile.Text.Natural

inductive Fault where
  | empty
  | invalidDigit
  | tooLarge
  deriving DecidableEq, Repr

def Fault.message : Fault → String
  | .empty => "cannot parse integer from empty string"
  | .invalidDigit => "invalid digit found in string"
  | .tooLarge => "number too large to fit in target type"

/-- Read on after digits that make up `n`. The first character at fault decides. -/
def readDigits (n : Nat) : List Char → Except Fault Nat
  | [] => .ok n
  | c :: rest =>
    if c.isDigit then
      let n := 10 * n + (c.toNat - 0x30)
      if n < 0x100000000 then readDigits n rest else .error .tooLarge
    else .error .invalidDigit

def read (cs : List Char) : Except Fault Nat :=
  match cs with
  | [] => .error .empty
  | ['+'] => .error .invalidDigit
  | '+' :: rest => readDigits 0 rest
  | cs => readDigits 0 cs

end Flatfile.Text.Natural
