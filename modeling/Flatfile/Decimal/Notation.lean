import Flatfile.Decimal.Rounding
import Flatfile.Text.Natural

/-!
# Decimals as text

A decimal is written positionally: a minus sign, at least one digit before the point, and as many
digits after it as the scale says. The reader also takes a plus sign, a point at either end of the
digits, underscores between digits, and a power of ten behind them. Digits after the point that a
decimal cannot hold are rounded away, by the first of them and upwards from five, but they have to
be digits all the same.

These are `to_string` and `from_str` of the decimal library, which takes scientific notation, too;
the errors have the texts of the library.
-/

namespace Flatfile.Decimal

def digits (n : Nat) : List Char :=
  Nat.toDigits 10 n

def padLeft (width : Nat) (cs : List Char) : List Char :=
  List.replicate (width - cs.length) '0' ++ cs

def withPoint (scale : Nat) (cs : List Char) : List Char :=
  if scale = 0 then cs
  else cs.take (cs.length - scale) ++ '.' :: cs.drop (cs.length - scale)

def toText (d : Decimal) : String :=
  let sign := if d.negative then ['-'] else []
  String.ofList (sign ++ withPoint d.scale (padLeft (d.scale + 1) (digits d.coefficient)))

inductive ReadFault where
  | empty
  | noDigits
  | secondPoint
  | leadingUnderscore
  | unknownCharacter
  | tooManyDigits
  | roundedTooLarge
  | badExponent
  deriving DecidableEq, Repr

def ReadFault.message : ReadFault → String
  | .empty => "Invalid decimal: empty"
  | .noDigits => "Invalid decimal: no digits found"
  | .secondPoint => "Invalid decimal: two decimal points"
  | .leadingUnderscore => "Invalid decimal: must start lead with a number"
  | .unknownCharacter => "Invalid decimal: unknown character"
  | .tooManyDigits => "Invalid decimal: overflow from too many digits"
  | .roundedTooLarge => "Invalid decimal: overflow from mantissa after rounding"
  | .badExponent => "Failed to parse"

def strayCharacter (c : Char) : ReadFault :=
  if c = '.' then .secondPoint
  else if c = '_' then .leadingUnderscore
  else .unknownCharacter

structure Digits where
  value : Nat
  scale : Nat
  point : Bool
  some : Bool

def Digits.finish (negative : Bool) (read : Digits) : Except ReadFault Decimal :=
  if read.some then
    match ofParts? (negative && read.value != 0) read.value read.scale with
    | .some d => .ok d
    | .none => .error .tooManyDigits
  else .error .noDigits

/-- The digits read so far, the last of them one higher. Where no coefficient is left for that, the
last digit goes, and what it was rounds the digit before it up. -/
def Digits.roundUp (read : Digits) : Except ReadFault Digits :=
  if read.value + 1 < limit then .ok { read with value := read.value + 1 }
  else if read.scale = 0 then .error .roundedTooLarge
  else .ok { read with value := (read.value + 5) / 10, scale := read.scale - 1 }

/-- Digits that are rounded away, and the underscores between them, have no effect; nothing else
may stand there. -/
def checkBeyond (cs : List Char) : Except ReadFault Unit :=
  match cs.find? fun c => !(c.isDigit || c == '_') with
  | some c => .error (strayCharacter c)
  | none => .ok ()

def longFrom : Nat := 0x199999999999989A

/-- Whether the digits before the last one make up a long number. Between the digits of a long
number an underscore is skipped even where the rounding is decided; behind a short one it decides
the rounding as a zero would. -/
def Digits.isLong (read : Digits) : Bool :=
  longFrom ≤ read.value / 10

def Digits.finishRounded (negative : Bool) (read : Digits) : List Char → Except ReadFault Decimal
  | [] => read.finish negative
  | c :: rest =>
    if c = '_' ∧ read.isLong then Digits.finishRounded negative read rest
    else do
      checkBeyond (c :: rest)
      if c = '_' ∨ c.toNat < 0x35 then read.finish negative
      else (← read.roundUp).finish negative

def Digits.read (negative : Bool) (read : Digits) : List Char → Except ReadFault Decimal
  | [] => read.finish negative
  | c :: rest =>
    if read.point ∧ maxScale ≤ read.scale then read.finishRounded negative (c :: rest)
    else if c.isDigit then
      let value := 10 * read.value + (c.toNat - 0x30)
      if value < limit then
        Digits.read negative
          { read with value, scale := read.scale + (if read.point then 1 else 0), some := true }
          rest
      else if read.point then read.finishRounded negative (c :: rest)
      else .error .tooManyDigits
    else if c = '.' ∧ read.point = false then Digits.read negative { read with point := true } rest
    else if c = '_' ∧ read.some then Digits.read negative read rest
    else .error (strayCharacter c)

def Digits.none : Digits := ⟨0, 0, false, false⟩

def readPlain : List Char → Except ReadFault Decimal
  | [] => .error .empty
  | c :: rest =>
    if c = '-' then Digits.none.read true rest
    else if c = '+' then Digits.none.read false rest
    else Digits.none.read false (c :: rest)

def isExponentMark (c : Char) : Bool :=
  c == 'e' || c == 'E'

def shiftUp? (d : Decimal) (n : Nat) : Option Decimal :=
  if n ≤ d.scale then ofParts? d.negative d.coefficient (d.scale - n)
  else if n ≤ maxScale then ofParts? d.negative (d.coefficient * tenPow (n - d.scale)) 0
  else none

/-- The decimal divided by `10 ^ n`, with as many more digits behind the point. Those for which a
decimal has no place are rounded away, upwards from five; the sign stays, even that of a zero. -/
def shiftDown? (d : Decimal) (n : Nat) : Option Decimal :=
  if n ≤ maxScale then
    ofParts? d.negative (roundedQuotient d.coefficient (d.scale + n - maxScale))
      (min (d.scale + n) maxScale)
  else none

def readChars (cs : List Char) : Except ReadFault Decimal :=
  match cs.dropWhile fun c => !isExponentMark c with
  | [] => readPlain cs
  | _ :: exponent =>
    let scaled (d : Decimal) : Option Decimal :=
      match exponent with
      | '-' :: digits => (Text.Natural.read digits).toOption.bind d.shiftDown?
      | digits => (Text.Natural.read digits).toOption.bind d.shiftUp?
    match readPlain (cs.takeWhile fun c => !isExponentMark c) with
    | .error fault => .error fault
    | .ok d => (scaled d).elim (.error .badExponent) .ok

def ofText (text : String) : Except ReadFault Decimal :=
  readChars text.toList

end Flatfile.Decimal
