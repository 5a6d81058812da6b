import Flatfile.Decimal.Basic

/-!
# Decimals from binary fractions

A floating-point number `± m * 2 ^ e` becomes a decimal by trading powers of two below one for
powers of five and ten, kept within 96 bits, and then giving up the digits that the binary format
does not guarantee. A whole number is kept as it is. Numbers beyond the range of decimals have
none; they are written with the fewest digits that identify them among the numbers of their format.

The first is the conversion of the decimal library, which promises 15 or 16 digits of a number of 64
bits and 6 or 7 of one of 32, the second how floating-point numbers are documented to be printed: as
the shortest text that is read back as the same number.
-/

namespace Flatfile.Decimal

structure Scaled where
  coefficient : Nat
  exponent : Int

/-- Divide by `2` as often as `n` says, each time by multiplying with `5` and lowering the power
of ten by one; an even coefficient is halved instead, and so is one that has no room for the
factor. The power of ten starts at `-n` and goes up with every halving. -/
def Scaled.halve (s : Scaled) : Nat → Scaled
  | 0 => s
  | n + 1 =>
    if s.coefficient % 2 = 0 then Scaled.halve ⟨s.coefficient / 2, s.exponent + 1⟩ n
    else if 5 * s.coefficient < limit then Scaled.halve ⟨5 * s.coefficient, s.exponent⟩ n
    else Scaled.halve ⟨s.coefficient / 2, s.exponent + 1⟩ n

def Scaled.dropDigit (s : Scaled) : Scaled :=
  ⟨s.coefficient / 10 + (if 5 ≤ s.coefficient % 10 then 1 else 0), s.exponent + 1⟩

def Scaled.dropExcess (s : Scaled) : Nat → Scaled
  | 0 => s
  | n + 1 =>
    if s.exponent < -28 then
      if s.coefficient / 10 = 0 then ⟨0, 0⟩ else Scaled.dropExcess s.dropDigit n
    else s

def Scaled.dropUncertain (limit : Nat) (s : Scaled) : Nat → Scaled
  | 0 => s
  | n + 1 =>
    if s.exponent < 0 ∧ limit ≤ s.coefficient then Scaled.dropUncertain limit s.dropDigit n else s

def Scaled.dropZeros (s : Scaled) : Nat → Scaled
  | 0 => s
  | n + 1 =>
    if s.exponent < 0 ∧ s.coefficient % 10 = 0 then
      Scaled.dropZeros ⟨s.coefficient / 10, s.exponent + 1⟩ n
    else s

def Scaled.ofPowerOfTwo (m : Nat) (e : Int) : Scaled :=
  if e < 0 then Scaled.halve ⟨m, e⟩ (-e).toNat else ⟨m * Nat.pow 2 e.toNat, 0⟩

/-- The decimal nearest to `± m * 2 ^ e` that keeps a coefficient below `limit`, in its shortest
form; a whole number keeps all its digits. -/
def ofBinary? (limit : Nat) (negative : Bool) (m : Nat) (e : Int) : Option Decimal :=
  if m = 0 then ofParts? negative 0 0
  else
    let s := Scaled.ofPowerOfTwo m e
    let s := s.dropExcess (-s.exponent).toNat
    let s := s.dropUncertain limit (-s.exponent).toNat
    let s := s.dropZeros (-s.exponent).toNat
    ofParts? negative s.coefficient (-s.exponent).toNat

structure BinaryFormat where
  fractionBits : Nat
  exponentBits : Nat
  limit : Nat

namespace BinaryFormat

def double : BinaryFormat := ⟨52, 11, 0x10000000000000⟩

def single : BinaryFormat := ⟨23, 8, 0x1000000⟩

inductive Reading where
  | finite (negative : Bool) (m : Nat) (e : Int)
  | infinite (negative : Bool)
  | notANumber

def read (f : BinaryFormat) (bits : Nat) : Reading :=
  let fraction := bits % Nat.pow 2 f.fractionBits
  let biased := bits / Nat.pow 2 f.fractionBits % Nat.pow 2 f.exponentBits
  let negative := bits / Nat.pow 2 (f.fractionBits + f.exponentBits) % 2 == 1
  let lowest : Int := 2 - Nat.pow 2 (f.exponentBits - 1) - f.fractionBits
  if biased = Nat.pow 2 f.exponentBits - 1 then
    if fraction = 0 then .infinite negative else .notANumber
  else if biased = 0 then .finite negative fraction lowest
  else .finite negative (Nat.pow 2 f.fractionBits + fraction) (lowest + biased - 1)

def nearestMultiple? (value low high step : Nat) (closed : Bool) : Option Nat :=
  let below := value / step * step
  let above := below + step
  let inside (n : Nat) : Bool := if closed then low ≤ n && n ≤ high else low < n && n < high
  if inside below && (!inside above || value - below ≤ above - value) then some below
  else if inside above then some above
  else none

/-- Try ever finer powers of ten, in quarters, until a multiple lies between the bounds. -/
def coarsestMultiple (value low high : Nat) (closed : Bool) : Nat → Nat
  | 0 => value
  | k + 1 =>
    match nearestMultiple? value low high (4 * tenPow (k + 1)) closed with
    | some n => n
    | none => coarsestMultiple value low high closed k

/-- The digits of a whole number `m * 2 ^ e`: as few significant ones as tell it from its
neighbours, zeros after them. All is measured in quarters, so that the bounds half-way to the
neighbours are whole; the lower neighbour of a power of two is only half as far away. -/
def shortestWhole (f : BinaryFormat) (m e : Nat) : Nat :=
  let unit := Nat.pow 2 e
  let value := 4 * m * unit
  let low := value - (if m = Nat.pow 2 f.fractionBits then unit else 2 * unit)
  coarsestMultiple value low (value + 2 * unit) (m % 2 == 0) (Nat.toDigits 10 (m * unit)).length / 4

def Reading.text (f : BinaryFormat) : Reading → String
  | .notANumber => "NaN"
  | .infinite negative => if negative then "-inf" else "inf"
  | .finite negative m e =>
    let sign := if negative then "-" else ""
    sign ++ toString (shortestWhole f m e.toNat)

end BinaryFormat

def ofBits (f : BinaryFormat) (bits : Nat) : Decimal ⊕ String :=
  let reading := f.read bits
  match reading with
  | .finite negative m e =>
    match ofBinary? f.limit negative m e with
    | some d => .inl d
    | none => .inr (reading.text f)
  | _ => .inr (reading.text f)

end Flatfile.Decimal
