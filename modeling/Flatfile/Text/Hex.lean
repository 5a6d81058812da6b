import Flatfile.Text.Quoted
import Flatfile.Text.Utf8

/-!
# Bytes as hexadecimal digits

Two digits a byte. Bytes are written in upper case and read in either.
-/

namespace Flatfile.Text.Hex

def digit (n : Nat) : Char :=
  if n < 10 then Char.ofNat (0x30 + n) else Char.ofNat (0x37 + n)

def encodeByte (b : UInt8) : List Char :=
  [digit (b.toNat / 16), digit (b.toNat % 16)]

def encode (bytes : List UInt8) : String :=
  String.ofList (bytes.flatMap encodeByte)

def digitValue? (b : UInt8) : Option Nat :=
  if 0x30 ≤ b ∧ b ≤ 0x39 then some (b.toNat - 0x30)
  else if 0x41 ≤ b ∧ b ≤ 0x46 then some (b.toNat - 0x37)
  else if 0x61 ≤ b ∧ b ≤ 0x66 then some (b.toNat - 0x57)
  else none

inductive Fault where
  | oddLength
  | badDigit (byte : UInt8) (offset : Nat)
  deriving DecidableEq, Repr

def Fault.message : Fault → String
  | .oddLength => "Odd number of digits"
  | .badDigit byte offset =>
    let shown := quotedChar (Char.ofNat byte.toNat)
    s!"Invalid character {shown} at position {offset}"

def decodePairs (offset : Nat) : List UInt8 → Except Fault (List UInt8)
  | [] => .ok []
  | [_] => .error .oddLength
  | high :: low :: rest =>
    match digitValue? high, digitValue? low with
    | none, _ => .error (.badDigit high offset)
    | some _, none => .error (.badDigit low (offset + 1))
    | some h, some l => (decodePairs (offset + 2) rest).map (UInt8.ofNat (h * 16 + l) :: ·)

/-- The bytes that a text spells. A text of odd length is refused before its digits are looked
at. -/
def decode (text : String) : Except Fault (List UInt8) :=
  let bytes := Utf8.encode text
  if bytes.length % 2 = 1 then .error .oddLength else decodePairs 0 bytes

end Flatfile.Text.Hex
