import Flatfile.Charset.Ebcdic
import Flatfile.Text.Blank
import Flatfile.Text.Utf8

/-!
# Charsets

The text encodings that a layout can name. All but UTF-8 give each character one byte. Bytes that
encode nothing are read as the replacement character, and characters that a charset lacks are
written as its question mark.
-/

namespace Flatfile

inductive Charset where
  | ascii
  | latin1
  | utf8
  | ebcdic037
  | ebcdic500
  deriving DecidableEq, Repr

namespace Charset

def nameForm (name : String) : String :=
  String.ofList <| (Text.trimChars name.toList).map fun c => if c = '_' then '-' else c.toUpper

def ofName? (name : String) : Option Charset :=
  match nameForm name with
  | "US-ASCII" | "ASCII" | "US" => some .ascii
  | "ISO-8859-1" | "ISO8859-1" | "LATIN1" | "LATIN-1" => some .latin1
  | "UTF-8" | "UTF8" => some .utf8
  | "CP037" | "IBM037" | "IBM-037" | "EBCDIC" | "EBCDIC-037" => some .ebcdic037
  | "CP500" | "IBM500" | "IBM-500" | "EBCDIC-500" => some .ebcdic500
  | _ => none

def name : Charset → String
  | ascii => "US-ASCII"
  | latin1 => "ISO-8859-1"
  | utf8 => "UTF-8"
  | ebcdic037 => "Cp037"
  | ebcdic500 => "Cp500"

def singleByte : Charset → Bool
  | utf8 => false
  | _ => true

/-- The character of one byte; in UTF-8 only the bytes of ASCII stand alone. -/
def decodeByte (charset : Charset) (b : UInt8) : Char :=
  match charset with
  | ascii | utf8 => if b < 0x80 then Char.ofNat b.toNat else Text.Utf8.replacement
  | latin1 => Char.ofNat b.toNat
  | ebcdic037 => Char.ofNat (Ebcdic.toLatin1 Ebcdic.page037 b).toNat
  | ebcdic500 => Char.ofNat (Ebcdic.toLatin1 Ebcdic.page500 b).toNat

def decodeChars (charset : Charset) (bytes : List UInt8) : List Char :=
  match charset with
  | utf8 => Text.Utf8.decodeLossy bytes
  | _ => bytes.map charset.decodeByte

def decode (charset : Charset) (bytes : List UInt8) : String :=
  String.ofList (charset.decodeChars bytes)

def substitute : Char := '?'

/-- The Latin-1 code of a character, that of the question mark if it has none. -/
def latin1Code (c : Char) : UInt8 :=
  UInt8.ofNat (if c.toNat ≤ 0xFF then c.toNat else substitute.toNat)

def encodeChar (charset : Charset) (c : Char) : UInt8 :=
  match charset with
  | ascii | utf8 => UInt8.ofNat (if c.toNat < 0x80 then c.toNat else substitute.toNat)
  | latin1 => latin1Code c
  | ebcdic037 => Ebcdic.ofLatin1 Ebcdic.page037 (latin1Code c)
  | ebcdic500 => Ebcdic.ofLatin1 Ebcdic.page500 (latin1Code c)

def encodeChars (charset : Charset) (cs : List Char) : List UInt8 :=
  match charset with
  | utf8 => cs.flatMap String.utf8EncodeChar
  | _ => cs.map charset.encodeChar

def encode (charset : Charset) (text : String) : List UInt8 :=
  charset.encodeChars text.toList

def byteFor? (charset : Charset) (c : Char) : Option UInt8 :=
  if charset = utf8 ∧ ¬ c.toNat < 0x80 then none else some (charset.encodeChar c)

end Charset
end Flatfile
