import Flatfile.Layout.Literal

/-!
# Tokens

The words of a layout. A line of a layout is a list of tokens closed by an end-of-line token; a
layout is closed by an end-of-input token.
-/

namespace Flatfile.Layout

inductive TokenKind where
  /-- A name with a colon: the name of a directive, or what comes before the name of a field. -/
  | header
  | recordHeader
  | arraySize
  | number
  | boolean
  | string
  | hex
  | identifier
  | leftParen
  | rightParen
  | comma
  | equals
  | less
  | question
  | atSign
  | endOfLine
  | endOfInput
  deriving DecidableEq, Repr

namespace TokenKind

def describe : TokenKind → String
  | header => "directive header"
  | recordHeader => "record header"
  | arraySize => "array size"
  | number => "number"
  | boolean => "boolean"
  | string => "string"
  | hex => "hex literal"
  | identifier => "identifier"
  | leftParen => "'('"
  | rightParen => "')'"
  | comma => "','"
  | equals => "'='"
  | less => "'<'"
  | question => "'?'"
  | atSign => "'@'"
  | endOfLine => "end of line"
  | endOfInput => "end of input"

def literals : List TokenKind :=
  [string, number, boolean, hex]

end TokenKind

inductive TokenValue where
  | none
  | name (name : String)
  | literal (literal : Literal)
  | bounds (min : Nat) (max : Option Nat)
  deriving DecidableEq

/-- A token with the text it was read from and the place of its first character, counted from
one. -/
structure Token where
  kind : TokenKind
  raw : String
  value : TokenValue
  line : Nat
  column : Nat
  deriving DecidableEq

namespace Token

def nameOrRaw (t : Token) : String :=
  match t.value with
  | .name name => name
  | _ => t.raw

end Token
end Flatfile.Layout
