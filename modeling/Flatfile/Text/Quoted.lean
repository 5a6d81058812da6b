import Flatfile.Text.Graphic

/-!
# Text in messages

Messages show texts so that every character can be told: line breaks and the like by a letter
after a backslash, other characters without a visible form by their code point.
-/

namespace Flatfile.Text

def lowerHex (n : Nat) : String :=
  String.ofList (Nat.toDigits 16 n)

def upperHex (n : Nat) : String :=
  String.ofList ((Nat.toDigits 16 n).map Char.toUpper)

structure EscapeStyle where
  singleQuote : Bool
  doubleQuote : Bool
  graphemeExtension : Bool

def codePointEscape (c : Char) : String :=
  "\\u\x7b" ++ lowerHex c.toNat ++ "\x7d"

def escapeChar (style : EscapeStyle) (c : Char) : String :=
  if c = '\x00' then "\\0"
  else if c = '\t' then "\\t"
  else if c = '\r' then "\\r"
  else if c = '\n' then "\\n"
  else if c = '\\' then "\\\\"
  else if c = '\x22' then (if style.doubleQuote then "\\\"" else "\"")
  else if c = '\x27' then (if style.singleQuote then "\\'" else "'")
  else if (style.graphemeExtension && extendsGrapheme c) || !isGraphic c then codePointEscape c
  else String.singleton c

def escapeChars (style : EscapeStyle) (cs : List Char) : String :=
  String.join (cs.map (escapeChar style))

def quoted (s : String) : String :=
  "\"" ++ escapeChars ⟨false, true, true⟩ s.toList ++ "\""

def quotedChar (c : Char) : String :=
  "'" ++ escapeChar ⟨true, false, true⟩ c ++ "'"

/-- A text with every quote escaped; a combining character is spelled out only where it stands
first, since elsewhere it joins the character before it. -/
def escaped (s : String) : String :=
  match s.toList with
  | [] => ""
  | c :: rest => escapeChar ⟨true, true, true⟩ c ++ escapeChars ⟨true, true, false⟩ rest

def quotedList (items : List String) : String :=
  "[" ++ ", ".intercalate (items.map quoted) ++ "]"

end Flatfile.Text
