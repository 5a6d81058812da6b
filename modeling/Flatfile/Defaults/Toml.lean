import Flatfile.Defaults.Basic

/-!
# Defaults from TOML

A document of defaults is a list of keys with values: truth values, whole numbers, texts and lists
of texts. The keys are those of the defaults, each at most once. A document with tables, with
other keys or with values of other types is refused as a whole.

The spelling of keys and values follows the specification of TOML 1.0 as far as such a document
needs it: comments, bare and quoted keys, basic and literal strings on one line and on several,
escapes, and whole numbers in four bases with underscores.
-/

namespace Flatfile.Defaults.Toml

inductive Item where
  | bool (b : Bool)
  | integer (n : Int)
  | text (s : String)
  | texts (items : List String)
  deriving DecidableEq

/-- Finds something at the start of the characters and returns what follows it. -/
abbrev Reader (α : Type) := List Char → Option (α × List Char)

def isControl (c : Char) : Bool :=
  (c.toNat < 0x20 && c != '\t') || c.toNat == 0x7F

def skipBlanks (cs : List Char) : List Char :=
  cs.dropWhile fun c => c == ' ' || c == '\t'

def skipComment (cs : List Char) : Option (List Char) :=
  match cs with
  | '#' :: rest =>
    let text := rest.takeWhile (· != '\n')
    let after := rest.dropWhile (· != '\n')
    let text := if after ≠ [] ∧ text.getLast? = some '\r' then text.dropLast else text
    if text.any isControl then none else some after
  | _ => some cs

def lineBreak : List Char → Option (List Char)
  | '\n' :: rest => some rest
  | '\r' :: '\n' :: rest => some rest
  | _ => none

def skipLines : Nat → List Char → Option (List Char)
  | 0, cs => some cs
  | fuel + 1, cs =>
    match skipComment (skipBlanks cs) with
    | none => none
    | some rest =>
      match lineBreak rest with
      | some rest => skipLines fuel rest
      | none => some rest

-- ------------------------------------------------------------------
-- Texts
-- ------------------------------------------------------------------

def hexValue? (c : Char) : Option Nat :=
  if c.isDigit then some (c.toNat - 0x30)
  else if 'a' ≤ c ∧ c ≤ 'f' then some (c.toNat - 0x57)
  else if 'A' ≤ c ∧ c ≤ 'F' then some (c.toNat - 0x37)
  else none

def codePoint? (digits : List Char) : Option Char := do
  let values ← digits.mapM hexValue?
  let n := values.foldl (fun n d => 16 * n + d) 0
  if n.isValidChar then some (Char.ofNat n) else none

def escape? : Char → Option Char
  | 'b' => some '\x08'
  | 't' => some '\t'
  | 'n' => some '\n'
  | 'f' => some '\x0c'
  | 'r' => some '\r'
  | 'e' => some '\x1b'
  | '\x22' => some '\x22'
  | '\\' => some '\\'
  | _ => none

def numericEscape (width : Nat) : Reader Char := fun cs =>
  if cs.length < width then none else (codePoint? (cs.take width)).map (·, cs.drop width)

def escape : Reader Char
  | 'x' :: rest => numericEscape 2 rest
  | 'u' :: rest => numericEscape 4 rest
  | 'U' :: rest => numericEscape 8 rest
  | c :: rest => (escape? c).map (·, rest)
  | [] => none

def basicBody : Nat → Reader (List Char)
  | 0, _ => none
  | _, [] => none
  | _, '\x22' :: rest => some ([], rest)
  | fuel + 1, '\\' :: rest => do
    let (c, rest) ← escape rest
    let (cs, rest) ← basicBody fuel rest
    some (c :: cs, rest)
  | fuel + 1, c :: rest =>
    if isControl c then none
    else (basicBody fuel rest).map fun (cs, rest) => (c :: cs, rest)

def literalBody : Reader (List Char)
  | [] => none
  | '\x27' :: rest => some ([], rest)
  | c :: rest =>
    if isControl c then none
    else (literalBody rest).map fun (cs, rest) => (c :: cs, rest)

/-- The quotes at the end of a text of several lines: three close it, and up to two more before
them belong to it. -/
def closingQuotes (quote : Char) (cs : List Char) : Option (List Char × List Char) :=
  let n := min 5 (cs.takeWhile (· == quote)).length
  if 3 ≤ n then some (List.replicate (n - 3) quote, cs.drop n) else none

def skipBlankLines : Nat → List Char → List Char
  | 0, cs => cs
  | fuel + 1, cs =>
    match lineBreak (skipBlanks cs) with
    | some rest => skipBlankLines fuel rest
    | none => skipBlanks cs

/-- What follows a backslash at the end of a line: nothing up to the next character that is not
white space. -/
def skipFolded (cs : List Char) : Option (List Char) :=
  (lineBreak (skipBlanks cs)).map fun rest => skipBlankLines (rest.length + 1) rest

def longBody (quote : Char) : Nat → Reader (List Char)
  | 0, _ => none
  | _, [] => none
  | fuel + 1, c :: rest =>
    if c = quote ∧ (closingQuotes quote (c :: rest)).isSome then closingQuotes quote (c :: rest)
    else if c = '\\' ∧ quote = '\x22' then
      match skipFolded rest with
      | some rest => longBody quote fuel rest
      | none => do
        let (e, rest) ← escape rest
        let (cs, rest) ← longBody quote fuel rest
        some (e :: cs, rest)
    else
      match lineBreak (c :: rest) with
      | some rest => (longBody quote fuel rest).map fun (cs, rest) => ('\n' :: cs, rest)
      | none =>
        if isControl c then none
        else (longBody quote fuel rest).map fun (cs, rest) => (c :: cs, rest)

/-- A text in any of its four forms. A line break right after the opening of a long one is
dropped. -/
def text : Reader String
  | '\x22' :: '\x22' :: '\x22' :: rest =>
    let rest := (lineBreak rest).getD rest
    (longBody '\x22' (rest.length + 1) rest).map fun (cs, rest) => (String.ofList cs, rest)
  | '\x27' :: '\x27' :: '\x27' :: rest =>
    let rest := (lineBreak rest).getD rest
    (longBody '\x27' (rest.length + 1) rest).map fun (cs, rest) => (String.ofList cs, rest)
  | '\x22' :: rest =>
    (basicBody (rest.length + 1) rest).map fun (cs, rest) => (String.ofList cs, rest)
  | '\x27' :: rest => (literalBody rest).map fun (cs, rest) => (String.ofList cs, rest)
  | _ => none

-- ------------------------------------------------------------------
-- Numbers and lists
-- ------------------------------------------------------------------

def digitsValue (base : Nat) (n : Nat) : List Char → Option Nat
  | [] => none
  | [c] => (hexValue? c).bind fun d => if d < base then some (base * n + d) else none
  | c :: '_' :: rest =>
    (hexValue? c).bind fun d => if d < base then digitsValue base (base * n + d) rest else none
  | c :: rest =>
    (hexValue? c).bind fun d => if d < base then digitsValue base (base * n + d) rest else none

def decimalValue (cs : List Char) : Option Nat :=
  if cs.head? = some '0' ∧ cs.length ≠ 1 then none else digitsValue 10 0 cs

def integerValue : List Char → Option Int
  | '0' :: 'x' :: rest => (digitsValue 16 0 rest).map Int.ofNat
  | '0' :: 'o' :: rest => (digitsValue 8 0 rest).map Int.ofNat
  | '0' :: 'b' :: rest => (digitsValue 2 0 rest).map Int.ofNat
  | '+' :: rest => (decimalValue rest).map Int.ofNat
  | '-' :: rest => (decimalValue rest).map fun n => -(n : Int)
  | cs => (decimalValue cs).map Int.ofNat

def isBare (c : Char) : Bool :=
  c.isAlphanum || c == '_' || c == '-' || c == '+' || c == '.' || c == ':'

def textList : Nat → Reader (List String)
  | 0, _ => none
  | fuel + 1, cs => do
    let cs ← skipLines cs.length cs
    match cs with
    | ']' :: rest => some ([], rest)
    | _ =>
      let (s, rest) ← text cs
      let rest ← skipLines rest.length rest
      match rest with
      | ',' :: rest => (textList fuel rest).map fun (ss, rest) => (s :: ss, rest)
      | ']' :: rest => some ([s], rest)
      | _ => none

def item : Reader Item
  | '[' :: rest => (textList (rest.length + 1) rest).map fun (ss, rest) => (.texts ss, rest)
  | cs =>
    match text cs with
    | some (s, rest) => some (.text s, rest)
    | none =>
      let word := cs.takeWhile isBare
      let rest := cs.dropWhile isBare
      if word = ['t', 'r', 'u', 'e'] then some (.bool true, rest)
      else if word = ['f', 'a', 'l', 's', 'e'] then some (.bool false, rest)
      else (integerValue word).map fun n => (.integer n, rest)

-- ------------------------------------------------------------------
-- Documents
-- ------------------------------------------------------------------

def key : Reader String
  | '\x22' :: rest =>
    (basicBody (rest.length + 1) rest).map fun (cs, rest) => (String.ofList cs, rest)
  | '\x27' :: rest => (literalBody rest).map fun (cs, rest) => (String.ofList cs, rest)
  | cs =>
    let isKey (c : Char) : Bool := c.isAlphanum || c == '_' || c == '-'
    if (cs.takeWhile isKey).isEmpty then none
    else some (String.ofList (cs.takeWhile isKey), cs.dropWhile isKey)

def entries : Nat → List Char → Option (List (String × Item))
  | 0, _ => none
  | fuel + 1, cs => do
    let cs ← skipLines cs.length cs
    if cs.isEmpty then some []
    else
      let (k, rest) ← key cs
      match skipBlanks rest with
      | '=' :: rest =>
        let (value, rest) ← item (skipBlanks rest)
        let rest ← skipComment (skipBlanks rest)
        let rest ← if rest.isEmpty then some [] else lineBreak rest
        (entries fuel rest).map ((k, value) :: ·)
      | _ => none

def find (doc : List (String × Item)) (key : String) (read : Item → Option α) (default : α) :
    Option α :=
  match doc.lookup key with
  | some value => read value
  | none => some default

def bool? : Item → Option Bool
  | .bool b => some b
  | _ => none

def text? : Item → Option String
  | .text s => some s
  | _ => none

def texts? : Item → Option (List String)
  | .texts ss => some ss
  | _ => none

def byte? : Item → Option (Option UInt8)
  | .integer n => if 0 ≤ n ∧ n < 256 then some (some (UInt8.ofNat n.toNat)) else none
  | _ => none

def word? : Item → Option Nat
  | .integer n => if 0 ≤ n ∧ n < 0x10000000000000000 then some n.toNat else none
  | _ => none

def keys : List String := [
  "positive-zone-sign-nibble", "negative-zone-sign-nibble", "positive-pack-sign-nibble",
  "negative-pack-sign-nibble", "allowed-record-separators", "flush-per-record",
  "max-record-length", "title-record-type-name", "required-decimal-point", "fixed-sign-position",
  "required-plus-sign", "minimal-quoting"]

def defaultsOf (doc : List (String × Item)) : Option Defaults := do
  let base : Defaults := {}
  let positiveZone ← find doc "positive-zone-sign-nibble" byte? base.positiveZone
  let negativeZone ← find doc "negative-zone-sign-nibble" byte? base.negativeZone
  let positivePack ← find doc "positive-pack-sign-nibble" byte? base.positivePack
  let negativePack ← find doc "negative-pack-sign-nibble" byte? base.negativePack
  let allowedSeparators ← find doc "allowed-record-separators" texts? base.allowedSeparators
  let flushPerRecord ← find doc "flush-per-record" bool? base.flushPerRecord
  let maxRecordLength ← find doc "max-record-length" word? base.maxRecordLength
  let titleTypeName ← find doc "title-record-type-name" text? base.titleTypeName
  let requiredPoint ← find doc "required-decimal-point" bool? base.requiredPoint
  let fixedSign ← find doc "fixed-sign-position" bool? base.fixedSign
  let requiredPlus ← find doc "required-plus-sign" bool? base.requiredPlus
  let minimalQuoting ← find doc "minimal-quoting" bool? base.minimalQuoting
  some
    { positiveZone, negativeZone, positivePack, negativePack, allowedSeparators, flushPerRecord,
      maxRecordLength, titleTypeName, requiredPoint, fixedSign, requiredPlus, minimalQuoting }

def skipMark : List Char → List Char
  | '\uFEFF' :: rest => rest
  | cs => cs

def read? (document : String) : Option Defaults := do
  let doc ← entries (document.length + 1) (skipMark document.toList)
  if (doc.map Prod.fst).all (keys.contains ·) ∧ (doc.map Prod.fst).Nodup then defaultsOf doc
  else none

end Toml

def ofToml (document : String) : Except ConfigFault Defaults :=
  match Toml.read? document with
  | none => .error .malformed
  | some d => d.check.map fun _ => d

end Flatfile.Defaults
