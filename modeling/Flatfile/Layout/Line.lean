import Flatfile.Layout.Scan
import Flatfile.Text.Blank

/-!
# Lines of tokens

A layout is read line by line. White space stands between tokens, a number sign starts a comment
that takes the rest of its line, and a line without tokens counts for nothing. A line that holds a
word of no kind, or a word without a value, ends in that error.
-/

namespace Flatfile.Layout

/-- The tokens of a line, and what ends it: its end-of-line token, or the error of its first bad
word. -/
structure Line where
  tokens : List Token
  stop : Except SyntaxError Token

namespace Line

/-- The first token, which decides what the line is; a line that begins with a bad word has only
its error. -/
def first (line : Line) : Except SyntaxError Token :=
  match line.tokens with
  | t :: _ => .ok t
  | [] => line.stop

def all (line : Line) : Except SyntaxError (List Token) :=
  line.stop.map fun t => line.tokens ++ [t]

end Line

def snippet (cs : List Char) : String :=
  String.ofList (cs.takeWhile fun c => !Text.isBlank c)

def closing (kind : TokenKind) (line column : Nat) : Token :=
  { kind, raw := "", value := .none, line, column }

def tokensFrom (line column : Nat) (cs : List Char) : Line :=
  let rest := cs.dropWhile Text.isBlank
  let column := column + (cs.length - rest.length)
  if rest = [] ∨ rest.head? = some '#' then ⟨[], .ok (closing .endOfLine line column)⟩
  else
    match _h : word rest with
    | none =>
      let text := snippet rest
      ⟨[], .error (.atToken line column text (.unrecognized text))⟩
    | some (found, after) =>
      let raw := String.ofList (before rest after)
      match found.value with
      | .error cause => ⟨[], .error (.atToken line column raw cause)⟩
      | .ok value =>
        let more := tokensFrom line (column + (rest.length - after.length)) after
        ⟨{ kind := found.kind, raw, value, line, column } :: more.tokens, more.stop⟩
termination_by cs.length
decreasing_by
  exact Nat.lt_of_lt_of_le (word_follows _h).2 (List.dropWhile_suffix _).length_le

def withoutReturn (cs : List Char) : List Char :=
  if cs.getLast? = some '\r' then cs.dropLast else cs

def textLines (cs : List Char) : List (List Char) :=
  match _h : cs.dropWhile (· != '\n') with
  | [] => if cs = [] then [] else [cs]
  | _ :: rest => withoutReturn (cs.takeWhile (· != '\n')) :: textLines rest
termination_by cs.length
decreasing_by
  have := (List.dropWhile_suffix (l := cs) (· != '\n')).length_le
  rw [_h, List.length_cons] at this
  exact this

def Line.isBlank (line : Line) : Bool :=
  line.tokens.isEmpty && line.stop.toOption.isSome

structure Lines where
  lines : List Line
  endOfInput : Token

def Lines.ofSource (source : String) : Lines :=
  let texts := textLines source.toList
  { lines := (texts.zipIdx 1).filterMap fun (cs, n) =>
      let line := tokensFrom n 1 cs
      if line.isBlank then none else some line
    endOfInput := closing .endOfInput (max texts.length 1) 1 }

def tokenize (source : String) : Except SyntaxError (List Token) := do
  let lines := Lines.ofSource source
  let tokens ← lines.lines.mapM Line.all
  .ok (tokens.flatten ++ [lines.endOfInput])

end Flatfile.Layout
