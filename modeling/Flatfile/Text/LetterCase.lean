import Flatfile.Text.LetterCase.Table
import Flatfile.Text.Ranges

/-!
# Letter case

The lower-case and upper-case forms of a text. A letter may have a form of several characters,
and a capital sigma at the end of a word becomes a final sigma.
-/

namespace Flatfile.Text

/-- Look up the form of a character: first among the forms of several characters, then among the
shifted ones; a character in neither table is its own form. -/
def caseForm (expansions : List (Nat × List Nat)) (shifts : List CaseShift) (c : Char) :
    List Char :=
  match expansions.lookup c.toNat with
  | some form => form.map Char.ofNat
  | none => [(shifts.findSome? (·.image? c.toNat)).elim c Char.ofNat]

def lowerChar (c : Char) : List Char :=
  if c.toNat < 0x80 then [c.toLower] else caseForm lowerExpansions lowerShifts c

def upperChar (c : Char) : List Char :=
  if c.toNat < 0x80 then [c.toUpper] else caseForm upperExpansions upperShifts c

def nextIsCased (cs : List Char) : Bool :=
  match cs.dropWhile (inRanges caseIgnorableRanges) with
  | [] => false
  | c :: _ => inRanges casedRanges c

/-- Lower-case form of `cs`, where `before` holds the characters already passed, last one first. -/
def lowerFrom (before : List Char) : List Char → List Char
  | [] => []
  | c :: rest =>
    let form :=
      if c = 'Σ' then (if nextIsCased before && !nextIsCased rest then ['ς'] else ['σ'])
      else lowerChar c
    form ++ lowerFrom (c :: before) rest

def lower (s : String) : String :=
  String.ofList (lowerFrom [] s.toList)

def upper (s : String) : String :=
  String.ofList (s.toList.flatMap upperChar)

end Flatfile.Text
