import Flatfile.Stream.TextStream

/-!
# Blank lines

A record separator with nothing before it is a blank line.
-/

namespace Flatfile.Delimited

def skipBlanks (separator : List Char) (s : TextStream) (count : Nat) :
    Except IoFault Nat × TextStream :=
  if _hs : separator = [] then (.ok count, s)
  else
    match _h : s.tryMatch separator with
    | (.ok true, s) => skipBlanks separator s (count + 1)
    | (.ok false, s) => (.ok count, s)
    | (.error fault, s) => (.error fault, s)
termination_by s.size
decreasing_by exact TextStream.tryMatch_size_lt _hs _h

/-- Pass over blank lines, if they are to be ignored. The answer is their number, or nothing at the
end of the data. -/
def toRecord (ignoreBlanks : Bool) (separator : List Char) (s : TextStream) :
    Except IoFault (Option Nat) × TextStream :=
  match if ignoreBlanks then skipBlanks separator s 0 else (.ok 0, s) with
  | (.error fault, s) => (.error fault, s)
  | (.ok blanks, s) =>
    match s.atEnd with
    | (.error fault, s) => (.error fault, s)
    | (.ok true, s) => (.ok none, s)
    | (.ok false, s) => (.ok (some blanks), s)

end Flatfile.Delimited
