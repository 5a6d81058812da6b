/-!
# Searching text

Occurrences of one text in another, and their replacement from left to right without overlap.
-/

namespace Flatfile.Text

def occursIn (pattern : List Char) : List Char → Bool
  | [] => pattern.isEmpty
  | c :: rest => pattern.isPrefixOf (c :: rest) || occursIn pattern rest

theorem occursIn_iff {pattern cs : List Char} : occursIn pattern cs = true ↔ pattern <:+: cs := by
  induction cs with
  | nil => simp [occursIn]
  | cons c cs ih => simp [occursIn, ih, List.infix_cons_iff]

/-- Every occurrence of `pattern` replaced by `new`, from left to right; an empty pattern replaces
nothing. -/
def replaceChars (pattern new : List Char) : List Char → List Char
  | [] => []
  | c :: rest =>
    if pattern ≠ [] ∧ pattern.isPrefixOf (c :: rest) then
      new ++ replaceChars pattern new (rest.drop (pattern.length - 1))
    else c :: replaceChars pattern new rest
termination_by cs => cs.length
decreasing_by all_goals (simp only [List.length_drop, List.length_cons]; omega)

def contains (text pattern : String) : Bool :=
  occursIn pattern.toList text.toList

def replace (text pattern new : String) : String :=
  String.ofList (replaceChars pattern.toList new.toList text.toList)

end Flatfile.Text
