import Flatfile.Error.Format
import Flatfile.Text.Natural
import Flatfile.Text.Search

/-!
# Reports

What a tool prints, and how it ends.
-/

namespace Flatfile.Tool

inductive ToolError where
  | usage (text : String)
  | badNumber (fault : Text.Natural.Fault)
  | input (fault : IoFault)
  | format (error : FormatError)
  deriving DecidableEq

namespace ToolError

def message : ToolError → String
  | usage text => text
  | badNumber fault => fault.message
  | input fault => fault.message
  | format error => error.message

def reason? : ToolError → Option String
  | format error => error.reason?
  | _ => none

def shown (e : ToolError) : String :=
  let reason := match e.reason? with
    | some reason => "\n\nCaused by:\n    " ++ Text.replace reason "\n" "\n    "
    | none => ""
  "Error: " ++ e.message ++ reason

def isMalformedConfig : ToolError → Bool
  | format (.config fault) => fault.isMalformed
  | _ => false

end ToolError

structure Report where
  lines : List String := []
  errorLines : List String := []
  failed : Bool := false
  error : Option ToolError := none

namespace Report

def ofError (e : ToolError) : Report :=
  { error := some e }

def append (a b : Report) : Report :=
  { lines := a.lines ++ b.lines
    errorLines := a.errorLines ++ b.errorLines
    failed := a.failed || b.failed
    error := a.error.or b.error }

instance : Append Report := ⟨append⟩

def text (lines : List String) : String :=
  String.join (lines.map (· ++ "\n"))

def output (r : Report) : String :=
  text r.lines

def errorOutput (r : Report) : String :=
  text (r.errorLines ++ (r.error.map ToolError.shown).toList)

def status (r : Report) : Nat :=
  if r.failed || r.error.isSome then 1 else 0

end Report

def takeFlag (names : List String) : List String → Bool × List String
  | [] => (false, [])
  | arg :: rest =>
    if names.contains arg then (true, rest)
    else
      let (found, rest) := takeFlag names rest
      (found, arg :: rest)

end Flatfile.Tool
