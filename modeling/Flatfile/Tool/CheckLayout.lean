import Flatfile.Schema.File
import Flatfile.Tool.Report

/-!
# Checking layouts

The tool compiles layouts and reports what is wrong with them, with the place of each error. It
also warns of record types that can never be selected.
-/

namespace Flatfile.Tool.CheckLayout

structure Options where
  human : Bool
  config : Option String
  paths : List String

def takeConfig : List String → Except ToolError (Option String × List String)
  | [] => .ok (none, [])
  | "--config" :: rest =>
    match rest with
    | [] => .error (.usage "--config needs a file argument")
    | file :: rest => .ok (some file, rest)
  | arg :: rest => (takeConfig rest).map fun (config, rest) => (config, arg :: rest)

def Options.ofArgs (args : List String) : Except ToolError Options := do
  let (human, args) := takeFlag ["--human", "-H"] args
  let (config, paths) ← takeConfig args
  .ok { human, config, paths }

def errorLines (human : Bool) (path : String) (e : SyntaxError) : List String :=
  let place := s!"{e.line.getD 0}:{e.column.getD 0}: "
  if human then
    let near := e.token.map fun token => "    near: '" ++ Text.escaped token ++ "'"
    ("  " ++ path ++ " " ++ place ++ e.cause.message) :: near.toList
  else [path ++ ":" ++ place ++ "error: " ++ e.cause.message]

/-- The record types without conditions that others stand behind: nothing is selected after
them. -/
def shadowing (s : Schema) : List RecordType :=
  if s.classifier.isSome then [] else s.recordTypes.dropLast.filter (·.predicates.isEmpty)

def warnings (path : String) (s : Schema) : List String :=
  (shadowing s).map fun t =>
    s!"{path}: warning: record type '{t.name}' has no conditions; "
      ++ "record types after it are never selected"

def summary (path : String) (s : Schema) : List String :=
  let typeLine (t : RecordType) : String :=
    "  " ++ t.describe ++ s!" ({t.fields.length} field(s), length {t.length})"
  s!"{path}: {s.fileType.name} layout, {s.recordTypes.length} record type(s)"
    :: (s.classifier.toList ++ s.recordTypes).map typeLine

structure Finding where
  report : Report
  warnings : Nat := 0

def check (ctx : LinkContext) (human : Bool) (path text : String) : Finding :=
  match Schema.compile ctx text (some path) with
  | .error e => { report := { lines := errorLines human path e, failed := true } }
  | .ok s =>
    let warned := warnings path s
    { report := { lines := warned ++ if human then summary path s else [] }
      warnings := warned.length }

def checkFile (files : Files) (ctx : LinkContext) (human : Bool) (path : String) : Finding :=
  match files.readText path with
  | .ok text => check ctx human path text
  | .error fault => { report := { errorLines := [path ++ ": " ++ fault.message], failed := true } }

def sumUp (findings : List Finding) : Report :=
  let failed := findings.countP (·.report.failed)
  let warned : Nat := findings.foldl (fun n finding => n + finding.warnings) 0
  let last := if 0 < failed ∨ 0 < warned then
    { errorLines := [s!"check: {failed} failed layout(s), {warned} warning(s)"] } else {}
  findings.foldr (fun finding report => finding.report ++ report) last

def report (files : Files) (input : List UInt8) (o : Options) : Except ToolError Report := do
  let defaults ← match o.config with
    | some path => (Defaults.ofFile files path).mapError .format
    | none => .ok {}
  let ctx : LinkContext := { defaults }
  if o.paths.isEmpty then
    match Text.Utf8.decode? input with
    | some cs => .ok (sumUp [check ctx o.human "<stdin>" (String.ofList cs)])
    | none => .error (.input .notUtf8)
  else .ok (sumUp (o.paths.map (checkFile files ctx o.human)))

def run (files : Files) (input : List UInt8) (args : List String) : Report :=
  match Options.ofArgs args >>= report files input with
  | .ok r => r
  | .error e => .ofError e

def needsInput (args : List String) : Bool :=
  match Options.ofArgs args with
  | .ok o => o.paths.isEmpty
  | .error _ => false

end Flatfile.Tool.CheckLayout
