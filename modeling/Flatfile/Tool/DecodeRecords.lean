import Flatfile.Dump
import Flatfile.Formatter.Session
import Flatfile.Schema.Cache
import Flatfile.Tool.Report

/-!
# Printing records

The tool reads a data file with a layout and prints its records, and says at the end how many there
were. Records that are refused are reported and passed over.
-/

namespace Flatfile.Tool.DecodeRecords

structure Options where
  human : Bool
  limit : Option Nat
  defaults : Defaults
  layout : String
  data : String

def takeValue (name : String) : List String → Except ToolError (Option String × List String)
  | [] => .ok (none, [])
  | arg :: rest =>
    if arg = name then
      match rest with
      | [] => .error (.usage s!"{name} needs a value")
      | value :: rest => .ok (some value, rest)
    else if (name ++ "=").toList.isPrefixOf arg.toList then
      .ok (some (String.ofList (arg.toList.drop (name.length + 1))), rest)
    else (takeValue name rest).map fun (value, rest) => (value, arg :: rest)

def usage : String :=
  "usage: decode_records [--limit N] [--human] [--config FILE] LAYOUT DATA"

/-- Arguments are looked at in the order of the options, whatever order they have. -/
def Options.ofArgs (files : Files) (args : List String) : Except ToolError Options := do
  let (_, args) := takeFlag ["--verbose", "-v"] args
  let (human, args) := takeFlag ["--human", "-H"] args
  let (limit, args) ← takeValue "--limit" args
  let limit ← match limit with
    | some text => ((Text.Natural.read text.toList).mapError .badNumber).map some
    | none => .ok none
  let (config, args) ← takeValue "--config" args
  let defaults ← match config with
    | some path => (Defaults.ofFile files path).mapError .format
    | none => .ok {}
  match args with
  | layout :: data :: _ => .ok { human, limit, defaults, layout, data }
  | _ => .error (.usage usage)

structure Progress where
  lines : List String := []
  errorLines : List String := []
  decoded : Nat := 0
  rejected : Nat := 0

def Progress.report (p : Progress) : Report :=
  { lines := p.lines.reverse, errorLines := p.errorLines.reverse }

def shown (human : Bool) (s : Schema) (r : Record) : String :=
  if human then Dump.record r (r.typeName.bind s.recordType?) else Dump.summary r

def printAll (o : Options) : Nat → Formatter → Progress → Except FormatError Unit × Progress
  | 0, _, p => (.ok (), p)
  | fuel + 1, f, p =>
    if o.limit.any (· ≤ p.decoded) then (.ok (), p)
    else
      match f.read with
      | (.ok none, _) => (.ok (), p)
      | (.ok (some r), f) =>
        let line := shown o.human f.schema r
        printAll o fuel f { p with lines := line :: p.lines, decoded := p.decoded + 1 }
      | (.error (.invalidData e), f) =>
        printAll o fuel f
          { p with errorLines := e.message :: p.errorLines, rejected := p.rejected + 1 }
      | (.error e, _) => (.error e, p)

def totals (o : Options) (p : Progress) : List String := [
  "layout:   " ++ o.layout, "data:     " ++ o.data, s!"decoded:  {p.decoded}",
  s!"rejected: {p.rejected}"]

def openData (files : Files) (o : Options) : Except FormatError Formatter := do
  let (compiled, _) := ({} : SchemaCache).get files { defaults := o.defaults } o.layout
  let formatter ← Formatter.ofSchema (← compiled).schema o.defaults
  let (opened, session) := ({ formatter, store := { files } } : Session).setInputPath o.data
  opened
  session.formatter.start

/-- How often records can be read at most: every reading but the last takes something. -/
def readings (f : Formatter) : Nat :=
  (f.input.elim 0 (·.stream.size)) + 1

def run (files : Files) (args : List String) : Report :=
  match Options.ofArgs files args with
  | .error e => .ofError e
  | .ok o =>
    match openData files o with
    | .error e => .ofError (.format e)
    | .ok f =>
      let (done, p) := printAll o (readings f) f {}
      match done with
      | .ok () => { p.report with errorLines := p.report.errorLines ++ totals o p }
      | .error e => { p.report with error := some (.format e) }

end Flatfile.Tool.DecodeRecords
