import Flatfile.Delimited.Scan
import Flatfile.Schema.Basic
import Flatfile.Store.Writer

/-!
# Formatters

A formatter reads and writes the records of one schema. It is opened for the file type of the
schema, is given an input and an output, and has to be started before it is used; once closed it
stays closed.
-/

namespace Flatfile

inductive Engine where
  | fixed (length : Nat) (separator : List UInt8)
  | delimited (delimiters : Delimited.Delimiters)

inductive Phase where
  | unstarted
  | ready
  | closed
  deriving DecidableEq, Repr

/-- The file that an input comes from, and how far the bytes reach that its source holds. -/
structure Cursor where
  place : Place
  reach : Nat
  deriving DecidableEq, Repr

structure Input where
  stream : TextStream
  path : Option String := none
  cursor : Option Cursor := none

structure Output where
  writer : Writer
  path : Option String := none

structure Formatter where
  schema : Schema
  settings : Settings
  engine : Engine
  phase : Phase := .unstarted
  /-- Records read or written so far, as far as a word of 32 bits counts them. -/
  records : Nat := 0
  input : Option Input := none
  output : Option Output := none
  titleRead : Bool := false
  titleWritten : Bool := false

namespace Formatter

def checkFileType (schema : Schema) (wanted : FileType) : Except FormatError Unit :=
  if schema.fileType = wanted then .ok ()
  else .error (.unsupported (.wrongEngine schema.sourceName schema.fileType wanted))

def require (schema : Schema) (name : String) : Option α → Except FormatError α
  | some a => .ok a
  | none => .error (.config (.missing schema.sourceName name))

def fixed (schema : Schema) (settings : Settings) : Except FormatError Formatter := do
  checkFileType schema .fixed
  let length ← require schema Directive.recordLength settings.recordLength
  let separator := settings.recordSeparator.elim [] settings.charset.encode
  .ok { schema, settings, engine := .fixed length separator }

def delimited (schema : Schema) (settings : Settings) : Except FormatError Formatter := do
  checkFileType schema .delimited
  let field ← require schema Directive.fieldSeparator settings.fieldSeparator
  let record ← require schema Directive.recordSeparator settings.recordSeparator
  let delimiters := { field, record, quote := settings.quote, max := settings.maxRecordLength }
  .ok { schema, settings, engine := .delimited delimiters }

def ofSchema (schema : Schema) (defaults : Defaults) : Except FormatError Formatter := do
  let settings ← (schema.settingsUnder defaults).mapError .malformed
  match schema.fileType with
  | .fixed => fixed schema settings
  | .delimited => delimited schema settings
  | other => .error (.unsupported (.structured other schema.sourceName))

def start (f : Formatter) : Except FormatError Formatter :=
  if f.phase = .closed then .error (.state .closed) else .ok { f with phase := .ready }

def checkReady (f : Formatter) : Except FormatError Unit :=
  match f.phase with
  | .ready => .ok ()
  | .unstarted => .error (.state .notInitialized)
  | .closed => .error (.state .closed)

def setInput (f : Formatter) (source : Source) (path : Option String) (cursor : Option Cursor) :
    Formatter :=
  let stream := .ofSource f.settings.charset source
  { f with input := some { stream, path, cursor }, titleRead := false }

def setOutput (f : Formatter) (target : Target) (path : Option String) : Formatter :=
  { f with output := some { writer := { target }, path }, titleWritten := false }

end Formatter
end Flatfile
