import Flatfile.Delimited.Blank
import Flatfile.Delimited.Record
import Flatfile.Delimited.Title
import Flatfile.Fixed.Frame
import Flatfile.Fixed.Record
import Flatfile.Formatter.Basic
import Flatfile.Schema.Select

/-!
# Reading records

A formatter takes the data of the next record from its input, counts it, and then finds out which
type it is of. A record that is refused is counted too, and the next one is read from where it
ends.
-/

namespace Flatfile.Formatter

def withStream (f : Formatter) (input : Input) (stream : TextStream) : Formatter :=
  { f with input := some { input with stream } }

def withSource (f : Formatter) (input : Input) (source : Source) : Formatter :=
  f.withStream input { input.stream with source }

def inputPath (f : Formatter) : Option String :=
  f.input.bind (·.path)

def readError (f : Formatter) (e : InvalidData) : FormatError :=
  .ofRecord f.inputPath f.records e

def rawError (f : Formatter) : RawError → FormatError
  | .io fault => .onStream f.inputPath fault
  | .data cause => .invalidData (InvalidData.inRecord f.inputPath f.records { cause })

def selectBytes (f : Formatter) (bytes : List UInt8) : Except FormatError (RecordType × Record) :=
  let decode (t : RecordType) := Fixed.decodeRecord f.settings t bytes
  (f.schema.selectForRead none decode decode).mapError f.readError

def titleOfColumns (f : Formatter) (columns : List String) :
    Except FormatError (RecordType × Record) := do
  let title ← Delimited.titleType f.schema f.settings
  let r ← (Delimited.decodeRecord f.settings title columns).mapError f.readError
  .ok (title, r)

def selectColumns (f : Formatter) (first : Bool) (columns : List String) :
    Except FormatError (RecordType × Record) := do
  if f.settings.requiresTitle ∧ first then f.titleOfColumns columns
  else
    let title ← Delimited.titleType? f.schema f.settings
    let selected := f.schema.selectForRead (title.map (·.name))
      (Delimited.decodeLoosely f.settings · columns) (Delimited.decodeRecord f.settings · columns)
    let (t, r) ← selected.mapError f.readError
    match title with
    | some title => (Delimited.checkNotTitle title t r).mapError f.readError
    | none => .ok ()
    .ok (t, r)

def finish (f : Formatter) (select : α → Except FormatError (RecordType × Record)) :
    Except RawError α → Except FormatError (Option Record)
  | .error e => .error (f.rawError e)
  | .ok raw => do
    let (_, r) ← select raw
    .ok (some { r with sequence := f.records })

def readFixed (f : Formatter) (input : Input) (length : Nat) (separator : List UInt8) :
    Except FormatError (Option Record) × Formatter :=
  match Fixed.readRaw length separator input.stream.source with
  | (.error fault, source) => (.error (.onStream input.path fault), f.withSource input source)
  | (.ok none, source) => (.ok none, f.withSource input source)
  | (.ok (some raw), source) =>
    let f := { f.withSource input source with records := Word32.wrap (f.records + 1) }
    (f.finish f.selectBytes raw, f)

/-- Read a delimited record. Blank lines before it are counted as records. -/
def readDelimited (f : Formatter) (input : Input) (d : Delimited.Delimiters) :
    Except FormatError (Option Record) × Formatter :=
  match Delimited.toRecord f.settings.ignoreBlankLines d.record.toList input.stream with
  | (.error fault, stream) => (.error (.onStream input.path fault), f.withStream input stream)
  | (.ok none, stream) => (.ok none, f.withStream input stream)
  | (.ok (some blanks), stream) =>
    let (raw, stream) := Delimited.scanRecord d stream
    let first := !f.titleRead
    let records := Word32.wrap (f.records + (blanks + 1))
    let f := { f.withStream input stream with records, titleRead := true }
    (f.finish (f.selectColumns first) raw, f)

def withInput (f : Formatter) (action : Input → Except FormatError α × Formatter) :
    Except FormatError α × Formatter :=
  match f.checkReady with
  | .error e => (.error e, f)
  | .ok () =>
    match f.input with
    | none => (.error (.state .noInput), f)
    | some input => action input

def read (f : Formatter) : Except FormatError (Option Record) × Formatter :=
  f.withInput fun input =>
    match f.engine with
    | .fixed length separator => f.readFixed input length separator
    | .delimited d => f.readDelimited input d

def hasNext (f : Formatter) : Except FormatError Bool × Formatter :=
  f.withInput fun input =>
    match f.engine with
    | .fixed _ _ =>
      let (found, source) := input.stream.source.hasMore
      (found.mapError (.onStream input.path), f.withSource input source)
    | .delimited d =>
      match Delimited.toRecord f.settings.ignoreBlankLines d.record.toList input.stream.mark with
      | (.error fault, stream) => (.error (.onStream input.path fault), f.withStream input stream)
      | (.ok found, stream) => (.ok found.isSome, f.withStream input stream.reset)

end Flatfile.Formatter
