import Flatfile.Delimited.Line
import Flatfile.Delimited.Record
import Flatfile.Delimited.Title
import Flatfile.Fixed.Record
import Flatfile.Formatter.Basic
import Flatfile.Schema.Select

/-!
# Writing records

A record is encoded in full before any of it is written, so that a record that is refused leaves
nothing behind. Only records that were written are counted.
-/

namespace Flatfile.Formatter

def writeError (f : Formatter) (e : InvalidData) : FormatError :=
  .invalidData (e.inRecord (f.output.bind (·.path)) (Word32.wrap (f.records + 1)))

/-- The type that the first record is written as: the title, unless the record is told to be of
another type. -/
def titleForWrite (title : RecordType) (explicit : Option String) (r : Record) :
    Except InvalidData RecordType :=
  match explicit.or r.typeName with
  | some name =>
    if Text.sameName name title.name then .ok title
    else .error { cause := .firstMustBeTitle title.name name }
  | none => .ok title

def laterForWrite (schema : Schema) (title : RecordType) (explicit : Option String) (r : Record) :
    Except InvalidData RecordType := do
  let t ← schema.selectForWrite explicit (some title.name) r
  Delimited.checkNotTitle title t r
  .ok t

def delimitedType (f : Formatter) (explicit : Option String) (r : Record) :
    Except FormatError RecordType := do
  match ← Delimited.titleType? f.schema f.settings with
  | none => (f.schema.selectForWrite explicit none r).mapError f.writeError
  | some title =>
    let selected :=
      if f.titleWritten then laterForWrite f.schema title explicit r
      else titleForWrite title explicit r
    selected.mapError f.writeError

def encode (f : Formatter) (explicit : Option String) (r : Record) :
    Except FormatError (List UInt8) :=
  match f.engine with
  | .fixed _ separator => do
    let t ← (f.schema.selectForWrite explicit none r).mapError f.writeError
    let bytes ← (Fixed.encodeRecord f.settings t r).mapError f.writeError
    .ok (bytes ++ separator)
  | .delimited d => do
    let t ← f.delimitedType explicit r
    let columns ← (Delimited.encodeRecord f.settings t r).mapError f.writeError
    let line ← (Delimited.joinColumns d f.settings.minimalQuoting columns).mapError f.writeError
    .ok (f.settings.charset.encodeChars line)

def deliver (f : Formatter) (w : Writer) (store : Store) (bytes : List UInt8) :
    Except IoFault Unit × Writer × Store :=
  match w.write store bytes with
  | (.ok (), w, store) => if f.settings.flushPerRecord then w.flush store else (.ok (), w, store)
  | failed => failed

def emit (f : Formatter) (store : Store) (bytes : List UInt8) :
    Except FormatError Unit × Formatter × Store :=
  match f.output with
  | none => (.error (.state .noOutput), f, store)
  | some output =>
    let (done, writer, store) := f.deliver output.writer store bytes
    let f := { f with output := some { output with writer } }
    match done with
    | .error fault => (.error (.onStream output.path fault), f, store)
    | .ok () =>
      (.ok (), { f with records := Word32.wrap (f.records + 1), titleWritten := true }, store)

def write (f : Formatter) (store : Store) (explicit : Option String) (r : Record) :
    Except FormatError Unit × Formatter × Store :=
  match f.checkReady >>= fun () => f.encode explicit r with
  | .error e => (.error e, f, store)
  | .ok bytes => f.emit store bytes

def flushOutput (f : Formatter) (store : Store) : Store :=
  match f.output with
  | none => store
  | some output => (output.writer.flush store).2.2

def close (f : Formatter) (store : Store) : Formatter × Store :=
  ({ f with phase := .closed, input := none, output := none }, f.flushOutput store)

end Flatfile.Formatter
