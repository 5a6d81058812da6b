import Flatfile.Formatter.Read
import Flatfile.Formatter.Write

/-!
# Sessions

A formatter at work, with the files and sinks that it reads and writes. A file is read as it is
when bytes of it are asked for, so an input follows what is written to its file.
-/

namespace Flatfile

def Delivery.chunks (size : Nat) : List UInt8 → List Delivery
  | [] => []
  | first :: rest => .chunk first (rest.take size) :: chunks size (rest.drop size)
termination_by bytes => bytes.length
decreasing_by simp only [List.length_drop, List.length_cons]; omega

namespace Input

def blockSize : Nat := 8192

def undelivered (input : Input) : List UInt8 :=
  input.stream.source.deliveries.flatMap Delivery.bytes

/-- The input with the bytes that its file holds now. -/
def refresh (files : Files) (input : Input) : Input :=
  match input.cursor with
  | none => input
  | some cursor =>
    let offset := cursor.reach - input.undelivered.length
    let bytes := ((files.content? cursor.place).getD []).drop offset
    let source :=
      { input.stream.source with deliveries := Delivery.chunks (blockSize - 1) bytes }
    { input with
      stream := { input.stream with source }
      cursor := some { cursor with reach := offset + bytes.length } }

end Input

structure Session where
  formatter : Formatter
  store : Store := {}

namespace Session

def refresh (s : Session) : Session :=
  let input := s.formatter.input.map (·.refresh s.store.files)
  { s with formatter := { s.formatter with input } }

def start (s : Session) : Except FormatError Unit × Session :=
  match s.formatter.start with
  | .ok formatter => (.ok (), { s with formatter })
  | .error e => (.error e, s)

def read (s : Session) : Except FormatError (Option Record) × Session :=
  let (found, formatter) := s.formatter.read
  (found, { s with formatter })

def hasNext (s : Session) : Except FormatError Bool × Session :=
  let (found, formatter) := s.formatter.hasNext
  (found, { s with formatter })

def write (s : Session) (explicit : Option String) (r : Record) :
    Except FormatError Unit × Session :=
  let (done, formatter, store) := s.formatter.write s.store explicit r
  (done, refresh { formatter, store })

def close (s : Session) : Session :=
  let (formatter, store) := s.formatter.close s.store
  { formatter, store }

def setInput (s : Session) (source : Source) : Session :=
  { s with formatter := s.formatter.setInput source none none }

/-- Read from this file from now on. A directory can be opened, but not read. -/
def setInputPath (s : Session) (path : String) : Except FormatError Unit × Session :=
  let opened (source : Source) (cursor : Option Cursor) : Session :=
    refresh { s with formatter := s.formatter.setInput source (some path) cursor }
  match s.store.files.find path with
  | .ok (.file place) => (.ok (), opened {} (some ⟨place, 0⟩))
  | .ok (.directory _) => (.ok (), opened { fault := some .isADirectory } none)
  | .ok (.free _) => (.error (.io path .notFound), s)
  | .error fault => (.error (.io path fault), s)

/-- Write to this target from now on; what is pending goes to the old one. -/
def redirect (s : Session) (store : Store) (target : Target) (path : Option String) : Session :=
  refresh
    { formatter := s.formatter.setOutput target path, store := s.formatter.flushOutput store }

def setOutput (s : Session) (sink : Sink) : Session :=
  let (target, store) := s.store.addSink sink
  s.redirect store target none

def setOutputPath (s : Session) (path : String) : Except FormatError Unit × Session :=
  match s.store.files.create path with
  | .ok (place, files) => (.ok (), s.redirect { s.store with files } (.file place 0) (some path))
  | .error fault => (.error (.io path fault), s)

end Session
end Flatfile
