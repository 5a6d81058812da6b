import Flatfile.Error.Format
import Flatfile.Text.Utf8

/-!
# Files

A tree of files, each under the names that lead to it from the top. A directory exists if it is
known, and as far as the current directory, a known directory or a file lies in it. A path is
walked name by name from the current directory, or from the top if it begins with a slash.

There are no symbolic links. So the names that lead to a file are the only full name it has, two
dots lead to where the name before them was looked up, and an absolute path without dots is
canonical, for a missing file as well.
-/

namespace Flatfile

abbrev Place := List String

structure Files where
  current : Place := []
  /-- Full names leave out the current directory where they lie in it. -/
  relativeNames : Bool := false
  directories : List Place := []
  contents : List (Place × List UInt8) := []

namespace Files

def content? (files : Files) (place : Place) : Option (List UInt8) :=
  files.contents.lookup place

def isFile (files : Files) (place : Place) : Bool :=
  (files.content? place).isSome

def isDirectory (files : Files) (place : Place) : Bool :=
  !files.isFile place
    && (files.current :: files.directories ++ files.contents.map Prod.fst).any place.isPrefixOf

def parts (path : String) : List String :=
  path.splitOn "/"

inductive Node where
  | file (place : Place)
  | directory (place : Place)
  | free (place : Place)
  deriving DecidableEq, Repr

/-- Go on from a directory by some names; empty names and single dots stay where they are. -/
def walk (files : Files) (place : Place) : List String → Except IoFault Node
  | [] => .ok (.directory place)
  | name :: rest =>
    if name = "" ∨ name = "." then walk files place rest
    else if name = ".." then walk files place.dropLast rest
    else
      let next := place ++ [name]
      if files.isDirectory next then walk files next rest
      else if files.isFile next then
        if rest = [] then .ok (.file next) else .error .notADirectory
      else if rest = [] then .ok (.free next)
      else .error .notFound

def find (files : Files) (path : String) : Except IoFault Node :=
  match path.toList with
  | [] => .error .notFound
  | '/' :: _ => files.walk [] (parts path)
  | _ => files.walk files.current (parts path)

def fullName (files : Files) (place : Place) : String :=
  if files.relativeNames ∧ files.current.isPrefixOf place ∧ place ≠ files.current then
    "/".intercalate (place.drop files.current.length)
  else "/" ++ "/".intercalate place

def placeOf (files : Files) (path : String) : Except IoFault Place :=
  match files.find path with
  | .ok (.file place) => .ok place
  | .ok (.directory place) => .ok place
  | .ok (.free _) => .error .notFound
  | .error fault => .error fault

def read (files : Files) (path : String) : Except IoFault (List UInt8) :=
  match files.find path with
  | .ok (.file place) =>
    match files.content? place with
    | some bytes => .ok bytes
    | none => .error .notFound
  | .ok (.directory _) => .error .isADirectory
  | .ok (.free _) => .error .notFound
  | .error fault => .error fault

def readText (files : Files) (path : String) : Except IoFault String := do
  let bytes ← files.read path
  match Text.Utf8.decode? bytes with
  | some cs => .ok (String.ofList cs)
  | none => .error .notUtf8

def put (files : Files) (place : Place) (bytes : List UInt8) : Files :=
  { files with contents := (place, bytes) :: files.contents.filter fun (other, _) => other ≠ place }

def erase (files : Files) (place : Place) : Files :=
  { files with contents := files.contents.filter fun (other, _) => other ≠ place }

/-- Write bytes into a file from an offset on. Zeros fill the room up to there. -/
def writeAt (files : Files) (place : Place) (offset : Nat) (bytes : List UInt8) : Files :=
  let old := (files.content? place).getD []
  files.put place (old.take offset ++ List.replicate (offset - old.length) 0 ++ bytes
    ++ old.drop (offset + bytes.length))

def create (files : Files) (path : String) : Except IoFault (Place × Files) :=
  match files.find path with
  | .ok (.file place) => .ok (place, files.put place [])
  | .ok (.free place) => .ok (place, files.put place [])
  | .ok (.directory _) => .error .isADirectory
  | .error fault => .error fault

end Files
end Flatfile
