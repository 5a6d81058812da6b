import Flatfile.Tool.CheckLayout
import Flatfile.Tool.DecodeRecords

/-!
# Command line

`flatfile check_layout …` checks layouts, `flatfile decode_records …` prints the records of a data
file. The files that the arguments name are read beforehand; the tools themselves see only those.
-/

namespace Flatfile.Main

def namesOf (place : Place) (parts : List String) : Place :=
  parts.foldl (fun place name =>
    if name = "" ∨ name = "." then place
    else if name = ".." then place.dropLast
    else place ++ [name]) place

def placeOf (current : Place) (path : String) : Place :=
  namesOf (if path.startsWith "/" then [] else current) (Files.parts path)

/-- The path that an argument may name: the argument itself, or what follows an equals sign. -/
def pathOf (arg : String) : String :=
  match arg.toList.dropWhile (· != '=') with
  | '=' :: rest => if arg.startsWith "--" then String.ofList rest else arg
  | _ => arg

def load (files : Files) (path : String) : IO Files := do
  let place := placeOf files.current path
  try
    let bytes ← IO.FS.readBinFile path
    return files.put place bytes.toList
  catch
    | .inappropriateType .. => return { files with directories := place :: files.directories }
    | _ => return files

def loadAll (args : List String) : IO Files := do
  let current ← IO.currentDir
  let files : Files := { current := namesOf [] (Files.parts current.toString) }
  args.foldlM (fun files arg => load files (pathOf arg)) files

def print (r : Tool.Report) : IO UInt32 := do
  IO.print r.output
  IO.eprint r.errorOutput
  return r.status.toUInt32

end Flatfile.Main

open Flatfile in
def main (args : List String) : IO UInt32 := do
  match args with
  | "check_layout" :: args =>
    let files ← Main.loadAll args
    let input ←
      if Tool.CheckLayout.needsInput args then (← IO.getStdin).readBinToEnd else pure .empty
    Main.print (Tool.CheckLayout.run files input.toList args)
  | "decode_records" :: args =>
    let files ← Main.loadAll args
    Main.print (Tool.DecodeRecords.run files args)
  | _ =>
    IO.eprintln "usage: flatfile check_layout|decode_records ARGUMENT…"
    return 1
