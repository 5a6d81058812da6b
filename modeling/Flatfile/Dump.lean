import Flatfile.Schema.Basic
import Flatfile.Text.Utf8

/-!
# Records for display

A record on one line, or on one line a field. Texts are shown as they are, or quoted where spaces
at an end would not be seen.
-/

namespace Flatfile

namespace Dump

def hasEdgeSpace (s : String) : Bool :=
  s.toList.head? == some ' ' || s.toList.getLast? == some ' '

def text (s : String) : String :=
  if hasEdgeSpace s then Text.quoted s else s

def value : Value → String
  | .null => "null"
  | .text s => text s
  | .decimal d => d.toText
  | .bytes bs => "hex(" ++ Text.Hex.encode bs ++ ")"
  | .array items => "[" ++ ", ".intercalate (items.map text) ++ "]"

def summary (r : Record) : String :=
  let fields := r.toList.map fun (name, v) => " " ++ name ++ "=" ++ value v
  s!"#{r.sequence} [" ++ r.typeName.getD "?" ++ "]" ++ String.join fields

def padRight (width : Nat) (s : String) : String :=
  s ++ String.ofList (List.replicate (width - s.length) ' ')

def detail (f : Field) : String :=
  let slots := if f.isArray then s!" x{f.slots}" else ""
  s!"  ({f.dataType.name} @{f.position}" ++ slots ++ ")"

/-- The record with one line a field, with details where the record type is known. The names are
filled up to the length in bytes of the longest. -/
def record (r : Record) (t : Option RecordType) : String :=
  let width := r.names.foldl (fun n name => max n (Text.Utf8.encode name).length) 0
  let line (name : String) (v : Value) : String :=
    "  " ++ padRight width name ++ " = " ++ value v ++ ((t.bind (·.field? name)).elim "" detail)
  let head := s!"record {r.sequence} [" ++ r.typeName.getD "?" ++ "]"
  "\n".intercalate (head :: r.toList.map fun (name, v) => line name v)

end Dump
end Flatfile
