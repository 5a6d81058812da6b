import Flatfile.Text.Name

/-!
# File types

What a layout describes: records of fixed length, records of delimited columns, or one of the two
structured formats that have a layout but no record engine.
-/

namespace Flatfile

inductive FileType where
  | fixed
  | delimited
  | json
  | xml
  deriving DecidableEq, Repr

namespace FileType

def ofName? (name : String) : Option FileType :=
  match Text.nameKey name with
  | "fixed" => some fixed
  | "variable" => some delimited
  | "json" => some json
  | "xml" => some xml
  | _ => none

def name : FileType → String
  | fixed => "Fixed"
  | delimited => "Variable"
  | json => "JSON"
  | xml => "XML"

end FileType
end Flatfile
