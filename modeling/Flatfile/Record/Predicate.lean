import Flatfile.Record.Basic
import Flatfile.Text.Quoted

/-!
# Conditions on records

A predicate holds of a record whose field has a value with one of the listed texts. A record is of
a type when all predicates of the type hold.
-/

namespace Flatfile

structure Predicate where
  field : String
  values : List String
  deriving DecidableEq, Repr

namespace Predicate

/-- A field that is missing or null satisfies no predicate. -/
def holds (p : Predicate) (r : Record) : Bool :=
  match r.get? p.field with
  | some value => !value.isNull && p.values.contains value.toText
  | none => false

def allHold (ps : List Predicate) (r : Record) : Bool :=
  ps.all (·.holds r)

def shown (p : Predicate) : String :=
  p.field ++ " = " ++ ", ".intercalate (p.values.map Text.quoted)

end Predicate
end Flatfile
