import Flatfile.Text.LetterCase
import Flatfile.Value

/-!
# Records

A record is an ordered list of named values, with the name of its record type and its number in
the stream it was read from. A value may have several names; names are compared in lower case. An
index leads from the lower-case form of each name to the place of its value.
-/

namespace Flatfile

structure Entry where
  name : String
  aliases : List String := []
  value : Value
  deriving DecidableEq

def Entry.names (e : Entry) : List String :=
  e.name :: e.aliases

structure Record where
  typeName : Option String := none
  /-- Counted from one; zero for a record that was not read from a stream. -/
  sequence : Nat := 0
  entries : List Entry := []
  index : List (String × Nat) := []
  deriving DecidableEq

namespace Record

def key (name : String) : String :=
  Text.lower name

def empty : Record := {}

def ofType (name : String) : Record :=
  { typeName := some name }

def place? (r : Record) (name : String) : Option Nat :=
  r.index.lookup (key name)

def entry? (r : Record) (name : String) : Option Entry :=
  (r.place? name).bind fun i => r.entries[i]?

def get? (r : Record) (name : String) : Option Value :=
  (r.entry? name).map (·.value)

def contains (r : Record) (name : String) : Bool :=
  (r.place? name).isSome

def text? (r : Record) (name : String) : Option String :=
  (r.get? name).map Value.toText

def names? (r : Record) (name : String) : Option (List String) :=
  (r.entry? name).map Entry.names

def insert (r : Record) (name : String) (value : Value) : Record :=
  match r.place? name with
  | some i => { r with entries := r.entries.modify i fun e => { e with value } }
  | none =>
    { r with
      entries := r.entries ++ [{ name, value }]
      index := (key name, r.entries.length) :: r.index }

/-- Give a value another name. Says whether the value is known and has the name now; a name that
another value has is not taken from it. -/
def addAlias (r : Record) (name newName : String) : Bool × Record :=
  match r.place? name with
  | none => (false, r)
  | some i =>
    match r.place? newName with
    | some j => (i == j, r)
    | none =>
      (true,
        { r with
          entries := r.entries.modify i fun e => { e with aliases := e.aliases ++ [newName] }
          index := (key newName, i) :: r.index })

def dropPlace (i : Nat) (index : List (String × Nat)) : List (String × Nat) :=
  index.filterMap fun (k, j) => if j = i then none else some (k, if i < j then j - 1 else j)

def remove (r : Record) (name : String) : Option Value × Record :=
  match r.place? name with
  | none => (none, r)
  | some i =>
    (r.entries[i]?.map (·.value),
      { r with entries := r.entries.eraseIdx i, index := dropPlace i r.index })

def size (r : Record) : Nat :=
  r.entries.length

def isEmpty (r : Record) : Bool :=
  r.entries.isEmpty

def names (r : Record) : List String :=
  r.entries.map (·.name)

def toList (r : Record) : List (String × Value) :=
  r.entries.map fun e => (e.name, e.value)

def ofList (fields : List (String × Value)) : Record :=
  fields.foldl (fun r (name, value) => r.insert name value) empty

end Record
end Flatfile
