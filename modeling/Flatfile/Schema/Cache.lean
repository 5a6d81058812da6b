import Flatfile.Schema.File

/-!
# Schemas at hand

A cache keeps the schemas of layout files under the places of the files, whatever paths lead there.
A schema stays until it is dropped, even if its file changes. A file that does not compile leaves
an empty slot, and is tried again next time.
-/

namespace Flatfile

/-- A schema with the number of its compilation, which tells it from others. -/
structure Compiled where
  number : Nat
  schema : Schema

structure SchemaCache where
  slots : List (Place × Option Compiled) := []
  compilations : Nat := 0

namespace SchemaCache

def find? (cache : SchemaCache) (place : Place) : Option Compiled :=
  (cache.slots.lookup place).join

def putSlot (cache : SchemaCache) (place : Place) (slot : Option Compiled) : SchemaCache :=
  { cache with
    slots := (place, slot) :: cache.slots.filter fun (other, _) => other ≠ place }

def get (cache : SchemaCache) (files : Files) (ctx : LinkContext) (path : String) :
    Except FormatError Compiled × SchemaCache :=
  match files.placeOf path with
  | .error fault => (.error (.io path fault), cache)
  | .ok place =>
    match cache.find? place with
    | some compiled => (.ok compiled, cache)
    | none =>
      match Schema.ofFile files ctx (files.fullName place) with
      | .error e => (.error e, cache.putSlot place none)
      | .ok schema =>
        let compiled := { number := cache.compilations, schema }
        (.ok compiled,
          { cache.putSlot place (some compiled) with compilations := cache.compilations + 1 })

def spelledPlace? (path : String) : Option Place :=
  match path.toList with
  | '/' :: _ => some ((Files.parts path).filter fun name => name ≠ "" ∧ name ≠ ".")
  | _ => none

/-- Drop the slot of a path, if there is one. The path of a missing file is taken as it is
spelled. -/
def invalidate (cache : SchemaCache) (files : Files) (path : String) : Bool × SchemaCache :=
  match (files.placeOf path).toOption.or (spelledPlace? path) with
  | none => (false, cache)
  | some place =>
    ((cache.slots.lookup place).isSome,
      { cache with slots := cache.slots.filter fun (other, _) => other ≠ place })

def clear (cache : SchemaCache) : SchemaCache :=
  { cache with slots := [] }

def size (cache : SchemaCache) : Nat :=
  cache.slots.countP fun (_, slot) => slot.isSome

def isEmpty (cache : SchemaCache) : Bool :=
  cache.size == 0

end SchemaCache
end Flatfile
