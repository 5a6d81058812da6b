import Flatfile.Error.Format
import Flatfile.Schema.Basic

/-!
# Titles

Where a title is required, the first record of a stream is a record of the title type, and no later
one is, or looks like, one.
-/

namespace Flatfile.Delimited

def titleType (schema : Schema) (settings : Settings) : Except FormatError RecordType :=
  match schema.recordType? settings.titleType with
  | some t => .ok t
  | none => .error (.config (.missingTitleType schema.sourceName settings.titleType))

def titleType? (schema : Schema) (settings : Settings) : Except FormatError (Option RecordType) :=
  if settings.requiresTitle then (titleType schema settings).map some else .ok none

def isTitle (title t : RecordType) (r : Record) : Bool :=
  Text.sameName t.name title.name || (!title.predicates.isEmpty && title.accepts r)

def checkNotTitle (title t : RecordType) (r : Record) : Except InvalidData Unit :=
  if isTitle title t r then .error { cause := .onlyFirstIsTitle title.name } else .ok ()

end Flatfile.Delimited
