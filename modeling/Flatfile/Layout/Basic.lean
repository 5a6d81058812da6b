import Flatfile.Layout.Literal
import Flatfile.Text.Name

/-!
# Layouts

A layout describes the records of a file: directives for the file as a whole, then the record
types. A record type may extend an earlier one, says by conditions when a record is of its type,
and lists its fields. One record type may be the classifier, whose fields tell the types apart.
-/

namespace Flatfile

structure Directive where
  name : String
  value : Literal
  line : Nat
  column : Nat
  deriving DecidableEq

/-- How often a field occurs. Without an upper bound it is an open array. -/
structure Occurs where
  min : Nat
  max : Option Nat
  deriving DecidableEq, Repr

namespace Occurs

def once : Occurs := ⟨1, some 1⟩

def isArray (occurs : Occurs) : Bool :=
  occurs.max.all (1 < ·)

def isOptional (occurs : Occurs) : Bool :=
  occurs.min == 0

def slots (occurs : Occurs) : Nat :=
  occurs.max.getD occurs.min

end Occurs

structure CodecCall where
  name : String
  args : List Literal
  /-- Stands for a bare literal. -/
  synthetic : Bool
  line : Nat
  column : Nat
  deriving DecidableEq

structure FieldDecl where
  position : Nat
  name : String
  encoding : Option String
  isRequired : Bool
  isAttribute : Bool
  isFiller : Bool
  occurs : Occurs
  dataType : Option CodecCall
  converters : List CodecCall
  line : Nat
  column : Nat
  deriving DecidableEq

structure ConditionDecl where
  field : String
  values : List Literal
  line : Nat
  deriving DecidableEq

structure RecordDecl where
  name : String
  base : Option String
  conditions : List ConditionDecl
  fields : List FieldDecl
  line : Nat
  deriving DecidableEq

def classifierName : String := "classifier"

def RecordDecl.isClassifier (record : RecordDecl) : Bool :=
  Text.sameName record.name classifierName

structure Layout where
  source : Option String
  directives : List Directive
  recordTypes : List RecordDecl
  classifier : Option RecordDecl
  deriving DecidableEq

namespace Layout

def directive? (layout : Layout) (name : String) : Option Directive :=
  layout.directives.find? fun d => Text.sameName d.name name

def recordType? (layout : Layout) (name : String) : Option RecordDecl :=
  layout.recordTypes.find? fun r => Text.sameName r.name name

end Layout
end Flatfile
